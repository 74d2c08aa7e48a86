import Mathlib.Algebra.Group.Nat.Defs
import Sidebar.Outline
import Sidebar.Proofs.WellNumbered

namespace Sidebar

section Numbered

variable {α : Type} {xs : List α} {n : UInt32} {x y : α}

theorem mem_numbered : (n, x) ∈ numbered xs ↔ ∃ i, xs[i]? = some x ∧ UInt32.ofNat (i + 1) = n := by
  simp only [numbered, List.mem_map, Prod.exists, List.mk_mem_zipIdx_iff_getElem?, Prod.mk.injEq]
  constructor
  · rintro ⟨x, i, hi, hn, rfl⟩
    exact ⟨i, hi, hn⟩
  · rintro ⟨i, hi, hn⟩
    exact ⟨x, i, hi, hn, rfl⟩

theorem map_snd_numbered (xs : List α) : (numbered xs).map Prod.snd = xs := by
  rw [numbered, List.map_map]
  exact List.zipIdx_map_fst 0 xs

theorem map_fst_numbered (h : xs.length < UInt32.size) :
    (numbered xs).map Prod.fst = upTo (.ofNat xs.length) := by
  rw [numbered, List.map_map, upTo, UInt32.toNat_ofNat_of_lt' h, List.range'_succ_left (s := 0),
    ← List.zipIdx_map_snd, List.map_map, List.map_map]
  rfl

theorem exists_mem_numbered : (∃ n, (n, x) ∈ numbered xs) ↔ x ∈ xs := by
  conv_rhs => rw [← map_snd_numbered xs]
  simp

theorem forall_mem_numbered {P : α → Prop} : (∀ p ∈ numbered xs, P p.2) ↔ ∀ x ∈ xs, P x := by
  conv_rhs => rw [← map_snd_numbered xs]
  exact List.forall_mem_map.symm

theorem pairwise_lt_numbered (h : xs.length < UInt32.size) :
    (numbered xs).Pairwise fun p q => p.1 < q.1 := by
  have hlt := pairwise_upTo (.ofNat xs.length)
  rw [← map_fst_numbered h, List.pairwise_map] at hlt
  exact hlt

theorem pairwise_numbered (h : xs.length < UInt32.size) :
    (numbered xs).Pairwise fun p q => p.1 ≠ q.1 :=
  (pairwise_lt_numbered h).imp UInt32.ne_of_lt

theorem mem_upTo_iff_mem_numbered (h : xs.length < UInt32.size) :
    n ∈ upTo (.ofNat xs.length) ↔ ∃ x, (n, x) ∈ numbered xs := by
  rw [← map_fst_numbered h]
  simp

theorem map_fst_numbered_map {f : UInt32 → α} (h : ∀ n x, (n, x) ∈ numbered xs → f n = x) :
    ((numbered xs).map Prod.fst).map f = xs := by
  rw [List.map_map]
  conv_rhs => rw [← map_snd_numbered xs]
  apply List.map_congr_left
  rintro ⟨n, x⟩ hx
  exact h n x hx

theorem eq_of_mem_numbered (h : xs.length < UInt32.size) (hx : (n, x) ∈ numbered xs)
    (hy : (n, y) ∈ numbered xs) : x = y := by
  have hnodup : ((numbered xs).map Prod.fst).Nodup := List.pairwise_map.2 (pairwise_numbered h)
  exact (Prod.mk.inj (List.inj_on_of_nodup_map hnodup hx hy rfl)).2

theorem mem_tail_iff (h : xs.length < UInt32.size) :
    x ∈ xs.tail ↔ ∃ n, (n, x) ∈ numbered xs ∧ n ≠ 1 := by
  rw [List.mem_iff_getElem?]
  simp only [mem_numbered, List.getElem?_tail]
  constructor
  · rintro ⟨i, hi⟩
    refine ⟨_, ⟨i + 1, hi, rfl⟩, ?_⟩
    obtain ⟨hlt, -⟩ := List.getElem?_eq_some_iff.1 hi
    rw [ne_eq, ← UInt32.toNat_inj, UInt32.toNat_ofNat_of_lt' (by omega)]
    simp
  · rintro ⟨_, ⟨i, hi, rfl⟩, hne⟩
    cases i with
    | zero => exact absurd rfl hne
    | succ i => exact ⟨i, hi⟩

end Numbered

namespace Outline

variable {o : Outline} {k : Category} {a : Address} {label : Option String} {e : Element}

/-- Whether there are numbers for all classes and for the members of each. -/
structure Numberable (o : Outline) : Prop where
  classes : o.classes.length < 2 ^ 32 - 1
  members : ∀ c ∈ o.classes, c.members.length < 2 ^ 32 - 1

/-- What an outline puts on its page: under which category, for which address and with which label.
-/
inductive Puts (o : Outline) : Category → Address → Option String → Prop
  | classEntry {n c} (hc : (n, c) ∈ numbered o.classes) :
    Puts o .classEntry ⟨.nav, .classId n⟩ (some c.name)
  | listTitle {n c} (hc : (n, c) ∈ numbered o.classes) :
    Puts o .listTitle ⟨.title, .classId n⟩ (some c.name)
  | memberList {n c} (hc : (n, c) ∈ numbered o.classes) :
    Puts o .memberList ⟨.list, .classId n⟩ none
  | memberEntry {n c i m k} (hc : (n, c) ∈ numbered o.classes) (hm : (i, m) ∈ numbered c.members)
    (hk : m.kind.category = k) : Puts o k ⟨.nav, .memberId ⟨n, i⟩⟩ (some m.name)
  | classPanel {n c} (hc : (n, c) ∈ numbered o.classes) :
    Puts o .classPanel ⟨.description, .classId n⟩ c.description
  | memberPanel {n c i m} (hc : (n, c) ∈ numbered o.classes) (hm : (i, m) ∈ numbered c.members) :
    Puts o .memberPanel ⟨.description, .memberId ⟨n, i⟩⟩ m.description

theorem mem_elements :
    e ∈ o.elements ↔ ∃ k a label, o.Puts k a label ∧ e = ⟨a.text, k, label, {}⟩ := by
  simp only [elements, List.mem_append, List.mem_flatMap, Prod.exists, DocumentedClass.sidebar,
    DocumentedClass.panels, List.mem_cons, List.mem_map, List.not_mem_nil, or_false]
  constructor
  · rintro (⟨n, c, hc, (rfl | rfl | rfl) | ⟨i, m, hm, rfl⟩⟩ | ⟨n, c, hc, rfl | ⟨i, m, hm, rfl⟩⟩)
    · exact ⟨_, _, _, .classEntry hc, rfl⟩
    · exact ⟨_, _, _, .listTitle hc, rfl⟩
    · exact ⟨_, _, _, .memberList hc, rfl⟩
    · exact ⟨_, _, _, .memberEntry hc hm rfl, rfl⟩
    · exact ⟨_, _, _, .classPanel hc, rfl⟩
    · exact ⟨_, _, _, .memberPanel hc hm, rfl⟩
  · rintro ⟨k, a, label, h, rfl⟩
    cases h with
    | @classEntry n c hc => exact .inl ⟨n, c, hc, .inl (.inl rfl)⟩
    | @listTitle n c hc => exact .inl ⟨n, c, hc, .inl (.inr (.inl rfl))⟩
    | @memberList n c hc => exact .inl ⟨n, c, hc, .inl (.inr (.inr rfl))⟩
    | @memberEntry n c i m _ hc hm hk =>
      subst hk
      exact .inl ⟨n, c, hc, .inr ⟨i, m, hm, rfl⟩⟩
    | @classPanel n c hc => exact .inr ⟨n, c, hc, .inl rfl⟩
    | @memberPanel n c i m hc hm => exact .inr ⟨n, c, hc, .inr ⟨i, m, hm, rfl⟩⟩

theorem Puts.admits (h : o.Puts k a label) : k.admits a = true := by
  cases h with
  | @memberEntry n c i m _ hc hm hk =>
    subst hk
    cases m.kind <;> rfl
  | classEntry hc | listTitle hc | memberList hc | classPanel hc | memberPanel hc hm => rfl

theorem toList_elements_document (o : Outline) : o.document.elements.toList = o.elements :=
  Document.toList_ofElements _

theorem wellNamed_document (o : Outline) : o.document.WellNamed := by
  intro e he
  rw [← Array.mem_toList_iff, toList_elements_document, mem_elements] at he
  obtain ⟨k, a, label, h, rfl⟩ := he
  rw [Element.isWellNamed, Element.address?_eq_some_iff.2 rfl]
  exact h.admits

theorem has_document : o.document.Has k a.text ↔ ∃ label, o.Puts k a label := by
  simp only [Document.Has, ← Array.mem_toList_iff, toList_elements_document, mem_elements]
  constructor
  · rintro ⟨_, ⟨k, a', label, h, rfl⟩, rfl, hid⟩
    cases Address.text_inj.1 hid
    exact ⟨label, h⟩
  · rintro ⟨label, h⟩
    exact ⟨_, ⟨k, a, label, h, rfl⟩, rfl, rfl⟩

theorem contains_document (h : o.Puts k a label) : o.document.contains a.text = true :=
  Document.contains_iff_has.2 ⟨k, has_document.2 ⟨label, h⟩⟩

theorem mem_members_document {m : MemberId} :
    m ∈ o.document.members ↔
      ∃ c x, (m.owner, c) ∈ numbered o.classes ∧ (m.index, x) ∈ numbered c.members := by
  rw [Document.mem_members, has_document, has_document]
  constructor
  · rintro (⟨label, hput⟩ | ⟨label, hput⟩)
    all_goals
      cases hput with
      | memberEntry hc hm _ => exact ⟨_, _, hc, hm⟩
  · rintro ⟨c, x, hc, hm⟩
    cases hk : x.kind with
    | constructor => exact .inl ⟨_, .memberEntry hc hm (by rw [hk]; rfl)⟩
    | method => exact .inr ⟨_, .memberEntry hc hm (by rw [hk]; rfl)⟩

end Outline

namespace Element

variable {e e' : Element}

/-- The class that an element belongs to, and whether it is one of the panels. -/
def part? (e : Element) : Option (UInt32 × Bool) :=
  e.address?.map fun a => (a.target.owner, a.role = .description)

theorem part?_eq_some {part : UInt32 × Bool}
    (h : ∃ a, e.id = Address.text a ∧ (a.target.owner, decide (a.role = .description)) = part) :
    e.part? = some part := by
  obtain ⟨a, hid, rfl⟩ := h
  rw [part?, address?_eq_some_iff.2 hid, Option.map_some]

theorem id_ne_of_part?_ne (h : e.part? ≠ e'.part?) : e.id ≠ e'.id := by
  intro hid
  apply h
  rw [part?, part?, address?, address?, hid]

end Element

namespace DocumentedClass

variable {c : DocumentedClass} {n : UInt32} {e : Element}

theorem part?_of_mem_sidebar (h : e ∈ c.sidebar n) : e.part? = some (n, false) := by
  simp only [sidebar, List.mem_append, List.mem_cons, List.mem_map, List.not_mem_nil, or_false]
    at h
  rcases h with (rfl | rfl | rfl) | ⟨p, -, rfl⟩
  all_goals exact Element.part?_eq_some ⟨_, rfl, rfl⟩

theorem part?_of_mem_panels (h : e ∈ c.panels n) : e.part? = some (n, true) := by
  simp only [panels, List.mem_cons, List.mem_map] at h
  rcases h with rfl | ⟨p, -, rfl⟩
  all_goals exact Element.part?_eq_some ⟨_, rfl, rfl⟩

theorem pairwise_sidebar (h : c.members.length < UInt32.size) :
    (c.sidebar n).Pairwise fun e e' => e.id ≠ e'.id := by
  simp only [sidebar, List.pairwise_append, List.pairwise_map]
  refine ⟨by simp [NavId.nav], (pairwise_numbered h).imp ?_, ?_⟩
  · simp [NavId.nav]
  · simp only [List.mem_cons, List.mem_map, List.not_mem_nil, or_false]
    rintro e (rfl | rfl | rfl) e' ⟨p, -, rfl⟩ hid
    all_goals cases Address.text_inj.1 hid

theorem pairwise_panels (h : c.members.length < UInt32.size) :
    (c.panels n).Pairwise fun e e' => e.id ≠ e'.id := by
  simp only [panels, List.pairwise_cons, List.pairwise_map]
  refine ⟨?_, (pairwise_numbered h).imp ?_⟩
  · simp only [List.mem_map]
    rintro e ⟨p, -, rfl⟩ hid
    cases Address.text_inj.1 hid
  · simp [NavId.description]

end DocumentedClass

namespace Outline

namespace Numberable

variable {o : Outline} {n : UInt32} {c : DocumentedClass}

theorem length_classes_lt (h : o.Numberable) : o.classes.length < UInt32.size :=
  Nat.lt_of_lt_of_le h.classes (by decide)

theorem length_members_lt (h : o.Numberable) (hc : (n, c) ∈ numbered o.classes) :
    c.members.length < UInt32.size :=
  Nat.lt_of_lt_of_le (h.members c (exists_mem_numbered.1 ⟨n, hc⟩)) (by decide)

theorem distinctIds (h : o.Numberable) : o.document.DistinctIds := by
  have hclasses := pairwise_numbered h.length_classes_lt
  rw [Document.DistinctIds, toList_elements_document, List.Nodup, List.pairwise_map, elements,
    List.pairwise_append, List.pairwise_flatMap, List.pairwise_flatMap]
  refine ⟨⟨?_, hclasses.imp ?_⟩, ⟨?_, hclasses.imp ?_⟩, ?_⟩
  · rintro ⟨n, c⟩ hc
    exact c.pairwise_sidebar (h.length_members_lt hc)
  · intro p q hpq e he e' he'
    apply Element.id_ne_of_part?_ne
    rw [p.2.part?_of_mem_sidebar he, q.2.part?_of_mem_sidebar he']
    simpa using hpq
  · rintro ⟨n, c⟩ hc
    exact c.pairwise_panels (h.length_members_lt hc)
  · intro p q hpq e he e' he'
    apply Element.id_ne_of_part?_ne
    rw [p.2.part?_of_mem_panels he, q.2.part?_of_mem_panels he']
    simpa using hpq
  · intro e he e' he'
    obtain ⟨p, -, he⟩ := List.mem_flatMap.1 he
    obtain ⟨q, -, he'⟩ := List.mem_flatMap.1 he'
    apply Element.id_ne_of_part?_ne
    rw [p.2.part?_of_mem_sidebar he, q.2.part?_of_mem_panels he']
    simp

theorem classIds_document (h : o.Numberable) :
    o.document.classIds = (numbered o.classes).map Prod.fst := by
  rw [map_fst_numbered h.length_classes_lt]
  refine o.document.pairwise_classIds.eq_of_mem_iff (pairwise_upTo _) ?_
  intro n
  rw [← map_fst_numbered h.length_classes_lt, Document.mem_classIds, has_document, List.mem_map]
  constructor
  · rintro ⟨label, hput⟩
    cases hput with
    | classEntry hc => exact ⟨_, hc, rfl⟩
  · rintro ⟨⟨n, c⟩, hc, rfl⟩
    exact ⟨_, .classEntry hc⟩

theorem indicesOf_document (h : o.Numberable) (hc : (n, c) ∈ numbered o.classes) :
    o.document.indicesOf n = (numbered c.members).map Prod.fst := by
  have hlength := h.length_members_lt hc
  rw [map_fst_numbered hlength]
  refine (o.document.pairwise_indicesOf n).eq_of_mem_iff (pairwise_upTo _) ?_
  intro i
  rw [← map_fst_numbered hlength, Document.mem_indicesOf, mem_members_document, List.mem_map]
  constructor
  · rintro ⟨c', m, hc', hm⟩
    cases eq_of_mem_numbered h.length_classes_lt hc hc'
    exact ⟨_, hm, rfl⟩
  · rintro ⟨⟨i, m⟩, hm, rfl⟩
    exact ⟨c, m, hc, hm⟩

end Numberable

end Outline

end Sidebar
