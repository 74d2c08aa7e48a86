import Mathlib.Data.List.Count
import Sidebar.Proofs.OutlineCheck
import Sidebar.Proofs.Reordering

namespace Sidebar

theorem count_flatMap_of_ite {α β : Type} [BEq β] {f : α → List β} {p : α → Bool} {b : β}
    (hf : ∀ a, (f a).count b = if p a then 1 else 0) (as : List α) :
    (as.flatMap f).count b = as.countP p := by
  induction as with
  | nil => rfl
  | cons a as ih =>
    rw [List.flatMap_cons, List.count_append, hf, ih, List.countP_cons, Nat.add_comm]

/-- Rows that tell where they come from make a list without repetitions. -/
theorem nodup_flatMap_of_key {α β γ : Type} {f : α → List β} (place : α → γ) (key : β → Option γ)
    {as : List α} (has : (as.map place).Nodup) (hrow : ∀ a ∈ as, (f a).Nodup)
    (hkey : ∀ a ∈ as, ∀ b ∈ f a, key b = some (place a)) : (as.flatMap f).Nodup := by
  refine List.nodup_flatMap.2 ⟨hrow, ?_⟩
  refine (List.pairwise_map.1 has).imp_of_mem ?_
  intro a a' ha ha' hne b hb hb'
  exact hne (Option.some.inj ((hkey a ha b hb).symm.trans (hkey a' ha' b hb')))

theorem countP_zipIdx_of_notMem {α : Type} [DecidableEq α] {as : List α} {a : α} (ha : a ∉ as)
    (p : Nat → Bool) : (as.zipIdx.countP fun (b, place) => b = a ∧ p place) = 0 := by
  rw [List.countP_eq_zero]
  rintro ⟨b, place⟩ hb
  have hne : b ≠ a := by
    rintro rfl
    exact ha (List.fst_mem_of_mem_zipIdx hb)
  simp [hne]

theorem countP_zipIdx_ne {α : Type} [DecidableEq α] (as : List α) (a : α) {first offset : Nat}
    (h : first < offset) :
    ((as.zipIdx offset).countP fun (b, place) => b = a ∧ first ≠ place) = as.count a := by
  induction as generalizing offset with
  | nil => rfl
  | cons b as ih =>
    have hne : first ≠ offset := Nat.ne_of_lt h
    rw [List.zipIdx_cons, List.countP_cons, ih (Nat.lt_succ_of_lt h), List.count_cons]
    simp [hne]

/-- All occurrences of an element but its first are at another place than that. -/
theorem countP_zipIdx_repeated {α : Type} [DecidableEq α] (as : List α) (a : α) :
    (as.zipIdx.countP fun (b, place) => b = a ∧ as.idxOf? a ≠ some place) = as.count a - 1 := by
  by_cases ha : a ∈ as
  · obtain ⟨before, after, rfl, hbefore⟩ := List.eq_append_cons_of_mem ha
    have hfirst : (before ++ a :: after).idxOf? a = some before.length := by
      refine List.idxOf?_eq_some_iff.2 ⟨by simp, by simp, ?_⟩
      intro place hplace he
      rw [List.getElem_append_left hplace] at he
      exact hbefore (he ▸ List.getElem_mem hplace)
    have hnone := countP_zipIdx_of_notMem hbefore fun place => before.length ≠ place
    have hcount : before.count a = 0 := List.count_eq_zero.2 hbefore
    simp only [hfirst, ne_eq, Option.some.injEq, decide_eq_true_eq] at hnone ⊢
    rw [List.zipIdx_append, List.countP_append, hnone, List.zipIdx_cons, List.countP_cons,
      countP_zipIdx_ne after a (by omega), List.count_append, List.count_cons, hcount]
    simp
  · have hnone := countP_zipIdx_of_notMem ha fun place => as.idxOf? a ≠ some place
    simp only [decide_eq_true_eq] at hnone
    rw [hnone, List.count_eq_zero.2 ha]

theorem nodup_gaps (numbers : List UInt32) : (gaps numbers).Nodup := by
  rw [gaps]
  split
  next => exact List.nodup_nil
  next last _ =>
    have hle : last.toNat - 1 < UInt32.size :=
      Nat.lt_of_le_of_lt (Nat.sub_le _ 1) last.toNat_lt_size
    have hupTo : (List.range' 1 (last.toNat - 1)).map UInt32.ofNat =
        upTo (UInt32.ofNat (last.toNat - 1)) := by
      rw [upTo, UInt32.toNat_ofNat_of_lt' hle]
    rw [hupTo]
    exact ((pairwise_upTo _).imp UInt32.ne_of_lt).filter _

/-- Where an issue comes from that is about a listed class, or about the members of a class. -/
inductive Issue.Origin where
  | listed (c : UInt32)
  | members (c : UInt32)

def Issue.origin? : Issue → Option Origin
  | emptyClass c | missingMember ⟨c, _⟩ | missingPanel ⟨_, .classId c⟩ _ => some (.listed c)
  | orphanMembers c | missingPanel ⟨_, .memberId ⟨c, _⟩⟩ _ => some (.members c)
  | _ => none

/-- The member whose panel an issue misses. -/
def Issue.member? : Issue → Option MemberId
  | missingPanel ⟨_, .memberId m⟩ _ => some m
  | _ => none

namespace Document

variable {d d' : Document} {x : Issue} {c : UInt32} {xs : List UInt32}

/-- The classes that members are listed for. -/
def memberClasses (d : Document) : List UInt32 := d.membersByClass.map Prod.fst

/-- Whether an entry in the sidebar should have a panel. -/
def Requires (d : Document) (entry panel : Address) : Prop :=
  (∃ c ∈ d.classIds, entry = (NavId.classId c).nav ∧
    (panel = ⟨.list, .classId c⟩ ∨ panel = ⟨.description, .classId c⟩)) ∨
  ∃ m ∈ d.members, entry = (NavId.memberId m).nav ∧ panel = ⟨.description, .memberId m⟩

/-- Whether the numbering or the panels of the page have the fault that an issue names. -/
def HasFault (d : Document) : Issue → Prop
  | .noInitialClass => d.classIds ≠ [] ∧ 1 ∉ d.classIds
  | .missingClass c => 1 ≤ c ∧ (∃ k ∈ d.classIds, c < k) ∧ c ∉ d.classIds
  | .emptyClass c => c ∈ d.classIds ∧ c ∉ d.memberClasses
  | .orphanMembers c => c ∈ d.memberClasses ∧ c ∉ d.classIds
  | .missingMember m =>
    m.owner ∈ d.classIds ∧ 1 ≤ m.index ∧ (∃ k ∈ d.indicesOf m.owner, m.index < k) ∧
      m.index ∉ d.indicesOf m.owner
  | .missingPanel entry panel => d.Requires entry panel ∧ d.contains panel.text = false
  | .duplicateId _ | .unexpectedId _ _ | .misplacedConstructor _ => False

instance (d : Document) (entry panel : Address) : Decidable (d.Requires entry panel) :=
  inferInstanceAs (Decidable (_ ∨ _))

instance (d : Document) : (x : Issue) → Decidable (d.HasFault x)
  | .noInitialClass | .emptyClass _ | .orphanMembers _ | .missingPanel _ _ =>
    inferInstanceAs (Decidable (_ ∧ _))
  | .missingClass _ => inferInstanceAs (Decidable (_ ∧ _ ∧ _))
  | .missingMember _ => inferInstanceAs (Decidable (_ ∧ _ ∧ _ ∧ _))
  | .duplicateId _ | .unexpectedId _ _ | .misplacedConstructor _ =>
    inferInstanceAs (Decidable False)

/-- How often the page has the fault that an issue names. -/
def occurrences (d : Document) : Issue → Nat
  | .duplicateId id => (d.marks.map Prod.fst).count id - 1
  | .unexpectedId id k => if (Address.parse? id).any k.admits then 0 else d.marks.count (id, k)
  | .misplacedConstructor m =>
    if m.index = 1 then 0 else d.marks.count ((NavId.memberId m).nav.text, .constructorEntry)
  | x => if d.HasFault x then 1 else 0

theorem count_duplicateId (d : Document) (id : String) :
    d.idIssues.count (.duplicateId id) = (d.marks.map Prod.fst).count id - 1 := by
  have hids : d.marks.map Prod.fst = d.elements.toList.map Element.id := by
    rw [marks, List.map_map]
    rfl
  rw [hids, ← countP_zipIdx_repeated, List.zipIdx_map, List.countP_map]
  apply count_flatMap_of_ite
  rintro ⟨e, place⟩
  simp only [d.firstPlace_eq, Function.comp_apply, Prod.map_apply, decide_eq_true_eq]
  by_cases he : e.id = id
  · subst he
    split <;> split <;> simp_all
  · split <;> split <;> simp [he]

theorem isWellNamed_of_mark {e : Element} {id : String} {k : Category} (h : e.mark = (id, k)) :
    e.isWellNamed = (Address.parse? id).any k.admits := by
  obtain ⟨rfl, rfl⟩ := Prod.mk.inj h
  rfl

theorem count_unexpectedId (d : Document) (id : String) (k : Category) :
    d.idIssues.count (.unexpectedId id k) =
      if (Address.parse? id).any k.admits then 0 else d.marks.count (id, k) := by
  have hcount : d.idIssues.count (.unexpectedId id k) =
      d.elements.toList.countP fun e => e.mark = (id, k) ∧ e.isWellNamed = false := by
    rw [← List.zipIdx_map_fst 0 d.elements.toList, List.countP_map]
    apply count_flatMap_of_ite
    rintro ⟨e, place⟩
    dsimp only
    split <;> split <;> simp_all [Element.mark, List.count_singleton]
  rw [hcount, marks, List.count_eq_countP, List.countP_map]
  split
  next hadmits =>
    rw [List.countP_eq_zero]
    intro e _ he
    obtain ⟨hmark, hnamed⟩ := of_decide_eq_true he
    rw [isWellNamed_of_mark hmark, hadmits] at hnamed
    cases hnamed
  next hadmits =>
    apply List.countP_congr
    intro e _
    rw [decide_eq_true_iff, Function.comp_apply, beq_iff_eq, and_iff_left_iff_imp]
    intro hmark
    rw [isWellNamed_of_mark hmark]
    exact Bool.eq_false_of_not_eq_true hadmits

theorem count_misplacedConstructor (d : Document) (m : MemberId) :
    d.constructorIssues.count (.misplacedConstructor m) =
      if m.index = 1 then 0
      else d.marks.count ((NavId.memberId m).nav.text, .constructorEntry) := by
  have hinj : Function.Injective Issue.misplacedConstructor :=
    fun a b => Issue.misplacedConstructor.inj
  rw [constructorIssues, List.count_map_of_injective _ _ hinj]
  split
  next hone =>
    rw [List.count_eq_zero]
    simp [hone]
  next hne =>
    rw [List.count_filter (by simpa using hne), List.count_filterMap, byCategory_eq_filter,
      List.countP_filter, marks, List.count_eq_countP, List.countP_map]
    apply List.countP_congr
    intro e _
    simp [Element.mark, entryMember?_eq_some_iff]

theorem mem_panelIssues {entry : NavId} {expected : List Address} :
    x ∈ d.panelIssues entry expected ↔
      ∃ a ∈ expected, d.contains a.text = false ∧ x = .missingPanel entry.nav a := by
  rw [panelIssues, List.mem_map]
  constructor
  · rintro ⟨a, ha, rfl⟩
    obtain ⟨ha, hnone⟩ := List.mem_filter.1 ha
    exact ⟨a, ha, by simpa using hnone, rfl⟩
  · rintro ⟨a, ha, hnone, rfl⟩
    exact ⟨a, List.mem_filter.2 ⟨ha, by simpa using hnone⟩, rfl⟩

theorem nodup_panelIssues {entry : NavId} {expected : List Address} (h : expected.Nodup) :
    (d.panelIssues entry expected).Nodup := by
  exact (h.filter _).map fun a b hab => (Issue.missingPanel.inj hab).2

theorem mem_numberingIssues :
    x ∈ numberingIssues xs ↔
      (x = .noInitialClass ∧ xs ≠ [] ∧ 1 ∉ xs) ∨ ∃ k ∈ gaps xs, x = .missingClass k := by
  rw [numberingIssues, List.mem_append]
  refine or_congr ?_ ?_
  · by_cases hnil : xs = [] <;> by_cases hone : 1 ∈ xs <;> simp [hnil, hone]
  · simp [eq_comm]

theorem nodup_numberingIssues (xs : List UInt32) : (numberingIssues xs).Nodup := by
  have hgaps : ((gaps xs).map Issue.missingClass).Nodup :=
    (nodup_gaps xs).map fun a b => Issue.missingClass.inj
  rw [numberingIssues]
  split
  next => exact hgaps
  next => simp [hgaps]

theorem mem_classIssues :
    x ∈ d.classIssues c xs ↔
      x ∈ d.panelIssues (.classId c) [⟨.list, .classId c⟩, ⟨.description, .classId c⟩] ∨
      (x = .emptyClass c ∧ xs = []) ∨ ∃ i ∈ gaps xs, x = .missingMember ⟨c, i⟩ := by
  rw [classIssues, List.mem_append]
  refine or_congr_right ?_
  cases xs with
  | nil => simp [gaps]
  | cons i xs => simp [eq_comm]

theorem nodup_classIssues (d : Document) (c : UInt32) (xs : List UInt32) :
    (d.classIssues c xs).Nodup := by
  rw [classIssues]
  refine List.nodup_append.2 ⟨nodup_panelIssues (by simp), ?_, ?_⟩
  · split
    next => simp
    next =>
      refine (nodup_gaps xs).map ?_
      intro i j hij
      exact (MemberId.mk.inj (Issue.missingMember.inj hij)).2
  · intro a ha b hb
    obtain ⟨p, -, -, rfl⟩ := mem_panelIssues.1 ha
    split at hb
    next => simp_all
    next =>
      obtain ⟨i, -, rfl⟩ := List.mem_map.1 hb
      simp

theorem mem_memberIssues {classes : List UInt32} :
    x ∈ d.memberIssues classes c xs ↔
      (x = .orphanMembers c ∧ c ∉ classes) ∨
      ∃ i ∈ xs, x ∈ d.panelIssues (.memberId ⟨c, i⟩) [⟨.description, .memberId ⟨c, i⟩⟩] := by
  rw [memberIssues, List.mem_append, List.mem_flatMap]
  refine or_congr_left ?_
  split <;> simp_all

theorem nodup_memberIssues {classes : List UInt32} (h : xs.Nodup) :
    (d.memberIssues classes c xs).Nodup := by
  have hpanels : (xs.flatMap fun i =>
      d.panelIssues (.memberId ⟨c, i⟩) [⟨.description, .memberId ⟨c, i⟩⟩]).Nodup := by
    apply nodup_flatMap_of_key (MemberId.mk c) Issue.member?
    · exact h.map fun i j hij => (MemberId.mk.inj hij).2
    · intro i _
      exact nodup_panelIssues (List.nodup_singleton _)
    · intro i _ x hx
      obtain ⟨a, -, -, rfl⟩ := mem_panelIssues.1 hx
      rfl
  rw [memberIssues]
  split
  next => exact hpanels
  next =>
    refine List.nodup_cons.2 ⟨?_, hpanels⟩
    intro hmem
    obtain ⟨i, -, hi⟩ := List.mem_flatMap.1 hmem
    obtain ⟨a, -, -, ha⟩ := mem_panelIssues.1 hi
    cases ha

/-- The issues of the numbering and of panels. -/
def structureIssues (d : Document) : List Issue :=
  numberingIssues d.classIds ++
    ((d.classIds.flatMap fun c => d.classIssues c (d.indicesOf c)) ++
      d.membersByClass.flatMap fun (c, indices) => d.memberIssues d.classIds c indices)

theorem check_eq_structureIssues (d : Document) :
    d.check = d.idIssues ++ (d.structureIssues ++ d.constructorIssues) := by
  simp only [check_eq, structureIssues, List.append_assoc]

theorem origin?_of_mem_numberingIssues (h : x ∈ numberingIssues xs) : x.origin? = none := by
  rcases mem_numberingIssues.1 h with ⟨rfl, -⟩ | ⟨k, -, rfl⟩
  · rfl
  · rfl

theorem origin?_of_mem_classIssues (h : x ∈ d.classIssues c xs) :
    x.origin? = some (.listed c) := by
  rcases mem_classIssues.1 h with hx | ⟨rfl, -⟩ | ⟨i, -, rfl⟩
  · obtain ⟨a, -, -, rfl⟩ := mem_panelIssues.1 hx
    rfl
  · rfl
  · rfl

theorem origin?_of_mem_memberIssues {classes : List UInt32}
    (h : x ∈ d.memberIssues classes c xs) : x.origin? = some (.members c) := by
  rcases mem_memberIssues.1 h with ⟨rfl, -⟩ | ⟨i, -, hx⟩
  · rfl
  · obtain ⟨a, -, -, rfl⟩ := mem_panelIssues.1 hx
    rfl

theorem mem_memberClasses : c ∈ d.memberClasses ↔ ∃ i, ⟨c, i⟩ ∈ d.members := by
  simp only [memberClasses, List.mem_map, Prod.exists, mem_membersByClass]
  constructor
  · rintro ⟨c, indices, ⟨-, i, hi⟩, rfl⟩
    exact ⟨i, hi⟩
  · rintro ⟨i, hi⟩
    exact ⟨c, _, ⟨rfl, i, hi⟩, rfl⟩

theorem nodup_memberClasses (d : Document) : d.memberClasses.Nodup := by
  have hfst : d.memberClasses = Ascending.ofList (d.members.map MemberId.owner) := by
    rw [memberClasses, membersByClass, List.map_map]
    exact List.map_id _
  rw [hfst]
  exact (Ascending.pairwise_ofList _).imp UInt32.ne_of_lt

theorem nodup_structureIssues (d : Document) : d.structureIssues.Nodup := by
  have hnodup : d.classIds.Nodup := d.pairwise_classIds.imp UInt32.ne_of_lt
  have hclasses : (d.classIds.map Issue.Origin.listed).Nodup :=
    hnodup.map fun _ _ => Issue.Origin.listed.inj
  have hmembers : (d.membersByClass.map (Issue.Origin.members ∘ Prod.fst)).Nodup := by
    rw [← List.map_map]
    exact d.nodup_memberClasses.map fun _ _ => Issue.Origin.members.inj
  rw [structureIssues, List.nodup_append, List.nodup_append]
  refine ⟨nodup_numberingIssues _, ⟨?_, ?_, ?_⟩, ?_⟩
  · apply nodup_flatMap_of_key Issue.Origin.listed Issue.origin? hclasses
    · intro c _
      exact d.nodup_classIssues c _
    · intro c _ x hx
      exact origin?_of_mem_classIssues hx
  · apply nodup_flatMap_of_key (Issue.Origin.members ∘ Prod.fst) Issue.origin? hmembers
    · rintro ⟨c, indices⟩ hrow
      obtain ⟨rfl, -⟩ := mem_membersByClass.1 hrow
      exact nodup_memberIssues ((d.pairwise_indicesOf c).imp UInt32.ne_of_lt)
    · rintro ⟨c, indices⟩ - x hx
      exact origin?_of_mem_memberIssues hx
  · rintro x hx _ hx' rfl
    obtain ⟨c, -, hx⟩ := List.mem_flatMap.1 hx
    obtain ⟨row, -, hx'⟩ := List.mem_flatMap.1 hx'
    cases (origin?_of_mem_classIssues hx).symm.trans (origin?_of_mem_memberIssues hx')
  · rintro x hx _ hx' rfl
    have hnone := origin?_of_mem_numberingIssues hx
    rcases List.mem_append.1 hx' with hx' | hx'
    · obtain ⟨c, -, hx'⟩ := List.mem_flatMap.1 hx'
      cases hnone.symm.trans (origin?_of_mem_classIssues hx')
    · obtain ⟨row, -, hx'⟩ := List.mem_flatMap.1 hx'
      cases hnone.symm.trans (origin?_of_mem_memberIssues hx')

theorem indicesOf_eq_nil_iff : d.indicesOf c = [] ↔ c ∉ d.memberClasses := by
  rw [List.eq_nil_iff_forall_not_mem, mem_memberClasses, not_exists]
  exact forall_congr' fun i => not_congr mem_indicesOf

theorem mem_gaps_iff (h : xs.Pairwise (· < ·)) {k : UInt32} :
    k ∈ gaps xs ↔ 1 ≤ k ∧ (∃ j ∈ xs, k < j) ∧ k ∉ xs := by
  rw [mem_gaps h, and_comm (a := k ∉ xs)]
  rfl

theorem mem_structureIssues : x ∈ d.structureIssues ↔ d.HasFault x := by
  simp only [structureIssues, List.mem_append, List.mem_flatMap, mem_numberingIssues,
    mem_classIssues, mem_memberIssues, mem_panelIssues, mem_gaps_iff d.pairwise_classIds,
    mem_gaps_iff (d.pairwise_indicesOf _), indicesOf_eq_nil_iff, Prod.exists, mem_membersByClass]
  cases x with
  | noInitialClass => simp [HasFault]
  | missingClass k => simp [HasFault]
  | emptyClass k => simp [HasFault]
  | orphanMembers k => simp [HasFault, mem_memberClasses]
  | missingMember m =>
    simp only [HasFault, reduceCtorEq, Issue.missingMember.injEq, List.not_mem_nil, List.mem_cons,
      false_and, and_false, or_false, false_or, exists_false]
    constructor
    · rintro ⟨c, hc, i, hi, rfl⟩
      exact ⟨hc, hi⟩
    · rintro ⟨hc, hi⟩
      exact ⟨m.owner, hc, m.index, hi, rfl⟩
  | missingPanel entry panel =>
    simp only [HasFault, Requires, reduceCtorEq, Issue.missingPanel.injEq, List.mem_cons,
      List.not_mem_nil, false_and, and_false, or_false, false_or, exists_false,
      exists_eq_or_imp, exists_eq_left]
    constructor
    · rintro (⟨c, hc, ⟨hnone, rfl, rfl⟩ | ⟨hnone, rfl, rfl⟩⟩ |
        ⟨c, _, ⟨rfl, -⟩, i, hi, hnone, rfl, rfl⟩)
      · exact ⟨.inl ⟨c, hc, rfl, .inl rfl⟩, hnone⟩
      · exact ⟨.inl ⟨c, hc, rfl, .inr rfl⟩, hnone⟩
      · exact ⟨.inr ⟨⟨c, i⟩, mem_indicesOf.1 hi, rfl, rfl⟩, hnone⟩
    · rintro ⟨⟨c, hc, rfl, rfl | rfl⟩ | ⟨m, hm, rfl, rfl⟩, hnone⟩
      · exact .inl ⟨c, hc, .inl ⟨hnone, rfl, rfl⟩⟩
      · exact .inl ⟨c, hc, .inr ⟨hnone, rfl, rfl⟩⟩
      · have hi : m.index ∈ d.indicesOf m.owner := mem_indicesOf.2 hm
        exact .inr ⟨m.owner, _, ⟨rfl, m.index, hm⟩, m.index, hi, hnone, rfl, rfl⟩
  | duplicateId id => simp [HasFault]
  | unexpectedId id k => simp [HasFault]
  | misplacedConstructor m => simp [HasFault]

theorem count_structureIssues (d : Document) (x : Issue) :
    d.structureIssues.count x = if d.HasFault x then 1 else 0 := by
  rw [d.nodup_structureIssues.count]
  simp only [mem_structureIssues]

theorem mem_idIssues (h : x ∈ d.idIssues) :
    (∃ id, x = .duplicateId id) ∨ ∃ id k, x = .unexpectedId id k := by
  obtain ⟨⟨e, place⟩, -, hx⟩ := List.mem_flatMap.1 h
  rcases List.mem_append.1 hx with hx | hx
  · split at hx
    · cases hx
    · exact .inl ⟨_, List.mem_singleton.1 hx⟩
  · split at hx
    · cases hx
    · exact .inr ⟨_, _, List.mem_singleton.1 hx⟩

theorem mem_constructorIssues (h : x ∈ d.constructorIssues) : ∃ m, x = .misplacedConstructor m := by
  obtain ⟨m, -, rfl⟩ := List.mem_map.1 h
  exact ⟨m, rfl⟩

theorem count_check (d : Document) (x : Issue) : d.check.count x = d.occurrences x := by
  have hid (h : ∀ id k, x ≠ .duplicateId id ∧ x ≠ .unexpectedId id k) : d.idIssues.count x = 0 := by
    rw [List.count_eq_zero]
    intro hx
    rcases mem_idIssues hx with ⟨id, rfl⟩ | ⟨id, k, rfl⟩
    · exact (h id .classEntry).1 rfl
    · exact (h id k).2 rfl
  have hconstructor (h : ∀ m, x ≠ .misplacedConstructor m) : d.constructorIssues.count x = 0 := by
    rw [List.count_eq_zero]
    intro hx
    obtain ⟨m, hm⟩ := mem_constructorIssues hx
    exact h m hm
  rw [check_eq_structureIssues, List.count_append, List.count_append, count_structureIssues]
  cases x with
  | duplicateId id =>
    rw [count_duplicateId, hconstructor (by simp)]
    simp [occurrences, HasFault]
  | unexpectedId id k =>
    rw [count_unexpectedId, hconstructor (by simp)]
    simp [occurrences, HasFault]
  | misplacedConstructor m =>
    rw [count_misplacedConstructor, hid (by simp)]
    simp [occurrences, HasFault]
  | noInitialClass | missingClass c | emptyClass c | orphanMembers c | missingMember m
  | missingPanel entry panel =>
    rw [hid (by simp), hconstructor (by simp), Nat.zero_add, Nat.add_zero]
    rfl

theorem SameEntries.hasFault_iff (h : d.SameEntries d') (x : Issue) :
    d.HasFault x ↔ d'.HasFault x := by
  have hclasses : d.memberClasses = d'.memberClasses := by
    rw [memberClasses, memberClasses, membersByClass, membersByClass, h.members]
  have hindices (c : UInt32) : d.indicesOf c = d'.indicesOf c := by
    rw [indicesOf, indicesOf, h.members]
  cases x <;>
    simp only [HasFault, Requires, h.classIds, h.members, hclasses, hindices, h.contains]

theorem Reordered.occurrences_eq (h : d.Reordered d') (x : Issue) :
    d.occurrences x = d'.occurrences x := by
  have hids : (d.marks.map Prod.fst).Perm (d'.marks.map Prod.fst) := List.Perm.map _ h
  have hmarks (mark : String × Category) : d.marks.count mark = d'.marks.count mark :=
    List.Perm.count_eq h mark
  cases x <;>
    simp only [occurrences, hids.count_eq, hmarks, h.sameEntries.hasFault_iff]

/-- The check names each issue as often as the page has it, and names nothing else. So on a page
with the same elements in another order it names the same issues. -/
theorem check_counts_faults (d : Document) :
    (∀ x, d.check.count x = d.occurrences x) ∧ ∀ d', d.Reordered d' → d.check.Perm d'.check := by
  refine ⟨d.count_check, ?_⟩
  intro d' h
  rw [List.perm_iff_count]
  intro x
  rw [count_check, count_check, h.occurrences_eq]

theorem check_counts_faults_duplicates :
    let d : Document := .ofElements [
      ⟨"nav_1", .classEntry, some "Storage", {}⟩,
      ⟨"nav_1_2", .constructorEntry, some "open", {}⟩,
      ⟨"nav_1_2", .constructorEntry, none, {}⟩,
      ⟨"nav_1", .methodEntry, none, {}⟩,
      ⟨"nav_1", .classEntry, none, {}⟩]
    let d' : Document := .ofElements [
      ⟨"nav_1", .methodEntry, some "other", {}⟩,
      ⟨"nav_1_2", .constructorEntry, none, {}⟩,
      ⟨"nav_1", .classEntry, none, {}⟩,
      ⟨"nav_1", .classEntry, none, {}⟩,
      ⟨"nav_1_2", .constructorEntry, some "open", {}⟩]
    d.check.count (.duplicateId "nav_1") = 2 ∧
      d.check.count (.misplacedConstructor ⟨1, 2⟩) = 2 ∧
      d.Reordered d' ∧ d.check.Perm d'.check := by
  intro d d'
  obtain ⟨hcount, hperm⟩ := check_counts_faults d
  have hmarks : d.marks = [("nav_1", .classEntry), ("nav_1_2", .constructorEntry),
      ("nav_1_2", .constructorEntry), ("nav_1", .methodEntry), ("nav_1", .classEntry)] := by
    rw [marks, toList_ofElements]
    rfl
  have h : d.Reordered d' := by
    rw [Reordered, hmarks, marks, toList_ofElements]
    decide
  refine ⟨?_, ?_, h, hperm d' h⟩
  · rw [hcount, occurrences, hmarks]
    decide
  · rw [hcount, occurrences, hmarks]
    decide +kernel

end Document

end Sidebar
