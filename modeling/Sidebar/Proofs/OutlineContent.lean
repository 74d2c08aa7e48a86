import Sidebar.Proofs.OutlinePage

namespace Sidebar

namespace Document

variable {d : Document} {a : Address} {k : Category} {label : Option String}

/-- Whether an address is looked up to an unstyled element of this category with this label. -/
def Finds (d : Document) (a : Address) (k : Category) (label : Option String) : Prop :=
  d.get? a.text = some ⟨a.text, k, label, {}⟩

/-- Whether what belongs to a class is found under its number, as it is documented. -/
structure DescribesClass (d : Document) (n : UInt32) (c : DocumentedClass) : Prop where
  entry : d.Finds (NavId.classId n).nav .classEntry (some c.name)
  title : d.Finds ⟨.title, .classId n⟩ .listTitle (some c.name)
  list : d.Finds ⟨.list, .classId n⟩ .memberList none
  panel : d.Finds (NavId.classId n).description .classPanel c.description

structure DescribesMember (d : Document) (m : MemberId) (x : DocumentedMember) : Prop where
  entry : d.Finds (NavId.memberId m).nav x.kind.category (some x.name)
  panel : d.Finds (NavId.memberId m).description .memberPanel x.description

def labelAt? (d : Document) (a : Address) : Option String := (d.get? a.text).bind Element.label

def categoryAt? (d : Document) (a : Address) : Option Category :=
  (d.get? a.text).map Element.category

def memberShown (d : Document) (m : MemberId) : DocumentedMember :=
  let entry := (NavId.memberId m).nav
  { name := (d.labelAt? entry).getD ""
    kind := if d.categoryAt? entry = some .constructorEntry then .constructor else .method
    description := d.labelAt? (NavId.memberId m).description }

def classShown (d : Document) (n : UInt32) : DocumentedClass where
  name := (d.labelAt? (NavId.classId n).nav).getD ""
  description := d.labelAt? (NavId.classId n).description
  members := (d.indicesOf n).map fun i => d.memberShown ⟨n, i⟩

def classesShown (d : Document) : List DocumentedClass := d.classIds.map d.classShown

theorem Finds.labelAt?_eq (h : d.Finds a k label) : d.labelAt? a = label := by
  rw [Finds] at h
  rw [labelAt?, h, Option.bind_some]

theorem Finds.categoryAt?_eq (h : d.Finds a k label) : d.categoryAt? a = some k := by
  rw [Finds] at h
  rw [categoryAt?, h, Option.map_some]

theorem DescribesMember.memberShown_eq {m : MemberId} {x : DocumentedMember}
    (h : d.DescribesMember m x) : d.memberShown m = x := by
  obtain ⟨name, kind, description⟩ := x
  rw [memberShown, h.entry.labelAt?_eq, h.entry.categoryAt?_eq, h.panel.labelAt?_eq]
  cases kind <;> rfl

theorem DescribesClass.classShown_eq {n : UInt32} {c : DocumentedClass}
    (h : d.DescribesClass n c)
    (hmembers : (d.indicesOf n).map (fun i => d.memberShown ⟨n, i⟩) = c.members) :
    d.classShown n = c := by
  rw [classShown, hmembers, h.entry.labelAt?_eq, h.panel.labelAt?_eq]
  rfl

end Document

namespace Outline

/-- The members by their numbers, class after class. -/
def memberIds (o : Outline) : List MemberId :=
  (numbered o.classes).flatMap fun (n, c) =>
    (upTo (.ofNat c.members.length)).map (MemberId.mk n)

theorem mem_memberIds {o : Outline} {m : MemberId} :
    m ∈ o.memberIds ↔
      ∃ c, (m.owner, c) ∈ numbered o.classes ∧ m.index ∈ upTo (.ofNat c.members.length) := by
  simp only [memberIds, List.mem_flatMap, List.mem_map, Prod.exists]
  constructor
  · rintro ⟨n, c, hc, i, hi, rfl⟩
    exact ⟨c, hc, hi⟩
  · rintro ⟨c, hc, hi⟩
    exact ⟨m.owner, c, hc, m.index, hi, rfl⟩

namespace Numberable

variable {o o' : Outline} {k : Category} {a : Address} {label : Option String} {n i : UInt32}
  {c : DocumentedClass} {m : DocumentedMember}

theorem finds_document (h : o.Numberable) (hputs : o.Puts k a label) :
    o.document.Finds a k label := by
  have he : ⟨a.text, k, label, {}⟩ ∈ o.document.elements := by
    rw [← Array.mem_toList_iff, toList_elements_document]
    exact mem_elements.2 ⟨k, a, label, hputs, rfl⟩
  exact h.distinctIds.get?_id he

theorem describesClass (h : o.Numberable) (hc : (n, c) ∈ numbered o.classes) :
    o.document.DescribesClass n c where
  entry := h.finds_document (.classEntry hc)
  title := h.finds_document (.listTitle hc)
  list := h.finds_document (.memberList hc)
  panel := h.finds_document (.classPanel hc)

theorem describesMember (h : o.Numberable) (hc : (n, c) ∈ numbered o.classes)
    (hm : (i, m) ∈ numbered c.members) : o.document.DescribesMember ⟨n, i⟩ m where
  entry := h.finds_document (.memberEntry hc hm rfl)
  panel := h.finds_document (.memberPanel hc hm)

theorem classesShown_document (h : o.Numberable) : o.document.classesShown = o.classes := by
  rw [Document.classesShown, h.classIds_document]
  apply map_fst_numbered_map
  intro n c hc
  apply (h.describesClass hc).classShown_eq
  rw [h.indicesOf_document hc]
  apply map_fst_numbered_map
  intro i m hm
  exact (h.describesMember hc hm).memberShown_eq

theorem pairwise_memberIds (h : o.Numberable) : o.memberIds.Pairwise (· < ·) := by
  apply List.pairwise_flatMap.2
  constructor
  · intro p _
    apply List.pairwise_map.2
    apply (pairwise_upTo _).imp
    intro i j hij
    exact .inr ⟨rfl, hij⟩
  · apply (pairwise_lt_numbered h.length_classes_lt).imp
    intro p q hpq a ha b hb
    obtain ⟨i, -, rfl⟩ := List.mem_map.1 ha
    obtain ⟨j, -, rfl⟩ := List.mem_map.1 hb
    exact .inl hpq

theorem members_document (h : o.Numberable) : o.document.members = o.memberIds := by
  apply o.document.pairwise_members.eq_of_mem_iff h.pairwise_memberIds
  intro m
  rw [mem_members_document, mem_memberIds]
  apply exists_congr
  intro c
  constructor
  · rintro ⟨x, hc, hx⟩
    exact ⟨hc, (mem_upTo_iff_mem_numbered (h.length_members_lt hc)).2 ⟨x, hx⟩⟩
  · rintro ⟨hc, hi⟩
    obtain ⟨x, hx⟩ := (mem_upTo_iff_mem_numbered (h.length_members_lt hc)).1 hi
    exact ⟨x, hc, hx⟩

theorem elements_document_inj (h : o.Numberable) (h' : o'.Numberable) :
    o'.document.elements = o.document.elements ↔ o'.classes = o.classes := by
  constructor
  · intro he
    have helements : o'.elements = o.elements := by
      rw [← toList_elements_document, ← toList_elements_document, he]
    rw [← h'.classesShown_document, ← h.classesShown_document, document, document, helements]
  · intro hc
    rw [document, document, elements, elements, hc]

end Numberable

/-- The page of an outline lists its classes and members under their numbers, every element of a
class or member is found with the texts and the kind that the outline has for it, and outlines have
the same page only if they have the same classes. -/
theorem page_keeps_classes (o : Outline) (h : o.Numberable) :
    let d := o.document
    d.classIds = upTo (.ofNat o.classes.length) ∧
      d.members = o.memberIds ∧ d.members.Pairwise (· < ·) ∧
      (∀ (k : Nat) (c : DocumentedClass), o.classes[k]? = some c →
        d.DescribesClass (.ofNat (k + 1)) c ∧
          ∀ (j : Nat) (m : DocumentedMember), c.members[j]? = some m →
            d.DescribesMember ⟨.ofNat (k + 1), .ofNat (j + 1)⟩ m) ∧
      d.classesShown = o.classes ∧
      ∀ o' : Outline, o'.Numberable →
        (o'.document.elements = d.elements ↔ o'.classes = o.classes) := by
  intro d
  refine ⟨?_, h.members_document, d.pairwise_members, ?_, h.classesShown_document,
    fun o' h' => h.elements_document_inj h'⟩
  · rw [h.classIds_document, map_fst_numbered h.length_classes_lt]
  · intro k c hc
    have hc := mem_numbered.2 ⟨k, hc, rfl⟩
    refine ⟨h.describesClass hc, ?_⟩
    intro j m hm
    exact h.describesMember hc (mem_numbered.2 ⟨j, hm, rfl⟩)

/-- Two classes of one name, the first with two members that have none. -/
def namelessOutline : Outline where
  classes := [
    { name := "Storage", description := some "Files",
      members := [{ name := "", kind := .constructor }, { name := "", description := some "" }] },
    { name := "Storage" }]

theorem page_keeps_classes_namelessOutline :
    let o := namelessOutline
    let o' : Outline := { o with title := some "Storage" }
    let c : DocumentedClass :=
      { name := "Storage", description := some "Files",
        members := [{ name := "", kind := .constructor }, { name := "", description := some "" }] }
    let m : DocumentedMember := { name := "", description := some "" }
    (o.Numberable ∧ o.classes[0]? = some c ∧ c.members[1]? = some m ∧ o'.Numberable) ∧
      o.document.DescribesMember ⟨1, 2⟩ m ∧ o'.document.elements = o.document.elements := by
  intro o o' c m
  have h : o.Numberable := ⟨by decide, by decide⟩
  have h' : o'.Numberable := ⟨by decide, by decide⟩
  have hc : o.classes[0]? = some c := rfl
  have hm : c.members[1]? = some m := rfl
  obtain ⟨-, -, -, hdescribes, -, hpages⟩ := page_keeps_classes o h
  exact ⟨⟨h, hc, hm, h'⟩, (hdescribes 0 c hc).2 1 m hm, (hpages o' h').2 rfl⟩

end Outline

end Sidebar
