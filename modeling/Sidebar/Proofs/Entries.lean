import Sidebar.Document.Scan
import Sidebar.Proofs.AddressText
import Sidebar.Proofs.Ascending

namespace Sidebar

theorem Element.address?_eq_some_iff {e : Element} {a : Address} :
    e.address? = some a ↔ e.id = a.text :=
  Address.parse?_eq_some_iff

namespace Document

variable {d d' : Document} {c : UInt32} {m : MemberId}

/-- Whether the page has an element with this id in this category. -/
def Has (d : Document) (k : Category) (id : String) : Prop :=
  ∃ e ∈ d.elements, e.category = k ∧ e.id = id

theorem entryMember?_eq_some_iff {e : Element} :
    entryMember? e = some m ↔ e.id = (NavId.memberId m).nav.text := by
  rw [← Element.address?_eq_some_iff, entryMember?]
  constructor
  · intro h
    split at h
    next m' ha =>
      cases h
      exact ha
    next => cases h
  · intro h
    rw [h]
    rfl

theorem mem_byCategory {e : Element} {k : Category} :
    e ∈ d.byCategory k ↔ e ∈ d.elements ∧ e.category = k := by
  rw [byCategory_eq_filter]
  simp

theorem contains_iff_has {id : String} : d.contains id = true ↔ ∃ k, d.Has k id := by
  rw [contains_iff]
  constructor
  · rintro ⟨e, he, hid⟩
    exact ⟨e.category, e, he, rfl, hid⟩
  · rintro ⟨k, e, he, -, hid⟩
    exact ⟨e, he, hid⟩

theorem exists_entryMember?_iff {k : Category} :
    m ∈ (d.byCategory k).filterMap entryMember? ↔ d.Has k (NavId.memberId m).nav.text := by
  simp only [List.mem_filterMap, mem_byCategory, entryMember?_eq_some_iff, Has, and_assoc]

theorem mem_classIds : c ∈ d.classIds ↔ d.Has .classEntry (NavId.classId c).nav.text := by
  rw [classIds, Ascending.mem_ofList, List.mem_filterMap]
  constructor
  · rintro ⟨e, he, hc⟩
    obtain ⟨he, hk⟩ := mem_byCategory.1 he
    split at hc
    next c' ha =>
      cases hc
      exact ⟨e, he, hk, Element.address?_eq_some_iff.1 ha⟩
    next => cases hc
  · rintro ⟨e, he, hk, hid⟩
    refine ⟨e, mem_byCategory.2 ⟨he, hk⟩, ?_⟩
    rw [Element.address?_eq_some_iff.2 hid]
    rfl

theorem mem_members :
    m ∈ d.members ↔ d.Has .constructorEntry (NavId.memberId m).nav.text ∨
      d.Has .methodEntry (NavId.memberId m).nav.text := by
  rw [members, Ascending.mem_ofList, List.filterMap_append, List.mem_append,
    exists_entryMember?_iff, exists_entryMember?_iff]

theorem pairwise_classIds (d : Document) : d.classIds.Pairwise (· < ·) :=
  Ascending.pairwise_ofList _

theorem pairwise_members (d : Document) : d.members.Pairwise (· < ·) :=
  Ascending.pairwise_ofList _

theorem hasEntry_of_mem_classIds (h : c ∈ d.classIds) : d.hasEntry (.classId c) = true :=
  contains_iff_has.2 ⟨_, mem_classIds.1 h⟩

theorem hasEntry_of_mem_members (h : m ∈ d.members) : d.hasEntry (.memberId m) = true := by
  rcases mem_members.1 h with h | h
  · exact contains_iff_has.2 ⟨_, h⟩
  · exact contains_iff_has.2 ⟨_, h⟩

theorem mem_indicesIn {ms : List MemberId} {i : UInt32} :
    i ∈ indicesIn ms c ↔ ⟨c, i⟩ ∈ ms := by
  simp only [indicesIn, List.mem_map, List.mem_filter, decide_eq_true_eq]
  constructor
  · rintro ⟨m, ⟨hm, rfl⟩, rfl⟩
    exact hm
  · intro h
    exact ⟨⟨c, i⟩, ⟨h, rfl⟩, rfl⟩

theorem pairwise_indicesIn {ms : List MemberId} (h : ms.Pairwise (· < ·)) (c : UInt32) :
    (indicesIn ms c).Pairwise (· < ·) := by
  rw [indicesIn, List.pairwise_map]
  refine (h.filter _).imp_of_mem ?_
  intro a b ha hb hab
  have howner : a.owner = b.owner := by
    rw [of_decide_eq_true (List.mem_filter.1 ha).2, of_decide_eq_true (List.mem_filter.1 hb).2]
  rcases hab with hlt | ⟨-, hlt⟩
  · rw [howner] at hlt
    exact absurd hlt (irrefl _)
  · exact hlt

theorem mem_indicesOf {i : UInt32} : i ∈ d.indicesOf c ↔ ⟨c, i⟩ ∈ d.members :=
  mem_indicesIn

theorem pairwise_indicesOf (d : Document) (c : UInt32) : (d.indicesOf c).Pairwise (· < ·) :=
  pairwise_indicesIn d.pairwise_members c

theorem mem_membersByClass {indices : List UInt32} :
    (c, indices) ∈ d.membersByClass ↔ indices = d.indicesOf c ∧ ∃ i, ⟨c, i⟩ ∈ d.members := by
  simp only [membersByClass, List.mem_map, Ascending.mem_ofList, Prod.mk.injEq]
  constructor
  · rintro ⟨c, ⟨m, hm, rfl⟩, rfl, rfl⟩
    exact ⟨rfl, m.index, hm⟩
  · rintro ⟨rfl, i, hi⟩
    exact ⟨c, ⟨⟨c, i⟩, hi, rfl⟩, rfl, rfl⟩

/-- The members in paging order are those of the classes, one class after the other. -/
theorem members_eq_flatMap (d : Document) :
    d.members = d.membersByClass.flatMap fun (c, indices) => indices.map (MemberId.mk c) := by
  refine d.pairwise_members.eq_of_mem_iff ?_ ?_
  · refine List.pairwise_flatMap.2 ⟨?_, ?_⟩
    · rintro ⟨c, indices⟩ h
      obtain ⟨rfl, -⟩ := mem_membersByClass.1 h
      refine List.pairwise_map.2 ((d.pairwise_indicesOf c).imp ?_)
      intro i j hij
      exact .inr ⟨rfl, hij⟩
    · rw [membersByClass, List.pairwise_map]
      refine (Ascending.pairwise_ofList _).imp ?_
      intro c c' hlt a ha b hb
      obtain ⟨i, -, rfl⟩ := List.mem_map.1 ha
      obtain ⟨j, -, rfl⟩ := List.mem_map.1 hb
      exact .inl hlt
  · intro m
    simp only [List.mem_flatMap, List.mem_map, Prod.exists]
    constructor
    · intro h
      exact ⟨m.owner, _, mem_membersByClass.2 ⟨rfl, m.index, h⟩, m.index, mem_indicesOf.2 h, rfl⟩
    · rintro ⟨c, indices, h, i, hi, rfl⟩
      obtain ⟨rfl, -⟩ := mem_membersByClass.1 h
      exact mem_indicesOf.1 hi

def SameEntries (d d' : Document) : Prop :=
  ∀ k id, d.Has k id ↔ d'.Has k id

namespace SameEntries

theorem symm (h : d.SameEntries d') : d'.SameEntries d := fun k id => (h k id).symm

theorem trans {d'' : Document} (h : d.SameEntries d') (h' : d'.SameEntries d'') :
    d.SameEntries d'' :=
  fun k id => (h k id).trans (h' k id)

theorem contains (h : d.SameEntries d') (id : String) : d.contains id = d'.contains id := by
  rw [Bool.eq_iff_iff, contains_iff_has, contains_iff_has]
  exact exists_congr fun k => h k id

theorem hasEntry (h : d.SameEntries d') (id : NavId) : d.hasEntry id = d'.hasEntry id :=
  h.contains _

theorem classIds (h : d.SameEntries d') : d.classIds = d'.classIds := by
  refine d.pairwise_classIds.eq_of_mem_iff d'.pairwise_classIds ?_
  intro c
  rw [mem_classIds, mem_classIds]
  exact h _ _

theorem members (h : d.SameEntries d') : d.members = d'.members := by
  refine d.pairwise_members.eq_of_mem_iff d'.pairwise_members ?_
  intro m
  rw [mem_members, mem_members]
  exact or_congr (h _ _) (h _ _)

end SameEntries

end Document

end Sidebar
