import Sidebar.Proofs.LastPlace
import Sidebar.Proofs.Numbering

namespace Sidebar

/-- Only entries of constructors and of methods have ids of one shape. -/
theorem Category.eq_of_admits {k k' : Category} {a : Address} (h : k.admits a = true)
    (h' : k'.admits a = true) (hentry : k.isMemberEntry = false) : k' = k := by
  obtain ⟨role, target⟩ := a
  cases k with
  | constructorEntry | methodEntry => cases hentry
  | _ =>
    cases role <;> cases target <;> try exact absurd h Bool.false_ne_true
    cases k' <;> first | rfl | exact absurd h' Bool.false_ne_true

namespace Document

def WellNamed (d : Document) : Prop := ∀ e ∈ d.elements, e.isWellNamed = true

def DistinctIds (d : Document) : Prop := (d.elements.toList.map Element.id).Nodup

structure HasPanels (d : Document) : Prop where
  list : ∀ c ∈ d.classIds, d.contains (Address.text ⟨.list, .classId c⟩) = true
  classPanel : ∀ c ∈ d.classIds, d.contains (Address.text ⟨.description, .classId c⟩) = true
  memberPanel : ∀ m ∈ d.members, d.contains (Address.text ⟨.description, .memberId m⟩) = true

/-- The classes are 1 to `n`, and the members of a class `c` of them are 1 to `count c`. -/
structure WellNumbered (d : Document) (n : UInt32) (count : UInt32 → UInt32) : Prop where
  wellNamed : d.WellNamed
  classIds_eq : d.classIds = upTo n
  membersByClass_eq : d.membersByClass = (upTo n).map fun c => (c, upTo (count c))
  one_le : 1 ≤ n
  one_le_count : ∀ c ∈ upTo n, 1 ≤ count c

variable {d : Document} {k k' : Category} {a : Address} {n c : UInt32} {m : MemberId}
  {count : UInt32 → UInt32}

theorem DistinctIds.eq_of_id (h : d.DistinctIds) {e e' : Element} (he : e ∈ d.elements)
    (he' : e' ∈ d.elements) (hid : e.id = e'.id) : e = e' :=
  List.inj_on_of_nodup_map h (Array.mem_toList_iff.2 he) (Array.mem_toList_iff.2 he') hid

theorem DistinctIds.get?_id (h : d.DistinctIds) {e : Element} (he : e ∈ d.elements) :
    d.get? e.id = some e := by
  rw [get?_eq_find?]
  cases hfind : d.elements.toList.find? fun e' => e'.id = e.id with
  | none =>
    have hnone := List.find?_eq_none.1 hfind e (Array.mem_toList_iff.2 he)
    exact absurd (decide_eq_true rfl) hnone
  | some e' =>
    have he' := Array.mem_toList_iff.1 (List.mem_of_find?_eq_some hfind)
    have hid : e'.id = e.id := by simpa using List.find?_some hfind
    rw [h.eq_of_id he' he hid]

theorem DistinctIds.category_unique (h : d.DistinctIds) {id : String} (hk : d.Has k id)
    (hk' : d.Has k' id) : k = k' := by
  obtain ⟨e, he, rfl, hid⟩ := hk
  obtain ⟨e', he', rfl, hid'⟩ := hk'
  rw [h.eq_of_id he he' (hid.trans hid'.symm)]

namespace WellNamed

theorem admits (h : d.WellNamed) (ha : d.Has k a.text) : k.admits a = true := by
  obtain ⟨e, he, rfl, hid⟩ := ha
  have hnamed := h e he
  rw [Element.isWellNamed, Element.address?_eq_some_iff.2 hid] at hnamed
  exact hnamed

theorem has_of_contains (h : d.WellNamed) (hk : k.admits a = true)
    (hentry : k.isMemberEntry = false) (ha : d.contains a.text = true) : d.Has k a.text := by
  obtain ⟨k', hk'⟩ := contains_iff_has.1 ha
  rw [← Category.eq_of_admits hk (h.admits hk') hentry]
  exact hk'

theorem hasEntry_classId (h : d.WellNamed) : d.hasEntry (.classId c) = true ↔ c ∈ d.classIds := by
  refine ⟨?_, hasEntry_of_mem_classIds⟩
  intro hc
  exact mem_classIds.2 (h.has_of_contains rfl rfl hc)

theorem hasEntry_memberId (h : d.WellNamed) : d.hasEntry (.memberId m) = true ↔ m ∈ d.members := by
  refine ⟨?_, hasEntry_of_mem_members⟩
  intro hm
  obtain ⟨k, hk⟩ := contains_iff_has.1 hm
  have hadmits := h.admits hk
  cases k with
  | constructorEntry => exact mem_members.2 (.inl hk)
  | methodEntry => exact mem_members.2 (.inr hk)
  | _ => cases hadmits

/-- Entries of classes have no ids of members, so the table is made of the listed members. -/
theorem lookup_ofDocument (h : d.WellNamed) {last : UInt32} :
    (LastIndex.ofDocument d).lookup c = some last ↔ LastIndex.IsLast d.members c last := by
  have hrecorded (m : MemberId) :
      m ∈ d.members ∨ d.Has .classEntry (NavId.memberId m).nav.text ↔ m ∈ d.members := by
    refine or_iff_left ?_
    intro hm
    cases h.admits hm
  rw [LastIndex.ofDocument, LastIndex.lookup_ofMembers_eq_some_iff]
  simp only [LastIndex.IsLast, LastIndex.mem_recorded, hrecorded]

end WellNamed

namespace WellNumbered

theorem mem_classIds_iff (h : d.WellNumbered n count) : c ∈ d.classIds ↔ c ∈ upTo n := by
  rw [h.classIds_eq]

theorem mem_members_iff (h : d.WellNumbered n count) :
    m ∈ d.members ↔ m.owner ∈ upTo n ∧ m.index ∈ upTo (count m.owner) := by
  rw [members_eq_flatMap, h.membersByClass_eq, List.flatMap_map]
  simp only [List.mem_flatMap, List.mem_map]
  constructor
  · rintro ⟨c, hc, i, hi, rfl⟩
    exact ⟨hc, hi⟩
  · rintro ⟨hc, hi⟩
    exact ⟨m.owner, hc, m.index, hi, rfl⟩

theorem one_mem (h : d.WellNumbered n count) : 1 ∈ d.classIds :=
  h.mem_classIds_iff.2 (mem_upTo.2 ⟨Nat.le_refl 1, UInt32.le_iff_toNat_le.1 h.one_le⟩)

theorem firstOf_mem (h : d.WellNumbered n count) (hc : c ∈ d.classIds) :
    MemberId.firstOf c ∈ d.members := by
  rw [h.classIds_eq] at hc
  have hcount := UInt32.le_iff_toNat_le.1 (h.one_le_count c hc)
  exact h.mem_members_iff.2 ⟨hc, mem_upTo.2 ⟨Nat.le_refl 1, hcount⟩⟩

theorem isLast (h : d.WellNumbered n count) (hc : c ∈ d.classIds) :
    LastIndex.IsLast d.members c (count c) := by
  rw [h.classIds_eq] at hc
  have hcount := UInt32.le_iff_toNat_le.1 (h.one_le_count c hc)
  refine ⟨h.mem_members_iff.2 ⟨hc, mem_upTo.2 ⟨hcount, Nat.le_refl _⟩⟩, ?_⟩
  intro i hi
  exact UInt32.le_iff_toNat_le.2 (mem_upTo.1 (h.mem_members_iff.1 hi).2).2

theorem lookup_ofDocument (h : d.WellNumbered n count) (hc : c ∈ d.classIds) :
    (LastIndex.ofDocument d).lookup c = some (count c) :=
  h.wellNamed.lookup_ofDocument.2 (h.isLast hc)

end WellNumbered

def samplePage : Document :=
  .ofElements [
    ⟨"nav_2", .classEntry, none, {}⟩,
    ⟨"nav_2_1", .methodEntry, none, {}⟩,
    ⟨"description_1_2", .memberPanel, none, {}⟩,
    ⟨"nav_1", .classEntry, none, {}⟩,
    ⟨"nav_1_2", .methodEntry, none, {}⟩,
    ⟨"nav_1_1", .constructorEntry, none, {}⟩,
    ⟨"list_2", .memberList, none, {}⟩,
    ⟨"list_1", .memberList, none, {}⟩,
    ⟨"description_1", .classPanel, none, {}⟩,
    ⟨"description_2", .classPanel, none, {}⟩,
    ⟨"description_2_1", .memberPanel, none, {}⟩,
    ⟨"description_1_1", .memberPanel, none, {}⟩]

theorem members_samplePage : samplePage.members = [⟨1, 1⟩, ⟨1, 2⟩, ⟨2, 1⟩] := by
  rw [members, byCategory_eq_filter, byCategory_eq_filter, samplePage, toList_ofElements]
  decide +kernel

theorem classIds_samplePage : samplePage.classIds = [1, 2] := by
  rw [classIds, byCategory_eq_filter, samplePage, toList_ofElements]
  decide +kernel

theorem wellNumbered_samplePage : samplePage.WellNumbered 2 fun c => if c = 1 then 2 else 1 where
  wellNamed := by
    rw [WellNamed]
    decide +kernel
  classIds_eq := by
    rw [classIds_samplePage]
    rfl
  membersByClass_eq := by
    rw [membersByClass, members_samplePage]
    decide +kernel
  one_le := by decide
  one_le_count := by
    intro c _
    split <;> decide

end Document

end Sidebar
