import Sidebar.Session
import Sidebar.Proofs.LastPlace
import Sidebar.Proofs.Numbering

namespace Sidebar

namespace LastIndex

open Document

variable {table : LastIndex} {ms : List MemberId} {c last : UInt32}

theorem mem_map_fst_iff : c ∈ table.map Prod.fst ↔ table.lookup c ≠ none := by
  simp only [ne_eq, List.lookup_eq_none_iff, bne_iff_ne, not_forall, not_not, exists_prop,
    List.mem_map, @eq_comm _ c]

theorem mem_map_fst_ofMembers : c ∈ (ofMembers ms).map Prod.fst ↔ ∃ m ∈ ms, m.owner = c := by
  rw [mem_map_fst_iff, ne_eq, lookup_ofMembers_eq_none_iff]
  push Not
  rfl

theorem map_fst_ofMembers (ms : List MemberId) :
    (ofMembers ms).map Prod.fst = Ascending.ofList (ms.map MemberId.owner) := by
  have hkeys : ((ofMembers ms).map Prod.fst).Pairwise (· < ·) :=
    List.pairwise_map.2 (ordered_ofMembers ms)
  apply Eq.symm
  apply Ascending.ofList_eq hkeys
  intro c
  rw [mem_map_fst_ofMembers, List.mem_map]

theorem mem_ofMembers : (c, last) ∈ ofMembers ms ↔ IsLast ms c last := by
  rw [(ordered_ofMembers ms).mem_iff_lookup, lookup_ofMembers_eq_some_iff]

theorem isLast_of_getLast? (h : ms.Pairwise (· < ·))
    (hlast : (indicesIn ms c).getLast? = some last) : IsLast ms c last := by
  have hmem := List.mem_of_getLast? hlast
  apply And.intro (mem_indicesIn.1 hmem)
  intro i hi
  have hle := le_getLast_of_mem (pairwise_indicesIn h c) hlast (mem_indicesIn.2 hi)
  exact UInt32.le_iff_toNat_le.2 hle

theorem lookup_ofMembers_eq_getLast? (h : ms.Pairwise (· < ·)) (c : UInt32) :
    (ofMembers ms).lookup c = (indicesIn ms c).getLast? := by
  cases hlast : (indicesIn ms c).getLast? with
  | some last => exact lookup_ofMembers_eq_some_iff.2 (isLast_of_getLast? h hlast)
  | none =>
    apply lookup_ofMembers_eq_none_iff.2
    intro m hm hc
    have hindex : m.index ∈ indicesIn ms c := mem_indicesIn.2 (hc ▸ hm)
    rw [List.getLast?_eq_none_iff.1 hlast] at hindex
    cases hindex

end LastIndex

namespace Document

variable {d : Document} {m : MemberId} {c last : UInt32}

def memberEntries : List Category := [.constructorEntry, .methodEntry]

def HasMember (d : Document) (ks : List Category) (m : MemberId) : Prop :=
  ∃ k ∈ ks, d.Has k (NavId.memberId m).nav.text

theorem mem_members_iff_hasMember : m ∈ d.members ↔ d.HasMember memberEntries m := by
  simp [mem_members, HasMember, memberEntries]

theorem mem_recorded_iff_hasMember :
    m ∈ (d.byCategory .constructorEntry ++ d.byCategory .methodEntry ++
        d.byCategory .classEntry).filterMap entryMember? ↔
      d.HasMember (.classEntry :: memberEntries) m := by
  rw [LastIndex.mem_recorded, mem_members_iff_hasMember, or_comm]
  simp [HasMember]

theorem mem_map_fst_ofDocument :
    c ∈ (LastIndex.ofDocument d).map Prod.fst ↔
      ∃ m, d.HasMember (.classEntry :: memberEntries) m ∧ m.owner = c := by
  rw [LastIndex.ofDocument, LastIndex.mem_map_fst_ofMembers]
  simp only [mem_recorded_iff_hasMember]

theorem mem_ofDocument :
    (c, last) ∈ LastIndex.ofDocument d ↔
      d.HasMember (.classEntry :: memberEntries) ⟨c, last⟩ ∧
        ∀ i, d.HasMember (.classEntry :: memberEntries) ⟨c, i⟩ → i ≤ last := by
  rw [LastIndex.ofDocument, LastIndex.mem_ofMembers, LastIndex.IsLast]
  simp only [mem_recorded_iff_hasMember]

/-- Where no entry of a class has the id of a member, the table is made of the listed members. -/
theorem ofDocument_eq_ofMembers (h : ∀ m, ¬ d.HasMember [.classEntry] m) :
    LastIndex.ofDocument d = LastIndex.ofMembers d.members := by
  apply LastIndex.ofMembers_congr
  intro m
  rw [LastIndex.mem_recorded]
  apply or_iff_left
  intro hm
  exact h m ⟨_, List.mem_singleton_self _, hm⟩

def scatteredPage : Document :=
  .ofElements [
    ⟨"nav_1_9", .methodEntry, none, {}⟩,
    ⟨"nav_2_3", .memberPanel, none, {}⟩,
    ⟨"nav_1_10", .constructorEntry, none, {}⟩,
    ⟨"nav_01_11", .classEntry, none, {}⟩,
    ⟨"nav_1_9", .methodEntry, none, {}⟩,
    ⟨"nav_1_+12", .methodEntry, none, {}⟩,
    ⟨"nav_0_4294967295", .methodEntry, none, {}⟩]

theorem members_scatteredPage : scatteredPage.members = [⟨0, 4294967295⟩, ⟨1, 9⟩, ⟨1, 10⟩] := by
  rw [members, byCategory_eq_filter, byCategory_eq_filter, scatteredPage, toList_ofElements]
  decide +kernel

theorem not_hasMember_scatteredPage : ∀ m, ¬ scatteredPage.HasMember [.classEntry] m := by
  have hnone : (scatteredPage.byCategory .classEntry).filterMap entryMember? = [] := by
    rw [byCategory_eq_filter, scatteredPage, toList_ofElements]
    decide +kernel
  rintro m ⟨k, hk, hm⟩
  rw [List.mem_singleton.1 hk, ← exists_entryMember?_iff, hnone] at hm
  cases hm

end Document

namespace Session

open Document

/-- The members are listed in ascending order, each once, and are those that the entries of
constructors and of methods name. The table has each class of which these entries or those of
classes name a member, with the greatest place named. So it has the classes of the listed members,
each with the place that is listed last for it, unless an entry of a class names a member. -/
theorem list_and_table_agree (s : Session) :
    let d := s.page
    let table := s.indexMembers.lastIndex
    let Listed : MemberId → Prop := d.HasMember [.constructorEntry, .methodEntry]
    let Recorded : MemberId → Prop := d.HasMember [.classEntry, .constructorEntry, .methodEntry]
    d.members.Pairwise (· < ·) ∧
      (d.members = d.membersByClass.flatMap fun (c, indices) => indices.map (MemberId.mk c)) ∧
      (∀ m, m ∈ d.members ↔ Listed m) ∧
      (table.map Prod.fst).Pairwise (· < ·) ∧
      (∀ c, c ∈ table.map Prod.fst ↔ ∃ m, Recorded m ∧ m.owner = c) ∧
      (∀ c last, (c, last) ∈ table ↔ Recorded ⟨c, last⟩ ∧ ∀ i, Recorded ⟨c, i⟩ → i ≤ last) ∧
      ((∀ m, ¬ d.HasMember [.classEntry] m) →
        table.map Prod.fst = Ascending.ofList (d.members.map MemberId.owner) ∧
          ∀ c, table.lookup c = (d.indicesOf c).getLast?) := by
  intro d table Listed Recorded
  refine ⟨d.pairwise_members, d.members_eq_flatMap, fun m => mem_members_iff_hasMember,
    List.pairwise_map.2 (LastIndex.ordered_ofMembers _), fun c => mem_map_fst_ofDocument,
    fun c last => mem_ofDocument, ?_⟩
  intro h
  have htable : table = LastIndex.ofMembers d.members := ofDocument_eq_ofMembers h
  rw [htable]
  exact ⟨LastIndex.map_fst_ofMembers _, LastIndex.lookup_ofMembers_eq_getLast? d.pairwise_members⟩

theorem list_and_table_agree_scatteredPage :
    let s : Session := { page := scatteredPage }
    let table := s.indexMembers.lastIndex
    (∀ m, ¬ s.page.HasMember [.classEntry] m) ∧
      table.map Prod.fst = [0, 1] ∧ table.lookup 1 = some 10 := by
  intro s table
  have h : ∀ m, ¬ s.page.HasMember [.classEntry] m := not_hasMember_scatteredPage
  have hmembers : s.page.members = _ := members_scatteredPage
  obtain ⟨-, -, -, -, -, -, hagree⟩ := list_and_table_agree s
  obtain ⟨hkeys, hlast⟩ := hagree h
  have hone := hlast 1
  rw [indicesOf, hmembers] at hone
  rw [hmembers] at hkeys
  exact ⟨h, hkeys, hone⟩

end Session

end Sidebar
