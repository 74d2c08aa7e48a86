import Sidebar.Proofs.WellNumbered

namespace Sidebar.Document

variable {d : Document} {c : UInt32} {xs : List UInt32}

/-- The contract apart from the numbering. -/
structure KeepsShape (d : Document) : Prop where
  distinctIds : d.DistinctIds
  wellNamed : d.WellNamed
  hasPanels : d.HasPanels
  owner_mem : ∀ m ∈ d.members, m.owner ∈ d.classIds
  constructor_first : ∀ m : MemberId,
    d.Has .constructorEntry (NavId.memberId m).nav.text → m.index = 1

/-- The contract: classes are numbered from 1, and so are the members of each class. -/
structure KeepsContract (d : Document) : Prop extends d.KeepsShape where
  classIds_eq : ∃ n, d.classIds = upTo n
  indicesOf_eq : ∀ c ∈ d.classIds, ∃ count, 1 ≤ count ∧ d.indicesOf c = upTo count

/-- The contract for everything that has a number from 1 on. -/
structure KeepsContractFromOne (d : Document) : Prop extends d.KeepsShape where
  classIds_eq : d.classIds = [] ∨ ∃ n, 1 ≤ n ∧ d.classIds.erase 0 = upTo n
  indicesOf_eq : ∀ c ∈ d.classIds,
    d.indicesOf c ≠ [] ∧ ∃ count, (d.indicesOf c).erase 0 = upTo count

def ListsZero (d : Document) : Prop := 0 ∈ d.classIds ∨ ∃ m ∈ d.members, m.index = 0

theorem nodup_iff_idxOf? [DecidableEq α] {as : List α} :
    as.Nodup ↔ ∀ i a, as[i]? = some a → as.idxOf? a = some i := by
  constructor
  · intro h i a hi
    obtain ⟨hlt, rfl⟩ := List.getElem?_eq_some_iff.1 hi
    refine List.idxOf?_eq_some_iff.2 ⟨hlt, rfl, ?_⟩
    intro j hj he
    exact Nat.ne_of_lt hj (h.getElem_inj_iff.1 he)
  · intro h
    rw [List.nodup_iff_getElem?_ne_getElem?]
    intro i j hij hj he
    have hsome := List.getElem?_eq_getElem hj
    have hi := (h i _ (he.trans hsome)).symm.trans (h j _ hsome)
    exact Nat.ne_of_lt hij (Option.some.inj hi)

theorem idIssues_eq_nil_iff : d.idIssues = [] ↔ d.DistinctIds ∧ d.WellNamed := by
  have hplace : d.idIssues = [] ↔ ∀ e place, d.elements.toList[place]? = some e →
      (d.elements.toList.map Element.id).idxOf? e.id = some place ∧ e.isWellNamed = true := by
    simp [idIssues, List.flatMap_eq_nil_iff, List.mk_mem_zipIdx_iff_getElem?, d.firstPlace_eq]
  rw [hplace, DistinctIds, nodup_iff_idxOf?, WellNamed]
  constructor
  · intro h
    refine ⟨?_, ?_⟩
    · intro place id hid
      rw [List.getElem?_map] at hid
      obtain ⟨e, he, rfl⟩ := Option.map_eq_some_iff.1 hid
      exact (h e place he).1
    · intro e he
      obtain ⟨place, hplace⟩ := List.mem_iff_getElem?.1 (Array.mem_toList_iff.2 he)
      exact (h e place hplace).2
  · rintro ⟨hdistinct, hnamed⟩ e place he
    refine ⟨hdistinct place e.id ?_, hnamed e (Array.mem_toList_iff.1 (List.mem_of_getElem? he))⟩
    rw [List.getElem?_map, he]
    rfl

theorem panelIssues_eq_nil_iff {entry : NavId} {expected : List Address} :
    d.panelIssues entry expected = [] ↔ ∀ a ∈ expected, d.contains a.text = true := by
  simp [panelIssues]

theorem numberingIssues_eq_nil_iff (h : xs.Pairwise (· < ·)) :
    numberingIssues xs = [] ↔ xs = [] ∨ ∃ n, 1 ≤ n ∧ xs.erase 0 = upTo n := by
  have hissues : numberingIssues xs = [] ↔ (xs = [] ∨ 1 ∈ xs) ∧ ∃ n, xs.erase 0 = upTo n := by
    rw [numberingIssues, List.append_eq_nil_iff, List.map_eq_nil_iff, gaps_eq_nil_iff h]
    simp [or_iff_not_imp_left]
  rw [hissues]
  constructor
  · rintro ⟨rfl | hone, n, hn⟩
    · exact .inl rfl
    · have hmem : (1 : UInt32) ∈ xs.erase 0 := (mem_erase_zero h).2 ⟨Nat.le_refl 1, hone⟩
      rw [hn, mem_upTo] at hmem
      exact .inr ⟨n, UInt32.le_iff_toNat_le.2 hmem.2, hn⟩
  · rintro (rfl | ⟨n, hle, hn⟩)
    · exact ⟨.inl rfl, 0, rfl⟩
    · have hmem : (1 : UInt32) ∈ xs.erase 0 := by
        rw [hn]
        exact mem_upTo.2 ⟨Nat.le_refl 1, UInt32.le_iff_toNat_le.1 hle⟩
      exact ⟨.inr ((mem_erase_zero h).1 hmem).2, n, hn⟩

theorem classIssues_eq_nil_iff (h : xs.Pairwise (· < ·)) :
    d.classIssues c xs = [] ↔
      (d.contains (Address.text ⟨.list, .classId c⟩) = true ∧
        d.contains (Address.text ⟨.description, .classId c⟩) = true) ∧
      xs ≠ [] ∧ ∃ n, xs.erase 0 = upTo n := by
  rw [classIssues, List.append_eq_nil_iff, panelIssues_eq_nil_iff, ← gaps_eq_nil_iff h]
  cases xs <;> simp

theorem memberIssues_eq_nil_iff {classes : List UInt32} :
    d.memberIssues classes c xs = [] ↔
      c ∈ classes ∧
        ∀ i ∈ xs, d.contains (Address.text ⟨.description, .memberId ⟨c, i⟩⟩) = true := by
  rw [memberIssues, List.append_eq_nil_iff, List.flatMap_eq_nil_iff]
  simp [panelIssues_eq_nil_iff]

theorem constructorIssues_eq_nil_iff :
    d.constructorIssues = [] ↔
      ∀ m : MemberId, d.Has .constructorEntry (NavId.memberId m).nav.text → m.index = 1 := by
  rw [constructorIssues, List.map_eq_nil_iff, List.filter_eq_nil_iff]
  simp only [exists_entryMember?_iff]
  simp

theorem flatMap_memberIssues_eq_nil_iff :
    (d.membersByClass.flatMap fun (c, indices) => d.memberIssues d.classIds c indices) = [] ↔
      ∀ m ∈ d.members, m.owner ∈ d.classIds ∧
        d.contains (Address.text ⟨.description, .memberId m⟩) = true := by
  rw [List.flatMap_eq_nil_iff]
  constructor
  · intro h m hm
    have hrow := mem_membersByClass.2 ⟨rfl, m.index, hm⟩
    obtain ⟨howner, hpanels⟩ := memberIssues_eq_nil_iff.1 (h _ hrow)
    exact ⟨howner, hpanels m.index (mem_indicesOf.2 hm)⟩
  · rintro h ⟨c, indices⟩ hrow
    obtain ⟨rfl, i, hi⟩ := mem_membersByClass.1 hrow
    refine memberIssues_eq_nil_iff.2 ⟨(h _ hi).1, ?_⟩
    intro j hj
    exact (h _ (mem_indicesOf.1 hj)).2

theorem check_eq_nil_iff (d : Document) : d.check = [] ↔ d.KeepsContractFromOne := by
  have hclass (c : UInt32) := classIssues_eq_nil_iff (d := d) (c := c) (d.pairwise_indicesOf c)
  simp only [check, List.append_eq_nil_iff, idIssues_eq_nil_iff,
    numberingIssues_eq_nil_iff d.pairwise_classIds, flatMap_memberIssues_eq_nil_iff,
    constructorIssues_eq_nil_iff]
  rw [List.flatMap_eq_nil_iff]
  constructor
  · rintro ⟨⟨⟨⟨⟨hdistinct, hnamed⟩, hclasses⟩, hindices⟩, hmembers⟩, hfirst⟩
    have hindices c hc := (hclass c).1 (hindices c hc)
    exact
      { distinctIds := hdistinct
        wellNamed := hnamed
        hasPanels := ⟨fun c hc => (hindices c hc).1.1, fun c hc => (hindices c hc).1.2,
          fun m hm => (hmembers m hm).2⟩
        owner_mem := fun m hm => (hmembers m hm).1
        constructor_first := hfirst
        classIds_eq := hclasses
        indicesOf_eq := fun c hc => (hindices c hc).2 }
  · intro h
    have hpanels := h.hasPanels
    refine ⟨⟨⟨⟨⟨h.distinctIds, h.wellNamed⟩, h.classIds_eq⟩, ?_⟩, ?_⟩, h.constructor_first⟩
    · intro c hc
      exact (hclass c).2 ⟨⟨hpanels.list c hc, hpanels.classPanel c hc⟩, h.indicesOf_eq c hc⟩
    · intro m hm
      exact ⟨h.owner_mem m hm, hpanels.memberPanel m hm⟩

theorem KeepsContract.not_listsZero (h : d.KeepsContract) : ¬ d.ListsZero := by
  rintro (hclass | ⟨m, hm, hindex⟩)
  · exact (exists_eq_upTo_iff.1 h.classIds_eq).1 hclass
  · obtain ⟨count, -, hcount⟩ := h.indicesOf_eq m.owner (h.owner_mem m hm)
    have hmem := mem_indicesOf.2 hm
    rw [hindex] at hmem
    exact (exists_eq_upTo_iff.1 ⟨count, hcount⟩).1 hmem

theorem KeepsContract.fromOne (h : d.KeepsContract) : d.KeepsContractFromOne where
  toKeepsShape := h.toKeepsShape
  classIds_eq := by
    obtain ⟨n, hn⟩ := h.classIds_eq
    refine (em (d.classIds = [])).imp_right ?_
    intro hne
    rw [List.erase_of_not_mem (exists_eq_upTo_iff.1 h.classIds_eq).1]
    exact ⟨n, upTo_ne_nil_iff.1 (hn ▸ hne), hn⟩
  indicesOf_eq := by
    intro c hc
    obtain ⟨count, hle, hcount⟩ := h.indicesOf_eq c hc
    exact ⟨hcount ▸ upTo_ne_nil_iff.2 hle, (exists_eq_upTo_iff.1 ⟨count, hcount⟩).2⟩

theorem KeepsContractFromOne.keepsContract (h : d.KeepsContractFromOne) (hzero : ¬ d.ListsZero) :
    d.KeepsContract where
  toKeepsShape := h.toKeepsShape
  classIds_eq := by
    rcases h.classIds_eq with hnil | ⟨n, -, hn⟩
    · exact ⟨0, hnil⟩
    · exact exists_eq_upTo_iff.2 ⟨fun hclass => hzero (.inl hclass), n, hn⟩
  indicesOf_eq := by
    intro c hc
    obtain ⟨hne, hcount⟩ := h.indicesOf_eq c hc
    have hnot : 0 ∉ d.indicesOf c := by
      intro hindex
      exact hzero (.inr ⟨⟨c, 0⟩, mem_indicesOf.1 hindex, rfl⟩)
    obtain ⟨count, hcount⟩ := exists_eq_upTo_iff.2 ⟨hnot, hcount⟩
    exact ⟨count, upTo_ne_nil_iff.1 (hcount ▸ hne), hcount⟩

theorem keepsContract_iff (d : Document) :
    d.KeepsContract ↔ d.KeepsContractFromOne ∧ ¬ d.ListsZero := by
  constructor
  · intro h
    exact ⟨h.fromOne, h.not_listsZero⟩
  · intro h
    exact h.1.keepsContract h.2

/-- The check decides the contract, save on the pages that break it by a number 0 and by nothing
else. -/
theorem check_decides_contract_iff (d : Document) :
    ((d.check = [] ↔ d.KeepsContract) ↔ ¬ (d.KeepsContractFromOne ∧ d.ListsZero)) ∧
      (d.KeepsContract → d.check = []) := by
  rw [check_eq_nil_iff, keepsContract_iff]
  refine ⟨?_, And.left⟩
  rw [iff_self_and, not_and]

/-- A class whose only member has the number 0. -/
def memberZeroPage : Document :=
  .ofElements [
    ⟨"nav_1", .classEntry, none, {}⟩,
    ⟨"list_1", .memberList, none, {}⟩,
    ⟨"description_1", .classPanel, none, {}⟩,
    ⟨"nav_1_0", .methodEntry, none, {}⟩,
    ⟨"description_1_0", .memberPanel, none, {}⟩]

theorem classIds_memberZeroPage : memberZeroPage.classIds = [1] := by
  rw [classIds, byCategory_eq_filter, memberZeroPage, toList_ofElements]
  decide +kernel

theorem members_memberZeroPage : memberZeroPage.members = [⟨1, 0⟩] := by
  rw [members, byCategory_eq_filter, byCategory_eq_filter, memberZeroPage, toList_ofElements]
  decide +kernel

theorem keepsContractFromOne_memberZeroPage : memberZeroPage.KeepsContractFromOne where
  distinctIds := by
    rw [DistinctIds, memberZeroPage, toList_ofElements]
    decide +kernel
  wellNamed := by
    rw [WellNamed]
    decide +kernel
  hasPanels := by
    constructor
    all_goals
      simp only [classIds_memberZeroPage, members_memberZeroPage, List.mem_singleton, forall_eq,
        contains_iff]
      decide +kernel
  owner_mem := by
    rw [classIds_memberZeroPage, members_memberZeroPage]
    decide
  constructor_first := by
    have hnone : ∀ e ∈ memberZeroPage.elements, e.category ≠ .constructorEntry := by
      decide +kernel
    rintro m ⟨e, he, hk, -⟩
    exact absurd hk (hnone e he)
  classIds_eq := by
    rw [classIds_memberZeroPage]
    exact .inr ⟨1, by decide, by decide⟩
  indicesOf_eq := by
    simp only [classIds_memberZeroPage, indicesOf, members_memberZeroPage, List.mem_singleton]
    rintro c rfl
    exact ⟨by decide, 0, by decide⟩

theorem check_memberZeroPage :
    ¬ (memberZeroPage.check = [] ↔ memberZeroPage.KeepsContract) := by
  intro h
  have hkeeps := h.1 ((check_eq_nil_iff _).2 keepsContractFromOne_memberZeroPage)
  have hzero : memberZeroPage.ListsZero := by
    refine .inr ⟨⟨1, 0⟩, ?_, rfl⟩
    rw [members_memberZeroPage]
    exact List.mem_singleton_self _
  exact hkeeps.not_listsZero hzero

end Sidebar.Document
