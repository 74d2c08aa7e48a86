import Mathlib.Data.List.Induction
import Sidebar.LastIndex
import Sidebar.Proofs.Entries

namespace Sidebar

namespace LastIndex

variable {table table' : LastIndex} {ms : List MemberId} {c last : UInt32}

def Ordered (table : LastIndex) : Prop := table.Pairwise fun row row' => row.1 < row'.1

theorem fst_mem_record {m : MemberId} {row : UInt32 × UInt32} (h : row ∈ record m table) :
    row.1 = m.owner ∨ ∃ row' ∈ table, row'.1 = row.1 := by
  induction table with
  | nil =>
    rw [List.mem_singleton.1 h]
    exact .inl rfl
  | cons head rest ih =>
    simp only [record] at h
    split at h
    next ho =>
      rcases List.mem_cons.1 h with rfl | h
      · exact .inl ho.symm
      · exact .inr ⟨row, List.mem_cons_of_mem _ h, rfl⟩
    next =>
      split at h
      next =>
        rcases List.mem_cons.1 h with rfl | h
        · exact .inl rfl
        · exact .inr ⟨row, h, rfl⟩
      next =>
        rcases List.mem_cons.1 h with rfl | h
        · exact .inr ⟨_, List.mem_cons_self .., rfl⟩
        · rcases ih h with ho | ⟨row', hrow, he⟩
          · exact .inl ho
          · exact .inr ⟨row', List.mem_cons_of_mem _ hrow, he⟩

theorem Ordered.record (h : Ordered table) (m : MemberId) : Ordered (record m table) := by
  induction table with
  | nil => exact List.pairwise_singleton _ _
  | cons head rest ih =>
    obtain ⟨hhead, hrest⟩ := List.pairwise_cons.1 h
    simp only [LastIndex.record]
    split
    next => exact List.pairwise_cons.2 ⟨hhead, hrest⟩
    next hne =>
      split
      next hlt =>
        refine List.pairwise_cons.2 ⟨?_, h⟩
        intro row hrow
        rcases List.mem_cons.1 hrow with rfl | hrow
        · exact hlt
        · exact Trans.trans hlt (hhead row hrow)
      next hge =>
        refine List.pairwise_cons.2 ⟨?_, ih hrest⟩
        intro row hrow
        rcases fst_mem_record hrow with ho | ⟨row', hrow', he⟩
        · rw [ho]
          exact UInt32.lt_of_le_of_ne (UInt32.not_lt.1 hge) (Ne.symm hne)
        · rw [← he]
          exact hhead row' hrow'

theorem lookup_cons_eq (row : UInt32 × UInt32) (table : LastIndex) :
    List.lookup c (row :: table) = if c = row.1 then some row.2 else table.lookup c := by
  rw [List.lookup_cons]
  by_cases h : c = row.1
  · rw [if_pos h, beq_iff_eq.2 h]
  · rw [if_neg h, beq_eq_false_iff_ne.2 h]

theorem lookup_eq_none_of_lt (h : ∀ row ∈ table, c < row.1) : table.lookup c = none := by
  rw [List.lookup_eq_none_iff]
  intro row hrow
  rw [bne_iff_ne]
  rintro rfl
  exact irrefl _ (h row hrow)

theorem lookup_record (h : Ordered table) (m : MemberId) :
    (record m table).lookup c =
      if c = m.owner then some ((table.lookup c).elim m.index (max · m.index))
      else table.lookup c := by
  induction table with
  | nil => exact lookup_cons_eq _ _
  | cons head rest ih =>
    obtain ⟨hhead, hrest⟩ := List.pairwise_cons.1 h
    simp only [record]
    split
    next ho =>
      rw [lookup_cons_eq, lookup_cons_eq, ho]
      by_cases hc : c = head.1
      · simp only [if_pos hc, Option.elim_some]
      · simp only [if_neg hc]
    next hne =>
      split
      next hlt =>
        rw [lookup_cons_eq]
        by_cases hc : c = m.owner
        · have hnone : List.lookup c (head :: rest) = none := by
            refine lookup_eq_none_of_lt ?_
            intro row hrow
            rw [hc]
            rcases List.mem_cons.1 hrow with rfl | hrow
            · exact hlt
            · exact Trans.trans hlt (hhead row hrow)
          rw [if_pos hc, if_pos hc, hnone]
          rfl
        · rw [if_neg hc, if_neg hc]
      next =>
        rw [lookup_cons_eq, lookup_cons_eq, ih hrest]
        by_cases hc : c = head.1
        · have hne' : c ≠ m.owner := by
            rw [hc]
            exact Ne.symm hne
          rw [if_pos hc, if_neg hne', if_pos hc]
        · simp only [if_neg hc]

theorem ofMembers_concat (ms : List MemberId) (m : MemberId) :
    ofMembers (ms ++ [m]) = record m (ofMembers ms) := by
  rw [ofMembers, List.foldl_append]
  rfl

theorem ordered_ofMembers (ms : List MemberId) : Ordered (ofMembers ms) := by
  induction ms using List.reverseRecOn with
  | nil => exact .nil
  | append_singleton ms m ih =>
    rw [ofMembers_concat]
    exact ih.record m

theorem lookup_ofMembers_eq_none_iff :
    (ofMembers ms).lookup c = none ↔ ∀ m ∈ ms, m.owner ≠ c := by
  induction ms using List.reverseRecOn with
  | nil => simp [ofMembers]
  | append_singleton ms m ih =>
    rw [ofMembers_concat, lookup_record (ordered_ofMembers ms)]
    by_cases hc : c = m.owner
    · simp [hc]
    · simp [hc, ih, Ne.symm hc, or_imp, forall_and]

def IsLast (ms : List MemberId) (c last : UInt32) : Prop :=
  ⟨c, last⟩ ∈ ms ∧ ∀ i, ⟨c, i⟩ ∈ ms → i ≤ last

theorem IsLast.unique {last' : UInt32} (h : IsLast ms c last) (h' : IsLast ms c last') :
    last = last' :=
  UInt32.le_antisymm (h'.2 _ h.1) (h.2 _ h'.1)

theorem IsLast.concat_other {m : MemberId} (h : IsLast ms c last) (hc : c ≠ m.owner) :
    IsLast (ms ++ [m]) c last := by
  refine ⟨List.mem_append_left _ h.1, ?_⟩
  intro i hi
  rcases List.mem_append.1 hi with hi | hi
  · exact h.2 i hi
  · rw [← List.mem_singleton.1 hi] at hc
    exact absurd rfl hc

theorem max_eq_ite (k i : UInt32) : max k i = if k ≤ i then i else k := rfl

theorem le_max (k i : UInt32) : k ≤ max k i ∧ i ≤ max k i := by
  rw [max_eq_ite]
  split
  next h => exact ⟨h, UInt32.le_refl _⟩
  next h => exact ⟨UInt32.le_refl _, UInt32.le_of_lt (UInt32.not_le.1 h)⟩

theorem IsLast.concat {k i : UInt32} (h : IsLast ms c k) :
    IsLast (ms ++ [⟨c, i⟩]) c (max k i) := by
  constructor
  · rw [max_eq_ite]
    split
    · exact List.mem_append_right _ (List.mem_singleton_self _)
    · exact List.mem_append_left _ h.1
  · intro j hj
    rcases List.mem_append.1 hj with hj | hj
    · exact UInt32.le_trans (h.2 j hj) (le_max k i).1
    · cases List.mem_singleton.1 hj
      exact (le_max k i).2

theorem isLast_of_lookup (h : (ofMembers ms).lookup c = some last) : IsLast ms c last := by
  induction ms using List.reverseRecOn generalizing last with
  | nil => cases h
  | append_singleton ms m ih =>
    rw [ofMembers_concat, lookup_record (ordered_ofMembers ms)] at h
    split at h
    next hc =>
      obtain ⟨c', i'⟩ := m
      cases hc
      cases hl : (ofMembers ms).lookup c' with
      | some k =>
        rw [hl] at h
        cases h
        exact (ih hl).concat
      | none =>
        rw [hl] at h
        cases h
        refine ⟨List.mem_append_right _ (List.mem_singleton_self _), ?_⟩
        intro i hi
        rcases List.mem_append.1 hi with hi | hi
        · exact absurd rfl (lookup_ofMembers_eq_none_iff.1 hl _ hi)
        · cases List.mem_singleton.1 hi
          exact UInt32.le_refl _
    next hc => exact (ih h).concat_other hc

theorem lookup_ofMembers_eq_some_iff :
    (ofMembers ms).lookup c = some last ↔ IsLast ms c last := by
  refine ⟨isLast_of_lookup, ?_⟩
  intro h
  cases hl : (ofMembers ms).lookup c with
  | none => exact absurd rfl (lookup_ofMembers_eq_none_iff.1 hl _ h.1)
  | some k => rw [(isLast_of_lookup hl).unique h]

theorem Ordered.mem_iff_lookup (h : Ordered table) {row : UInt32 × UInt32} :
    row ∈ table ↔ table.lookup row.1 = some row.2 := by
  rw [List.lookup_eq_some_iff]
  constructor
  · intro hrow
    obtain ⟨before, after, rfl⟩ := List.mem_iff_append.1 hrow
    refine ⟨before, after, rfl, ?_⟩
    intro row' hrow'
    have hlt : row'.1 < row.1 :=
      (List.pairwise_append.1 h).2.2 row' hrow' row (List.mem_cons_self ..)
    rw [bne_iff_ne]
    intro he
    rw [he] at hlt
    exact irrefl _ hlt
  · rintro ⟨before, after, rfl, -⟩
    exact List.mem_append_right _ (List.mem_cons_self ..)

instance : Std.Irrefl fun row row' : UInt32 × UInt32 => row.1 < row'.1 :=
  ⟨fun row => irrefl row.1⟩

instance : Std.Antisymm fun row row' : UInt32 × UInt32 => row.1 < row'.1 :=
  ⟨fun _ _ h h' => absurd h' (asymm h)⟩

theorem Ordered.ext (h : Ordered table) (h' : Ordered table')
    (hl : ∀ c, table.lookup c = table'.lookup c) : table = table' := by
  refine List.Pairwise.eq_of_mem_iff h h' ?_
  intro row
  rw [h.mem_iff_lookup, h'.mem_iff_lookup, hl]

theorem ofMembers_congr {ms' : List MemberId} (h : ∀ m, m ∈ ms ↔ m ∈ ms') :
    ofMembers ms = ofMembers ms' := by
  refine (ordered_ofMembers ms).ext (ordered_ofMembers ms') ?_
  intro c
  cases hl : (ofMembers ms').lookup c with
  | none =>
    rw [lookup_ofMembers_eq_none_iff] at hl ⊢
    intro m hm
    exact hl m ((h m).1 hm)
  | some last =>
    rw [lookup_ofMembers_eq_some_iff] at hl ⊢
    exact ⟨(h _).2 hl.1, fun i hi => hl.2 i ((h _).1 hi)⟩

theorem mem_recorded {d : Document} {m : MemberId} :
    m ∈ (d.byCategory .constructorEntry ++ d.byCategory .methodEntry ++
        d.byCategory .classEntry).filterMap Document.entryMember? ↔
      m ∈ d.members ∨ d.Has .classEntry (NavId.memberId m).nav.text := by
  rw [List.filterMap_append, List.filterMap_append, List.mem_append, List.mem_append,
    Document.exists_entryMember?_iff, Document.exists_entryMember?_iff,
    Document.exists_entryMember?_iff, Document.mem_members]

theorem ofDocument_congr {d d' : Document} (h : d.SameEntries d') :
    ofDocument d = ofDocument d' := by
  apply ofMembers_congr
  intro m
  rw [mem_recorded, mem_recorded, h.members]
  exact or_congr_right (h _ _)

end LastIndex

end Sidebar
