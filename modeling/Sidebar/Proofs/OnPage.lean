import Sidebar.Proofs.Paging

namespace Sidebar

namespace Document

variable {d : Document} {m b : MemberId} {c : UInt32}

/-- The members that the paging keys lead to from the loading of the page on. -/
inductive Reaches (d : Document) : MemberId → Prop
  | first : Reaches d (.firstOf 1)
  | step {m b : MemberId} (hm : Reaches d m) (way : Direction)
    (hb : d.memberBeside? (.ofDocument d) way m = some b) : Reaches d b

def HasClassesTo (d : Document) (c : UInt32) : Prop :=
  ∀ k : UInt32, 1 < k → k ≤ c → d.hasEntry (.classId k) = true

theorem HasClassesTo.of_le {k : UInt32} (h : d.HasClassesTo c) (hk : k ≤ c) : d.HasClassesTo k :=
  fun j hj hle => h j hj (UInt32.le_trans hle hk)

theorem HasClassesTo.next {k : UInt32} (h : d.HasClassesTo c) (hk : k.toNat = c.toNat + 1)
    (hentry : d.hasEntry (.classId k) = true) : d.HasClassesTo k := by
  intro j hj hle
  rw [UInt32.le_iff_toNat_le] at hle
  rcases Nat.lt_or_eq_of_le hle with hlt | heq
  · exact h j hj (UInt32.le_iff_toNat_le.2 (by omega))
  · rw [UInt32.toNat_inj.1 heq]
    exact hentry

theorem hasEntry_of_lookup {last : UInt32} (h : (LastIndex.ofDocument d).lookup c = some last) :
    d.hasEntry (.memberId ⟨c, last⟩) = true := by
  rcases LastIndex.mem_recorded.1 (LastIndex.isLast_of_lookup h).1 with hm | hm
  · exact hasEntry_of_mem_members hm
  · exact contains_iff_has.2 ⟨_, hm⟩

/-- A step leads to an entry of a class that can be got to, or to the first member of the next
class. -/
theorem hasEntry_or_firstOf (h : d.HasClassesTo m.owner) {way : Direction}
    (hb : d.memberBeside? (.ofDocument d) way m = some b) :
    d.HasClassesTo b.owner ∧
      (d.hasEntry (.memberId b) = true ∨ 1 ≤ b.owner ∧ b = .firstOf b.owner) := by
  rcases d.memberBeside?_cases (.ofDocument d) way m with ⟨i, -, hentry, he⟩ | ⟨-, he⟩
  · rw [hb] at he
    cases he
    exact ⟨h, .inl hentry⟩
  · rw [hb] at he
    obtain ⟨c, hbeside, hentered⟩ := Option.bind_eq_some_iff.1 he.symm
    obtain ⟨hnext, hclass⟩ := classBeside?_eq_some_iff.1 hbeside
    cases way with
    | forward =>
      cases hentered
      have hc := Direction.next?_forward.1 hnext
      have hone : 1 ≤ c := by
        rw [UInt32.le_iff_toNat_le, hc]
        exact Nat.le_add_left 1 _
      exact ⟨h.next hc hclass, .inr ⟨hone, rfl⟩⟩
    | back =>
      obtain ⟨last, hlast, rfl⟩ := Option.map_eq_some_iff.1 hentered
      have hc := Direction.next?_back.1 hnext
      refine ⟨h.of_le ?_, .inl (hasEntry_of_lookup hlast)⟩
      rw [UInt32.le_iff_toNat_le, hc]
      exact Nat.le_add_right _ 1

theorem Reaches.hasClassesTo (h : d.Reaches m) : d.HasClassesTo m.owner := by
  induction h with
  | first =>
    intro k hk hle
    exact absurd hk (UInt32.not_lt.2 hle)
  | step hm way hb ih => exact (hasEntry_or_firstOf ih hb).1

theorem Reaches.firstOf_next (h : d.Reaches m) (hc : c.toNat = m.owner.toNat + 1)
    (hentry : d.hasEntry (.classId c) = true) : d.Reaches (.firstOf c) := by
  induction hrest : UInt32.size - m.index.toNat using Nat.strong_induction_on generalizing m with
  | h rest ih =>
    rcases d.memberBeside?_cases (.ofDocument d) .forward m with ⟨i, hi, -, he⟩ | ⟨-, he⟩
    · have hnext := Direction.next?_forward.1 hi
      have hlt := i.toNat_lt_size
      exact ih (UInt32.size - i.toNat) (by omega) (h.step .forward he) hc rfl
    · rw [classBeside?_eq_some_iff.2 ⟨Direction.next?_forward.2 hc, hentry⟩] at he
      exact h.step .forward he

theorem HasClassesTo.reaches_firstOf (h : d.HasClassesTo c) (hc : 1 ≤ c) :
    d.Reaches (.firstOf c) := by
  have hone : UInt32.toNat 1 = 1 := rfl
  rw [UInt32.le_iff_toNat_le] at hc
  obtain ⟨n, hn⟩ := Nat.exists_eq_add_of_le' hc
  induction n generalizing c with
  | zero =>
    have he : c = 1 := UInt32.toNat_inj.1 (by omega)
    rw [he]
    exact .first
  | succ n ih =>
    obtain ⟨k, hk⟩ := exists_toNat_eq (n := c) (i := n + 1) (by omega)
    have hle : k ≤ c := UInt32.le_iff_toNat_le.2 (by omega)
    have hlt : 1 < c := UInt32.lt_iff_toNat_lt.2 (by omega)
    have hreach := ih (h.of_le hle) (by omega) (by omega)
    have hnext : c.toNat = (MemberId.firstOf k).owner.toNat + 1 := hn.trans (by rw [← hk]; rfl)
    exact hreach.firstOf_next hnext (h c hlt (UInt32.le_refl c))

theorem hasEntry_of_reaches_iff :
    (∀ m, d.Reaches m → d.hasEntry (.memberId m) = true) ↔
      ∀ c, 1 ≤ c → d.HasClassesTo c → d.hasEntry (.memberId (.firstOf c)) = true := by
  constructor
  · intro h c hc hclasses
    exact h _ (hclasses.reaches_firstOf hc)
  · intro h m hm
    cases hm with
    | first => exact h 1 (UInt32.le_refl 1) Reaches.first.hasClassesTo
    | step hm way hb =>
      obtain ⟨hclasses, hentry | ⟨hone, hfirst⟩⟩ := hasEntry_or_firstOf hm.hasClassesTo hb
      · exact hentry
      · rw [hfirst]
        exact h _ hone hclasses

end Document

namespace Session

variable {s : Session} {m : MemberId}

def OnPage (s : Session) : Prop := s.page.hasEntry (.memberId s.memberSelection) = true

theorem sameEntries_load_run (s : Session) (actions : List Action) :
    (s.load.run actions).page.SameEntries s.page := s.sameEntries_run (.load :: actions)

theorem indexed_load_run (s : Session) (actions : List Action) : (s.load.run actions).Indexed :=
  (indexed_indexMembers (s.openClass 1)).run actions

theorem memberSelection_paging_concat (s : Session) (keys : List Key) (key : Key) :
    let m := (s.load.run (keys.map .press)).memberSelection
    (s.load.run ((keys ++ [key]).map .press)).memberSelection =
      key.direction?.elim m fun way =>
        (s.page.memberBeside? (.ofDocument s.page) way m).getD m := by
  intro m
  rw [List.map_append, run, List.foldl_append]
  exact memberSelection_press (s.sameEntries_load_run _) (s.indexed_load_run _) key

theorem reaches_iff_exists_keys :
    s.page.Reaches m ↔
      ∃ keys : List Key, (s.load.run (keys.map .press)).memberSelection = m := by
  constructor
  · intro h
    induction h with
    | first => exact ⟨[], rfl⟩
    | step hm way hb ih =>
      obtain ⟨keys, rfl⟩ := ih
      obtain ⟨key, hkey⟩ : ∃ key : Key, key.direction? = some way := by
        cases way with
        | back => exact ⟨.pageUp, rfl⟩
        | forward => exact ⟨.pageDown, rfl⟩
      refine ⟨keys ++ [key], ?_⟩
      rw [memberSelection_paging_concat, hkey, Option.elim_some, hb, Option.getD_some]
  · rintro ⟨keys, rfl⟩
    induction keys using List.reverseRecOn with
    | nil => exact .first
    | append_singleton keys key ih =>
      rw [memberSelection_paging_concat]
      cases key.direction? with
      | none => exact ih
      | some way =>
        cases hb : s.page.memberBeside? (.ofDocument s.page) way _ with
        | none =>
          rw [Option.elim_some, hb]
          exact ih
        | some b =>
          rw [Option.elim_some, hb]
          exact ih.step way hb

/-- From the loading of a page on, no keys lead off the page exactly if the first member of the
first class has an entry, and so has that of each class to which the classes are listed without a
gap. -/
theorem paging_stays_on_page_iff (s : Session) :
    (∀ keys : List Key, (s.load.run (keys.map .press)).OnPage) ↔
      ∀ c, 1 ≤ c → s.page.HasClassesTo c → s.page.hasEntry (.memberId (.firstOf c)) = true := by
  have honPage (keys : List Key) : (s.load.run (keys.map .press)).OnPage ↔
      s.page.hasEntry (.memberId (s.load.run (keys.map .press)).memberSelection) = true := by
    rw [OnPage, (s.sameEntries_load_run _).hasEntry]
  rw [← Document.hasEntry_of_reaches_iff]
  simp only [honPage, reaches_iff_exists_keys, forall_exists_index, forall_apply_eq_imp_iff]

def emptyClassPage : Document :=
  .ofElements [
    ⟨"nav_1", .classEntry, none, {}⟩,
    ⟨"nav_1_1", .constructorEntry, none, {}⟩,
    ⟨"nav_2", .classEntry, none, {}⟩]

theorem hasEntry_emptyClassPage (id : NavId) :
    emptyClassPage.hasEntry id = decide (id.nav.text ∈ ["nav_1", "nav_1_1", "nav_2"]) := by
  rw [Bool.eq_iff_iff, Document.hasEntry, Document.contains_iff, decide_eq_true_iff]
  simp only [← Array.mem_toList_iff, emptyClassPage, Document.toList_ofElements]
  exact List.mem_map.symm

theorem paging_leaves_emptyClassPage :
    let s : Session := { page := emptyClassPage }
    s.load.OnPage ∧ ¬ (s.load.run [.press .pageDown]).OnPage := by
  intro s
  have hload : s.load.page.SameEntries emptyClassPage := s.sameEntries_load_run []
  have hpress : (s.load.run [.press .pageDown]).page.SameEntries emptyClassPage :=
    s.sameEntries_load_run [.press .pageDown]
  have hbeside : emptyClassPage.memberBeside? (.ofDocument emptyClassPage) .forward (.firstOf 1) =
      some (.firstOf 2) := by
    simp only [Document.memberBeside?, Document.classBeside?, hasEntry_emptyClassPage]
    decide +kernel
  have hdown : (s.load.run [.press .pageDown]).memberSelection = .firstOf 2 := by
    refine (s.memberSelection_paging_concat [] .pageDown).trans ?_
    exact congrArg (Option.getD · _) hbeside
  rw [OnPage, OnPage, hload.hasEntry, hpress.hasEntry, hdown, hasEntry_emptyClassPage,
    hasEntry_emptyClassPage]
  decide +kernel

end Session

end Sidebar
