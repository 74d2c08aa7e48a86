import Mathlib.Data.List.Sort
import Sidebar.Ascending
import Sidebar.NavId

namespace Sidebar

instance instIsStrictTotalOrderWord : IsStrictTotalOrder UInt32 (· < ·) where
  trichotomous a b hab hba := by
    rw [UInt32.lt_iff_toNat_lt] at hab hba
    exact UInt32.toNat_inj.1 (by omega)
  irrefl a h := by
    rw [UInt32.lt_iff_toNat_lt] at h
    omega
  trans a b c hab hbc := by
    rw [UInt32.lt_iff_toNat_lt] at hab hbc ⊢
    omega

namespace MemberId

theorem lt_iff {a b : MemberId} :
    a < b ↔ a.owner < b.owner ∨ a.owner = b.owner ∧ a.index < b.index :=
  Iff.rfl

instance : IsStrictTotalOrder MemberId (· < ·) where
  trichotomous a b hab hba := by
    rw [lt_iff, not_or, not_and] at hab hba
    have howner : a.owner = b.owner := Std.Trichotomous.trichotomous _ _ hab.1 hba.1
    have hindex : a.index = b.index :=
      Std.Trichotomous.trichotomous _ _ (hab.2 howner) (hba.2 howner.symm)
    cases a
    cases b
    exact congrArg₂ MemberId.mk howner hindex
  irrefl a h := by
    rcases h with h | ⟨-, h⟩
    · exact irrefl _ h
    · exact irrefl _ h
  trans a b c hab hbc := by
    rcases hab with hab | ⟨hab, hab'⟩
    · rcases hbc with hbc | ⟨hbc, -⟩
      · exact .inl (Trans.trans hab hbc)
      · exact .inl (hbc ▸ hab)
    · rcases hbc with hbc | ⟨hbc, hbc'⟩
      · exact .inl (hab ▸ hbc)
      · exact .inr ⟨hab.trans hbc, Trans.trans hab' hbc'⟩

end MemberId

namespace Ascending

variable {α : Type} [LT α] {xs ys : List α} {a b : α} {i : Nat}

theorem length_of_last (h : xs.Pairwise (· < ·)) (hi : xs[i]? = some a)
    (hlast : ∀ x ∈ xs, ¬ a < x) : xs.length = i + 1 := by
  obtain ⟨hi', rfl⟩ := List.getElem?_eq_some_iff.1 hi
  by_contra hne
  have hlt : i + 1 < xs.length := by omega
  exact hlast _ (List.getElem_mem hlt) (List.pairwise_iff_getElem.1 h i (i + 1) hi' hlt (by omega))

theorem index_of_first (h : xs.Pairwise (· < ·)) (hi : xs[i]? = some a)
    (hfirst : ∀ x ∈ xs, ¬ x < a) : i = 0 := by
  obtain ⟨hi', rfl⟩ := List.getElem?_eq_some_iff.1 hi
  by_contra hne
  have hlt : 0 < i := by omega
  exact hfirst _ (List.getElem_mem (by omega))
    (List.pairwise_iff_getElem.1 h 0 i (by omega) hi' hlt)

variable [IsStrictTotalOrder α (· < ·)]

section Set

variable [DecidableLT α] [DecidableEq α]

theorem pairwise_insert (h : ys.Pairwise (· < ·)) (x : α) : (insert x ys).Pairwise (· < ·) := by
  induction ys with
  | nil => exact List.pairwise_singleton _ _
  | cons y ys ih =>
    obtain ⟨hy, hys⟩ := List.pairwise_cons.1 h
    simp only [insert]
    split
    · exact h
    next hne =>
      split
      next hlt =>
        refine List.pairwise_cons.2 ⟨?_, h⟩
        intro z hz
        rcases List.mem_cons.1 hz with rfl | hz
        · exact hlt
        · exact Trans.trans hlt (hy z hz)
      next hge =>
        refine List.pairwise_cons.2 ⟨?_, ih hys⟩
        intro z hz
        rcases mem_insert.1 hz with rfl | hz
        · exact (trichotomous_of (· < ·) z y).resolve_left hge |>.resolve_left hne
        · exact hy z hz

theorem pairwise_ofList (xs : List α) : (ofList xs).Pairwise (· < ·) := by
  induction xs with
  | nil => exact .nil
  | cons x xs ih => exact pairwise_insert ih x

theorem ofList_eq (h : ys.Pairwise (· < ·)) (hm : ∀ a, a ∈ xs ↔ a ∈ ys) : ofList xs = ys :=
  (pairwise_ofList xs).eq_of_mem_iff h fun a => mem_ofList.trans (hm a)

end Set

theorem lt_of_getElem?_lt (h : xs.Pairwise (· < ·)) {j : Nat} (hi : xs[i]? = some a)
    (hj : xs[j]? = some b) (hab : a < b) : i < j := by
  obtain ⟨hi', rfl⟩ := List.getElem?_eq_some_iff.1 hi
  obtain ⟨hj', rfl⟩ := List.getElem?_eq_some_iff.1 hj
  rcases Nat.lt_trichotomy i j with hlt | rfl | hgt
  · exact hlt
  · exact absurd hab (irrefl _)
  · exact absurd hab (asymm (List.pairwise_iff_getElem.1 h j i hj' hi' hgt))

/-- The nearest element above one follows it. -/
theorem getElem?_next (h : xs.Pairwise (· < ·)) (hi : xs[i]? = some a) (hb : b ∈ xs) (hab : a < b)
    (hnearest : ∀ x ∈ xs, a < x → ¬ x < b) : xs[i + 1]? = some b := by
  obtain ⟨j, hj⟩ := List.mem_iff_getElem?.1 hb
  have hij := lt_of_getElem?_lt h hi hj hab
  obtain ⟨hi', rfl⟩ := List.getElem?_eq_some_iff.1 hi
  obtain ⟨hj', rfl⟩ := List.getElem?_eq_some_iff.1 hj
  rcases Nat.lt_or_eq_of_le (Nat.succ_le_of_lt hij) with hlt | heq
  · have hmem : xs[i + 1] ∈ xs := List.getElem_mem (by omega)
    have hafter := List.pairwise_iff_getElem.1 h i (i + 1) hi' (by omega) (by omega)
    have hbefore := List.pairwise_iff_getElem.1 h (i + 1) j (by omega) hj' hlt
    exact absurd hbefore (hnearest _ hmem hafter)
  · exact heq ▸ hj

/-- The nearest element below one precedes it. -/
theorem getElem?_previous (h : xs.Pairwise (· < ·)) (hi : xs[i]? = some a) (hb : b ∈ xs)
    (hba : b < a) (hnearest : ∀ x ∈ xs, x < a → ¬ b < x) :
    ∃ j, i = j + 1 ∧ xs[j]? = some b := by
  obtain ⟨j, hj⟩ := List.mem_iff_getElem?.1 hb
  have ha : a ∈ xs := List.mem_of_getElem? hi
  have hnext : xs[j + 1]? = some a := by
    refine getElem?_next h hj ha hba ?_
    intro x hx hbx hxa
    exact hnearest x hx hxa hbx
  refine ⟨j, ?_, hj⟩
  obtain ⟨hlt, -⟩ := List.getElem?_eq_some_iff.1 hi
  exact (List.getElem?_inj hlt h.nodup).1 (hi.trans hnext.symm)

end Ascending

end Sidebar
