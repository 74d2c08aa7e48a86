import Sidebar.Contract
import Sidebar.Navigation
import Sidebar.Proofs.Ascending

namespace Sidebar

variable {n k : UInt32} {xs : List UInt32}

def upTo (n : UInt32) : List UInt32 := (List.range' 1 n.toNat).map UInt32.ofNat

theorem toNat_ofNat_of_le {i : Nat} (h : i ≤ n.toNat) : (UInt32.ofNat i).toNat = i :=
  UInt32.toNat_ofNat_of_lt' (Nat.lt_of_le_of_lt h n.toNat_lt)

theorem exists_toNat_eq {i : Nat} (h : i ≤ n.toNat) : ∃ k : UInt32, k.toNat = i :=
  ⟨.ofNat i, toNat_ofNat_of_le h⟩

theorem mem_map_range' {length : Nat} (h : length ≤ n.toNat) :
    k ∈ (List.range' 1 length).map UInt32.ofNat ↔ 1 ≤ k.toNat ∧ k.toNat ≤ length := by
  simp only [List.mem_map, List.mem_range'_1]
  constructor
  · rintro ⟨i, hi, rfl⟩
    have hle : i ≤ n.toNat := by omega
    rw [toNat_ofNat_of_le hle]
    omega
  · intro hk
    exact ⟨k.toNat, by omega, UInt32.ofNat_toNat⟩

@[simp] theorem mem_upTo : k ∈ upTo n ↔ 1 ≤ k.toNat ∧ k.toNat ≤ n.toNat :=
  mem_map_range' (Nat.le_refl _)

theorem pairwise_upTo (n : UInt32) : (upTo n).Pairwise (· < ·) := by
  rw [upTo, List.pairwise_map]
  refine List.Pairwise.imp_of_mem ?_ List.pairwise_lt_range'
  intro i j hi hj hij
  rw [List.mem_range'_1] at hi hj
  have hile : i ≤ n.toNat := by omega
  have hjle : j ≤ n.toNat := by omega
  rw [UInt32.lt_iff_toNat_lt, toNat_ofNat_of_le hile, toNat_ofNat_of_le hjle]
  exact hij

theorem upTo_ne_nil_iff : upTo n ≠ [] ↔ 1 ≤ n := by
  rw [upTo, ne_eq, List.map_eq_nil_iff, List.range'_eq_nil_iff, UInt32.le_iff_toNat_le]
  exact Nat.one_le_iff_ne_zero.symm

theorem eq_upTo_iff (h : xs.Pairwise (· < ·)) : xs = upTo n ↔ ∀ k, k ∈ xs ↔ k ∈ upTo n := by
  constructor
  · rintro rfl
    exact fun _ => Iff.rfl
  · exact h.eq_of_mem_iff (pairwise_upTo n)

theorem le_getLast_of_mem {last : UInt32} (h : xs.Pairwise (· < ·))
    (hlast : xs.getLast? = some last) (hk : k ∈ xs) : k.toNat ≤ last.toNat := by
  obtain ⟨before, rfl⟩ := List.getLast?_eq_some_iff.1 hlast
  rcases List.mem_append.1 hk with hk | hk
  · have hlt := (List.pairwise_append.1 h).2.2 k hk last (List.mem_singleton_self _)
    rw [UInt32.lt_iff_toNat_lt] at hlt
    omega
  · rw [List.mem_singleton.1 hk]

theorem mem_gaps (h : xs.Pairwise (· < ·)) :
    k ∈ gaps xs ↔ 1 ≤ k.toNat ∧ k ∉ xs ∧ ∃ j ∈ xs, k.toNat < j.toNat := by
  cases hlast : xs.getLast? with
  | none =>
    rw [List.getLast?_eq_none_iff.1 hlast]
    simp [gaps]
  | some last =>
    have hmem := List.mem_of_getLast? hlast
    simp only [gaps, hlast, List.mem_filter, mem_map_range' (Nat.sub_le last.toNat 1),
      Bool.not_eq_true', List.contains_eq_mem, decide_eq_false_iff_not]
    constructor
    · rintro ⟨⟨hone, hlt⟩, hk⟩
      exact ⟨hone, hk, last, hmem, by omega⟩
    · rintro ⟨hone, hk, j, hj, hlt⟩
      have hle := le_getLast_of_mem h hlast hj
      exact ⟨⟨hone, by omega⟩, hk⟩

theorem mem_erase_zero (h : xs.Pairwise (· < ·)) : k ∈ xs.erase 0 ↔ 1 ≤ k.toNat ∧ k ∈ xs := by
  have hnodup : xs.Nodup := h.imp UInt32.ne_of_lt
  rw [hnodup.mem_erase_iff, ← UInt32.toNat_inj.ne, Nat.one_le_iff_ne_zero, UInt32.toNat_zero]

/-- Nothing is left out if the numbers from 1 on are those up to the last of them. -/
theorem gaps_eq_nil_iff (h : xs.Pairwise (· < ·)) :
    gaps xs = [] ↔ ∃ n, xs.erase 0 = upTo n := by
  have hupTo (n : UInt32) : xs.erase 0 = upTo n ↔ ∀ k, 1 ≤ k.toNat ∧ k ∈ xs ↔ k ∈ upTo n := by
    rw [eq_upTo_iff (h.sublist List.erase_sublist)]
    simp only [mem_erase_zero h]
  rw [List.eq_nil_iff_forall_not_mem]
  simp only [mem_gaps h, hupTo]
  constructor
  · intro hnone
    cases hlast : xs.getLast? with
    | none =>
      rw [List.getLast?_eq_none_iff.1 hlast]
      exact ⟨0, by simp; omega⟩
    | some last =>
      refine ⟨last, ?_⟩
      intro k
      rw [mem_upTo]
      constructor
      · rintro ⟨hone, hk⟩
        exact ⟨hone, le_getLast_of_mem h hlast hk⟩
      · rintro ⟨hone, hle⟩
        refine ⟨hone, ?_⟩
        have hmem := List.mem_of_getLast? hlast
        by_contra hk
        have hne : k.toNat ≠ last.toNat := by
          intro he
          rw [UInt32.toNat_inj.1 he] at hk
          exact hk hmem
        exact hnone k ⟨hone, hk, last, hmem, by omega⟩
  · rintro ⟨n, hn⟩ k ⟨hone, hk, j, hj, hlt⟩
    have hle := mem_upTo.1 ((hn j).1 ⟨by omega, hj⟩)
    exact hk ((hn k).2 (mem_upTo.2 ⟨hone, by omega⟩)).2

theorem exists_eq_upTo_iff :
    (∃ n, xs = upTo n) ↔ 0 ∉ xs ∧ ∃ n, xs.erase 0 = upTo n := by
  constructor
  · rintro ⟨n, rfl⟩
    have hzero : 0 ∉ upTo n := by simp
    exact ⟨hzero, n, List.erase_of_not_mem hzero⟩
  · rintro ⟨hzero, n, hn⟩
    rw [List.erase_of_not_mem hzero] at hn
    exact ⟨n, hn⟩

namespace Direction

variable {way : Direction} {a b : UInt32}

theorem next?_forward : forward.next? n = some k ↔ k.toNat = n.toNat + 1 := by
  have hk := k.toNat_lt
  rw [next?]
  split
  next h =>
    subst h
    simp only [reduceCtorEq, false_iff, UInt32.reduceToNat]
    omega
  next h =>
    have hn : n.toNat ≠ 4294967295 := fun he => h (UInt32.toNat_inj.1 he)
    have hlt := n.toNat_lt
    rw [Option.some.injEq, ← UInt32.toNat_inj, UInt32.toNat_add]
    simp only [UInt32.reduceToNat]
    omega

theorem next?_back : back.next? n = some k ↔ n.toNat = k.toNat + 1 := by
  rw [next?]
  split
  next h =>
    subst h
    simp
  next h =>
    have hn : n.toNat ≠ 0 := fun he => h (UInt32.toNat_inj.1 he)
    have hlt := n.toNat_lt
    have hone : (1 : UInt32) ≤ n := by
      rw [UInt32.le_iff_toNat_le]
      exact Nat.one_le_iff_ne_zero.2 hn
    rw [Option.some.injEq, ← UInt32.toNat_inj, UInt32.toNat_sub_of_le _ _ hone]
    simp only [UInt32.reduceToNat]
    omega

def Before : Direction → UInt32 → UInt32 → Prop
  | forward, a, b => a.toNat < b.toNat
  | back, a, b => b.toNat < a.toNat

theorem not_before_self (way : Direction) (a : UInt32) : ¬ way.Before a a := by
  cases way <;> exact Nat.lt_irrefl _

theorem Before.asymm (h : way.Before a b) : ¬ way.Before b a := by
  cases way <;> exact Nat.lt_asymm h

theorem before_of_next? (h : way.next? a = some b) : way.Before a b := by
  cases way with
  | forward =>
    rw [Before, next?_forward.1 h]
    exact Nat.lt_succ_self _
  | back =>
    rw [Before, next?_back.1 h]
    exact Nat.lt_succ_self _

theorem not_between_of_next? (h : way.next? a = some b) (hk : way.Before a k) :
    ¬ way.Before k b := by
  cases way with
  | forward =>
    have hb := next?_forward.1 h
    rw [Before] at hk ⊢
    omega
  | back =>
    have hb := next?_back.1 h
    rw [Before] at hk ⊢
    omega

/-- From a number to one after it on the way there is a next one, and it leads no further. -/
theorem Before.exists_next? (h : way.Before a b) :
    ∃ k, way.next? a = some k ∧ (k = b ∨ way.Before k b) := by
  cases way with
  | forward =>
    rw [Before] at h
    obtain ⟨k, hk⟩ := exists_toNat_eq (n := b) (i := a.toNat + 1) (by omega)
    refine ⟨k, next?_forward.2 hk, ?_⟩
    rw [← UInt32.toNat_inj, Before]
    omega
  | back =>
    rw [Before] at h
    obtain ⟨k, hk⟩ := exists_toNat_eq (n := a) (i := a.toNat - 1) (by omega)
    refine ⟨k, next?_back.2 (by omega), ?_⟩
    rw [← UInt32.toNat_inj, Before]
    omega

theorem mem_upTo_of_between (ha : a ∈ upTo n) (hb : b ∈ upTo n) (hak : way.Before a k)
    (hkb : k = b ∨ way.Before k b) : k ∈ upTo n := by
  rcases hkb with rfl | hkb
  · exact hb
  · rw [mem_upTo] at ha hb ⊢
    cases way <;> simp only [Before] at hak hkb <;> omega

end Direction

end Sidebar
