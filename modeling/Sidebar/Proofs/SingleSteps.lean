import Sidebar.Proofs.Rest

namespace Sidebar.Document

variable {d : Document} {table : LastIndex} {way : Direction} {id : NavId} {a b : Int}

theorem walk_eq_iterate (d : Document) (table : LastIndex) (way : Direction) (steps : Nat)
    (id : NavId) : d.walk table way steps id = (d.navigate table · way.offset)^[steps] id := by
  induction steps generalizing id with
  | zero => rfl
  | succ steps ih => rw [walk_succ, ih, ← navigate_offset, Function.iterate_succ_apply]

theorem walk_add (d : Document) (table : LastIndex) (way : Direction) (m n : Nat) (id : NavId) :
    d.walk table way (m + n) id = d.walk table way n (d.walk table way m id) := by
  rw [Nat.add_comm]
  simp only [walk_eq_iterate, Function.iterate_add_apply]

theorem navigate_of_nonpos (h : a ≤ 0) (id : NavId) :
    d.navigate table id a = d.walk table .back a.natAbs id := by
  rcases Int.lt_or_eq_of_le h with hneg | rfl
  · exact navigate_of_neg hneg id
  · rfl

theorem navigate_eq_iterate (d : Document) (table : LastIndex) (id : NavId) (a : Int) :
    d.navigate table id a = (d.navigate table · a.sign)^[a.natAbs] id := by
  rcases Int.lt_trichotomy a 0 with h | rfl | h
  · rw [navigate_of_neg h, walk_eq_iterate, Int.sign_eq_neg_one_of_neg h]
    rfl
  · rfl
  · rw [navigate_of_nonneg (Int.le_of_lt h), walk_eq_iterate, Int.sign_eq_one_of_pos h]
    rfl

theorem navigate_navigate (h : 0 ≤ a ∧ 0 ≤ b ∨ a ≤ 0 ∧ b ≤ 0) (id : NavId) :
    d.navigate table (d.navigate table id a) b = d.navigate table id (a + b) := by
  rcases h with ⟨ha, hb⟩ | ⟨ha, hb⟩
  · rw [navigate_of_nonneg ha, navigate_of_nonneg hb, navigate_of_nonneg (Int.add_nonneg ha hb),
      Int.natAbs_add_of_nonneg ha hb, walk_add]
  · rw [navigate_of_nonpos ha, navigate_of_nonpos hb, navigate_of_nonpos (Int.add_nonpos ha hb),
      Int.natAbs_add_of_nonpos ha hb, walk_add]

/-- A step that leads nowhere is one that would be repeated for ever. -/
theorem iterate_of_rest {α : Type} {f : α → α} {x : α} {k n : Nat} (hk : k ≤ n)
    (h : f (f^[k] x) = f^[k] x) : f^[n] x = f^[k] x := by
  obtain ⟨more, rfl⟩ := Nat.exists_eq_add_of_le' hk
  rw [Function.iterate_add_apply, Function.iterate_fixed h]

/-- With any table, filled or not, a walk is its single steps one after the other, two walks the
same way are one, and a walk can be broken off at the first step that does not move. -/
theorem walks_repeat_single_steps (d : Document) (table : LastIndex) (id : NavId) (a : Int) :
    let navigate := d.navigate table
    let single (id : NavId) : NavId := navigate id a.sign
    navigate id a = single^[a.natAbs] id ∧
      (∀ b, 0 ≤ a ∧ 0 ≤ b ∨ a ≤ 0 ∧ b ≤ 0 → navigate (navigate id a) b = navigate id (a + b)) ∧
      ∀ k ≤ a.natAbs, single (single^[k] id) = single^[k] id → navigate id a = single^[k] id := by
  intro navigate single
  have hsingle : navigate id a = single^[a.natAbs] id := d.navigate_eq_iterate table id a
  refine ⟨hsingle, fun b h => navigate_navigate h id, ?_⟩
  intro k hk hrest
  rw [hsingle, iterate_of_rest hk hrest]

theorem walks_repeat_single_steps_gappedPage :
    let navigate := gappedPage.navigate []
    let single (id : NavId) : NavId := navigate id 1
    let start : NavId := .classId 4294967294
    let last : NavId := .memberId ⟨4294967295, 4294967295⟩
    ((-1 : Int) ≤ 0 ∧ (-2147483647 : Int) ≤ 0 ∧
      navigate (navigate last (-1)) (-2147483647) = navigate last (-2147483648)) ∧
      1 ≤ Int.natAbs 2147483647 ∧ single (single^[1] start) = single^[1] start ∧
      navigate start 2147483647 = single^[1] start := by
  intro navigate single start last
  have hentry : gappedPage.hasEntry (.classId 4294967295) = true := by
    rw [hasEntry, contains_iff]
    refine ⟨⟨"nav_4294967295", .classEntry, none, {}⟩, ?_, by decide +kernel⟩
    rw [← Array.mem_toList_iff, gappedPage, toList_ofElements]
    decide
  have hbeside : gappedPage.Moves [] .forward start (.classId 4294967295) :=
    .besideClass (by decide) hentry
  have hmove : single start = .classId 4294967295 := (moves_iff_navigate.1 hbeside).1
  have hrest : single (single^[1] start) = single^[1] start := by
    rw [Function.iterate_one, hmove]
    rfl
  obtain ⟨-, hback, -⟩ := walks_repeat_single_steps gappedPage [] last (-1)
  obtain ⟨-, -, hforward⟩ := walks_repeat_single_steps gappedPage [] start 2147483647
  exact ⟨⟨by decide, by decide, hback (-2147483647) (.inr ⟨by decide, by decide⟩)⟩,
    by decide, hrest, hforward 1 (by decide) hrest⟩

end Sidebar.Document
