namespace Sidebar

def digits? (cs : List Char) : Option Nat :=
  if cs.isEmpty || !cs.all Char.isDigit then none else some (Nat.ofDigitChars 10 cs 0)

def dropPlus : List Char → List Char
  | '+' :: cs => cs
  | cs => cs

def word? (cs : List Char) : Option UInt32 :=
  (digits? (dropPlus cs)).bind fun n =>
    if n < UInt32.size then some (UInt32.ofNat n) else none

/-- Reads a 32-bit number written without a sign and without leading zeros. -/
def canonical? (cs : List Char) : Option UInt32 :=
  (word? cs).filter fun n => (toString n).toList = cs

theorem toList_toString_word (n : UInt32) : (toString n).toList = Nat.toDigits 10 n.toNat := by
  change (Nat.repr n.toNat).toList = _
  rw [Nat.toList_repr]

theorem digits?_toDigits (n : Nat) : digits? (Nat.toDigits 10 n) = some n := by
  have hall : (Nat.toDigits 10 n).all Char.isDigit = true :=
    List.all_eq_true.2 fun c hc => Nat.isDigit_of_mem_toDigits (by decide) (by decide) hc
  have hne : (Nat.toDigits 10 n).isEmpty = false := by
    simp
  simp [digits?, hall, hne, Nat.ofDigitChars_ten_toDigits]

theorem dropPlus_toDigits (n : Nat) : dropPlus (Nat.toDigits 10 n) = Nat.toDigits 10 n := by
  unfold dropPlus
  split
  next cs h =>
    have := Nat.isDigit_of_mem_toDigits (b := 10) (n := n) (c := '+') (by decide) (by decide)
      (by simp [h])
    exact absurd this (by decide)
  · rfl

@[simp] theorem word?_toString (n : UInt32) : word? (toString n).toList = some n := by
  rw [toList_toString_word, word?, dropPlus_toDigits, digits?_toDigits, Option.bind_some,
    if_pos n.toNat_lt_size, UInt32.ofNat_toNat]

theorem canonical?_eq_some_iff {cs : List Char} {n : UInt32} :
    canonical? cs = some n ↔ cs = (toString n).toList := by
  constructor
  · intro h
    simp only [canonical?, Option.filter_eq_some_iff, decide_eq_true_eq] at h
    exact h.2.symm
  · rintro rfl
    simp [canonical?]

end Sidebar
