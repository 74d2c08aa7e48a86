import Sidebar.Proofs.AddressText

namespace Sidebar

variable {cs : List Char}

/-- The form of a 32-bit number: decimal digits, with no zero in front of others. -/
structure IsNumeral (cs : List Char) : Prop where
  ne_nil : cs ≠ []
  isDigit : ∀ c ∈ cs, c.isDigit = true
  eq_zero : cs.head? = some '0' → cs = ['0']
  le_max : Nat.ofDigitChars 10 cs 0 ≤ 4294967295

theorem toDigits_digit {c : Char} (h : c.isDigit = true) :
    c.toNat - '0'.toNat < 10 ∧ Nat.toDigits 10 (c.toNat - '0'.toNat) = [c] := by
  have hbounds := Char.isDigit_iff_toNat.1 h
  simp only [Char.reduceToNat] at hbounds ⊢
  have hlt : c.toNat - 48 < 10 := by omega
  have hchar : (c.toNat - 48).digitChar = c := by
    rw [← Char.toNat_inj, Nat.toNat_digitChar_of_lt_ten hlt]
    omega
  exact ⟨hlt, by rw [Nat.toDigits_of_lt_base hlt, hchar]⟩

theorem toDigits_ofDigitChars_of_pos {n : Nat} (hn : 0 < n) (h : ∀ c ∈ cs, c.isDigit = true) :
    Nat.toDigits 10 (Nat.ofDigitChars 10 cs n) = Nat.toDigits 10 n ++ cs := by
  induction cs generalizing n with
  | nil => rw [Nat.ofDigitChars_nil, List.append_nil]
  | cons c cs ih =>
    obtain ⟨hc, hcs⟩ := List.forall_mem_cons.1 h
    obtain ⟨hlt, hdigit⟩ := toDigits_digit hc
    rw [Nat.ofDigitChars_cons, ih (by omega) hcs,
      ← Nat.toDigits_append_toDigits (by decide) hn hlt, hdigit, List.append_assoc,
      List.singleton_append]

theorem IsNumeral.toDigits_ofDigitChars (h : IsNumeral cs) :
    Nat.toDigits 10 (Nat.ofDigitChars 10 cs 0) = cs := by
  cases cs with
  | nil => exact absurd rfl h.ne_nil
  | cons c cs =>
    obtain ⟨hc, hcs⟩ := List.forall_mem_cons.1 h.isDigit
    by_cases hzero : c = '0'
    · subst hzero
      rw [h.eq_zero rfl]
      rfl
    · have hpos : 0 < c.toNat - '0'.toNat := by
        have hle := (Char.isDigit_iff_toNat.1 hc).1
        have hne : c.toNat ≠ '0'.toNat := fun he => hzero (Char.toNat_inj.1 he)
        omega
      rw [Nat.ofDigitChars_cons, Nat.mul_zero, Nat.zero_add,
        toDigits_ofDigitChars_of_pos hpos hcs, (toDigits_digit hc).2, List.singleton_append]

theorem head?_toDigits_eq_zero {n : Nat} (h : (Nat.toDigits 10 n).head? = some '0') : n = 0 := by
  induction n using Nat.base_induction 10 (by decide) with
  | single m hm =>
    rw [Nat.toDigits_of_lt_base hm, List.head?_cons, Option.some.injEq] at h
    exact Nat.digitChar_eq_zero.1 h
  | digit m k hk hm ih =>
    rw [← Nat.toDigits_append_toDigits (by decide) hm hk, List.head?_append, Option.or_eq_some_iff]
      at h
    rcases h with h | ⟨hnil, -⟩
    · exact absurd (ih h) (Nat.ne_of_gt hm)
    · exact absurd (List.head?_eq_none_iff.1 hnil) Nat.toDigits_ne_nil

theorem isNumeral_iff : IsNumeral cs ↔ ∃ n : UInt32, cs = (toString n).toList := by
  simp only [toList_toString_word]
  constructor
  · intro h
    refine ⟨.ofNat (Nat.ofDigitChars 10 cs 0), ?_⟩
    have hlt : Nat.ofDigitChars 10 cs 0 < UInt32.size := Nat.lt_succ_of_le h.le_max
    rw [UInt32.toNat_ofNat_of_lt' hlt, h.toDigits_ofDigitChars]
  · rintro ⟨n, rfl⟩
    refine ⟨Nat.toDigits_ne_nil, ?_, ?_, ?_⟩
    · intro c hc
      exact Nat.isDigit_of_mem_toDigits (by decide) (by decide) hc
    · intro h
      rw [head?_toDigits_eq_zero h]
      rfl
    · rw [Nat.ofDigitChars_ten_toDigits]
      exact Nat.le_of_lt_succ n.toNat_lt

namespace NavId

theorem exists_text_iff {s : String} :
    (∃ id : NavId, s = id.text) ↔
      IsNumeral s.toList ∨
        ∃ owner index, IsNumeral owner ∧ IsNumeral index ∧ s.toList = owner ++ '_' :: index := by
  simp only [isNumeral_iff]
  constructor
  · rintro ⟨id, rfl⟩
    cases id with
    | classId c => exact .inl ⟨c, rfl⟩
    | memberId m => exact .inr ⟨_, _, ⟨m.owner, rfl⟩, ⟨m.index, rfl⟩, toList_text_memberId m⟩
  · rintro (⟨c, hc⟩ | ⟨-, -, ⟨o, rfl⟩, ⟨i, rfl⟩, hs⟩)
    · exact ⟨.classId c, String.toList_injective hc⟩
    · refine ⟨.memberId ⟨o, i⟩, String.toList_injective ?_⟩
      rw [hs, toList_text_memberId]

end NavId

/-- Ids and addresses are read from their texts and from nothing else, a text is an id exactly if it
is one numeral or two with an underscore between them, and different addresses have different texts.
-/
theorem ids_correspond_to_texts :
    (∀ (s : String) (id : NavId), NavId.parse s = .ok id ↔ s = id.text) ∧
      (∀ (s : String) (a : Address), Address.parse? s = some a ↔ s = a.text) ∧
      (∀ s : String, (∃ id, NavId.parse s = .ok id) ↔
        IsNumeral s.toList ∨
          ∃ owner index, IsNumeral owner ∧ IsNumeral index ∧ s.toList = owner ++ '_' :: index) ∧
      ∀ a b : Address, a ≠ b → a.text ≠ b.text := by
  refine ⟨fun _ _ => NavId.parse_eq_ok_iff, fun _ _ => Address.parse?_eq_some_iff, ?_, ?_⟩
  · intro s
    simp only [NavId.parse_eq_ok_iff]
    exact NavId.exists_text_iff
  · intro a b
    exact Address.text_inj.not.2

end Sidebar
