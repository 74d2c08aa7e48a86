import Mathlib.Data.List.Basic
import Sidebar.Toml.Quoted

namespace Sidebar.Toml.Quoted

variable {quote : Char} {cs rest : List Char}

theorem hexValue?_hexDigit {n : Nat} (h : n < 16) : hexValue? (hexDigit n) = some n := by
  have hdigits : ∀ n : Fin 16, hexValue? (hexDigit n) = some n.val := by decide
  exact hdigits ⟨n, h⟩

theorem toNat_lt_of_isControl (h : isControl c = true) : c.toNat < 128 := by
  simp only [isControl, Bool.or_eq_true, Bool.and_eq_true, decide_eq_true_eq, beq_iff_eq] at h
  omega

/-- A control character is written by its two last digits. -/
theorem hexChar?_of_isControl {c : Char} (h : isControl c = true) (rest : List Char) :
    hexChar? 4 ('0' :: '0' :: hexDigit (c.toNat / 16) :: hexDigit (c.toNat % 16) :: rest) =
      some (c, rest) := by
  have hlt := toNat_lt_of_isControl h
  have hzero : hexValue? '0' = some 0 := rfl
  have hhigh := hexValue?_hexDigit (n := c.toNat / 16) (by omega)
  have hlow := hexValue?_hexDigit (n := c.toNat % 16) (by omega)
  have hvalue :
      16 * (16 * (16 * (16 * 0 + 0) + 0) + c.toNat / 16) + c.toNat % 16 = c.toNat := by
    omega
  have hcode : hex? 4 0 ('0' :: '0' :: hexDigit (c.toNat / 16) :: hexDigit (c.toNat % 16) ::
      rest) = some (c.toNat, rest) := by
    simp only [hex?, hzero, hhigh, hlow, Option.bind_eq_bind, Option.bind_some, hvalue]
  rw [hexChar?, hcode]
  change (if c.toNat.isValidChar then some (Char.ofNat c.toNat, rest) else none) = _
  have hvalid : c.toNat.isValidChar := c.valid
  rw [if_pos hvalid, Char.ofNat_toNat]

/-- A character is written plainly, or as an escape that is read back. -/
theorem escapeChar_cases (c : Char) :
    (escapeChar c = [c] ∧ c ≠ '"' ∧ c ≠ '\\' ∧ isControl c = false) ∨
      ∃ e, escapeChar c = '\\' :: e ∧ ∀ rest, escape? (e ++ rest) = some (c, rest) := by
  unfold escapeChar
  split
  · exact .inr ⟨['b'], rfl, fun _ => rfl⟩
  · exact .inr ⟨['t'], rfl, fun _ => rfl⟩
  · exact .inr ⟨['n'], rfl, fun _ => rfl⟩
  · exact .inr ⟨['f'], rfl, fun _ => rfl⟩
  · exact .inr ⟨['r'], rfl, fun _ => rfl⟩
  · exact .inr ⟨['"'], rfl, fun _ => rfl⟩
  · exact .inr ⟨['\\'], rfl, fun _ => rfl⟩
  · split
    next hcontrol => exact .inr ⟨_, rfl, hexChar?_of_isControl hcontrol⟩
    next hcontrol =>
      exact .inl ⟨rfl, by assumption, by assumption, Bool.eq_false_iff.2 hcontrol⟩

theorem basic?_escapeChar (c : Char) (cs : List Char) :
    basic? (escapeChar c ++ cs) = (basic? cs).map fun found => (c :: found.1, found.2) := by
  rcases escapeChar_cases c with ⟨he, hquote, hslash, hcontrol⟩ | ⟨e, he, hescape⟩
  · rw [he, List.singleton_append, basic?, if_neg hquote, if_neg hslash, hcontrol]
    rfl
  · rw [he, List.cons_append, basic?, if_neg (by decide), if_pos rfl]
    split
    next x rest h =>
      cases (hescape cs).symm.trans h
      rfl
    next h => cases (hescape cs).symm.trans h

theorem basic?_flatMap_escapeChar (cs rest : List Char) :
    basic? (cs.flatMap escapeChar ++ '"' :: rest) = some (cs, rest) := by
  induction cs with
  | nil => rw [List.flatMap_nil, List.nil_append, basic?, if_pos rfl]
  | cons c cs ih =>
    rw [List.flatMap_cons, List.append_assoc, basic?_escapeChar, ih]
    rfl

theorem literal?_append (h : ∀ c ∈ cs, c ≠ '\'' ∧ isControl c = false) (rest : List Char) :
    literal? (cs ++ '\'' :: rest) = some (cs, rest) := by
  induction cs with
  | nil => rw [List.nil_append, literal?, if_pos rfl]
  | cons c cs ih =>
    obtain ⟨⟨hquote, hcontrol⟩, hcs⟩ := List.forall_mem_cons.1 h
    rw [List.cons_append, literal?, if_neg hquote, hcontrol, ih hcs]
    rfl

/-- The quotes at the end of a text are told from those that close it. -/
theorem closing?_replicate {k : Nat} (hk : k ≤ 2) (hrest : rest.head? ≠ some quote) :
    closing? quote (List.replicate k quote ++ (List.replicate 3 quote ++ rest)) =
      some (List.replicate k quote, rest) := by
  have hswap : List.replicate k quote ++ (List.replicate 3 quote ++ rest) =
      List.replicate 3 quote ++ (List.replicate k quote ++ rest) := by
    rw [← List.append_assoc, ← List.append_assoc, List.replicate_append_replicate,
      List.replicate_append_replicate, Nat.add_comm]
  have hnone : rest.takeWhile (· = quote) = [] := by
    cases rest with
    | nil => rfl
    | cons c rest => exact List.takeWhile_cons_of_neg (by simpa using hrest)
  have hextra : (((List.replicate 3 quote ++ (List.replicate k quote ++ rest)).drop 3).takeWhile
      (· = quote)).take 2 = List.replicate k quote := by
    rw [List.drop_left' List.length_replicate, List.takeWhile_append_of_pos (by simp), hnone,
      List.append_nil, List.take_replicate, Nat.min_eq_right hk]
  have hprefix : [quote, quote, quote].isPrefixOf
      (List.replicate 3 quote ++ (List.replicate k quote ++ rest)) = true :=
    List.isPrefixOf_iff_prefix.2 (List.prefix_append _ _)
  have hafter : (List.replicate 3 quote ++ (List.replicate k quote ++ rest)).drop
      (3 + (List.replicate k quote).length) = rest := by
    rw [List.length_replicate, ← List.append_assoc, List.replicate_append_replicate,
      List.drop_left' List.length_replicate]
  rw [hswap, closing?, if_pos hprefix, hextra]
  dsimp only
  rw [hafter]

theorem closing?_eq_none (h : ¬ List.replicate 3 quote <+: cs) : closing? quote cs = none :=
  if_neg (mt List.isPrefixOf_iff_prefix.1 h)

/-- Where quotes stand in a row at the head of a written text, too many to be in the text itself,
there is nothing else in the text. -/
theorem eq_replicate_of_prefix_escapeLines {quotes n : Nat} (hquotes : quotes ≤ 2)
    (hn : 2 < n + quotes) (h : List.replicate n '"' <+: escapeLines quotes cs ++ rest) :
    ∃ k, k + quotes ≤ 2 ∧ cs = List.replicate k '"' := by
  induction cs generalizing quotes n with
  | nil => exact ⟨0, by omega, rfl⟩
  | cons c cs ih =>
    obtain ⟨n, rfl⟩ : ∃ m, n = m + 1 := ⟨n - 1, by omega⟩
    rw [List.replicate_succ] at h
    rw [escapeLines] at h
    split at h
    next hc =>
      subst hc
      split at h
      next => exact absurd (List.cons_prefix_cons.1 h).1 (by decide)
      next hne =>
        obtain ⟨k, hk, rfl⟩ := ih (by omega) (by omega) (List.cons_prefix_cons.1 h).2
        exact ⟨k + 1, by omega, rfl⟩
    next hc =>
      exfalso
      split at h
      next => exact absurd (List.cons_prefix_cons.1 h).1 (by decide)
      next =>
        rcases escapeChar_cases c with ⟨he, hquote, -, -⟩ | ⟨e, he, -⟩
        · rw [he] at h
          exact hquote (List.cons_prefix_cons.1 h).1.symm
        · rw [he] at h
          exact absurd (List.cons_prefix_cons.1 h).1 (by decide)

theorem escapeLines_replicate {k quotes : Nat} (h : k + quotes ≤ 2) :
    escapeLines quotes (List.replicate k '"') = List.replicate k '"' := by
  induction k generalizing quotes with
  | zero => rfl
  | succ k ih =>
    rw [List.replicate_succ, escapeLines, if_pos rfl, if_neg (by omega), ih (by omega)]

theorem basicLines?_of_closing {found : List Char × List Char} (h : closing? '"' cs = some found) :
    basicLines? cs = some found := by
  cases cs with
  | nil => cases h
  | cons c cs =>
    rw [basicLines?.eq_def]
    dsimp only
    rw [h]

theorem basicLines?_of_escape {c : Char} (h : escape? cs = some (c, rest)) :
    basicLines? ('\\' :: cs) =
      (basicLines? rest).map fun found => (c :: found.1, found.2) := by
  have hclosing : closing? '"' ('\\' :: cs) = none := rfl
  rw [basicLines?.eq_def]
  dsimp only
  rw [hclosing]
  dsimp only
  rw [if_pos rfl]
  split
  next x rest' h' =>
    cases h.symm.trans h'
    rfl
  next h' => cases h.symm.trans h'

theorem basicLines?_of_plain {c : Char} (hclosing : closing? '"' (c :: cs) = none)
    (hslash : c ≠ '\\') (hplain : isPlain c cs = true) :
    basicLines? (c :: cs) = (basicLines? cs).map fun found => (c :: found.1, found.2) := by
  rw [basicLines?.eq_def]
  dsimp only
  rw [hclosing]
  dsimp only
  rw [if_neg hslash, if_pos hplain]

/-- The first character is written as it is, or as an escape that is read back. -/
theorem escapeLines_cons_cases {quotes : Nat} (hquotes : quotes ≤ 2) (c : Char) (cs : List Char) :
    ∃ quotes' ≤ 2,
      (escapeLines quotes (c :: cs) = c :: escapeLines quotes' cs ∧ c ≠ '\\' ∧
        ∀ rest, isPlain c rest = true) ∨
      ∃ e, escapeLines quotes (c :: cs) = '\\' :: (e ++ escapeLines quotes' cs) ∧
        ∀ rest, escape? (e ++ rest) = some (c, rest) := by
  rw [escapeLines]
  split
  next hc =>
    subst hc
    split
    · exact ⟨0, by omega, .inr ⟨['"'], rfl, fun _ => rfl⟩⟩
    · exact ⟨quotes + 1, by omega, .inl ⟨rfl, by decide, fun _ => rfl⟩⟩
  next =>
    refine ⟨0, by omega, ?_⟩
    split
    next hc =>
      subst hc
      exact .inl ⟨rfl, by decide, fun _ => rfl⟩
    next =>
      rcases escapeChar_cases c with ⟨he, -, hslash, hcontrol⟩ | ⟨e, he, hescape⟩
      · exact .inl ⟨by rw [he]; rfl, hslash, fun _ => by rw [isPlain, hcontrol]; rfl⟩
      · exact .inr ⟨e, by rw [he]; rfl, hescape⟩

theorem basicLines?_escapeLines {quotes : Nat} (hquotes : quotes ≤ 2)
    (hrest : rest.head? ≠ some '"') :
    basicLines? (escapeLines quotes cs ++ (List.replicate 3 '"' ++ rest)) = some (cs, rest) := by
  induction cs generalizing quotes with
  | nil => exact basicLines?_of_closing (closing?_replicate (Nat.zero_le 2) hrest)
  | cons c cs ih =>
    by_cases hend : ∃ k, k + quotes ≤ 2 ∧ c :: cs = List.replicate k '"'
    · obtain ⟨k, hk, hcs⟩ := hend
      rw [hcs, escapeLines_replicate hk]
      exact basicLines?_of_closing (closing?_replicate (by omega) hrest)
    · have hclosing := closing?_eq_none fun h : List.replicate 3 '"' <+:
          escapeLines quotes (c :: cs) ++ (List.replicate 3 '"' ++ rest) =>
        hend (eq_replicate_of_prefix_escapeLines hquotes (by omega) h)
      obtain ⟨quotes', hquotes', ⟨he, hslash, hplain⟩ | ⟨e, he, hescape⟩⟩ :=
        escapeLines_cons_cases hquotes c cs
      · rw [he, List.cons_append] at hclosing ⊢
        rw [basicLines?_of_plain hclosing hslash (hplain _), ih hquotes']
        rfl
      · rw [he, List.cons_append, List.append_assoc, basicLines?_of_escape (hescape _),
          ih hquotes']
        rfl

/-- Where three quotes stand at the head of a text that has no three in a row, it has nothing but
quotes. -/
theorem eq_replicate_of_hasTriple (h : hasTriple quote cs = false)
    (hquotes : List.replicate 3 quote <+: cs ++ rest) : ∃ k ≤ 2, cs = List.replicate k quote := by
  have hshort : cs.length < 3 := by
    by_contra hlong
    have hcs : List.replicate 3 quote <+: cs :=
      List.prefix_of_prefix_length_le hquotes (List.prefix_append cs rest)
        (by rw [List.length_replicate]; omega)
    cases cs with
    | nil => simp at hlong
    | cons c cs =>
      rw [hasTriple, Bool.or_eq_false_iff] at h
      exact Bool.noConfusion (h.1.symm.trans (List.isPrefixOf_iff_prefix.2 hcs))
  have hcs : cs <+: List.replicate 3 quote :=
    List.prefix_of_prefix_length_le (List.prefix_append cs rest) hquotes
      (by rw [List.length_replicate]; omega)
  refine ⟨cs.length, by omega, List.eq_replicate_iff.2 ⟨rfl, fun c hc => ?_⟩⟩
  exact List.eq_of_mem_replicate (hcs.subset hc)

theorem literalLines?_append (htriple : hasTriple '\'' cs = false)
    (hplain : ∀ c ∈ cs, ∀ rest, isPlain c rest = true) (hrest : rest.head? ≠ some '\'') :
    literalLines? (cs ++ (List.replicate 3 '\'' ++ rest)) = some (cs, rest) := by
  have hread {cs : List Char} {found} (h : closing? '\'' cs = some found) :
      literalLines? cs = some found := by
    cases cs with
    | nil => cases h
    | cons c cs => rw [literalLines?, h]
  induction cs with
  | nil => exact hread (closing?_replicate (Nat.zero_le 2) hrest)
  | cons c cs ih =>
    by_cases hend : ∃ k ≤ 2, c :: cs = List.replicate k '\''
    · obtain ⟨k, hk, hcs⟩ := hend
      rw [hcs]
      exact hread (closing?_replicate hk hrest)
    · have hclosing := closing?_eq_none fun h : List.replicate 3 '\'' <+:
          c :: cs ++ (List.replicate 3 '\'' ++ rest) => hend (eq_replicate_of_hasTriple htriple h)
      obtain ⟨hc, hcs⟩ := List.forall_mem_cons.1 hplain
      rw [hasTriple, Bool.or_eq_false_iff] at htriple
      rw [List.cons_append] at hclosing ⊢
      rw [literalLines?, hclosing]
      dsimp only
      rw [if_pos (hc _), ih htriple.2 hcs]
      rfl

theorem dropNewline?_of_isPlain {c : Char} (h : isPlain c [] = true) (hne : c ≠ '\n') :
    dropNewline? (c :: cs) = none := by
  unfold dropNewline?
  split
  next heq =>
    cases heq
    exact absurd rfl hne
  next heq =>
    cases heq
    exact absurd h (by decide)
  next => rfl

theorem dropNewline?_escapeLines (h : '\n' ∉ cs) :
    dropNewline? (escapeLines 0 cs ++ (List.replicate 3 '"' ++ rest)) = none := by
  cases cs with
  | nil => rfl
  | cons c cs =>
    obtain ⟨quotes, -, ⟨he, -, hplain⟩ | ⟨e, he, -⟩⟩ := escapeLines_cons_cases (Nat.zero_le 2) c cs
    · rw [he]
      exact dropNewline?_of_isPlain (hplain []) fun hc => h (hc ▸ .head _)
    · rw [he]
      rfl

theorem dropNewline?_append_quote (hplain : ∀ c ∈ cs, ∀ rest, isPlain c rest = true)
    (h : '\n' ∉ cs) : dropNewline? (cs ++ (List.replicate 3 '\'' ++ rest)) = none := by
  cases cs with
  | nil => rfl
  | cons c cs => exact dropNewline?_of_isPlain (hplain c (.head _) []) fun hc => h (hc ▸ .head _)

theorem dropFirstNewline_opening (h : '\n' ∉ cs → dropNewline? rest = none) :
    dropFirstNewline (opening cs ++ rest) = rest := by
  rw [opening]
  split
  next => rfl
  next hcs =>
    rw [List.nil_append, dropFirstNewline, h (by simpa using hcs)]
    rfl

theorem of_eq_literal (h : Form.of cs = .literal) : ∀ c ∈ cs, c ≠ '\'' ∧ isControl c = false := by
  simp only [Form.of] at h
  repeat' split at h
  all_goals try cases h
  next hcs =>
    simp only [Bool.and_eq_true, List.all_eq_true, Bool.not_eq_true', List.contains_eq_mem,
      decide_eq_false_iff_not] at hcs
    exact fun c hc => ⟨fun heq => hcs.2 (heq ▸ hc), hcs.1 c hc⟩

theorem of_eq_literalLines (h : Form.of cs = .literalLines) :
    hasTriple '\'' cs = false ∧ ∀ c ∈ cs, ∀ rest, isPlain c rest = true := by
  simp only [Form.of] at h
  repeat' split at h
  all_goals try cases h
  next hcs =>
    simp only [Bool.and_eq_true, List.all_eq_true, Bool.not_eq_true'] at hcs
    refine ⟨hcs.2, fun c hc rest => ?_⟩
    rw [isPlain, hcs.1 c hc, Bool.true_or]

theorem read?_basic (h : ¬ ['"', '"'] <+: cs) : read? ('"' :: cs) = basic? cs := by
  unfold read?
  split
  next heq =>
    cases heq
    exact absurd (List.prefix_append _ _) h
  next heq => cases heq
  next => rfl

theorem read?_literal (h : ¬ ['\'', '\''] <+: cs) : read? ('\'' :: cs) = literal? cs := by
  unfold read?
  split
  next heq => cases heq
  next heq =>
    cases heq
    exact absurd (List.prefix_append _ _) h
  next => rfl

theorem not_prefix_flatMap_escapeChar (h : rest.head? ≠ some '"') :
    ¬ ['"', '"'] <+: cs.flatMap escapeChar ++ '"' :: rest := by
  intro hprefix
  cases cs with
  | nil =>
    obtain ⟨more, hmore⟩ := (List.cons_prefix_cons.1 hprefix).2
    exact h (by rw [← hmore]; rfl)
  | cons c cs =>
    rw [List.flatMap_cons, List.append_assoc] at hprefix
    rcases escapeChar_cases c with ⟨he, hquote, -, -⟩ | ⟨e, he, -⟩
    · rw [he] at hprefix
      exact hquote (List.cons_prefix_cons.1 hprefix).1.symm
    · rw [he] at hprefix
      exact absurd (List.cons_prefix_cons.1 hprefix).1 (by decide)

theorem not_prefix_append_quote (hcs : ∀ c ∈ cs, c ≠ '\'') (h : rest.head? ≠ some '\'') :
    ¬ ['\'', '\''] <+: cs ++ '\'' :: rest := by
  intro hprefix
  cases cs with
  | nil =>
    obtain ⟨more, hmore⟩ := (List.cons_prefix_cons.1 hprefix).2
    exact h (by rw [← hmore]; rfl)
  | cons c cs => exact hcs c (.head _) (List.cons_prefix_cons.1 hprefix).1.symm

/-- Whatever the text, and whichever form it is written in, it is read back. -/
theorem read?_write (cs : List Char) (hbasic : rest.head? ≠ some '"')
    (hliteral : rest.head? ≠ some '\'') : read? (write cs ++ rest) = some (cs, rest) := by
  rw [write]
  cases hform : Form.of cs with
  | basic =>
    dsimp only
    rw [List.cons_append, List.cons_append, List.append_assoc, List.singleton_append,
      read?_basic (not_prefix_flatMap_escapeChar hbasic), basic?_flatMap_escapeChar]
  | literal =>
    have hplain := of_eq_literal hform
    dsimp only
    rw [List.cons_append, List.cons_append, List.append_assoc, List.singleton_append,
      read?_literal (not_prefix_append_quote (fun c hc => (hplain c hc).1) hliteral),
      literal?_append hplain]
  | basicLines =>
    have htext : ['"', '"', '"'] ++ opening cs ++ escapeLines 0 cs ++ ['"', '"', '"'] ++ rest =
        '"' :: '"' :: '"' ::
          (opening cs ++ (escapeLines 0 cs ++ (List.replicate 3 '"' ++ rest))) := by
      simp
    dsimp only
    rw [htext]
    change basicLines? (dropFirstNewline _) = _
    rw [dropFirstNewline_opening dropNewline?_escapeLines]
    exact basicLines?_escapeLines (Nat.zero_le 2) hbasic
  | literalLines =>
    obtain ⟨htriple, hplain⟩ := of_eq_literalLines hform
    have htext : ['\'', '\'', '\''] ++ opening cs ++ cs ++ ['\'', '\'', '\''] ++ rest =
        '\'' :: '\'' :: '\'' :: (opening cs ++ (cs ++ (List.replicate 3 '\'' ++ rest))) := by
      simp
    dsimp only
    rw [htext]
    change literalLines? (dropFirstNewline _) = _
    rw [dropFirstNewline_opening (dropNewline?_append_quote hplain)]
    exact literalLines?_append htriple hplain hliteral

end Sidebar.Toml.Quoted
