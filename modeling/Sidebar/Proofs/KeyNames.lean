import Mathlib.Data.List.DropRight
import Sidebar.Key
import Sidebar.Proofs.LetterCase

namespace Sidebar

variable {cs before after digits : List Char}

theorem exists_eq_append_trim (cs : List Char) :
    ∃ before after, (∀ c ∈ before, isBlank c = true) ∧ (∀ c ∈ after, isBlank c = true) ∧
      cs = before ++ trim cs ++ after := by
  refine ⟨cs.takeWhile isBlank, (trimStart cs).rtakeWhile isBlank,
    fun _ => List.mem_takeWhile_imp, fun _ => List.mem_rtakeWhile_imp, ?_⟩
  have hend : trim cs ++ (trimStart cs).rtakeWhile isBlank = trimStart cs :=
    List.rdropWhile_append_rtakeWhile
  rw [List.append_assoc, hend]
  exact List.takeWhile_append_dropWhile.symm

theorem trim_append (hbefore : ∀ c ∈ before, isBlank c = true)
    (hafter : ∀ c ∈ after, isBlank c = true) (cs : List Char) :
    trim (before ++ cs ++ after) = trim cs := by
  have hstart : trimStart (before ++ cs ++ after) = trimStart (cs ++ after) := by
    rw [List.append_assoc]
    exact List.dropWhile_append_of_pos hbefore
  have hend (cs : List Char) : trimEnd (cs ++ after) = trimEnd cs := by
    rw [trimEnd, List.reverse_append,
      List.dropWhile_append_of_pos fun c hc => hafter c (List.mem_reverse.1 hc), trimEnd]
  rw [trim, hstart, trimStart, List.dropWhile_append, trim]
  split
  next hempty =>
    have hcs : trimStart cs = [] := List.isEmpty_iff.1 hempty
    rw [List.dropWhile_eq_nil_iff.2 hafter, hcs]
  next => exact hend (trimStart cs)

/-- Decimal digits, leading zeros among them, and their value. -/
structure IsDecimal (cs : List Char) (n : Nat) : Prop where
  ne_nil : cs ≠ []
  isDigit : ∀ c ∈ cs, c.isDigit = true
  value : Nat.ofDigitChars 10 cs 0 = n

theorem digits?_eq_some_iff {n : Nat} : digits? cs = some n ↔ IsDecimal cs n := by
  rw [digits?]
  split
  next h =>
    rw [Bool.or_eq_true, Bool.not_eq_true', List.isEmpty_iff, List.all_eq_false] at h
    refine iff_of_false (Option.some_ne_none n).symm fun hdecimal => ?_
    rcases h with hnil | ⟨c, hc, hdigit⟩
    · exact hdecimal.ne_nil hnil
    · exact hdigit (hdecimal.isDigit c hc)
  next h =>
    rw [Bool.or_eq_true, Bool.not_eq_true', not_or, List.isEmpty_iff, Bool.not_eq_false,
      List.all_eq_true] at h
    rw [Option.some.injEq]
    exact ⟨fun hvalue => ⟨h.1, h.2, hvalue⟩, IsDecimal.value⟩

theorem IsDecimal.dropPlus_append {n : Nat} {sign : List Char} (hsign : sign = [] ∨ sign = ['+'])
    (h : IsDecimal digits n) : dropPlus (sign ++ digits) = digits := by
  rcases hsign with rfl | rfl
  · rw [List.nil_append]
    unfold dropPlus
    split
    next cs => exact absurd (h.isDigit '+' List.mem_cons_self) (by decide)
    next => rfl
  · rfl

theorem exists_eq_append_dropPlus (cs : List Char) :
    ∃ sign, (sign = [] ∨ sign = ['+']) ∧ cs = sign ++ dropPlus cs := by
  unfold dropPlus
  split
  next cs => exact ⟨['+'], .inr rfl, rfl⟩
  next => exact ⟨[], .inl rfl, rfl⟩

theorem word?_eq_some_iff {n : UInt32} :
    word? cs = some n ↔
      ∃ sign digits, (sign = [] ∨ sign = ['+']) ∧ IsDecimal digits n.toNat ∧
        cs = sign ++ digits := by
  rw [word?, Option.bind_eq_some_iff]
  constructor
  · rintro ⟨m, hm, hn⟩
    split at hn
    next hlt =>
      cases hn
      obtain ⟨sign, hsign, hcs⟩ := exists_eq_append_dropPlus cs
      refine ⟨sign, dropPlus cs, hsign, ?_, hcs⟩
      rw [UInt32.toNat_ofNat_of_lt' hlt]
      exact digits?_eq_some_iff.1 hm
    next => cases hn
  · rintro ⟨sign, digits, hsign, hdigits, rfl⟩
    refine ⟨n.toNat, ?_, ?_⟩
    · rw [hdigits.dropPlus_append hsign]
      exact digits?_eq_some_iff.2 hdigits
    · rw [if_pos n.toNat_lt_size, UInt32.ofNat_toNat]

def decimalDigits : List Char := (List.range' 48 10).map Char.ofNat

theorem mem_decimalDigits {c : Char} (h : c.isDigit = true) : c ∈ decimalDigits := by
  obtain ⟨hle, hge⟩ := Char.isDigit_iff_toNat.1 h
  exact mem_map_ofNat (List.mem_range'_1.2 ⟨hle, Nat.lt_succ_of_le hge⟩)

theorem isBlank_of_isDigit {c : Char} (h : c.isDigit = true) : isBlank c = false := by
  have hall : decimalDigits.all fun c => !isBlank c := by decide
  rw [← Bool.not_eq_true']
  exact List.all_eq_true.1 hall c (mem_decimalDigits h)

namespace Key

def bareName (cs : List Char) : List Char :=
  (cs.filter fun c => c ∉ ['-', '_', ' ']).map Char.toLower

def names : List (String × Key) :=
  [("pgup", pageUp), ("pageup", pageUp), ("prior", pageUp), ("pgdn", pageDown),
    ("pgdown", pageDown), ("pagedown", pageDown), ("next", pageDown)]

/-- The key that a bare name stands for: Page Up or Page Down under its names, and every key under
its code, with a plus sign or without. -/
inductive Denotes : List Char → Key → Prop
  | name {word : String} {key : Key} (h : (word, key) ∈ names) : Denotes word.toList key
  | code {sign digits : List Char} {n : UInt32} (hsign : sign = [] ∨ sign = ['+'])
    (hdigits : IsDecimal digits n.toNat) : Denotes (sign ++ digits) (ofCode n)

/-- A text that spells a key has a name of the key between white space. -/
def Spells (s : String) (key : Key) : Prop :=
  ∃ before name after, (∀ c ∈ before, isBlank c = true) ∧ (∀ c ∈ after, isBlank c = true) ∧
    s.toList = before ++ name ++ after ∧ Denotes (bareName name) key

variable {name : List Char} {key : Key} {s : String}

theorem bareName_append (cs cs' : List Char) :
    bareName (cs ++ cs') = bareName cs ++ bareName cs' := by
  rw [bareName, List.filter_append, List.map_append, bareName, bareName]

theorem bareName_of_isDigit (h : ∀ c ∈ cs, c.isDigit = true) : bareName cs = cs := by
  have hdigits : decimalDigits.all fun c => bareName [c] == [c] := by decide
  induction cs with
  | nil => rfl
  | cons c cs ih =>
    obtain ⟨hc, hcs⟩ := List.forall_mem_cons.1 h
    have hkept : bareName [c] = [c] :=
      beq_iff_eq.1 (List.all_eq_true.1 hdigits c (mem_decimalDigits hc))
    rw [← List.singleton_append, bareName_append, hkept, ih hcs]

theorem normalName_eq (cs : List Char) : normalName cs = bareName (trim cs) := by
  rw [normalName, bareName, List.filter_map]
  congr 2
  funext c
  have hmark {m : Char} (hm : m.isAlpha = false) : (c.toLower == m) = decide (c = m) := by
    rw [Bool.eq_iff_iff, beq_iff_eq, decide_eq_true_eq, toLower_eq_iff hm]
  simp [hmark, Bool.and_assoc]

theorem Denotes.isBlank_eq_false (h : Denotes name key) : ∀ c ∈ name, isBlank c = false := by
  intro c hc
  cases h with
  | name h =>
    have hnames : ∀ p ∈ names, p.1.toList.all fun c => !isBlank c := by decide
    rw [← Bool.not_eq_true']
    exact List.all_eq_true.1 (hnames _ h) c hc
  | code hsign hdigits =>
    rcases List.mem_append.1 hc with hc | hc
    · rcases hsign with rfl | rfl
      · cases hc
      · rw [List.mem_singleton.1 hc]
        rfl
    · exact isBlank_of_isDigit (hdigits.isDigit c hc)

theorem bareName_eq_nil (hblank : ∀ c ∈ cs, isBlank c = true)
    (h : ∀ c ∈ bareName cs, isBlank c = false) : bareName cs = [] := by
  rw [List.eq_nil_iff_forall_not_mem]
  intro x hx
  obtain ⟨c, hmem, rfl⟩ := List.mem_map.1 hx
  have hc : isBlank c = true := hblank c (List.mem_of_mem_filter hmem)
  have hself : c.toLower = c := (toLower_eq_iff (isAlpha_of_isBlank hc)).2 rfl
  have hkept : isBlank c.toLower = false := h _ hx
  rw [hself, hc] at hkept
  cases hkept

theorem bareName_trim (h : ∀ c ∈ bareName cs, isBlank c = false) :
    bareName (trim cs) = bareName cs := by
  obtain ⟨before, after, hbefore, hafter, hcs⟩ := exists_eq_append_trim cs
  have hparts : bareName cs = bareName before ++ bareName (trim cs) ++ bareName after := by
    rw [← bareName_append, ← bareName_append, ← hcs]
  simp only [hparts, List.mem_append] at h
  rw [hparts, bareName_eq_nil hbefore fun c hc => h c (.inl (.inl hc)),
    bareName_eq_nil hafter fun c hc => h c (.inr hc), List.nil_append, List.append_nil]

/-- Where a key is spelled, the name may be taken to reach from the first character that is not
white space to the last one. -/
theorem spells_iff : Spells s key ↔ Denotes (bareName (trim s.toList)) key := by
  constructor
  · rintro ⟨before, name, after, hbefore, hafter, hs, hname⟩
    rw [hs, trim_append hbefore hafter, bareName_trim hname.isBlank_eq_false]
    exact hname
  · intro h
    obtain ⟨before, after, hbefore, hafter, hs⟩ := exists_eq_append_trim s.toList
    exact ⟨before, trim s.toList, after, hbefore, hafter, hs, h⟩

theorem ofName?_eq_some_iff : ofName? s = some key ↔ (s, key) ∈ names := by
  have hup : ∀ word ∈ ["pgup", "pageup", "prior"], (word, pageUp) ∈ names := by decide
  have hdown : ∀ word ∈ ["pgdn", "pgdown", "pagedown", "next"], (word, pageDown) ∈ names := by
    decide
  have hnames : ∀ p ∈ names, ofName? p.1 = some p.2 := by decide
  constructor
  · intro h
    rw [ofName?] at h
    split at h
    next hword =>
      cases h
      exact hup s hword
    next =>
      split at h
      next hword =>
        cases h
        exact hdown s hword
      next => cases h
  · exact hnames (s, key)

theorem ofName?_of_word? {n : UInt32} (h : word? name = some n) :
    ofName? (String.ofList name) = none := by
  have hnames : ∀ p ∈ names, word? p.1.toList = none := by decide
  rw [Option.eq_none_iff_forall_ne_some]
  intro key hkey
  have hnone := hnames _ (ofName?_eq_some_iff.1 hkey)
  rw [String.toList_ofList, h] at hnone
  cases hnone

theorem denotes_iff :
    Denotes name key ↔
      ofName? (String.ofList name) = some key ∨ ∃ n, word? name = some n ∧ ofCode n = key := by
  constructor
  · intro h
    cases h with
    | name h =>
      refine .inl (ofName?_eq_some_iff.2 ?_)
      rwa [String.ofList_toList]
    | code hsign hdigits =>
      exact .inr ⟨_, word?_eq_some_iff.2 ⟨_, _, hsign, hdigits, rfl⟩, rfl⟩
  · rintro (h | ⟨n, hn, rfl⟩)
    · have hname := Denotes.name (ofName?_eq_some_iff.1 h)
      rwa [String.toList_ofList] at hname
    · obtain ⟨sign, digits, hsign, hdigits, rfl⟩ := word?_eq_some_iff.1 hn
      exact .code hsign hdigits

theorem parse_eq_ok_iff : parse s = .ok key ↔ Spells s key := by
  rw [spells_iff, ← normalName_eq, denotes_iff, parse]
  cases hname : ofName? (String.ofList (normalName s.toList)) with
  | some named =>
    have hword : ∀ n, word? (normalName s.toList) ≠ some n := by
      intro n hn
      exact Option.some_ne_none named (hname.symm.trans (ofName?_of_word? hn))
    simp [hword]
  | none =>
    cases word? (normalName s.toList) with
    | some n => simp
    | none => simp

theorem parse_eq_error_iff {e : Unknown} :
    parse s = .error e ↔ e = ⟨s⟩ ∧ ∀ key, ¬ Spells s key := by
  simp only [← parse_eq_ok_iff]
  rw [parse]
  split
  next named h => simp
  next h => simp [eq_comm]

theorem spells_toString (n : UInt32) : Spells (toString n) (ofCode n) := by
  have hdigits : ∀ c ∈ (toString n).toList, c.isDigit = true := by
    rw [toList_toString_word]
    exact fun c hc => Nat.isDigit_of_mem_toDigits (by decide) (by decide) hc
  refine ⟨[], (toString n).toList, [], nofun, nofun, (List.append_nil _).symm, ?_⟩
  rw [bareName_of_isDigit hdigits, denotes_iff]
  exact .inr ⟨n, word?_toString n, rfl⟩

theorem code_ofCode (n : UInt32) : (ofCode n).code = n := by
  rw [ofCode]
  split_ifs with hup hdown
  · exact hup.symm
  · exact hdown.symm
  · rfl

theorem Denotes.ofCode_code (h : Denotes name key) : ofCode key.code = key := by
  cases h with
  | name h =>
    have hnames : ∀ p ∈ names, ofCode p.2.code = p.2 := by decide
    exact hnames _ h
  | code => rw [code_ofCode]

/-- A key is read from its spellings and from nothing else. -/
theorem names_read_in_any_spelling :
    (∀ (s : String) (key : Key), parse s = .ok key ↔ Spells s key) ∧
      (∀ (s : String) (e : Unknown), parse s = .error e ↔ e = ⟨s⟩ ∧ ∀ key, ¬ Spells s key) ∧
      (∀ n : UInt32, ∃ key, parse (toString n) = .ok key ∧ key.code = n) ∧
      ∀ s : String, parse s ≠ .ok (.other 33) ∧ parse s ≠ .ok (.other 34) := by
  refine ⟨fun _ _ => parse_eq_ok_iff, fun _ _ => parse_eq_error_iff, fun n => ?_, fun s => ?_⟩
  · exact ⟨ofCode n, parse_eq_ok_iff.2 (spells_toString n), code_ofCode n⟩
  · have hcode {key : Key} (h : parse s = .ok key) : ofCode key.code = key := by
      obtain ⟨_, _, _, _, _, _, hname⟩ := parse_eq_ok_iff.1 h
      exact hname.ofCode_code
    exact ⟨fun h => absurd (hcode h) (by decide), fun h => absurd (hcode h) (by decide)⟩

example : parse "\t+4_294-967 295\n" = .ok (.other 4294967295) := by cbv

end Key

end Sidebar
