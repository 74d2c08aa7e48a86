import Sidebar.Toml.Space

namespace Sidebar.Toml.Quoted

def hexValue? (c : Char) : Option Nat :=
  if c.isDigit then some (c.toNat - '0'.toNat)
  else if 'a' ≤ c ∧ c ≤ 'f' then some (c.toNat - 'a'.toNat + 10)
  else if 'A' ≤ c ∧ c ≤ 'F' then some (c.toNat - 'A'.toNat + 10)
  else none

/-- The number written with the first `count` characters as hexadecimal digits, following `value`.
-/
def hex? : (count value : Nat) → List Char → Option (Nat × List Char)
  | 0, value, cs => some (value, cs)
  | _ + 1, _, [] => none
  | count + 1, value, c :: cs => do hex? count (16 * value + (← hexValue? c)) cs

def hexChar? (count : Nat) (cs : List Char) : Option (Char × List Char) := do
  let (code, cs) ← hex? count 0 cs
  if code.isValidChar then return (Char.ofNat code, cs) else none

def escapes : List (Char × Char) :=
  [('b', '\x08'), ('t', '\t'), ('n', '\n'), ('f', '\x0c'), ('r', '\r'), ('e', '\x1b'), ('"', '"'),
    ('\\', '\\')]

def escape? : List Char → Option (Char × List Char)
  | [] => none
  | c :: cs =>
    match escapes.lookup c with
    | some x => some (x, cs)
    | none =>
      if c = 'x' then hexChar? 2 cs
      else if c = 'u' then hexChar? 4 cs
      else if c = 'U' then hexChar? 8 cs
      else none

theorem length_hex?_le {count value code : Nat} {cs rest : List Char}
    (h : hex? count value cs = some (code, rest)) : rest.length ≤ cs.length := by
  induction count generalizing value cs with
  | zero =>
    cases h
    exact Nat.le_refl _
  | succ count ih =>
    cases cs with
    | nil => cases h
    | cons c cs =>
      simp only [hex?, Option.bind_eq_bind, Option.bind_eq_some_iff] at h
      obtain ⟨_, _, h⟩ := h
      exact Nat.le_succ_of_le (ih h)

theorem length_hexChar?_le {count : Nat} {cs rest : List Char} {x : Char}
    (h : hexChar? count cs = some (x, rest)) : rest.length ≤ cs.length := by
  simp only [hexChar?, Option.bind_eq_bind, Option.bind_eq_some_iff] at h
  obtain ⟨⟨code, after⟩, hcode, h⟩ := h
  split at h
  · cases h
    exact length_hex?_le hcode
  · cases h

theorem length_escape?_le {cs rest : List Char} {x : Char} (h : escape? cs = some (x, rest)) :
    rest.length ≤ cs.length := by
  cases cs with
  | nil => cases h
  | cons c cs =>
    simp only [escape?] at h
    split at h
    · cases h
      exact Nat.le_succ _
    · apply Nat.le_succ_of_le
      repeat' split at h
      · exact length_hexChar?_le h
      · exact length_hexChar?_le h
      · exact length_hexChar?_le h
      · cases h

def basic? : List Char → Option (List Char × List Char)
  | [] => none
  | c :: cs =>
    if c = '"' then some ([], cs)
    else if c = '\\' then
      match _h : escape? cs with
      | some (x, rest) => (basic? rest).map fun (text, rest) => (x :: text, rest)
      | none => none
    else if isControl c then none
    else (basic? cs).map fun (text, rest) => (c :: text, rest)
termination_by cs => cs.length
decreasing_by
  · exact Nat.lt_succ_of_le (length_escape?_le _h)
  · simp

def literal? : List Char → Option (List Char × List Char)
  | [] => none
  | c :: cs =>
    if c = '\'' then some ([], cs)
    else if isControl c then none
    else (literal? cs).map fun (text, rest) => (c :: text, rest)

/-- Reads the end of a string that spans lines: three quotes, before which up to two more belong to
the text. -/
def closing? (quote : Char) (cs : List Char) : Option (List Char × List Char) :=
  if [quote, quote, quote].isPrefixOf cs then
    let extra := ((cs.drop 3).takeWhile (· = quote)).take 2
    some (extra, cs.drop (3 + extra.length))
  else none

def isPlain (c : Char) (cs : List Char) : Bool :=
  !isControl c || c == '\n' || (c == '\r' && cs.head? == some '\n')

def dropContinuation? (cs : List Char) : Option (List Char) :=
  (dropNewline? (dropSpaces cs)).map dropBlank

theorem length_dropBlank_le (cs : List Char) : (dropBlank cs).length ≤ cs.length := by
  fun_induction dropBlank cs with
  | case1 cs ih | case3 cs ih | case4 cs ih => exact Nat.le_succ_of_le ih
  | case2 cs ih =>
    simp only [List.length_cons]
    omega
  | case5 => exact Nat.le_refl _

theorem length_dropContinuation?_le {cs rest : List Char}
    (h : dropContinuation? cs = some rest) : rest.length ≤ cs.length := by
  obtain ⟨after, ha, rfl⟩ := Option.map_eq_some_iff.1 h
  have h₁ : (dropSpaces cs).length ≤ cs.length := (List.dropWhile_sublist _).length_le
  have h₂ : after.length ≤ (dropSpaces cs).length := by
    unfold dropNewline? at ha
    split at ha
    · cases ha
      simp [*]
    · cases ha
      simp only [*, List.length_cons]
      omega
    · cases ha
  have h₃ := length_dropBlank_le after
  omega

def basicLines? : List Char → Option (List Char × List Char)
  | [] => none
  | c :: cs =>
    match closing? '"' (c :: cs) with
    | some found => some found
    | none =>
      if c = '\\' then
        match _h : escape? cs with
        | some (x, rest) => (basicLines? rest).map fun (text, rest) => (x :: text, rest)
        | none =>
          match _h : dropContinuation? cs with
          | some rest => basicLines? rest
          | none => none
      else if isPlain c cs then (basicLines? cs).map fun (text, rest) => (c :: text, rest)
      else none
termination_by cs => cs.length
decreasing_by
  · exact Nat.lt_succ_of_le (length_escape?_le _h)
  · exact Nat.lt_succ_of_le (length_dropContinuation?_le _h)
  · simp

def literalLines? : List Char → Option (List Char × List Char)
  | [] => none
  | c :: cs =>
    match closing? '\'' (c :: cs) with
    | some found => some found
    | none =>
      if isPlain c cs then (literalLines? cs).map fun (text, rest) => (c :: text, rest) else none

/-- A line break right after the opening quotes is not part of the text. -/
def dropFirstNewline (cs : List Char) : List Char := (dropNewline? cs).getD cs

def line? : List Char → Option (List Char × List Char)
  | '"' :: cs => basic? cs
  | '\'' :: cs => literal? cs
  | _ => none

def read? : List Char → Option (List Char × List Char)
  | '"' :: '"' :: '"' :: cs => basicLines? (dropFirstNewline cs)
  | '\'' :: '\'' :: '\'' :: cs => literalLines? (dropFirstNewline cs)
  | cs => line? cs

inductive Form where
  | basic
  | literal
  | basicLines
  | literalLines
deriving DecidableEq, Repr

def hasTriple (quote : Char) : List Char → Bool
  | [] => false
  | c :: cs => [quote, quote, quote].isPrefixOf (c :: cs) || hasTriple quote cs

/-- The first form in which the text stands as it is, or else a form with escapes. -/
def Form.of (cs : List Char) : Form :=
  let onOneLine := cs.all fun c => !isControl c
  let onLines := cs.all fun c => !isControl c || c == '\n'
  if onOneLine && !cs.contains '\\' && !cs.contains '"' then .basic
  else if onOneLine && !cs.contains '\'' then .literal
  else if onLines && !cs.contains '\\' && !hasTriple '"' cs then .basicLines
  else if onLines && !hasTriple '\'' cs then .literalLines
  else if cs.contains '\n' then .basicLines
  else .basic

def hexDigit (n : Nat) : Char := (Nat.digitChar n).toUpper

def escapeChar (c : Char) : List Char :=
  match c with
  | '\x08' => ['\\', 'b']
  | '\t' => ['\\', 't']
  | '\n' => ['\\', 'n']
  | '\x0c' => ['\\', 'f']
  | '\r' => ['\\', 'r']
  | '"' => ['\\', '"']
  | '\\' => ['\\', '\\']
  | c =>
    if isControl c then ['\\', 'u', '0', '0', hexDigit (c.toNat / 16), hexDigit (c.toNat % 16)]
    else [c]

/-- A text as it stands in a basic string that spans lines. Line ends stand as they are, and of the
quotes in a row every third is escaped; `quotes` counts those already passed. -/
def escapeLines (quotes : Nat) : List Char → List Char
  | [] => []
  | c :: cs =>
    if c = '"' then
      if quotes = 2 then '\\' :: '"' :: escapeLines 0 cs else '"' :: escapeLines (quotes + 1) cs
    else if c = '\n' then '\n' :: escapeLines 0 cs
    else escapeChar c ++ escapeLines 0 cs

def opening (cs : List Char) : List Char := if cs.contains '\n' then ['\n'] else []

def write (cs : List Char) : List Char :=
  match Form.of cs with
  | .basic => '"' :: cs.flatMap escapeChar ++ ['"']
  | .literal => '\'' :: cs ++ ['\'']
  | .basicLines => ['"', '"', '"'] ++ opening cs ++ escapeLines 0 cs ++ ['"', '"', '"']
  | .literalLines => ['\'', '\'', '\''] ++ opening cs ++ cs ++ ['\'', '\'', '\'']

end Sidebar.Toml.Quoted
