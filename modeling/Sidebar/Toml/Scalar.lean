import Sidebar.Text.Fields
import Sidebar.Toml.Space
import Sidebar.Toml.Value

namespace Sidebar.Toml.Scalar

def endsWord (c : Char) : Bool :=
  c == '\n' || c == '\r' || c == '#' || c == '=' || c == ',' || c == '[' || c == ']' || c == '{' ||
    c == '}'

def goesOn (cs : List Char) : Bool :=
  (dropSpaces cs).head?.any fun c => !(endsWord c || c == '.' || c == '"' || c == '\'')

/-- Cuts off the word at the head of a text. `inGap` tells that the text follows space after which
the word goes on. -/
def cutWord (inGap : Bool) : List Char → List Char × List Char
  | [] => ([], [])
  | c :: cs =>
    if isSpace c then
      if inGap || goesOn cs then
        let (word, rest) := cutWord true cs
        (c :: word, rest)
      else ([], c :: cs)
    else if endsWord c then ([], c :: cs)
    else
      let (word, rest) := cutWord false cs
      (c :: word, rest)

def sign : List Char → Option Int × List Char
  | '-' :: cs => (some (-1), cs)
  | '+' :: cs => (some 1, cs)
  | cs => (none, cs)

/-- Digits with single underscores between them, without the underscores. -/
def grouped? (isDigit : Char → Bool) (cs : List Char) : Option (List Char) :=
  let groups := fields '_' cs
  if groups.all fun group => !group.isEmpty && group.all isDigit then some groups.flatten else none

def digitValue (c : Char) : Nat :=
  if c.isDigit then c.toNat - '0'.toNat else c.toLower.toNat - 'a'.toNat + 10

def ofDigits (base : Nat) (cs : List Char) : Nat :=
  cs.foldl (fun n c => base * n + digitValue c) 0

def isHexDigit (c : Char) : Bool := c.isDigit || ('a' ≤ c.toLower && c.toLower ≤ 'f')

def isOctalDigit (c : Char) : Bool := '0' ≤ c && c ≤ '7'

def isBinaryDigit (c : Char) : Bool := c == '0' || c == '1'

def based (base : Nat) (isDigit : Char → Bool) (cs : List Char) : Option Value :=
  if cs.isEmpty then some .misspelt
  else (grouped? isDigit cs).map fun digits => .integer (ofDigits base digits)

/-- Whether a group of characters between underscores may stand in an integer: it begins with a
digit of some base, and ends with one before another underscore. -/
def isGroup (isLast : Bool) (group : List Char) : Bool :=
  group.head?.any isHexDigit && (isLast || group.getLast?.any isHexDigit)

/-- The groups of an integer after its sign, put together. The first is a number without a zero in
front, or nothing between a sign and an underscore. -/
def groups? (isSigned : Bool) (cs : List Char) : Option (List Char) :=
  let number := cs.takeWhile Char.isDigit
  match cs.dropWhile Char.isDigit with
  | [] => if number.isEmpty ∨ number.head? = some '0' ∧ 1 < number.length then none else some number
  | '_' :: rest =>
    let groups := fields '_' rest
    if number.head? = some '0' ∨ number.isEmpty ∧ !isSigned then none
    else if rest.any fun c => c == ' ' || c == '.' || c == 'e' || c == 'E' then none
    else if groups.dropLast.all (isGroup false) && groups.getLast?.any (isGroup true) then
      some (number ++ groups.flatten)
    else none
  | _ => none

def integer? : List Char → Option Value
  | '0' :: 'x' :: cs => based 16 isHexDigit cs
  | '0' :: 'o' :: cs => based 8 isOctalDigit cs
  | '0' :: 'b' :: cs => based 2 isBinaryDigit cs
  | cs =>
    let (s, cs) := sign cs
    (groups? s.isSome cs).map fun digits =>
      if digits.all Char.isDigit then .integer (s.getD 1 * (ofDigits 10 digits : Int))
      else .misspelt

/-- The whole part of a decimal after its sign: a number without a zero in front, or any digits
after a sign and an underscore. -/
def whole? (isSigned : Bool) : List Char → Option (List Char)
  | '_' :: cs => if isSigned then grouped? Char.isDigit cs else none
  | cs => do
    let digits ← grouped? Char.isDigit cs
    if digits.head? = some '0' ∧ 1 < digits.length then none else return digits

def exponent (cs : List Char) : List Char × Option (List Char) :=
  let isMark (c : Char) : Bool := c == 'e' || c == 'E'
  match cs.dropWhile fun c => !isMark c with
  | [] => (cs, none)
  | _ :: power => (cs.takeWhile fun c => !isMark c, some power)

def finite? (cs : List Char) : Option Decimal := do
  let (s, cs) := sign cs
  let (mantissa, power) := exponent cs
  let (whole, fraction) ←
    match cut? '.' mantissa with
    | some (whole, fraction) => (grouped? Char.isDigit fraction).map fun digits => (whole, digits)
    | none => if power.isSome then some (mantissa, []) else none
  let whole ← whole? s.isSome whole
  let shift ←
    match power with
    | none => some 0
    | some power =>
      let (s, digits) := sign power
      (grouped? Char.isDigit digits).map fun digits => s.getD 1 * (ofDigits 10 digits : Int)
  return .finite (s.getD 1 * (ofDigits 10 (whole ++ fraction) : Int)) (shift - fraction.length)

def decimal? (cs : List Char) : Option Decimal :=
  let (s, rest) := sign cs
  if rest = "inf".toList then some (.infinite (s == some (-1)))
  else if rest = "nan".toList then some .notANumber
  else finite? cs

def digits? (count : Nat) (cs : List Char) : Option (Nat × List Char) :=
  let digits := cs.take count
  if digits.length = count ∧ digits.all Char.isDigit then
    some (ofDigits 10 digits, cs.drop count)
  else none

def drop? (c : Char) : List Char → Option (List Char)
  | [] => none
  | d :: cs => if d = c then some cs else none

def isLeapYear (year : Nat) : Bool := year % 4 == 0 && (year % 100 != 0 || year % 400 == 0)

def daysIn (year month : Nat) : Nat :=
  if month = 2 then if isLeapYear year then 29 else 28
  else if month ∈ [4, 6, 9, 11] then 30
  else 31

def dropDate? (cs : List Char) : Option (List Char) := do
  let (year, cs) ← digits? 4 cs
  let (month, cs) ← digits? 2 (← drop? '-' cs)
  let (day, cs) ← digits? 2 (← drop? '-' cs)
  if 1 ≤ month ∧ month ≤ 12 ∧ 1 ≤ day ∧ day ≤ daysIn year month then return cs else none

def dropFraction? : List Char → Option (List Char)
  | '.' :: cs => if cs.head?.any Char.isDigit then some (cs.dropWhile Char.isDigit) else none
  | cs => some cs

def seconds? : List Char → Option (Nat × List Char)
  | ':' :: cs => do
    let (second, cs) ← digits? 2 cs
    return (second, ← dropFraction? cs)
  | cs => some (0, cs)

def dropTime? (cs : List Char) : Option (List Char) := do
  let (hour, cs) ← digits? 2 cs
  let (minute, cs) ← digits? 2 (← drop? ':' cs)
  let (second, cs) ← seconds? cs
  if hour ≤ 23 ∧ minute ≤ 59 ∧ second ≤ 60 then return cs else none

def dropOffset? : List Char → Option (List Char)
  | [] => some []
  | c :: cs =>
    if c = 'Z' ∨ c = 'z' then some cs
    else if c = '+' ∨ c = '-' then do
      let (hours, cs) ← digits? 2 cs
      let (minutes, cs) ← digits? 2 (← drop? ':' cs)
      if hours ≤ 23 ∧ minutes ≤ 59 then return cs else none
    else none

def isMoment (cs : List Char) : Bool :=
  match dropDate? cs with
  | none => dropTime? cs == some []
  | some [] => true
  | some (c :: cs) =>
    (c == 'T' || c == 't' || c == ' ') && (dropTime? cs).bind dropOffset? == some []

def ofWord? (cs : List Char) : Option Value :=
  if cs = "true".toList then some (.boolean true)
  else if cs = "false".toList then some (.boolean false)
  else
    integer? cs <|> (decimal? cs).map .decimal <|>
      if isMoment cs then some (.moment (String.ofList cs)) else none

def read? (cs : List Char) : Option (Value × List Char) :=
  let (word, rest) := cutWord false cs
  (ofWord? word).map fun v => (v, rest)

end Sidebar.Toml.Scalar
