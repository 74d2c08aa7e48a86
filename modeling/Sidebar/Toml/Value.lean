namespace Sidebar.Toml

inductive Decimal where
  | finite (digits exponent : Int)
  | infinite (negative : Bool)
  | notANumber
deriving DecidableEq, Repr

/-- A value. The rows of a table have distinct keys. -/
inductive Value where
  | string (s : String)
  | integer (n : Int)
  | misspelt
  | decimal (d : Decimal)
  | boolean (b : Bool)
  | moment (text : String)
  | array (items : List Value)
  | table (rows : List (String × Value))
deriving Repr

abbrev Table := List (String × Value)

/-- Half a unit beyond the greatest double: what is below rounds to a finite number. -/
def Decimal.bound : Nat := ((1 <<< 54) - 1) <<< 970

def Decimal.isRepresentable : Decimal → Bool
  | .finite digits exponent =>
    let n := digits.natAbs
    let places : Int := (Nat.toDigits 10 n).length + exponent
    if n = 0 ∨ places ≤ 308 then true
    else if 309 < places then false
    else n * Nat.pow 10 exponent.toNat < bound * Nat.pow 10 (-exponent).toNat
  | .infinite _ | .notANumber => true

mutual

def Value.isRepresentable : Value → Bool
  | .integer n => -(2 ^ 127 : Int) ≤ n && n < 2 ^ 128
  | .misspelt => false
  | .decimal d => d.isRepresentable
  | .array items => areRepresentable items
  | .table rows => rowsAreRepresentable rows
  | .string _ | .boolean _ | .moment _ => true

def areRepresentable : List Value → Bool
  | [] => true
  | v :: vs => v.isRepresentable && areRepresentable vs

def rowsAreRepresentable : List (String × Value) → Bool
  | [] => true
  | (_, v) :: rows => v.isRepresentable && rowsAreRepresentable rows

end

end Sidebar.Toml
