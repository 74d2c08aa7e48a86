import Sidebar.Text.Fields
import Sidebar.Text.Numeral

namespace Sidebar

/-- A member, addressed by the class it belongs to and its place in that class, counted from 1. -/
structure MemberId where
  owner : UInt32
  index : UInt32
deriving DecidableEq, Repr

inductive NavId where
  | classId (number : UInt32)
  | memberId (id : MemberId)
deriving DecidableEq, Repr

namespace MemberId

def firstOf (owner : UInt32) : MemberId := ⟨owner, 1⟩

instance : LT MemberId where
  lt a b := a.owner < b.owner ∨ a.owner = b.owner ∧ a.index < b.index

instance (a b : MemberId) : Decidable (a < b) :=
  inferInstanceAs (Decidable (a.owner < b.owner ∨ a.owner = b.owner ∧ a.index < b.index))

def text (id : MemberId) : String := toString id.owner ++ "_" ++ toString id.index

end MemberId

namespace NavId

def owner : NavId → UInt32
  | .classId c => c
  | .memberId m => m.owner

instance : LT NavId where
  lt
    | .classId a, .classId b => a < b
    | .classId _, .memberId _ => True
    | .memberId _, .classId _ => False
    | .memberId a, .memberId b => a < b

instance : (a b : NavId) → Decidable (a < b)
  | .classId a, .classId b => inferInstanceAs (Decidable (a < b))
  | .classId _, .memberId _ => .isTrue trivial
  | .memberId _, .classId _ => .isFalse id
  | .memberId a, .memberId b => inferInstanceAs (Decidable (a < b))

def text : NavId → String
  | .classId c => toString c
  | .memberId m => m.text

inductive Malformed where
  | empty
  | notNumeric (id part : String)
  | tooManyParts (id : String)
deriving DecidableEq, Repr

def Malformed.message : Malformed → String
  | .empty => "navigation id is empty"
  | .notNumeric id part => s!"invalid navigation id '{id}': '{part}' is not a number"
  | .tooManyParts id => s!"invalid navigation id '{id}': expected <class> or <class>_<member>"

def parsePart (s : String) (part : List Char) : Except Malformed UInt32 :=
  match canonical? part with
  | some n => .ok n
  | none => .error (.notNumeric s (String.ofList part))

/-- Reads an id. The parts are judged from left to right, and their number after the second. -/
def parse (s : String) : Except Malformed NavId :=
  if s.isEmpty then .error .empty
  else
    match fields '_' s.toList with
    | [] => .error .empty
    | [owner] => .classId <$> parsePart s owner
    | owner :: index :: rest => do
      let owner ← parsePart s owner
      let index ← parsePart s index
      if rest.isEmpty then return .memberId ⟨owner, index⟩ else throw (.tooManyParts s)

def sort (ids : List NavId) : List NavId := ids.mergeSort fun a b => !decide (b < a)

end NavId

/-- Reads the id of a member; the id of a class stands for its first member. -/
def MemberId.parse (s : String) : Except NavId.Malformed MemberId := do
  match ← NavId.parse s with
  | .memberId m => return m
  | .classId c => return .firstOf c

end Sidebar
