import Sidebar.Text.Blank
import Sidebar.Text.Numeral

namespace Sidebar

inductive Direction where
  | back
  | forward
deriving DecidableEq, Repr

inductive Key where
  | pageUp
  | pageDown
  | other (code : UInt32)
deriving DecidableEq, Repr

namespace Key

def ofCode (code : UInt32) : Key :=
  if code = 33 then pageUp else if code = 34 then pageDown else other code

def code : Key → UInt32
  | pageUp => 33
  | pageDown => 34
  | other code => code

def direction? : Key → Option Direction
  | pageUp => some .back
  | pageDown => some .forward
  | other _ => none

def text : Key → String
  | pageUp => "PageUp"
  | pageDown => "PageDown"
  | other code => s!"key {code}"

/-- The form in which names of keys are compared: no white space at the ends, ASCII letters in lower
case, and none of the separators that are written inside names. -/
def normalName (cs : List Char) : List Char :=
  ((trim cs).map Char.toLower).filter fun c => !(c == '-' || c == '_' || c == ' ')

def ofName? (name : String) : Option Key :=
  if name ∈ ["pgup", "pageup", "prior"] then some pageUp
  else if name ∈ ["pgdn", "pgdown", "pagedown", "next"] then some pageDown
  else none

structure Unknown where
  name : String
deriving DecidableEq, Repr

def Unknown.message (e : Unknown) : String :=
  s!"unknown key '{e.name}' (expected pgup, pgdn or a numeric key code)"

def parse (s : String) : Except Unknown Key :=
  let name := normalName s.toList
  match ofName? (String.ofList name) <|> (word? name).map ofCode with
  | some key => .ok key
  | none => .error ⟨s⟩

end Key

end Sidebar
