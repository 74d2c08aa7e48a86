namespace Sidebar

inductive Display where
  | block
  | hidden
deriving DecidableEq, Repr

inductive Background where
  | active
  | neutral
deriving DecidableEq, Repr

inductive Weight where
  | bold
  | normal
deriving DecidableEq, Repr

def Display.value : Display → String
  | block => "block"
  | hidden => "none"

def Background.value : Background → String
  | active => "#e8f8e8"
  | neutral => "#ecffe6"

def Weight.value : Weight → String
  | bold => "bold"
  | normal => "normal"

structure Style where
  display : Option Display := none
  background : Option Background := none
  weight : Option Weight := none
deriving DecidableEq, Repr

namespace Style

/-- The emphasis of the selected sidebar entry. -/
def activate (_ : Style) : Style := ⟨some .block, some .active, some .bold⟩

/-- The emphasis of every other sidebar entry, which stays as visible as it was. -/
def deactivate (s : Style) : Style := { s with background := some .neutral, weight := some .normal }

def reveal (s : Style) : Style := { s with display := some .block }

def hide (s : Style) : Style := { s with display := some .hidden }

def paint (background : Background) (s : Style) : Style := { s with background := some background }

/-- Whether the element was made visible, which is more than not being hidden. -/
def isShown (s : Style) : Bool := s.display = some .block

def isActive (s : Style) : Bool := s.weight = some .bold

/-- The declarations as a `style` attribute holds them. -/
def css (s : Style) : String :=
  "; ".intercalate <|
    (s.display.map fun d => "display: " ++ d.value).toList ++
    (s.background.map fun b => "background: " ++ b.value).toList ++
    (s.weight.map fun w => "font-weight: " ++ w.value).toList

end Style

end Sidebar
