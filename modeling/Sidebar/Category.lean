namespace Sidebar

inductive Category where
  | classEntry
  | memberList
  | listTitle
  | constructorEntry
  | methodEntry
  | classPanel
  | memberPanel
deriving DecidableEq, Repr, Hashable

namespace Category

def all : List Category :=
  [classEntry, memberList, listTitle, constructorEntry, methodEntry, classPanel, memberPanel]

/-- The CSS class that marks the category. -/
def name : Category → String
  | classEntry => "navclass"
  | memberList => "navmemberlist"
  | listTitle => "nav_title_memberlist"
  | constructorEntry => "navconstructor"
  | methodEntry => "navmethod"
  | classPanel => "classdescription"
  | memberPanel => "memberdescription"

def ofName? (name : String) : Option Category := all.find? fun c => c.name == name

def isMemberEntry : Category → Bool
  | constructorEntry | methodEntry => true
  | _ => false

end Category

end Sidebar
