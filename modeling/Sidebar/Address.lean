import Sidebar.NavId

namespace Sidebar

inductive Role where
  | nav
  | list
  | title
  | description
deriving DecidableEq, Repr

namespace Role

def all : List Role := [nav, list, title, description]

def name : Role → String
  | nav => "nav"
  | list => "list"
  | title => "title"
  | description => "description"

def ofName? (name : String) : Option Role := all.find? fun r => r.name == name

end Role

/-- The element that plays `role` for the class or member `target`. -/
structure Address where
  role : Role
  target : NavId
deriving DecidableEq, Repr

namespace Address

def text (a : Address) : String := a.role.name ++ "_" ++ a.target.text

/-- Reads an element id, which most ids on a page do not follow. -/
def parse? (s : String) : Option Address := do
  let (role, target) ← cut? '_' s.toList
  let role ← Role.ofName? (String.ofList role)
  let target ← (NavId.parse (String.ofList target)).toOption
  return ⟨role, target⟩

end Address

namespace NavId

def nav (id : NavId) : Address := ⟨.nav, id⟩

def description (id : NavId) : Address := ⟨.description, id⟩

end NavId

end Sidebar
