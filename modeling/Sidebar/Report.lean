import Sidebar.Contract
import Sidebar.Files
import Sidebar.Page

namespace Sidebar

open Files (Fault Node)

/-- Why a file is no page. -/
inductive PageError where
  | unreadable (path : String) (fault : Fault)
  | noNavigation (path : String)
deriving DecidableEq, Repr

def PageError.message : PageError → String
  | unreadable path fault => s!"Failed to read page {path}: {fault.message}"
  | noNavigation path => s!"Page {path} has no navigation elements"

def Page.load (path : String) (text : Except Fault String) : Except PageError Document :=
  match text with
  | .error fault => .error (.unreadable path fault)
  | .ok html =>
    let d := Page.read html
    if d.size = 0 then .error (.noNavigation path) else .ok d

def Page.loadNotices (path : String) (text : Except Fault String) : List Notice :=
  match text with
  | .error _ => []
  | .ok html =>
    let d := Page.read html
    Page.notices html ++ if d.size = 0 then [] else [.pageRead d.size path]

/-- How far a page keeps the contract. -/
structure Report where
  path : String
  classes : Nat
  members : Nat
  issues : List Issue
deriving DecidableEq, Repr

namespace Report

def isClean (r : Report) : Bool := r.issues.isEmpty

def ofDocument (path : String) (d : Document) : Report where
  path
  classes := d.classIds.length
  members := d.members.length
  issues := d.check

def ofFile (path : String) (file : Node) : Except PageError Report :=
  (ofDocument path) <$> Page.load path file.text

end Report

end Sidebar
