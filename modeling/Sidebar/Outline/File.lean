import Sidebar.Files
import Sidebar.Outline.Text

namespace Sidebar

open Files (Fault)

inductive OutlineError where
  | unreadable (fault : Fault)
  | unwritable (fault : Fault)
  /-- The text is no TOML, or describes no outline. -/
  | malformed
deriving DecidableEq, Repr

def OutlineError.message : OutlineError → String
  | unreadable fault => s!"Failed to read outline: {fault.message}"
  | unwritable fault => s!"Failed to write outline: {fault.message}"
  | malformed => "TOML parse error: the text describes no outline"

def Outline.load (text : Except Fault String) : Except OutlineError Outline :=
  match text with
  | .error fault => .error (.unreadable fault)
  | .ok text =>
    match Outline.read? text with
    | some o => .ok o
    | none => .error .malformed

def Outline.loadNotices (path : String) (o : Outline) : List Notice :=
  [.outlineRead o.classes.length path]

def Outline.save (o : Outline) (root : Files.Node) (path : String) :
    Except OutlineError Files.Node :=
  (root.write path o.write).mapError .unwritable

end Sidebar
