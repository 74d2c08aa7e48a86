import Sidebar.Category
import Sidebar.Key
import Sidebar.NavId

namespace Sidebar

inductive Level where
  | debug
  | info
  | warn
deriving DecidableEq, Repr

def Level.name : Level → String
  | debug => "DEBUG"
  | info => "INFO"
  | warn => "WARN"

inductive Notice where
  | duplicateId (id : String) (category : Category)
  | withoutId (category : Category)
  | lateConstructor (member owner : String)
  | pageRead (elements : Nat) (path : String)
  | outlineRead (classes : Nat) (path : String)
  | pageLoaded (elements : Nat)
  | membersIndexed (classes : Nat)
  | keyPressed (key : Key) (source target : MemberId)
  | noClassEntry (number : UInt32)
  | noMemberEntry (member : MemberId)
  | atLastMember (member : MemberId)
  | atFirstMember (member : MemberId)
  | contractBroken (issues : Nat) (path : String)
deriving DecidableEq, Repr

namespace Notice

def level : Notice → Level
  | duplicateId .. | withoutId .. | lateConstructor .. | contractBroken .. => .warn
  | pageRead .. | outlineRead .. | pageLoaded .. | membersIndexed .. => .info
  | keyPressed .. | noClassEntry .. | noMemberEntry .. | atLastMember .. | atFirstMember .. =>
    .debug

def message : Notice → String
  | duplicateId id category => s!"Duplicate element id '{id}' ({category.name})"
  | withoutId category => s!"Skipping {category.name} element without an id"
  | lateConstructor member owner =>
    s!"Constructor '{member}' of class '{owner}' is not the first member"
  | pageRead elements path => s!"Read {elements} navigable elements from {path}"
  | outlineRead classes path => s!"Loaded outline with {classes} classes from {path}"
  | pageLoaded elements => s!"Page loaded with {elements} navigable elements"
  | membersIndexed classes => s!"Indexed member counts of {classes} classes"
  | keyPressed key source target => s!"{key.text}: {source.text} -> {target.text}"
  | noClassEntry number => s!"No sidebar entry for class {number}"
  | noMemberEntry member => s!"No sidebar entry for member {member.text}"
  | atLastMember member => s!"Already at the last member ({member.text})"
  | atFirstMember member => s!"Cannot step back from {member.text}"
  | contractBroken issues path => s!"{issues} contract issues in {path}"

def line (n : Notice) : String := n.level.name ++ " " ++ n.message

end Notice

end Sidebar
