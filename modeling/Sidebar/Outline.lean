import Sidebar.Document

namespace Sidebar

inductive MemberKind where
  | constructor
  | method
deriving DecidableEq, Repr

structure DocumentedMember where
  name : String
  kind : MemberKind := .method
  description : Option String := none
deriving DecidableEq, Repr

structure DocumentedClass where
  name : String
  description : Option String := none
  members : List DocumentedMember := []
deriving DecidableEq, Repr

structure Outline where
  title : Option String := none
  classes : List DocumentedClass := []
deriving DecidableEq, Repr

def MemberKind.category : MemberKind → Category
  | constructor => .constructorEntry
  | method => .methodEntry

/-- The values of a list, numbered from 1. -/
def numbered (xs : List α) : List (UInt32 × α) :=
  xs.zipIdx.map fun (x, i) => (UInt32.ofNat (i + 1), x)

namespace DocumentedClass

/-- The sidebar's part of a class: its entry, the title and list of its members, and their entries.
-/
def sidebar (c : DocumentedClass) (number : UInt32) : List Element :=
  let id := NavId.classId number
  [{ id := id.nav.text, category := .classEntry, label := some c.name },
    { id := Address.text ⟨.title, id⟩, category := .listTitle, label := some c.name },
    { id := Address.text ⟨.list, id⟩, category := .memberList }] ++
  (numbered c.members).map fun (index, m) =>
    { id := (NavId.memberId ⟨number, index⟩).nav.text, category := m.kind.category,
      label := some m.name }

def panels (c : DocumentedClass) (number : UInt32) : List Element :=
  { id := (NavId.classId number).description.text, category := .classPanel,
    label := c.description } ::
  (numbered c.members).map fun (index, m) =>
    { id := (NavId.memberId ⟨number, index⟩).description.text, category := .memberPanel,
      label := m.description }

/-- The constructors that are not in the first place. -/
def lateConstructors (c : DocumentedClass) : List DocumentedMember :=
  c.members.tail.filter fun m => m.kind = .constructor

end DocumentedClass

namespace Outline

def elements (o : Outline) : List Element :=
  (numbered o.classes).flatMap (fun (number, c) => c.sidebar number) ++
  (numbered o.classes).flatMap (fun (number, c) => c.panels number)

def document (o : Outline) : Document := .ofElements o.elements

def documentNotices (o : Outline) : List Notice :=
  o.classes.flatMap fun c => c.lateConstructors.map fun m => .lateConstructor m.name c.name

end Outline

end Sidebar
