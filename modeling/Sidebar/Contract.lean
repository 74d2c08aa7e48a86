import Sidebar.Document

namespace Sidebar

inductive Issue where
  | unexpectedId (id : String) (category : Category)
  | duplicateId (id : String)
  | noInitialClass
  | missingClass (number : UInt32)
  | emptyClass (number : UInt32)
  | orphanMembers (owner : UInt32)
  | missingMember (id : MemberId)
  | misplacedConstructor (id : MemberId)
  | missingPanel (entry expected : Address)
deriving DecidableEq, Repr

def Issue.message : Issue → String
  | unexpectedId id category => s!"Element '{id}' ({category.name}) has an unexpected id"
  | duplicateId id => s!"Duplicate element id '{id}'"
  | noInitialClass => "No sidebar entry for class 1"
  | missingClass c => s!"Class {c} is missing from the sidebar"
  | emptyClass c => s!"Class {c} has no members"
  | orphanMembers c => s!"Members listed for unknown class {c}"
  | missingMember m => s!"Member {m.text} is missing from the sidebar"
  | misplacedConstructor m => s!"Constructor {m.text} is not the first member"
  | missingPanel entry expected => s!"Sidebar entry '{entry.text}' has no '{expected.text}'"

def Category.admits : Category → Address → Bool
  | .classEntry, ⟨.nav, .classId _⟩ => true
  | .memberList, ⟨.list, .classId _⟩ => true
  | .listTitle, ⟨.title, .classId _⟩ => true
  | .constructorEntry, ⟨.nav, .memberId _⟩ => true
  | .methodEntry, ⟨.nav, .memberId _⟩ => true
  | .classPanel, ⟨.description, .classId _⟩ => true
  | .memberPanel, ⟨.description, .memberId _⟩ => true
  | _, _ => false

def Element.isWellNamed (e : Element) : Bool := e.address?.any e.category.admits

/-- The numbers from 1 up to the last of an ascending list that the list leaves out. -/
def gaps (numbers : List UInt32) : List UInt32 :=
  match numbers.getLast? with
  | none => []
  | some last =>
    ((List.range' 1 (last.toNat - 1)).map UInt32.ofNat).filter fun n => !numbers.contains n

namespace Document

def idIssues (d : Document) : List Issue :=
  d.elements.toList.zipIdx.flatMap fun (e, place) =>
    (if d.firstPlace[e.id]? = some place then [] else [.duplicateId e.id]) ++
    (if e.isWellNamed then [] else [.unexpectedId e.id e.category])

def panelIssues (d : Document) (entry : NavId) (expected : List Address) : List Issue :=
  (expected.filter fun a => !d.contains a.text).map (.missingPanel entry.nav)

def numberingIssues (classes : List UInt32) : List Issue :=
  (if classes.isEmpty || classes.contains 1 then [] else [.noInitialClass]) ++
  (gaps classes).map .missingClass

/-- What is wrong with a class in the sidebar: its panels, and the numbering of its members, which
have the given places. -/
def classIssues (d : Document) (c : UInt32) (indices : List UInt32) : List Issue :=
  d.panelIssues (.classId c) [⟨.list, .classId c⟩, ⟨.description, .classId c⟩] ++
  if indices.isEmpty then [.emptyClass c] else (gaps indices).map fun i => .missingMember ⟨c, i⟩

/-- What is wrong with the members listed for a class: the class, which should be one of those in
the sidebar, and their panels. -/
def memberIssues (d : Document) (classes : List UInt32) (c : UInt32) (indices : List UInt32) :
    List Issue :=
  (if classes.contains c then [] else [.orphanMembers c]) ++
  indices.flatMap fun i =>
    d.panelIssues (.memberId ⟨c, i⟩) [⟨.description, .memberId ⟨c, i⟩⟩]

def constructorIssues (d : Document) : List Issue :=
  (((d.byCategory .constructorEntry).filterMap entryMember?).filter fun m => m.index ≠ 1).map
    .misplacedConstructor

def check (d : Document) : List Issue :=
  let classes := d.classIds
  let members := d.members
  d.idIssues ++ numberingIssues classes ++
  classes.flatMap (fun c => d.classIssues c (indicesIn members c)) ++
  d.membersByClass.flatMap (fun (c, indices) => d.memberIssues classes c indices) ++
  d.constructorIssues

end Document

end Sidebar
