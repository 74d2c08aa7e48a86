import Sidebar.Outline
import Sidebar.Toml.Source

namespace Sidebar

open Toml (Value Table)

namespace Outline

/-- Whether the rows that are not asked for can be passed over: the numbers in them have to be
representable. -/
def othersFit (known : List String) (rows : Table) : Bool :=
  Toml.rowsAreRepresentable (rows.filter fun (key, _) => !known.contains key)

def text? : Value → Option String
  | .string s => some s
  | _ => none

def optionalText? (rows : Table) (key : String) : Option (Option String) :=
  match rows.lookup key with
  | none => some none
  | some v => (text? v).map some

def listAt? (read? : Value → Option α) (rows : Table) (key : String) : Option (List α) :=
  match rows.lookup key with
  | none => some []
  | some (.array items) => items.mapM read?
  | some _ => none

end Outline

namespace MemberKind

def name : MemberKind → String
  | constructor => "constructor"
  | method => "method"

def ofName? (name : String) : Option MemberKind :=
  if name = "constructor" then some constructor
  else if name = "method" then some method
  else none

/-- A kind is given by its name, or by a table with nothing but the name as key of an empty value.
-/
def ofValue? : Value → Option MemberKind
  | .string s => ofName? s
  | .table [(key, .table [])] => ofName? key
  | .table [(key, .array [])] => ofName? key
  | _ => none

end MemberKind

/-- A member is a table, or an array of its name, kind and description. -/
def DocumentedMember.ofValue? : Value → Option DocumentedMember
  | .table rows => do
    if !Outline.othersFit ["name", "kind", "description"] rows then none
    let name ← (rows.lookup "name").bind Outline.text?
    let kind ← match rows.lookup "kind" with
      | none => some .method
      | some v => MemberKind.ofValue? v
    let description ← Outline.optionalText? rows "description"
    return { name, kind, description }
  | .array (name :: kind :: description :: _) => do
    let name ← Outline.text? name
    let kind ← MemberKind.ofValue? kind
    let description ← Outline.text? description
    return { name, kind, description := some description }
  | _ => none

/-- A class is a table, or an array of its name, its description and, if it has any, its members. -/
def DocumentedClass.ofValue? : Value → Option DocumentedClass
  | .table rows => do
    if !Outline.othersFit ["name", "description", "member"] rows then none
    let name ← (rows.lookup "name").bind Outline.text?
    let description ← Outline.optionalText? rows "description"
    let members ← Outline.listAt? DocumentedMember.ofValue? rows "member"
    return { name, description, members }
  | .array [name, description] => do
    let name ← Outline.text? name
    let description ← Outline.text? description
    return { name, description := some description }
  | .array (name :: description :: .array members :: _) => do
    let name ← Outline.text? name
    let description ← Outline.text? description
    let members ← members.mapM DocumentedMember.ofValue?
    return { name, description := some description, members }
  | _ => none

namespace Outline

def ofTable? (rows : Table) : Option Outline := do
  if !othersFit ["title", "class"] rows then none
  let title ← optionalText? rows "title"
  let classes ← listAt? DocumentedClass.ofValue? rows "class"
  return { title, classes }

def read? (text : String) : Option Outline := do
  ofTable? (← Toml.read? text)

def line (key text : String) : List Char :=
  key.toList ++ " = ".toList ++ Toml.Quoted.write text.toList ++ ['\n']

def optionalLine (key : String) (text : Option String) : List Char :=
  match text with
  | none => []
  | some text => line key text

end Outline

def DocumentedMember.write (m : DocumentedMember) : List Char :=
  "[[class.member]]\n".toList ++ Outline.line "name" m.name ++ Outline.line "kind" m.kind.name ++
    Outline.optionalLine "description" m.description

def DocumentedClass.writeHead (c : DocumentedClass) : List Char :=
  "[[class]]\n".toList ++ Outline.line "name" c.name ++
    Outline.optionalLine "description" c.description ++
    if c.members.isEmpty then "member = []\n".toList else []

namespace Outline

def writeHead (o : Outline) : List Char :=
  optionalLine "title" o.title ++ if o.classes.isEmpty then "class = []\n".toList else []

def tables (o : Outline) : List (List Char) :=
  o.classes.flatMap fun c => c.writeHead :: c.members.map DocumentedMember.write

/-- Writes an outline. An empty line stands between its parts. -/
def write (o : Outline) : String :=
  let parts := if o.writeHead.isEmpty then o.tables else o.writeHead :: o.tables
  String.ofList (['\n'].intercalate parts)

end Outline

end Sidebar
