import Sidebar.Toml.Item
import Sidebar.Toml.Quoted
import Sidebar.Toml.Scalar

namespace Sidebar.Toml

/-- The greatest number of parts of a key and the greatest depth of a value. -/
def limit : Nat := 80

structure Pair where
  path : List String
  key : String
  value : Value

structure Section where
  isElement : Bool
  path : List String
  key : String
  pairs : List Pair

structure Source where
  pairs : List Pair
  sections : List Section

def isBareKeyChar (c : Char) : Bool := c.isAlphanum || c == '-' || c == '_'

def keyPart? (cs : List Char) : Option (String × List Char) :=
  match Quoted.line? cs with
  | some (text, rest) => some (String.ofList text, rest)
  | none =>
    let text := cs.takeWhile isBareKeyChar
    if text.isEmpty then none else some (String.ofList text, cs.dropWhile isBareKeyChar)

def key? : Nat → List Char → Option ((List String × String) × List Char)
  | 0, _ => none
  | parts + 1, cs => do
    let (part, cs) ← keyPart? cs
    match dropSpaces cs with
    | '.' :: cs => do
      let ((path, key), cs) ← key? parts (dropSpaces cs)
      return ((part :: path, key), cs)
    | cs => return (([], part), cs)

def keyAndSign? (dropBetween : List Char → List Char) (cs : List Char) :
    Option ((List String × String) × List Char) := do
  let (key, cs) ← key? limit cs
  match dropBetween cs with
  | '=' :: cs => return (key, dropBetween cs)
  | _ => none

mutual

/-- Reads a value. `depth` says how many more arrays and tables may be opened, and the recursion is
on `fuel`, of which a text needs no more than two for each character. -/
def value? : (fuel depth : Nat) → List Char → Option (Value × List Char)
  | 0, _, _ => none
  | fuel + 1, depth, cs =>
    match Quoted.read? cs with
    | some (text, rest) => some (.string (String.ofList text), rest)
    | none =>
      match cs, depth with
      | '[' :: cs, depth + 1 => (items? fuel depth cs).map fun (items, cs) => (.array items, cs)
      | '{' :: cs, depth + 1 =>
        (rows? fuel depth [] cs).map fun (rows, cs) => (.table (rowValues rows), cs)
      | cs, _ => Scalar.read? cs

def items? : (fuel depth : Nat) → List Char → Option (List Value × List Char)
  | 0, _, _ => none
  | fuel + 1, depth, cs =>
    match dropGap false cs with
    | ']' :: cs => some ([], cs)
    | cs => do
      let (v, cs) ← value? fuel depth cs
      match dropGap false cs with
      | ',' :: cs => do
        let (vs, cs) ← items? fuel depth cs
        return (v :: vs, cs)
      | ']' :: cs => return ([v], cs)
      | _ => none

def rows? : (fuel depth : Nat) → Rows → List Char → Option (Rows × List Char)
  | 0, _, _, _ => none
  | fuel + 1, depth, rows, cs =>
    match dropGap false cs with
    | '}' :: cs => some (rows, cs)
    | cs => do
      let ((path, key), cs) ← keyAndSign? (dropGap false) cs
      let (v, cs) ← value? fuel depth cs
      let rows ← rows.insert path key v
      match dropGap false cs with
      | ',' :: cs => rows? fuel depth rows cs
      | '}' :: cs => return (rows, cs)
      | _ => none

end

def pair? (fuel : Nat) (cs : List Char) : Option (Pair × List Char) := do
  let ((path, key), cs) ← keyAndSign? dropSpaces cs
  let (value, cs) ← value? fuel limit cs
  return (⟨path, key, value⟩, ← dropLineEnd? cs)

def pairs? : (fuel : Nat) → List Char → Option (List Pair × List Char)
  | 0, _ => none
  | fuel + 1, cs =>
    match dropGap false cs with
    | [] => some ([], [])
    | '[' :: cs => some ([], '[' :: cs)
    | cs => do
      let (pair, cs) ← pair? fuel cs
      let (pairs, cs) ← pairs? fuel cs
      return (pair :: pairs, cs)

def header? (cs : List Char) : Option ((Bool × List String × String) × List Char) :=
  match cs with
  | '[' :: '[' :: cs => do
    let ((path, key), cs) ← key? limit (dropSpaces cs)
    match cs with
    | ']' :: ']' :: cs => return ((true, path, key), ← dropLineEnd? cs)
    | _ => none
  | '[' :: cs => do
    let ((path, key), cs) ← key? limit (dropSpaces cs)
    match cs with
    | ']' :: cs => return ((false, path, key), ← dropLineEnd? cs)
    | _ => none
  | _ => none

def sections? : (fuel : Nat) → List Char → Option (List Section)
  | 0, _ => none
  | _ + 1, [] => some []
  | fuel + 1, cs => do
    let ((isElement, path, key), cs) ← header? cs
    let (pairs, cs) ← pairs? fuel cs
    let sections ← sections? fuel cs
    return ⟨isElement, path, key, pairs⟩ :: sections

def dropByteOrderMark : List Char → List Char
  | '\uFEFF' :: cs => cs
  | cs => cs

/-- Reads a document. The fuel of its length, which is measured once, is enough for each part. -/
def Source.read? (cs : List Char) : Option Source := do
  let fuel := 2 * cs.length + 2
  let (pairs, cs) ← pairs? fuel cs
  let sections ← sections? fuel cs
  return ⟨pairs, sections⟩

def Rows.insertAll (rows : Rows) (pairs : List Pair) : Option Rows :=
  pairs.foldlM (fun rows p => rows.insert p.path p.key p.value) rows

/-- The pairs of a header as rows of the table in which its last key stands. A table may have been
passed through before it gets its header. -/
def Section.place (s : Section) (rows : Rows) : Option Rows :=
  match s.isElement, rows.lookup s.key with
  | true, none => do return rows.set s.key (.tables [← Rows.insertAll [] s.pairs])
  | true, some (.tables elements) => do
    return rows.set s.key (.tables (elements ++ [← Rows.insertAll [] s.pairs]))
  | false, none => do return rows.set s.key (.table .header (← Rows.insertAll [] s.pairs))
  | false, some (.table .passage inner) => do
    return rows.set s.key (.table .header (← Rows.insertAll inner s.pairs))
  | _, _ => none

def Source.table? (s : Source) : Option Table := do
  let rows ← Rows.insertAll [] s.pairs
  let place (rows : Rows) (s : Section) : Option Rows :=
    Rows.change .passage (fun _ => s.place) s.path .header rows
  return rowValues (← s.sections.foldlM place rows)

def read? (text : String) : Option Table := do
  (← Source.read? (dropByteOrderMark text.toList)).table?

end Sidebar.Toml
