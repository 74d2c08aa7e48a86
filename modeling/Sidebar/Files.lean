import Sidebar.Text.Fields

namespace Sidebar.Files

inductive Fault where
  | notFound
  | notAFolder
  | isAFolder
  | nameTooLong
  | nulInPath
  | notText
  | other (message : String)
deriving DecidableEq, Repr

def Fault.message : Fault → String
  | notFound => "No such file or directory (os error 2)"
  | notAFolder => "Not a directory (os error 20)"
  | isAFolder => "Is a directory (os error 21)"
  | nameTooLong => "File name too long (os error 36)"
  | nulInPath => "file name contained an unexpected NUL byte"
  | notText => "stream did not contain valid UTF-8"
  | other message => message

/-- What a path can lead to. A folder lists its entries in any order. What is neither a file nor a
folder, such as a device or a pipe, can be read but is no page. -/
inductive Node where
  | file (content : Except Fault ByteArray)
  | folder (entries : List (String × Node))
  | special (content : Except Fault ByteArray)

def components (path : String) : List String := (fields '/' path.toList).map String.ofList

/-- The place after one more component of a path. The names of a place are given from the last
on. -/
def follow (place : List String) (c : String) : List String :=
  if c = "" ∨ c = "." then place else if c = ".." then place.tail else c :: place

def names (path : String) : List String := ((components path).foldl follow []).reverse

def join (folder name : String) : String :=
  if folder.toList.getLast? = some '/' then folder ++ name else folder ++ "/" ++ name

/-- The last component that is a name. A slash or a dot after it does not count, and a path that
ends in `..` has none. -/
def fileName? (path : String) : Option String :=
  match ((components path).filter fun c => c ≠ "" ∧ c ≠ ".").getLast? with
  | some ".." => none
  | found => found

/-- What follows the last dot of a name, unless that dot is its first character. -/
def nameExtension? (name : String) : Option String :=
  let parts := fields '.' name.toList
  if parts.length < 2 ∨ parts.dropLast = [[]] then none
  else parts.getLast?.map String.ofList

def extension? (path : String) : Option String := (fileName? path).bind nameExtension?

namespace Node

/-- Goes down a path from the last of `above`, the folders passed so far. -/
def descend : List Node → List String → Except Fault Node
  | [], _ => .error .notFound
  | here :: _, [] => .ok here
  | here :: above, c :: path =>
    match here with
    | .file _ | .special _ => .error .notAFolder
    | .folder entries =>
      if c = "" ∨ c = "." then descend (here :: above) path
      else if c = ".." then descend (if above.isEmpty then [here] else above) path
      else if 255 < c.utf8ByteSize then .error .nameTooLong
      else
        match entries.lookup c with
        | none => .error .notFound
        | some inner => descend (inner :: here :: above) path

def pathFault? (path : String) : Option Fault :=
  if path.toList.contains '\x00' then some .nulInPath
  else if path = "" ∨ path.toList.head? = some '/' then some .notFound
  else if 4096 ≤ path.utf8ByteSize then some .nameTooLong
  else none

def find (root : Node) (path : String) : Except Fault Node :=
  match pathFault? path with
  | some fault => .error fault
  | none => descend [root] (components path)

def text : Node → Except Fault String
  | .folder _ => .error .isAFolder
  | .file content | .special content => do
    match String.fromUTF8? (← content) with
    | some text => return text
    | none => throw .notText

def files : Node → List (List String × Except Fault ByteArray)
  | .file content => [([], content)]
  | .special _ => []
  | .folder entries => below entries
where
  below : List (String × Node) → List (List String × Except Fault ByteArray)
    | [] => []
    | (name, node) :: entries =>
      (files node).map (fun (names, content) => (name :: names, content)) ++ below entries

def put (leaf : Node) : List String → Node → Node
  | [], _ => leaf
  | name :: names, here =>
    let entries :=
      match here with
      | .file _ | .special _ => []
      | .folder entries => entries
    let inner := put leaf names ((entries.lookup name).getD (.folder []))
    .folder (entries.filter (fun (other, _) => other ≠ name) ++ [(name, inner)])

/-- What keeps a file from being written at a path. The folder it goes into has to be there, and
what is no file is not replaced by one. -/
def writeFault? (root : Node) (path : String) : Option Fault :=
  let names := ((components path).reverse.dropWhile (· = "")).reverse
  match pathFault? path, descend [root] names.dropLast with
  | some fault, _ | none, .error fault => some fault
  | none, .ok (.file _) | none, .ok (.special _) => some .notAFolder
  | none, .ok (.folder _) =>
    if path.toList.getLast? = some '/' then some .isAFolder
    else
      match root.find path with
      | .ok (.folder _) => some .isAFolder
      | .ok (.special _) => some (.other "No such device or address (os error 6)")
      | .ok (.file _) | .error .notFound => none
      | .error fault => some fault

def write (root : Node) (path text : String) : Except Fault Node :=
  match root.writeFault? path with
  | some fault => .error fault
  | none => .ok (put (.file (.ok text.toUTF8)) (names path) root)

theorem text_file_toUTF8 (s : String) : (file (.ok s.toUTF8)).text = .ok s := by
  have hread : String.fromUTF8? s.toUTF8 = some s := dif_pos s.isValidUTF8
  simp only [text, bind, Except.bind, hread]
  rfl

theorem text_file_of_ne {bytes : ByteArray} (h : ∀ s : String, bytes ≠ s.toUTF8) :
    (file (.ok bytes)).text = .error .notText := by
  have hread : String.fromUTF8? bytes = none :=
    dif_neg fun hvalid => h (String.fromUTF8 bytes hvalid) rfl
  simp only [text, bind, Except.bind, hread]
  rfl

end Node

def comesFirst : List String → List String → Bool
  | [], _ => true
  | _ :: _, [] => false
  | a :: as, b :: bs => if a = b then comesFirst as bs else a < b

def isPageName (names : List String) : Bool :=
  match names.getLast?.bind nameExtension? with
  | some extension => extension = "html" ∨ extension = "htm"
  | none => false

def pagesAt (path : String) : Except Fault Node → List (String × Node)
  | .error _ | .ok (.special _) => []
  | .ok (.file content) => [(path, .file content)]
  | .ok (.folder entries) =>
    let found := (Node.files (.folder entries)).filter fun (names, _) => isPageName names
    (found.mergeSort fun a b => comesFirst a.1 b.1).map fun (names, content) =>
      (names.foldl join path, .file content)

end Sidebar.Files
