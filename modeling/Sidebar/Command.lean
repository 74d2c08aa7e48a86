import Sidebar.Text.Fields

namespace Sidebar

inductive Format where
  | html
  | outline
deriving DecidableEq, Repr

inductive Command where
  | browse (source : String) (format : Option Format) (keys : List String) (verbose : Bool)
  | inspect (source : String) (format : Option Format)
  | check (path : String) (verbose : Bool)
deriving DecidableEq, Repr

inductive Invocation where
  | run (command : Command)
  | version
  | help
  | misuse
deriving DecidableEq, Repr

def Format.ofName? (name : String) : Option Format :=
  if name = "html" then some html else if name = "outline" then some outline else none

namespace Command

def path : Command → String
  | browse source .. => source
  | inspect source .. => source
  | check path .. => path

def isVerbose : Command → Bool
  | browse _ _ _ verbose => verbose
  | inspect .. => false
  | check _ verbose => verbose

inductive Setting where
  | format
  | keys
  | verbose
  | help
deriving DecidableEq, Repr

namespace Setting

def name : Setting → String
  | format => "format"
  | keys => "keys"
  | verbose => "verbose"
  | help => "help"

def letter : Setting → Char
  | format => 'f'
  | keys => 'k'
  | verbose => 'v'
  | help => 'h'

def hasValue : Setting → Bool
  | format | keys => true
  | verbose | help => false

end Setting

inductive Given where
  | path (text : String)
  | flag (setting : Setting)
  | value (setting : Setting) (text : String)
deriving DecidableEq, Repr

/-- What an argument gives, and the option that waits for its value in the next argument. -/
abbrev Reading := List Given × Option Setting

def readName (settings : List Setting) (cs : List Char) : Option Reading :=
  let (name, value) :=
    match cut? '=' cs with
    | some (name, value) => (name, some (String.ofList value))
    | none => (cs, none)
  match settings.find? fun s => s.name = String.ofList name, value with
  | none, _ => none
  | some s, none => some (if s.hasValue then ([], some s) else ([.flag s], none))
  | some s, some value => if s.hasValue then some ([.value s value], none) else none

def readLetters (settings : List Setting) : List Char → Option Reading
  | [] => some ([], none)
  | c :: cs =>
    match settings.find? fun s => s.letter = c with
    | none => none
    | some s =>
      if s.hasValue then
        match cs with
        | [] => some ([], some s)
        | '=' :: value => some ([.value s (String.ofList value)], none)
        | value => some ([.value s (String.ofList value)], none)
      else if s = .help then some ([.flag s], none)
      else (readLetters settings cs).map fun (given, waiting) => (.flag s :: given, waiting)

def isOption (cs : List Char) : Bool := cs.head? = some '-' && 1 < cs.length

/-- Reads the arguments of a command. After two lone hyphens all arguments are paths. -/
def readGiven (settings : List Setting) : Option Setting → List String → Option (List Given)
  | none, [] => some []
  | some _, [] => none
  | some s, arg :: args =>
    if isOption arg.toList then none else (readGiven settings none args).map (.value s arg :: ·)
  | none, arg :: args =>
    if arg = "--" then some (args.map .path)
    else do
      let (given, waiting) ←
        match arg.toList with
        | '-' :: '-' :: cs => readName settings cs
        | '-' :: c :: cs => readLetters settings (c :: cs)
        | _ => some ([.path arg], none)
      if given.contains (.flag .help) then return given
      return given ++ (← readGiven settings waiting args)

def paths (given : List Given) : List String :=
  given.filterMap fun
    | .path text => some text
    | _ => none

def values (setting : Setting) (given : List Given) : List String :=
  given.filterMap fun
    | .value s text => if s = setting then some text else none
    | _ => none

def path? (given : List Given) : Option String := (paths given).head?

def format? (given : List Given) : Option (Option Format) :=
  match values .format given with
  | [] => some none
  | [name] => (Format.ofName? name).map some
  | _ => none

def verbose? (given : List Given) : Option Bool :=
  match given.count (.flag .verbose) with
  | 0 => some false
  | 1 => some true
  | _ => none

/-- The names of the keys. One option gives several, with commas between them. -/
def keys (given : List Given) : List String :=
  (values .keys given).flatMap fun text => (fields ',' text.toList).map String.ofList

/-- Whether nothing is given more than once that may be given once, and each value can be taken. A
path is not empty. -/
def isAdmissible (given : List Given) : Bool :=
  (paths given).length ≤ 1 && !(paths given).contains "" && (format? given).isSome &&
    (verbose? given).isSome

/-- Reads the arguments of a command with these options. A request for help is heard if all before
it is admissible, and what follows it is not looked at. -/
def readWith (settings : List Setting) (command? : List Given → Option Command)
    (args : List String) : Invocation :=
  match readGiven (.help :: settings) none args with
  | none => .misuse
  | some given =>
    if !isAdmissible given then .misuse
    else if given.contains (.flag .help) then .help
    else
      match command? given with
      | some command => .run command
      | none => .misuse

end Command

open Command in
def Invocation.read : List String → Invocation
  | [] => .misuse
  | "browse" :: args =>
    readWith [.format, .keys, .verbose] (fun given => do
      return .browse (← path? given) (← format? given) (keys given) (← verbose? given)) args
  | "inspect" :: args =>
    readWith [.format] (fun given => do
      return .inspect (← path? given) (← format? given)) args
  | "check" :: args =>
    readWith [.verbose] (fun given => do
      return .check ((path? given).getD ".") (← verbose? given)) args
  | ["help"] | "--help" :: _ => .help
  | ["help", name] => if name ∈ ["browse", "inspect", "check", "help"] then .help else .misuse
  | "--version" :: _ => .version
  | arg :: _ =>
    match arg.toList with
    | '-' :: 'V' :: _ => .version
    | '-' :: 'h' :: _ => .help
    | _ => .misuse

end Sidebar
