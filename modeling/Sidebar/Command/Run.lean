import Sidebar.Command
import Sidebar.Outline.File
import Sidebar.Report
import Sidebar.Session

namespace Sidebar

open Files (Fault Node)

structure Outcome where
  status : UInt8 := 0
  output : String := ""
  errors : String := ""
  notices : List Notice := []

/-- A failure that ends a command: what was tried, and the causes from the outermost on. -/
structure Failure where
  context : String
  causes : List String := []
deriving DecidableEq, Repr

namespace Failure

def hang (indent text : String) : String :=
  ("\n" ++ indent).intercalate ((fields '\n' text.toList).map String.ofList)

def causeLines (causes : List String) : List String :=
  match causes with
  | [cause] => ["    " ++ hang "    " cause]
  | causes => causes.zipIdx.map fun (cause, i) => s!"    {i}: " ++ hang "       " cause

def message (f : Failure) : String :=
  let causes := if f.causes.isEmpty then [] else "" :: "Caused by:" :: causeLines f.causes
  "\n".intercalate (("Error: " ++ f.context) :: causes) ++ "\n"

def outcome (f : Failure) (notices : List Notice) : Outcome where
  status := 1
  errors := f.message
  notices

end Failure

def padRight (width : Nat) (text : String) : String :=
  text ++ "".pushn ' ' (width - text.length)

def padLeft (width : Nat) (text : String) : String :=
  "".pushn ' ' (width - text.length) ++ text

/-- The format of a source: the one asked for, or else the one its extension tells. -/
def Format.of (source : String) : Option Format → Except Failure Format
  | some format => .ok format
  | none =>
    match Files.extension? source with
    | none | some "html" | some "htm" => .ok .html
    | some "toml" => .ok .outline
    | some extension =>
      .error
        { context :=
            s!"Unknown source format for extension '.{extension}'. " ++
              "Supported: .html, .htm, .toml\nUse --format to specify explicitly." }

def PageError.causes (e : PageError) : List String :=
  match e with
  | .unreadable _ fault => [e.message, fault.message]
  | .noNavigation _ => [e.message]

def OutlineError.causes (e : OutlineError) : List String :=
  match e with
  | .unreadable fault | .unwritable fault => [e.message, fault.message]
  | .malformed => [e.message, "the text describes no outline"]

def loadSource (source : String) (format : Option Format) (found : Except Fault Node) :
    Except Failure Document × List Notice :=
  let text := found.bind Node.text
  match Format.of source format with
  | .error failure => (.error failure, [])
  | .ok .html =>
    ((Page.load source text).mapError fun e =>
        { context := s!"Failed to read page {source}", causes := e.causes },
      Page.loadNotices source text)
  | .ok .outline =>
    match Outline.load text with
    | .error e =>
      (.error { context := s!"Failed to load outline {source}", causes := e.causes }, [])
    | .ok o => (.ok o.document, o.loadNotices source ++ o.documentNotices)

namespace Command

/-- The line of one key press, after which the session is as given. -/
def keyLine (key : Key) (after : Session) : String :=
  if key.direction?.isSome then s!"  {padRight 10 key.text} -> {after.memberSelection.text}\n"
  else s!"  {padRight 10 key.text} (ignored)\n"

def keyLines : Session → List Key → String
  | _, [] => ""
  | s, key :: keys => keyLine key (s.press key) ++ keyLines (s.press key) keys

def joinOrDash (ids : List String) : String :=
  let text := ", ".intercalate ids
  if text = "" then "-" else text

def viewLines (v : View) : String :=
  s!"\nSelected class:  {v.classSelection}\n" ++
  s!"Selected member: {v.memberSelection.text}\n" ++
  s!"Active entries:  {joinOrDash (v.activeClasses ++ v.activeMembers)}\n" ++
  s!"Visible panels:  {joinOrDash (v.memberLists ++ v.classPanels ++ v.memberPanels)}\n"

def sessionNotices (s : Session) : List Action → List Notice
  | [] => []
  | a :: actions => s.notices a ++ sessionNotices (s.act a) actions

def runBrowse (source : String) (format : Option Format) (keys : List String)
    (found : Except Fault Node) : Outcome :=
  match keys.mapM Key.parse with
  | .error e => Failure.outcome { context := "Invalid --keys value", causes := [e.message] } []
  | .ok keys =>
    let (page, notices) := loadSource source format found
    match page with
    | .error failure => failure.outcome notices
    | .ok page =>
      let start : Session := { page }
      let s := start.load
      { output :=
          s!"Browsing {source}\n  start      -> {s.memberSelection.text}\n" ++ keyLines s keys ++
            viewLines (s.run (keys.map .press)).view
        notices := notices ++ sessionNotices start (.load :: keys.map .press) }

def classLine (s : Session) (members : List MemberId) (c : UInt32) : String :=
  let count := (Document.indicesIn members c).length
  let label := ((s.page.get? (NavId.classId c).nav.text).bind Element.label).getD ""
  let last := ((s.lastIndex.lookup c).map toString).getD "-"
  s!"  {padLeft 3 (toString c)} {padRight 30 label} {count} members " ++
    s!"(last index {last})\n"

def runInspect (source : String) (format : Option Format) (found : Except Fault Node) : Outcome :=
  let (page, notices) := loadSource source format found
  match page with
  | .error failure => failure.outcome notices
  | .ok page =>
    let s := Session.load { page }
    let classes := s.page.classIds
    let members := s.page.members
    { output :=
        s!"{source}: {classes.length} classes\n" ++
          "".intercalate (classes.map (classLine s members)) ++
          "\nNavigation order: " ++ " ".intercalate (members.map MemberId.text) ++ "\n"
      notices }

def reportLines (verbose : Bool) (path : String) : Except PageError Report → String
  | .error e => s!"✗ {path}: {e.message}\n"
  | .ok r =>
    if r.isClean then s!"✓ {path} ({r.classes} classes, {r.members} members)\n"
    else
      s!"✗ {path} ({r.issues.length} issues)\n" ++
        if verbose then "".intercalate (r.issues.map fun i => s!"    - {i.message}\n") else ""

def isCleanReport : Except PageError Report → Bool
  | .ok r => r.isClean
  | .error _ => false

def reportNotices (path : String) (file : Node) : List Notice :=
  Page.loadNotices path file.text ++
    match Report.ofFile path file with
    | .ok r => if r.isClean then [] else [.contractBroken r.issues.length path]
    | .error _ => []

/-- Checks every page at a path. The status tells whether there are pages and all keep the
contract. -/
def runCheck (path : String) (verbose : Bool) (found : Except Fault Node) : Outcome :=
  match Files.pagesAt path found with
  | [] => Failure.outcome { context := s!"No HTML pages found under {path}" } []
  | pages =>
    let reports := pages.map fun (path, file) => (path, Report.ofFile path file)
    { status := if reports.all fun (_, report) => isCleanReport report then 0 else 1
      output :=
        s!"Checking {pages.length} pages...\n" ++
          "".intercalate (reports.map fun (path, report) => reportLines verbose path report)
      notices := pages.flatMap fun (path, file) => reportNotices path file }

def run (command : Command) (found : Except Fault Node) : Outcome :=
  match command with
  | browse source format keys _ => runBrowse source format keys found
  | inspect source format => runInspect source format found
  | check path verbose => runCheck path verbose found

end Command

def versionLine : String := "docnav 0.1.0\n"

def usageLines : String :=
  "Usage: docnav browse [--format html|outline] [--keys KEYS] [--verbose] SOURCE\n" ++
  "       docnav inspect [--format html|outline] SOURCE\n" ++
  "       docnav check [--verbose] [PATH]\n"

/-- Does what the arguments ask for; `find` tells what stands at a path. -/
def Invocation.outcome (find : String → Except Fault Node) : Invocation → Outcome
  | .run command => command.run (find command.path)
  | .version => { output := versionLine }
  | .help => { output := usageLines }
  | .misuse => { status := 2, errors := usageLines }

end Sidebar
