import Sidebar.Command.Run

namespace Sidebar

open Files (Fault Node)

/-- Some calls report the number of an error with the opposite sign. -/
def errorNumber (code : UInt32) : UInt32 := if code < 0x80000000 then code else 0 - code

def faultOf : IO.Error → Fault
  | .noFileOrDirectory .. => .notFound
  | .inappropriateType _ code details =>
    if errorNumber code = 20 then .notAFolder
    else if errorNumber code = 21 then .isAFolder
    else .other details
  | .invalidArgument _ code details =>
    if errorNumber code = 36 then .nameTooLong else .other details
  | .permissionDenied _ code details | .resourceExhausted _ code details =>
    .other s!"{details} (os error {errorNumber code})"
  | e => .other (toString e)

def readContent (path : String) : IO (Except Fault ByteArray) := do
  try
    return .ok (← IO.FS.readBinFile path)
  catch e =>
    return .error (faultOf e)

/-- What stands at a path. A search for pages asks for the entries of folders. It passes over links
to folders and entries that cannot be looked at, and reads nothing that is no file. -/
partial def readNode (path : String) (withEntries : Bool) : IO (Except Fault Node) := do
  try
    let place := (← IO.currentDir) / path
    match (← place.metadata).type with
    | .file => return .ok (.file (← readContent path))
    | .dir =>
      if !withEntries then return .ok (.folder [])
      let mut entries := #[]
      for entry in ← place.readDir do
        let inner ← readEntry entry
        if let .ok node := inner then entries := entries.push (entry.fileName, node)
      return .ok (.folder entries.toList)
    | .symlink | .other =>
      if withEntries then return .ok (.special (.error (.other "left unread")))
      return .ok (.special (← readContent path))
  catch e =>
    return .error (faultOf e)
where
  readEntry (entry : IO.FS.DirEntry) : IO (Except Fault Node) := do
    try
      let isLink := (← entry.path.symlinkMetadata).type == .symlink
      if isLink && (← entry.path.isDir) then return .error .notFound
      readNode (Files.join path entry.fileName) true
    catch e =>
      return .error (faultOf e)

def runProgram (args : List String) : IO UInt32 := do
  let invocation := Invocation.read args
  let (found, isVerbose) ←
    match invocation with
    | .run (.check path verbose) => pure (← readNode path true, verbose)
    | .run command => pure (← readNode command.path false, command.isVerbose)
    | _ => pure (.error .notFound, false)
  let outcome := invocation.outcome fun _ => found
  if isVerbose then
    for notice in outcome.notices do
      if notice.level != .debug then IO.eprintln notice.line
  IO.print outcome.output
  IO.eprint outcome.errors
  return outcome.status.toUInt32

end Sidebar

def main (args : List String) : IO UInt32 := Sidebar.runProgram args
