import QueryTables.Program

/-!
# The command

Fetches what a run may look at from the system, lets the run happen, and writes what it leaves.
-/

namespace QueryTables

/-- The fault that an error of the system stands for. -/
def faultOf : IO.Error → FileFault
  | .noFileOrDirectory _ _ _ => .missing
  | .inappropriateType _ code _ => if code = 21 then .directory else .notDirectory
  | .permissionDenied _ _ _ => .other "Permission denied (os error 13)".toList
  | error => .other error.toString.toList

/-- Something is at the path, whether it can be read or not. -/
def isThere (path : Text) : IO Bool := do
  match ← (IO.FS.realPath (String.ofList path)).toBaseIO with
  | .ok _ => return true
  | .error _ => return false

/-- Looks a path up in the file system. -/
def fetch (path : Text) : IO (Except FileFault FileEntry) := do
  if path.isEmpty then return .error .missing
  if '\x00' ∈ path then return .error .nulInPath
  match ← (IO.FS.readBinFile (String.ofList path)).toBaseIO with
  | .ok content => return .ok (.file content)
  | .error error =>
      match faultOf error with
      | .directory => return .ok .directory
      | fault => return if ← isThere path then .ok (.unreadable fault) else .error fault

/-- The content of the nearest settings file, in the working directory or so many directories above
it. A file that cannot be read ends the search, as does anything but its absence. -/
def fetchSettings (path : Text) : Nat → IO (Option ByteArray)
  | 0 => return none
  | levels + 1 => do
      match ← fetch path with
      | .ok .directory | .error .missing => fetchSettings ("../".toList ++ path) levels
      | .ok entry => return entry.content?
      | .error _ => return none

/-- The content of a file, or nothing if it cannot be read. -/
def contentOf (path : String) : IO ByteArray := do
  match ← fetch path.toList with
  | .ok entry => return entry.content?.getD .empty
  | .error _ => return .empty

/-- The variables of the process, without those that are no text. -/
def fetchVariables : IO Environment := do
  let content ← contentOf "/proc/self/environ"
  let entries := (content.toList.splitOn 0).filterMap fun bytes => Text.ofBytes? ⟨bytes.toArray⟩
  return entries.filterMap fun entry =>
    match entry.dropWhile (· != '=') with
    | [] => none
    | _ :: value => some (entry.takeWhile (· != '='), value)

/-- The home directory in the entry of a user among the accounts of the system. -/
def accountHome? (user accounts : Text) : Option Text :=
  (Text.pieces '\n' accounts).findSome? fun line =>
    match Text.pieces ':' line with
    | [_, _, number, _, _, home, _] => if number = user then some home else none
    | _ => none

/-- The home directory of the account that the process runs for. -/
def fetchAccount : IO (Option Text) := do
  let status := (Text.ofBytes? (← contentOf "/proc/self/status")).getD []
  let accounts := (Text.ofBytes? (← contentOf "/etc/passwd")).getD []
  let user := (Text.pieces '\n' status).findSome? fun line =>
    match Text.pieces '\t' line with
    | title :: number :: _ => if title = "Uid:".toList then some number else none
    | _ => none
  return user.bind (accountHome? · accounts)

/-- Writes what a run leaves, and gives its exit status. -/
def write (outcome : Outcome) : IO UInt32 := do
  for record in outcome.log do
    IO.eprintln (String.ofList record.line)
  IO.print (String.ofList outcome.printed)
  (← IO.getStdout).flush
  match outcome.ending with
  | .success => pure ()
  | .failed failure => for message in failure.chain do IO.eprintln (String.ofList message)
  | .refused fault => IO.eprintln ("error: " ++ String.ofList fault.message)
  | .brokenOff name value => IO.eprintln (String.ofList (Ending.unsettableMessage name value))
  return UInt32.ofNat outcome.ending.status

end QueryTables

open QueryTables in
/-- Runs the program. -/
def main (arguments : List String) : IO UInt32 := do
  let arguments := arguments.map String.toList
  let directory ← IO.currentDir
  let settings ← fetchSettings ".env".toList (directory.toString.splitOn "/").length
  let start : World :=
    ⟨fun _ => .error .missing, ← fetchVariables, ← fetchAccount, settings, .empty⟩
  let lookups ← (pathsOfInterest start arguments).mapM fun path => do
    return (path, ← fetch path)
  let find (path : Text) := (lookups.lookup path).getD (.error .missing)
  let asksInput := start.unsettable?.isNone && readsInput arguments
  let input ← if asksInput then (← IO.getStdin).readBinToEnd else pure .empty
  write (run { start with find := find, input := input } arguments)
