import PeerWatch.CommandLine.Program
import Std.Time.DateTime.Timestamp

/-!
# The prober as a command

The machine of the command is the one it is called on, as far as its files and
its clock go.  It is cut off from any network, and a database lives only as
long as the command.  The end of the standard input asks it to end.
-/

namespace PeerWatch.CommandLine

/-- The number of an error of a file. -/
def fileError : IO.Error → SystemError
  | .noFileOrDirectory .. => .noEntry
  | .alreadyExists .. => .fileExists
  | .inappropriateType .. => .isADirectory
  | _ => .notADirectory

/-- The moment it is, to the second. -/
def presentMoment : IO Calendar.Instant := do
  let now ← Std.Time.Timestamp.now
  let seconds := now.toSecondsSinceUnixEpoch.val
  return (Calendar.Instant.ofParts? seconds 0).getD default

/-- Waits for the end of the standard input. -/
def awaitEnd : IO (Option (Termination × Nat)) := do
  let begun ← IO.monoMsNow
  let input ← IO.getStdin
  repeat
    let line ← input.getLine
    if line.isEmpty then break
  let ended ← IO.monoMsNow
  return some (.terminate, ended - begun)

/-- The machine as the program sees it: files that are read, a network, a clock. -/
def machine : Host IO where
  settingsFile path := do
    try
      let bytes ← IO.FS.readBinFile path
      return .holding bytes
    catch e => return .unreadable (fileError e)
  databaseFile path := do
    try
      let bytes ← IO.FS.readBinFile path
      return if bytes.isEmpty then .absent else .garbage
    catch
      | .noFileOrDirectory .. => return .absent
      | _ => return .blocked
  directoryObstacle path := do
    try
      IO.FS.createDirAll path
      return none
    catch e => return some (fileError e)
  newOwner := do
    let bytes ← IO.getRandomBytes 16
    return (OwnerId.ofRandom? bytes.toList).getD default
  now := presentMoment
  network := .isolated
  awaitTermination := awaitEnd

end PeerWatch.CommandLine

/-- Runs the prober and leaves what it leaves. -/
def main (arguments : List String) : IO UInt32 := do
  let ending ← PeerWatch.CommandLine.run PeerWatch.CommandLine.machine arguments
  for line in ending.output do
    IO.println line
  if let some text := ending.complaint then
    IO.eprintln text
  if let some dir := ending.archive then
    for (name, bytes) in dir.files.entries do
      IO.FS.writeBinFile (dir.filePath name) ⟨bytes.toArray⟩
  return UInt32.ofNat ending.status
