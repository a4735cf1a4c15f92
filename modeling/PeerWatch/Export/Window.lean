import PeerWatch.Export.Record
import PeerWatch.Store.Basic
import PeerWatch.SystemError
import PeerWatch.Table

/-!
# The exported window

When the prober ends it writes, for every target, the history of the last
days into a file named for the target.  The window is so many days long and
ends today; a window of no days has one.

* `windowStart` — its first day;
* `exportHistory` — writes the files, up to the first that cannot be written.
-/

namespace PeerWatch.Export

open Calendar

/-- The first day of a window of some days; the calendar's first day if it
would begin before that. -/
def windowStart (today : Day) (days : Nat) : Day :=
  (today.back? (days - 1)).getD Day.first

/-- A directory that is to hold the files. -/
structure Directory where
  path : String
  /-- Why it cannot be made, if it cannot. -/
  obstacle : Option SystemError
  /-- Names under which a directory lies in it. -/
  taken : List String
  files : Table String (List UInt8)

/-- A directory that is not there yet. -/
def Directory.vacant (path : String) : Directory := ⟨path, none, [], ∅⟩

/-- Why a window could not be exported. -/
inductive WindowFault where
  /-- The history could not be read. -/
  | store (e : StoreError)
  /-- The history could not be written as records. -/
  | encode (fault : Fault)
  /-- A file or the directory could not be written. -/
  | io (path : String) (e : SystemError)
deriving DecidableEq

def WindowFault.message : WindowFault → String
  | .store e => "reading history failed: " ++ e.message
  | .encode fault => fault.message
  | .io path e => "writing " ++ path ++ ": " ++ e.message

/-- The path of a file in a directory. -/
def Directory.filePath (dir : Directory) (name : String) : String :=
  if dir.path.isEmpty then name
  else if dir.path.toList.getLast? = some '/' then dir.path ++ name
  else dir.path ++ "/" ++ name

/-- The file of a target in the directory. -/
def fileName (target : TargetId) : String := target.text ++ ".bin"

/-- The files of some targets written one after another, `written` of which
there are already. -/
def writeFiles (rows : TargetId → Except StoreError (List DayHistory)) (written : Nat) :
    List TargetId → Directory → Directory × Except WindowFault Nat
  | [], dir => (dir, .ok written)
  | target :: rest, dir =>
    match rows target with
    | .error e => (dir, .error (.store e))
    | .ok history =>
      match write history .unbounded with
      | (_, .error fault) => (dir, .error (.encode fault))
      | (sink, .ok _) =>
        let name := fileName target
        if dir.taken.contains name then
          (dir, .error (.io (dir.filePath name) .isADirectory))
        else
          writeFiles rows (written + 1) rest
            { dir with files := dir.files.insert name sink.written }

/-- Exports the window of some targets; the answer is the number of files
written. -/
def exportHistory (range : TargetId → Day → Day → Except StoreError (List DayHistory))
    (dir : Directory) (targets : List TargetId) (today : Day) (days : Nat) :
    Directory × Except WindowFault Nat :=
  match dir.obstacle with
  | some e => (dir, .error (.io dir.path e))
  | none => writeFiles (fun target => range target (windowStart today days) today) 0 targets dir

end PeerWatch.Export
