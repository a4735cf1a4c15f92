import PeerWatch.Export.Window
import PeerWatch.Settings.File

/-!
# Complaints

When the prober cannot go on it complains, giving the cause in full.

* `Complaint.text`.
-/

namespace PeerWatch.CommandLine

/-- Why the prober cannot go on. -/
inductive Complaint where
  | settings (e : Settings.LoadError)
  | listening (e : SystemError)
  | store (e : StoreError)
  | archive (fault : Export.WindowFault)
deriving DecidableEq

/-- A constructor with one argument, written in full. -/
def applied (name argument : String) : String := name ++ "(" ++ argument ++ ")"

/-- A constructor with named fields, written in full. -/
def recordText (name : String) (fields : List (String × String)) : String :=
  name ++ " \x7b " ++ ", ".intercalate (fields.map fun (field, value) => field ++ ": " ++ value)
    ++ " \x7d"

/-- A fault of the settings in full. -/
def faultInFull (f : Settings.Fault) : String :=
  recordText "ValidationError"
    [("field", Text.quoteString f.field), ("message", Text.quoteString f.problem.message)]

/-- Why there are no settings, in full; what is wrong with a text that gives
none is left out. -/
def loadErrorInFull : Settings.LoadError → String
  | .io e => applied "Io" e.inFull
  | .malformed | .unreadable _ => "Parse"
  | .invalid faults =>
    applied "Validation" ("[" ++ ", ".intercalate (faults.map faultInFull) ++ "]")

/-- An error of the store, in full. -/
def storeErrorInFull : StoreError → String
  | .unavailable hindrance => applied "Unavailable" (Text.quoteString hindrance.message)
  | .rowFailed row target hindrance =>
    recordText "RowFailed"
      [("row", toString row), ("target", target.shortText),
       ("reason", Text.quoteString hindrance.message)]
  | .corrupt corruption => applied "Corrupt" (Text.quoteString corruption.message)

/-- Why records could not be written, in full. -/
def exportFaultInFull : Export.Fault → String
  | .dayOutOfRange day => applied "DateOutOfRange" day.text
  | .truncated length => applied "Truncated" (toString length)
  | .sinkFull =>
    applied "Io" (recordText "Error"
      [("kind", IoKind.writeZero.name),
       ("message", Text.quoteString Export.Fault.sinkFull.message)])

/-- Why the history cannot be exported, in full. -/
def windowFaultInFull : Export.WindowFault → String
  | .store e => applied "Store" (storeErrorInFull e)
  | .encode fault => applied "Encode" (exportFaultInFull fault)
  | .io path e => recordText "Io" [("path", Text.quoteString path), ("source", e.inFull)]

/-- The line that the program ends with when it cannot go on. -/
def Complaint.text (c : Complaint) : String :=
  "Error: " ++
    match c with
    | .settings e => loadErrorInFull e
    | .listening e => applied "FailedToCreateHTTPListener" (Text.quoteString e.message)
    | .store e => storeErrorInFull e
    | .archive fault => windowFaultInFull fault

end PeerWatch.CommandLine
