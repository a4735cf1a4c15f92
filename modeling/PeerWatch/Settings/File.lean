import PeerWatch.SystemError
import PeerWatch.Toml.Document
import PeerWatch.Settings.Check
import PeerWatch.Settings.Reading

/-!
# Settings from a file

A file gives settings if it can be read, holds text, the text is a document,
the document gives settings, and these make sense.

* `load` — the settings of a file, or the first of these that fails.
-/

namespace PeerWatch.Settings

/-- What is found at the path of a settings file. -/
inductive FileState where
  | unreadable (e : SystemError)
  | holding (bytes : ByteArray)

/-- Why a file cannot be read as text. -/
inductive FileError where
  | system (e : SystemError)
  /-- Its bytes are not text. -/
  | notText
deriving DecidableEq

def FileError.message : FileError → String
  | .system e => e.message
  | .notText => "stream did not contain valid UTF-8"

/-- Number, kind and text in full. -/
def FileError.inFull : FileError → String
  | .system e => e.inFull
  | .notText =>
    "Error \x7b kind: InvalidData, message: \"stream did not contain valid UTF-8\" \x7d"

/-- Why a file gives no settings. -/
inductive LoadError where
  | io (e : FileError)
  | malformed
  | unreadable (e : ReadError)
  | invalid (faults : List Fault)
deriving DecidableEq

/-- The text of a file, which has to be valid UTF-8. -/
def FileState.text : FileState → Except FileError String
  | .unreadable e => .error (.system e)
  | .holding bytes =>
    match String.fromUTF8? bytes with
    | some text => .ok text
    | none => .error .notText

/-- Settings out of a text: read, and then checked. -/
def ofText (text : String) : Except LoadError Settings :=
  match Toml.parse? text with
  | none => .error .malformed
  | some document =>
    match ofToml document with
    | .error e => .error (.unreadable e)
    | .ok settings =>
      match settings.check with
      | [] => .ok settings
      | faults => .error (.invalid faults)

/-- Settings out of a file. -/
def load (file : FileState) : Except LoadError Settings :=
  match file.text with
  | .error e => .error (.io e)
  | .ok text => ofText text

/-- The text of the error, where it is fixed; what a parser says of malformed documents is not. -/
def LoadError.message? : LoadError → Option String
  | .io e => some ("IO error: " ++ e.message)
  | .malformed => none
  | .unreadable e => e.message?
  | .invalid faults => some ("Validation failed: " ++ ", ".intercalate (faults.map (·.text)))

end PeerWatch.Settings
