import PeerWatch.CommandLine.Program

/-!
# A folder to run in

A machine that consists of one folder: what its files hold, which of them are
databases, and the directories in it.  Paths lead from the folder downwards;
a path from the root of the machine leads to places where nothing is yet.

* `Folder.lookup` — what lies at a path;
* `Folder.host` — the machine, on which files come into being.
-/

namespace PeerWatch.CommandLine

open Calendar

/-- What lies at a place. -/
inductive Content where
  | file (bytes : ByteArray)
  | database (db : Database)
  | directory

/-- What a path leads to. -/
inductive Place where
  | here (content : Content)
  /-- Nothing, but a file could be made there. -/
  | free
  /-- The way there ends before. -/
  | beyond (e : SystemError)

/-- The contents of a folder. -/
structure Folder where
  entries : List (List String × Content)

namespace Folder

def empty : Folder := ⟨[]⟩

/-- The pieces of a text between slashes. -/
def pieces : List Char → List (List Char)
  | [] => [[]]
  | c :: rest =>
    if c = '/' then [] :: pieces rest
    else
      match pieces rest with
      | piece :: others => (c :: piece) :: others
      | [] => [[c]]

/-- The steps a path takes; one from the root begins with a slash. -/
def steps (path : String) : List String :=
  let names := (pieces path.toList).filter fun piece => piece ≠ [] ∧ piece ≠ ['.']
  (if path.toList.head? = some '/' then ["/"] else []) ++ names.map String.ofList

/-- What lies at the end of some steps, whatever is on the way. -/
def contentAt? (f : Folder) (steps : List String) : Option Content :=
  if steps = [] ∨ steps = ["/"] then some .directory
  else (f.entries.find? (·.1 = steps)).map (·.2)

/-- Where some steps lead that are left after others. -/
def walk (f : Folder) (taken : List String) : List String → Place
  | [] =>
    match f.contentAt? taken with
    | some content => .here content
    | none => .free
  | step :: rest =>
    match f.contentAt? taken with
    | some .directory => walk f (taken ++ [step]) rest
    | some _ => .beyond .notADirectory
    | none => .beyond .noEntry

/-- What lies at a path, seen from the folder. -/
def lookup (f : Folder) (path : String) : Place := f.walk [] (steps path)

/-- The folder with something at a path. -/
def put (f : Folder) (path : String) (content : Content) : Folder :=
  ⟨(steps path, content) :: f.entries.filter (·.1 ≠ steps path)⟩

/-- The settings at a path.  A database is a file too, but its bytes are no text. -/
def settingsFile (f : Folder) (path : String) : Settings.FileState :=
  match f.lookup path with
  | .here (.file bytes) => .holding bytes
  | .here (.database _) => .holding ⟨#[255]⟩
  | .here .directory => .unreadable .isADirectory
  | .free => .unreadable .noEntry
  | .beyond e => .unreadable e

/-- What lies at the path of a database. -/
def databaseFile (f : Folder) (path : String) : DatabaseFile :=
  match f.lookup path with
  | .here (.file bytes) => if bytes.isEmpty then .absent else .garbage
  | .here (.database db) => .holding db
  | .here .directory | .beyond _ => .blocked
  | .free => .absent

/-- The folder after a database file was looked for: it is made where there
was nothing. -/
def touchDatabase (f : Folder) (path : String) : Folder :=
  match f.databaseFile path with
  | .absent => f.put path (.database .blank)
  | _ => f

/-- Puts what lies at the path of a database there. -/
def putDatabase (f : Folder) (path : String) : DatabaseFile → Folder
  | .absent => f
  | .garbage => f.put path (.file ⟨#[0]⟩)
  | .blocked => f.put path .directory
  | .holding db => f.put path (.database db)

/-- Why a directory cannot be made at a path, if it cannot. -/
def directoryObstacle (f : Folder) (path : String) : Option SystemError :=
  match f.lookup path with
  | .here .directory | .free | .beyond ⟨2⟩ => none
  | .here _ => some .fileExists
  | .beyond e => some e

/-- The folder with the directories some steps take, and the last one. -/
def putDirectories (f : Folder) (path : String) : Folder :=
  let all := steps path
  (List.range (all.length + 1)).foldl (fun f n =>
    match f.contentAt? (all.take n) with
    | some _ => f
    | none => ⟨(all.take n, .directory) :: f.entries⟩) f

/-- The folder with the files of an archive, in directories that are made for them. -/
def putArchive (f : Folder) (dir : Export.Directory) : Folder :=
  dir.files.entries.foldl
    (fun f (name, bytes) => f.put (dir.filePath name) (.file ⟨bytes.toArray⟩))
    (f.putDirectories dir.path)

/-- The names in a directory, sorted, if there is one at the path. -/
def names? (f : Folder) (path : String) : Option (List String) :=
  match f.lookup path with
  | .here .directory =>
    let all := steps path
    some ((f.entries.filterMap fun (place, _) =>
      if place.dropLast = all ∧ place ≠ [] then place.getLast? else none).mergeSort
        fun a b => a ≤ b)
  | _ => none

/-- A machine that consists of the folder and is cut off from others. -/
def host (owner : OwnerId) (now : Instant) (termination : Option (Termination × Nat)) :
    Host (StateM Folder) where
  settingsFile path := return (← get).settingsFile path
  databaseFile path := do
    let file := (← get).databaseFile path
    modify fun f => f.touchDatabase path
    return file
  directoryObstacle path := return (← get).directoryObstacle path
  newOwner := return owner
  now := return now
  network := .isolated
  awaitTermination := return termination

/-- Runs the program in the folder; the answer is how it ends, and the folder
it leaves. -/
def run (f : Folder) (owner : OwnerId) (now : Instant)
    (termination : Option (Termination × Nat)) (arguments : List String) : Ending × Folder :=
  let (ending, f) := (CommandLine.run (host owner now termination) arguments).run f
  (ending, (ending.archive.map f.putArchive).getD f)

end Folder

end PeerWatch.CommandLine
