import PeerWatch.Toml.Text
import PeerWatch.Toml.Node

/-!
# TOML documents

A document is a sequence of lines: keys with their values, and headers that
say which table the lines below them belong to.  A table is put in its place
when it is finished, that is at the next header or at the end.

* `readValue` — a value of any kind;
* `parse?` — what a document says, or nothing if it is malformed.
-/

namespace PeerWatch.Toml

/-- The elements of an array up to its closing bracket. -/
def readElements (element : Reader Value) : Nat → List Value → Reader (List Value)
  | 0, _, _ => none
  | fuel + 1, acc, text =>
    match skipBlankLines text.length text with
    | ']' :: rest => some (acc.reverse, rest)
    | start => do
      let (v, rest) ← element start
      match skipBlankLines rest.length rest with
      | ',' :: rest => readElements element fuel (v :: acc) rest
      | ']' :: rest => some ((v :: acc).reverse, rest)
      | _ => none

/-- A key, an equals sign and a value. -/
def readPair (element : Reader Value) (text : List Char) :
    Option ((List String × String × Value) × List Char) := do
  let ((path, key), rest) ← readKey text
  let rest ← expect '=' rest
  let (v, rest) ← element (skipSpaces rest)
  some ((path, key, v), rest)

/-- The pairs of an inline table up to its closing brace. -/
def readPairs (element : Reader Value) : Nat → Node.Entries → Reader Node.Entries
  | 0, _, _ => none
  | fuel + 1, acc, text => do
    let ((path, key, v), rest) ← readPair element text
    let acc ← Node.putValue path key v acc
    match skipSpaces rest with
    | ',' :: rest => readPairs element fuel acc rest
    | '\x7d' :: rest => some (acc, rest)
    | _ => none

/-- An inline table after its opening brace. -/
def readInline (element : Reader Value) (text : List Char) : Option (Value × List Char) :=
  match skipSpaces text with
  | '\x7d' :: rest => some (.table [], rest)
  | start =>
    (readPairs element (start.length + 1) [] start).map fun (entries, rest) =>
      (.table (Node.entriesToValues entries), rest)

/-- A number, a date or a time. -/
def readNumeric (text : List Char) : Option (Value × List Char) :=
  match readDatetime text with
  | some (_, rest) => some (.datetime, rest)
  | none =>
    match readFloat text with
    | some (_, rest) => some (.float, rest)
    | none => (readInteger text).map fun (n, rest) => (.integer n, rest)

/-- What is left after a given word. -/
def readWord (word : String) (text : List Char) : Option (List Char) :=
  if word.toList.isPrefixOf text then some (text.drop word.length) else none

/-- A value; arrays and inline tables may be nested so many levels deep. -/
def readValue : Nat → Reader Value
  | depth, text =>
    match text with
    | [] => none
    | c :: rest =>
      if c = '"' || c = '\'' then (readString text).map fun (s, rest) => (.text s, rest)
      else if c = '[' then
        match depth with
        | 0 => none
        | depth + 1 =>
          (readElements (readValue depth) (rest.length + 1) [] rest).map fun (vs, rest) =>
            (.array vs, rest)
      else if c = '\x7b' then
        match depth with
        | 0 => none
        | depth + 1 => readInline (readValue depth) rest
      else if c = '+' || c = '-' || c.isDigit then readNumeric text
      else if c = 't' then (readWord "true" text).map fun rest => (.boolean true, rest)
      else if c = 'f' then (readWord "false" text).map fun rest => (.boolean false, rest)
      else if c = 'i' then (readWord "inf" text).map fun rest => (.float, rest)
      else if c = 'n' then (readWord "nan" text).map fun rest => (.float, rest)
      else none

/-- The table whose lines are being read. -/
structure Section where
  /-- The tables its name leads through; `none` for the lines before the first
  header. -/
  path : List String
  name : Option String
  isElement : Bool
  origin : Origin
  entries : Node.Entries

/-- The lines before the first header. -/
def Section.first : Section := ⟨[], none, false, .defined, []⟩

/-- Puts a finished section in its place in the document. -/
def Section.finish (s : Section) (root : Node.Entries) : Option Node.Entries :=
  match s.name with
  | none => some s.entries
  | some name =>
    Node.descend .implied (fun _ parent =>
      if s.isElement then
        match Node.find? parent name with
        | none => some (parent ++ [(name, .tables [s.entries])])
        | some (.tables elements) => some (Node.set parent name (.tables (s.entries :: elements)))
        | some _ => none
      else
        match Node.find? parent name with
        | none => some (parent ++ [(name, .table .defined s.entries)])
        | some _ => none) s.path .defined root

/-- Begins the section of a header with single brackets.  A table that so far
was only implied is taken out of the document and goes on. -/
def beginTable (path : List String) (name : String) (root : Node.Entries) :
    Option (Section × Node.Entries) :=
  let begun (entries : Node.Entries) : Section := ⟨path, some name, false, .defined, entries⟩
  match followed with
  | none => none
  | some (.table .implied entries) =>
    (Node.descend .implied (fun _ parent => some (Node.remove parent name)) path .defined root).map
      fun root => (begun entries, root)
  | some _ => none
where
  /-- What the document has under the name; an implied empty table if there is
  nothing yet. -/
  followed : Option Node := look path root
  look : List String → Node.Entries → Option Node
    | [], entries => some ((Node.find? entries name).getD (.table .implied []))
    | key :: rest, entries =>
      match Node.find? entries key with
      | none => some (.table .implied [])
      | some (.value _) => none
      | some (.table _ inner) => look rest inner
      | some (.tables (last :: _)) => look rest last
      | some (.tables []) => none

/-- Begins the section of a header with double brackets. -/
def beginElement (path : List String) (name : String) (root : Node.Entries) :
    Option (Section × Node.Entries) :=
  (Node.descend .implied (fun _ parent =>
    match Node.find? parent name with
    | none => some (parent ++ [(name, .tables [])])
    | some (.tables _) => some parent
    | some _ => none) path .defined root).map fun root =>
      (⟨path, some name, true, .defined, []⟩, root)

/-- A header: its key, and whether its brackets are double. -/
def readHeader (text : List Char) : Option ((List String × String × Bool) × List Char) :=
  match text with
  | '[' :: '[' :: rest => do
    let ((path, key), rest) ← readKey rest
    let rest ← expect ']' rest
    let rest ← expect ']' rest
    some ((path, key, true), rest)
  | '[' :: rest => do
    let ((path, key), rest) ← readKey rest
    let rest ← expect ']' rest
    some ((path, key, false), rest)
  | _ => none

/-- Reads the lines of a document into the current section. -/
def readLines : Nat → Section → Node.Entries → List Char → Option Node.Entries
  | 0, _, _, _ => none
  | fuel + 1, current, root, text =>
    match skipSpaces text with
    | [] => current.finish root
    | c :: rest =>
      if c = '#' || c = '\n' || c = '\r' then do
        let rest ← lineEnd? (c :: rest)
        readLines fuel current root rest
      else if c = '[' then do
        let ((path, name, isElement), rest) ← readHeader (c :: rest)
        let rest ← lineEnd? rest
        let root ← current.finish root
        let (next, root) ←
          if isElement then beginElement path name root else beginTable path name root
        readLines fuel next root rest
      else do
        let ((path, key, v), rest) ← readPair (readValue (nestingLimit - 1)) (c :: rest)
        let rest ← lineEnd? rest
        let entries ← Node.putValue path key v current.entries
        readLines fuel { current with entries := entries } root rest

/-- Reads a document; a byte order mark in front does not count. -/
def parse? (text : String) : Option Entries :=
  let chars := match text.toList with
    | '\uFEFF' :: rest => rest
    | chars => chars
  (readLines (chars.length + 1) .first [] chars).map Node.entriesToValues

end PeerWatch.Toml
