import PeerWatch.Toml.Value

/-!
# Tables under construction

While a document is read, a table remembers how it came to be: from a header
of its own, only as part of a longer header, or from a key with points.  That
decides what may still be added to it, for no table may be defined twice.

* `Node` — a value, a table, or a list of tables from double-bracket headers;
* `Node.descend` — follows a key through tables, making those that are
  missing, and changes the table at its end;
* `Node.toValue` — what the finished node says.
-/

namespace PeerWatch.Toml

/-- How a table came to be. -/
inductive Origin where
  /-- From a header or from braces of its own. -/
  | defined
  /-- As a part of a longer header. -/
  | implied
  /-- From a key with points. -/
  | dotted
deriving DecidableEq, Repr

/-- A part of a document under construction. -/
inductive Node where
  /-- A value that can no longer grow. -/
  | value (v : Value)
  /-- A table. -/
  | table (origin : Origin) (entries : List (String × Node))
  /-- The tables of double-bracket headers of one name, last one first. -/
  | tables (elements : List (List (String × Node)))

namespace Node

/-- The entries of a table or of a list of tables under construction. -/
abbrev Entries := List (String × Node)

/-- The node of a key, if there is one. -/
def find? (entries : Entries) (key : String) : Option Node :=
  (entries.find? (·.1 = key)).map (·.2)

/-- The entries with a node under a key: in place of the one that is there, or
at the end. -/
def set (entries : Entries) (key : String) (node : Node) : Entries :=
  if entries.any (·.1 = key) then entries.map fun e => if e.1 = key then (key, node) else e
  else entries ++ [(key, node)]

/-- The entries without the one under a key. -/
def remove (entries : Entries) (key : String) : Entries :=
  entries.filter (·.1 ≠ key)

/-- Follows a path from a table and changes the table at its end.  Missing
tables are made with the given origin; a key with points may not pass through
a table that was defined otherwise. -/
def descend (made : Origin) (change : Origin → Entries → Option Entries) :
    List String → Origin → Entries → Option Entries
  | [], origin, entries => change origin entries
  | key :: rest, _, entries =>
    match (find? entries key).getD (.table made []) with
    | .value _ => none
    | .table origin inner =>
      if made = .dotted ∧ origin = .defined then none
      else (descend made change rest origin inner).map fun inner =>
        set entries key (.table origin inner)
    | .tables [] => none
    | .tables (last :: earlier) =>
      (descend made change rest .defined last).map fun last =>
        set entries key (.tables (last :: earlier))

/-- Puts a value under a key with points.  A key of one part goes into any
table but one made by points, a key of several parts only into such a one. -/
def putValue (path : List String) (key : String) (v : Value) (entries : Entries) : Option Entries :=
  descend .dotted (fun origin inner =>
    if (origin = .dotted) = (path = []) then none
    else if (find? inner key).isSome then none
    else some (inner ++ [(key, .value v)])) path .defined entries

mutual

/-- What a finished node says. -/
def toValue : Node → Value
  | .value v => v
  | .table _ entries => .table (entriesToValues entries)
  | .tables elements => .array (tablesToValues elements)

/-- What finished entries say. -/
def entriesToValues : List (String × Node) → List (String × Value)
  | [] => []
  | (key, node) :: rest => (key, node.toValue) :: entriesToValues rest

/-- What a finished list of tables says, first one first. -/
def tablesToValues : List (List (String × Node)) → List Value
  | [] => []
  | last :: earlier => tablesToValues earlier ++ [.table (entriesToValues last)]

end

end Node

end PeerWatch.Toml
