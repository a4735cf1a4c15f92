/-!
# Values of a TOML document

What a document says, once it has been read: a table whose keys stand in the
order in which they were written.
-/

namespace PeerWatch.Toml

/-- A value.  Of numbers with a fraction, and of dates and times, only the
kind is kept: no setting has such a value. -/
inductive Value where
  | text (s : String)
  | integer (n : Int)
  | float
  | boolean (b : Bool)
  | datetime
  | array (elements : List Value)
  | table (entries : List (String × Value))

instance : Inhabited Value := ⟨.table []⟩

/-- The entries of a table, in the order of the document. -/
abbrev Entries := List (String × Value)

end PeerWatch.Toml
