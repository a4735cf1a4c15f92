import PeerWatch.Text.Blank

/-!
# Filters of log lines

A filter is a list of directives with commas between them.  A directive is a
level, or names where it applies: a part of the program, or a span between
brackets, perhaps with fields between braces; a level may follow after `=`.
Of the directives the more special ones come first, and of two that apply to
the same the later one counts.

* `LogFilter.parse?`, `LogFilter.text`;
* `LogFilter.ofSetting` — the filter in use, whatever was set.
-/

namespace PeerWatch

/-- How much is said, from nothing to everything. -/
inductive LogLevel where
  | off
  | error
  | warn
  | info
  | debug
  | trace
deriving DecidableEq, Repr

namespace LogLevel

/-- The levels, from nothing to everything. -/
def all : List LogLevel := [.off, .error, .warn, .info, .debug, .trace]

/-- The name of a level, as a directive writes it. -/
def name : LogLevel → String
  | .off => "off"
  | .error => "error"
  | .warn => "warn"
  | .info => "info"
  | .debug => "debug"
  | .trace => "trace"

/-- The number of a level: how many levels log less. -/
def number (l : LogLevel) : Nat := all.idxOf l

/-- A number of decimal digits, perhaps after a plus. -/
def decimal? (text : List Char) : Option Nat :=
  let digits := match text with
    | '+' :: rest => rest
    | text => text
  if digits.isEmpty || digits.any (!·.isDigit) then none
  else some (digits.foldl (fun n c => n * 10 + (c.toNat - 48)) 0)

/-- The level with a name, letters of either case, or a number. -/
def ofText? (text : List Char) : Option LogLevel :=
  match decimal? text with
  | some n => all[n]?
  | none => all.find? fun l => l.name.toList = text.map Char.toLower

end LogLevel

/-- One directive of a filter. -/
structure LogDirective where
  target : Option String
  span : Option String
  fields : List String
  level : LogLevel
deriving DecidableEq, Repr

namespace LogDirective

/-- Lists of texts in the order of their first difference; a list comes after its beginnings. -/
def compareTexts : List String → List String → Ordering
  | [], [] => .eq
  | [], _ :: _ => .lt
  | _ :: _, [] => .gt
  | a :: as, b :: bs => (compare a b).then (compareTexts as bs)

/-- Nothing comes before something. -/
def compareOption {α : Type} (cmp : α → α → Ordering) : Option α → Option α → Ordering
  | none, none => .eq
  | none, some _ => .lt
  | some _, none => .gt
  | some a, some b => cmp a b

/-- Longer names of parts are more special, then longer names of spans, then
more fields; otherwise the names decide. -/
def compareSpecial (a b : LogDirective) : Ordering :=
  let size (s : Option String) := s.map (·.utf8ByteSize)
  (compareOption compare (size a.target) (size b.target)).then <|
  (compareOption compare (size a.span) (size b.span)).then <|
  (compare a.fields.length b.fields.length).then <|
  (compareOption compare a.target b.target).then <|
  (compareOption compare a.span b.span).then (compareTexts a.fields b.fields)

/-- A directive put among others, the most special one first; it takes the
place of one that applies to the same. -/
def insert (d : LogDirective) : List LogDirective → List LogDirective
  | [] => [d]
  | e :: rest =>
    match compareSpecial d e with
    | .gt => d :: e :: rest
    | .eq => d :: rest
    | .lt => e :: insert d rest

/-- The text of a directive, as it reads back. -/
def text (d : LogDirective) : String :=
  let fields := if d.fields.isEmpty then "" else "\x7b" ++ ",".intercalate d.fields ++ "\x7d"
  let span := if d.span.isNone && d.fields.isEmpty then ""
    else "[" ++ d.span.getD "" ++ fields ++ "]"
  let place := d.target.getD "" ++ span
  if d.target.isNone && span.isEmpty then d.level.name else place ++ "=" ++ d.level.name

/-- Whether it depends on where in the program's spans a line arises. -/
def isDynamic (d : LogDirective) : Bool := d.span.isSome || !d.fields.isEmpty

/-- Whether it can be decided without looking at spans and values. -/
def isStatic (d : LogDirective) : Bool :=
  d.span.isNone && d.fields.all fun f => !f.toList.contains '='

/-- Whether a directive may begin with a character. -/
def isFirstChar (c : Char) : Bool :=
  c = '-' || c = ':' || c = '_' || c.isAlphanum || (128 ≤ c.toNat && !Text.isBlank c)

/-- A piece of a text without the blanks around it. -/
def trim (text : List Char) : List Char :=
  ((text.dropWhile Text.isBlank).reverse.dropWhile Text.isBlank).reverse

/-- The characters of a text from one place up to another. -/
def slice (text : List Char) (first last : Nat) : List Char := (text.take last).drop first

/-- The level that a text ends with from a place on, the highest if nothing is
there. -/
def levelFrom? (text : List Char) (place : Nat) : Option LogLevel :=
  match text.drop place with
  | [] => some .trace
  | level => LogLevel.ofText? level

/-- A directive whose place in the program ends at `here`; `bare` is its text
without blanks around it. -/
def finish? (text bare : List Char) (here : Nat) (target span : Option String)
    (fields : List String) : Option LogDirective :=
  match bare.drop here with
  | [] => some ⟨target, span, fields, .trace⟩
  | '=' :: _ => (levelFrom? text (here + 1)).map fun level => ⟨target, span, fields, level⟩
  | _ => none

/-- A directive whose span begins at `here`, behind its bracket.  Fields cannot
be separated by commas, since these end the directive. -/
def fromSpan? (text bare : List Char) (here : Nat) (target : Option String) :
    Option LogDirective :=
  let stop := here + ((bare.drop here).takeWhile fun c => c ≠ ']' ∧ c ≠ '\x7b').length
  let name := String.ofList (slice text here stop)
  match bare.drop stop with
  | ']' :: _ => finish? text bare (stop + 1) target (some name) []
  | '\x7b' :: rest =>
    let fieldStop := stop + 1 + (rest.takeWhile (· ≠ '\x7d')).length
    let field := String.ofList (slice text (stop + 1) fieldStop)
    match bare.drop fieldStop with
    | '\x7d' :: ']' :: _ =>
      if field.isEmpty then none
      else
        finish? text bare (fieldStop + 2) target (if name.isEmpty then none else some name) [field]
    | _ => none
  | _ => none

/-- Reads a directive.  Blanks around it are not looked at, but places are
counted from the end of those in front and then taken from its beginning. -/
def parse? (text : List Char) : Option LogDirective :=
  let bare := trim text
  match bare with
  | [] => none
  | c :: _ =>
    if c = '[' then fromSpan? text bare 1 none
    else if !isFirstChar c then none
    else
      let stop := (bare.takeWhile fun c => c ≠ '=' ∧ c ≠ '[').length
      let target := String.ofList (slice text 0 stop)
      match bare.drop stop with
      | [] =>
        match LogLevel.ofText? text with
        | some level => some ⟨none, none, [], level⟩
        | none => some ⟨some (String.ofList text), none, [], .trace⟩
      | '[' :: _ => fromSpan? text bare (stop + 1) (some target)
      | _ => finish? text bare stop (some target) none []

end LogDirective

/-- A filter: the directives that need no look at spans, and those that do. -/
structure LogFilter where
  statics : List LogDirective
  dynamics : List LogDirective
deriving DecidableEq, Repr

namespace LogFilter

/-- A filter of directives in the order in which they were given; without any
nothing is logged. -/
def ofDirectives (ds : List LogDirective) : LogFilter :=
  let (dynamic, static) := ds.partition (·.isDynamic)
  let statics := (static ++ dynamic.filter (·.isStatic)).foldl (fun acc d => d.insert acc) []
  let dynamics := dynamic.foldl (fun acc d => d.insert acc) []
  if statics.isEmpty && dynamics.isEmpty then ⟨[⟨none, none, [], .off⟩], []⟩
  else ⟨statics, dynamics⟩

/-- The pieces of a text between commas. -/
def pieces : List Char → List (List Char)
  | [] => [[]]
  | c :: rest =>
    if c = ',' then [] :: pieces rest
    else
      match pieces rest with
      | piece :: others => (c :: piece) :: others
      | [] => [[c]]

/-- Reads a filter; empty pieces do not count. -/
def parse? (text : String) : Option LogFilter :=
  (((pieces text.toList).filter (!·.isEmpty)).mapM LogDirective.parse?).map ofDirectives

/-- The text of a filter: its directives with commas between. -/
def text (f : LogFilter) : String :=
  ",".intercalate ((f.statics ++ f.dynamics).map (·.text))

/-- What the program says where nothing else is asked for: its own lines that inform. -/
def standard : LogFilter := ⟨[⟨some "peer_prober", none, [], .info⟩], []⟩

/-- The filter in use: the one that was set, or the standard one if that
cannot be read. -/
def ofSetting (text : String) : LogFilter := (parse? text).getD standard

/-- Whether lines of a level from a part of the program are logged, outside
of any span. -/
def passes (f : LogFilter) (target : String) (level : LogLevel) : Bool :=
  let applies (d : LogDirective) : Bool :=
    d.fields.isEmpty && (d.target.all fun t => t.toList.isPrefixOf target.toList)
  match f.statics.find? applies with
  | some d => level.number ≤ d.level.number
  | none => false

end LogFilter

end PeerWatch
