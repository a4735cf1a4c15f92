import PeerWatch.Settings.Basic
import PeerWatch.Toml.Value

/-!
# Reading settings

Settings are given as a table of sections, every section as a table of
settings.  What is not given keeps its standard value, and names that mean
nothing are passed over.  A section may also be an array of its settings in
order.  The first fault ends the reading.

* `ofToml` — the settings a document gives;
* `ReadError` — why it gives none.
-/

namespace PeerWatch.Settings

/-- Why a document gives no settings. -/
inductive ReadError where
  | badIdentity (e : TargetId.ParseError)
  | missingField (name : String)
  /-- A way to probe that there is not. -/
  | unknownMode (name : String)
  /-- A value of the wrong kind or beyond its range. -/
  | mistyped
deriving DecidableEq, Repr

/-- The text of the error, where it is fixed. -/
def ReadError.message? : ReadError → Option String
  | .badIdentity e => some e.message
  | .missingField name => some ("missing field `" ++ name ++ "`")
  | .unknownMode name =>
    some ("unknown variant `" ++ name ++ "`, expected one of `off`, `dial`, `ping`")
  | .mistyped => none

/-- What a value of a document means for a setting. -/
abbrev ValueReader (α : Type) := Toml.Value → Except ReadError α

/-- A number of a range that begins at zero. -/
def readNat (bound : Nat) : ValueReader Nat
  | .integer n => if 0 ≤ n ∧ n ≤ bound then .ok n.toNat else .error .mistyped
  | _ => .error .mistyped

/-- The greatest number of 64 bits. -/
def wordBound : Nat := 18446744073709551615

/-- The greatest number of 32 bits. -/
def halfWordBound : Nat := 4294967295

/-- A size: a number that is not negative. -/
def readSize : ValueReader Nat := readNat wordBound

/-- Yes or no. -/
def readFlag : ValueReader Bool
  | .boolean b => .ok b
  | _ => .error .mistyped

def readText : ValueReader String
  | .text s => .ok s
  | _ => .error .mistyped

/-- The first so many of some values, as bytes. -/
def readBytes : Nat → List Toml.Value → Except ReadError (List UInt8)
  | 0, _ => .ok []
  | _ + 1, [] => .error .mistyped
  | left + 1, v :: rest => do
    let b ← readNat 255 v
    let bytes ← readBytes left rest
    .ok (b.toUInt8 :: bytes)

/-- An owner: its text, or its bytes as numbers. -/
def readOwner : ValueReader OwnerId
  | .text s =>
    match OwnerId.parse? s with
    | some owner => .ok owner
    | none => .error .mistyped
  | .array values => do
    let bytes ← readBytes 16 values
    if h : bytes.length = 16 then .ok ⟨bytes, h⟩ else .error .mistyped
  | _ => .error .mistyped

/-- An identity, in its hexadecimal spelling. -/
def readIdentity : ValueReader TargetId
  | .text s =>
    match TargetId.parse s with
    | .ok id => .ok id
    | .error e => .error (.badIdentity e)
  | _ => .error .mistyped

/-- The mode of a name. -/
def modeNamed (name : String) : Except ReadError ProbeMode :=
  match ProbeMode.ofName? name with
  | some mode => .ok mode
  | none => .error (.unknownMode name)

/-- A mode: its name, or a table that has the name over nothing. -/
def readMode : ValueReader ProbeMode
  | .text name => modeNamed name
  | .table [(name, content)] => do
    let mode ← modeNamed name
    match content with
    | .table [] => .ok mode
    | .array [] => .ok mode
    | _ => .error .mistyped
  | _ => .error .mistyped

/-- A setting of a section: its name, and how it is read into the section. -/
structure Entry (σ : Type) where
  name : String
  read : Toml.Value → σ → Except ReadError σ

/-- A section: a table, or an array in the order of its settings.  A date
counts as a table without any of them. -/
def readSection {σ : Type} (entries : List (Entry σ)) (standard : σ) : ValueReader σ
  | .table given =>
    given.foldlM (fun acc (name, value) =>
      match entries.find? (·.name = name) with
      | some entry => entry.read value acc
      | none => .ok acc) standard
  | .array values =>
    (entries.zip values).foldlM (fun acc (entry, value) => entry.read value acc) standard
  | .datetime => .ok standard
  | _ => .error .mistyped

/-- A setting with a reader for its value. -/
def setting {σ α : Type} (name : String) (reader : ValueReader α) (put : σ → α → σ) : Entry σ :=
  ⟨name, fun value acc => (reader value).map (put acc)⟩

/-- The fields of the loader's section. -/
def loaderEntries : List (Entry LoaderSettings) :=
  [setting "batch_size" readSize fun s v => { s with batchSize := v },
   setting "idle_backoff_ms" readSize fun s v => { s with idleBackoff := v }]

/-- The fields of the section about probing. -/
def probeEntries : List (Entry ProbeSettings) :=
  [setting "concurrency" readSize fun s v => { s with concurrency := v },
   setting "timeout_ms" readSize fun s v => { s with timeout := v },
   setting "verify_identity" readFlag fun s v => { s with verifyIdentity := v }]

/-- The fields of the recorder's section. -/
def recorderEntries : List (Entry RecorderSettings) :=
  [setting "owner_id" readOwner fun s v => { s with owner := v },
   setting "chunk_size" readSize fun s v => { s with chunkSize := v },
   setting "flush_interval_ms" readSize fun s v => { s with flushInterval := v }]

/-- The fields of the section about channels. -/
def channelEntries : List (Entry ChannelSettings) :=
  [setting "capacity" readSize fun s v => { s with capacity := v }]

/-- The fields of the store's section. -/
def storeEntries : List (Entry StoreSettings) :=
  [setting "path" readText fun s v => { s with path := v }]

/-- The fields of the section about what is shown. -/
def observabilityEntries : List (Entry ObservabilitySettings) :=
  [setting "log_level" readText fun s v => { s with logLevel := v },
   setting "metrics_enabled" readFlag fun s v => { s with metricsEnabled := v },
   setting "metrics_address" readText fun s v => { s with metricsAddress := v },
   setting "stats_interval_secs" readSize fun s v => { s with statsInterval := v }]

/-- The fields of the section about exports. -/
def exportEntries : List (Entry ExportSettings) :=
  [setting "path" readText fun s v => { s with path := some v },
   setting "days" (readNat halfWordBound) fun s v => { s with days := v }]

/-- A target of which not everything need be given yet. -/
structure PartialTarget where
  id : Option TargetId
  address : Option String
  mode : Option ProbeMode

def targetEntries : List (Entry PartialTarget) :=
  [setting "id" readIdentity fun s v => { s with id := some v },
   setting "address" readText fun s v => { s with address := some v },
   setting "mode" readMode fun s v => { s with mode := some v }]

/-- The target, if all it needs was given; otherwise what is missing first. -/
def PartialTarget.complete (t : PartialTarget) : Except ReadError TargetSettings :=
  match t.id, t.address with
  | none, _ => .error (.missingField "id")
  | some _, none => .error (.missingField "address")
  | some id, some address => .ok ⟨id, address, t.mode.getD .standard⟩

/-- A target.  In an array nothing has a name that could be missed. -/
def readTarget (value : Toml.Value) : Except ReadError TargetSettings := do
  let t ← readSection targetEntries ⟨none, none, none⟩ value
  match value, t.complete with
  | .array _, .error _ => .error .mistyped
  | _, result => result

/-- The targets, one after another. -/
def readTargets : ValueReader (List TargetSettings)
  | .array values => values.mapM readTarget
  | _ => .error .mistyped

/-- The sections of a document, with the targets as the last one. -/
def sections : List (Entry Settings) :=
  [setting "loader" (readSection loaderEntries {}) fun s v => { s with loader := v },
   setting "probe" (readSection probeEntries {}) fun s v => { s with probe := v },
   setting "recorder" (readSection recorderEntries {}) fun s v => { s with recorder := v },
   setting "channels" (readSection channelEntries {}) fun s v => { s with channels := v },
   setting "store" (readSection storeEntries {}) fun s v => { s with store := v },
   setting "observability" (readSection observabilityEntries {}) fun s v =>
     { s with observability := v },
   setting "export" (readSection exportEntries {}) fun s v => { s with archive := v },
   setting "targets" readTargets fun s v => { s with targets := v }]

/-- The settings of a document; keys that are not settings do not count. -/
def ofToml (document : Toml.Entries) : Except ReadError Settings :=
  readSection sections {} (.table document)

end PeerWatch.Settings
