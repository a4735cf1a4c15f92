import PeerWatch.Calendar.DayText
import PeerWatch.History.Day

/-!
# Exported history

An export is a sequence of records, one for each day in ascending order: the
moment the day began, in seconds since 1970 as a 32-bit word, and its 1440
slots, all with the least byte first.

* `dayTimestamp` — the first field, for the days a 32-bit word can tell;
* `write` — puts rows into a sink, which may be too small for them;
* `read` — the records of a byte string.
-/

namespace PeerWatch.Export

open Calendar

/-- The bytes of a record: a timestamp and the slots. -/
def recordLength : Nat := 4 + 2 * minutesPerDay

/-- Why an export could not be written or read. -/
inductive Fault where
  /-- The day does not fit the 32-bit timestamp. -/
  | dayOutOfRange (day : Day)
  | truncated (length : Nat)
  | sinkFull
deriving DecidableEq

def Fault.message : Fault → String
  | .dayOutOfRange day => "date " ++ day.text ++ " cannot be represented as a 32-bit day timestamp"
  | .truncated length => "export length " ++ toString length ++ " is not a whole number of records"
  | .sinkFull => "failed to write whole buffer"

/-- The second a day begins at, if a 32-bit word holds it. -/
def dayTimestamp (day : Day) : Except Fault UInt32 :=
  let seconds := day.number * 86400
  if 0 ≤ seconds ∧ seconds < 4294967296 then .ok (UInt32.ofNat seconds.toNat)
  else .error (.dayOutOfRange day)

/-- One record of an export: its day and the slots of that day. -/
structure Record where
  timestamp : UInt32
  slots : DaySlots
deriving DecidableEq

namespace Record

/-- The day of a record, which every timestamp has. -/
def day (r : Record) : Day :=
  ⟨(r.timestamp.toNat : Int) / 86400, by
    have := r.timestamp.toNat_lt
    unfold firstNumber lastNumber
    omega⟩

/-- The bytes of a record: its timestamp, then its slots. -/
def toBytes (r : Record) : List UInt8 :=
  LittleEndian.word32 r.timestamp ++ LittleEndian.ofWords16 r.slots.toList

/-- The record of a row, if its day can be told. -/
def ofRow (row : DayHistory) : Except Fault Record :=
  match dayTimestamp row.key.day with
  | .error fault => .error fault
  | .ok timestamp => .ok ⟨timestamp, row.slots⟩

/-- The record with the given bytes, if there are as many as a record has. -/
def ofBytes? : List UInt8 → Option Record
  | b₀ :: b₁ :: b₂ :: b₃ :: rest =>
    ((LittleEndian.toWords16? rest).bind DaySlots.ofList?).map fun slots =>
      ⟨LittleEndian.join32 b₀ b₁ b₂ b₃, slots⟩
  | _ => none

end Record

/-- Where an export goes: bytes that were taken, and how many more will be. -/
structure Sink where
  written : List UInt8
  /-- `none` if there is always room. -/
  room : Option Nat
deriving DecidableEq

namespace Sink

/-- A sink that never fills. -/
def unbounded : Sink := ⟨[], none⟩

/-- A sink that takes so many bytes. -/
def ofCapacity (capacity : Nat) : Sink := ⟨[], some capacity⟩

/-- Puts bytes in; of those that do not fit, the first ones. -/
def put (sink : Sink) (bytes : List UInt8) : Sink × Bool :=
  match sink.room with
  | none => (⟨sink.written ++ bytes, none⟩, true)
  | some room =>
    if bytes.length ≤ room then (⟨sink.written ++ bytes, some (room - bytes.length)⟩, true)
    else (⟨sink.written ++ bytes.take room, some 0⟩, false)

end Sink

/-- Puts rows into a sink one by one, up to the first that cannot be put. -/
def writeRows : List DayHistory → Sink → Sink × Except Fault Unit
  | [], sink => (sink, .ok ())
  | row :: rest, sink =>
    match Record.ofRow row with
    | .error fault => (sink, .error fault)
    | .ok record =>
      match sink.put record.toBytes with
      | (sink, true) => writeRows rest sink
      | (sink, false) => (sink, .error .sinkFull)

/-- The rows in ascending order of their days; rows of one day keep their
order. -/
def inOrder (rows : List DayHistory) : List DayHistory :=
  rows.mergeSort fun a b => a.key.day ≤ b.key.day

/-- Writes rows in ascending order of their days; the answer is their number. -/
def write (rows : List DayHistory) (sink : Sink) : Sink × Except Fault Nat :=
  match writeRows (inOrder rows) sink with
  | (sink, .ok ()) => (sink, .ok rows.length)
  | (sink, .error fault) => (sink, .error fault)

/-- The records of a byte string whose length is a whole number of them. -/
def readRecords (count : Nat) (bytes : List UInt8) : List Record :=
  match count with
  | 0 => []
  | count + 1 =>
    match Record.ofBytes? (bytes.take recordLength) with
    | none => []
    | some record => record :: readRecords count (bytes.drop recordLength)

/-- Reads an export, which has to be a whole number of records. -/
def read (bytes : List UInt8) : Except Fault (List Record) :=
  if bytes.length % recordLength ≠ 0 then .error (.truncated bytes.length)
  else .ok (readRecords (bytes.length / recordLength) bytes)

end PeerWatch.Export
