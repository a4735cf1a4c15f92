import PeerWatch.Net.SocketAddress

/-!
# Destinations

Where to connect to is given as a socket address, or as a host and a port with
a colon between them.  A host may be a number: of version 4 in one to four
parts, each decimal, octal or hexadecimal, the last part filling what the
others leave; or of version 6 without brackets.  All other hosts are names,
of which only the machine's own can be looked up here.

* `Destination.resolve` — the socket address of a destination, or why there is
  none.
-/

namespace PeerWatch.Net

/-- Why a text is no destination. -/
inductive MalformedDestination where
  | noPort
  /-- What stands after the last colon is no port. -/
  | badPort
  | nulInHost
deriving DecidableEq, Repr

def MalformedDestination.message : MalformedDestination → String
  | .noPort => "invalid socket address"
  | .badPort => "invalid port value"
  | .nulInHost => "file name contained an unexpected NUL byte"

/-- Why a name has no address. -/
inductive LookupFailure where
  | noAnswer
  | unknown
deriving DecidableEq, Repr

/-- The text of a lookup that failed. -/
def LookupFailure.message (f : LookupFailure) : String :=
  "failed to lookup address information: " ++
    match f with
    | .noAnswer => "Temporary failure in name resolution"
    | .unknown => "Name or service not known"

/-- Why a destination has no socket address. -/
inductive ResolveError where
  | malformed (fault : MalformedDestination)
  | lookup (failure : LookupFailure)
deriving DecidableEq, Repr

namespace Destination

/-- A text before and after its last colon. -/
def splitLastColon? : List Char → Option (List Char × List Char)
  | [] => none
  | c :: rest =>
    match splitLastColon? rest with
    | some (before, after) => some (c :: before, after)
    | none => if c = ':' then some ([], rest) else none

/-- A port: decimal digits, perhaps after a plus, up to 65535. -/
def port? (text : List Char) : Option Nat :=
  let digits := match text with
    | '+' :: rest => rest
    | text => text
  match readNumber 10 none true 65535 digits with
  | some (port, []) => some port
  | _ => none

/-- One part of a version 4 number. -/
def readPart (text : List Char) : Option (Nat × List Char) :=
  match text with
  | '0' :: 'x' :: rest | '0' :: 'X' :: rest => readNumber 16 none true 4294967295 rest
  | '0' :: _ => readNumber 8 none true 4294967295 text
  | _ => readNumber 10 none true 4294967295 text

/-- The parts of a version 4 number, at most so many. -/
def readParts : Nat → List Char → Option (List Nat)
  | 0, _ => none
  | most + 1, text =>
    match readPart text with
    | some (part, []) => some [part]
    | some (part, '.' :: rest) => (readParts most rest).map (part :: ·)
    | _ => none

/-- A number as so many bytes, the highest first. -/
def bytesOf (count value : Nat) : List Nat :=
  (List.range count).reverse.map fun i => value / Nat.pow 256 i % 256

/-- The octets of a version 4 number: each part but the last is one of
them. -/
def octets? (parts : List Nat) : Option (List Nat) :=
  match parts.getLast? with
  | none => none
  | some last =>
    let front := parts.dropLast
    let left := 4 - front.length
    if front.all (· ≤ 255) && last < Nat.pow 256 left then some (front ++ bytesOf left last)
    else none

/-- A host that is a number, with a port. -/
def numeric? (host : List Char) (port : Nat) : Option SocketAddress :=
  match (readParts 4 host).bind octets? with
  | some octets => some (.v4 octets port)
  | none =>
    match readV6 host with
    | none => none
    | some (groups, []) => some (.v6 groups 0 port)
    | some (groups, rest) =>
      match readScope rest with
      | (scope, []) => some (.v6 groups scope port)
      | _ => none

/-- The pieces of a text between dots. -/
def labels : List Char → List (List Char)
  | [] => [[]]
  | c :: rest =>
    if c = '.' then [] :: labels rest
    else
      match labels rest with
      | label :: others => (c :: label) :: others
      | [] => [[c]]

/-- Whether a text can be a part of a host's name. -/
def isLabel (label : List Char) : Bool :=
  !label.isEmpty && label.length ≤ 63 && label.all fun c => c.isAlphanum || c = '-' || c = '_'

/-- Whether a text can be the name of a host; a last dot does not count. -/
def isName (host : List Char) : Bool :=
  let parts := labels host
  let parts := if parts.getLast? = some [] then parts.dropLast else parts
  !host.isEmpty && host.head? ≠ some '-' && parts.all isLabel

/-- The one name that the machine knows by itself. -/
def ownName : String := "localhost"

/-- The address of a host, its port added. -/
def lookup (host : List Char) (port : Nat) : Except LookupFailure SocketAddress :=
  match numeric? host port with
  | some address => .ok address
  | none =>
    if host.map Char.toLower = ownName.toList then .ok (.v4 [127, 0, 0, 1] port)
    else if isName host then .error .noAnswer
    else .error .unknown

/-- The address a text stands for: an address as it is, or a name that is looked up, with a
port. -/
def resolve (text : String) : Except ResolveError SocketAddress :=
  match SocketAddress.parse? text with
  | some address => .ok address
  | none =>
    match splitLastColon? text.toList with
    | none => .error (.malformed .noPort)
    | some (host, port) =>
      match port? port with
      | none => .error (.malformed .badPort)
      | some port =>
        if host.contains (Char.ofNat 0) then .error (.malformed .nulInHost)
        else (lookup host port).mapError .lookup

end Destination

end PeerWatch.Net
