import PeerWatch.Target
import PeerWatch.SystemError

/-!
# Why a probe failed

A probe fails because it was disabled, because its time ran out in one of its
phases, or because the connection failed with an error of its own.  Every
failure has a message and a class; where the error itself does not settle the
class, its text is searched, letters of either case, for well-known phrases.

* `ProbeError.message`, `ProbeError.classify`;
* `matchPhrases` — the class a text betrays.
-/

namespace PeerWatch

/-- An error of input or output: its kind, and its text. -/
structure IoError where
  kind : IoKind
  text : String
deriving DecidableEq, Repr

namespace IoError

/-- An error of which only the kind is known. -/
def ofKind (kind : IoKind) : IoError := ⟨kind, kind.text⟩

/-- The error of an operation that the system refused. -/
def ofSystem (e : SystemError) : IoError := ⟨e.kind, e.message⟩

end IoError

/-- What a connection can fail with. -/
inductive ConnectionError where
  | io (e : IoError)
  | identityMismatch (expected : TargetId) (actual : String)
  /-- The peer does not speak the protocol. -/
  | protocol (reason : String)
  | invalidAddress (reason : String)
  | other (reason : String)
deriving DecidableEq

def ConnectionError.message : ConnectionError → String
  | .io e => e.text
  | .identityMismatch expected actual =>
    "identity mismatch: expected " ++ expected.text ++ ", peer presented " ++ actual
  | .protocol reason => "protocol error: " ++ reason
  | .invalidAddress reason => "invalid address: " ++ reason
  | .other reason => reason

/-- The two timed phases of a probe. -/
inductive Phase where
  | dial
  | ping
deriving DecidableEq, Repr

/-- The name of a phase, as errors write it. -/
def Phase.name : Phase → String
  | .dial => "dial"
  | .ping => "ping"

/-- Why a probe failed. -/
inductive ProbeError where
  | connection (phase : Phase) (e : ConnectionError)
  /-- The whole limit, in microseconds, ran out in a phase. -/
  | deadline (phase : Phase) (limitMicros : Nat)
  /-- The target is not to be probed. -/
  | disabled
deriving DecidableEq

/-- The text of the error; a limit is told in whole milliseconds. -/
def ProbeError.message : ProbeError → String
  | .connection phase e => phase.name ++ " failed: " ++ e.message
  | .deadline phase limitMicros =>
    phase.name ++ " deadline exceeded after " ++ toString (limitMicros / 1000) ++ "ms"
  | .disabled => "probing disabled for target"

/-- Phrases that tell of a wrong peer or protocol. -/
def mismatchPhrases : List String :=
  ["identity mismatch", "peer id mismatch", "unexpected peer", "protocol error",
   "unsupported protocol", "wrong version"]

/-- Phrases that tell of a failing network. -/
def transientPhrases : List String :=
  ["connection refused", "connection reset", "connection aborted", "broken pipe", "timed out",
   "timeout", "deadline exceeded", "no route to host", "network is unreachable",
   "host is unreachable", "unexpected eof", "early eof", "tls handshake", "handshake failed",
   "failed to lookup address", "temporary failure in name resolution"]

/-- Whether a phrase stands somewhere in a text. -/
def occursIn (phrase : List Char) : List Char → Bool
  | [] => phrase.isEmpty
  | c :: rest => phrase.isPrefixOf (c :: rest) || occursIn phrase rest

/-- Whether one of some phrases stands in a text, letters of either case. -/
def mentions (phrases : List String) (text : String) : Bool :=
  phrases.any fun phrase => occursIn phrase.toList (text.toList.map Char.toLower)

/-- The class a text betrays: a wrong peer before a failing network. -/
def matchPhrases (text : String) : FailureClass :=
  if mentions mismatchPhrases text then .protocolMismatch
  else if mentions transientPhrases text then .transientNetwork
  else .unknown

/-- The kinds of errors that tell of a failing network. -/
def transientKinds : List IoKind :=
  [.connectionRefused, .connectionReset, .connectionAborted, .notConnected, .brokenPipe, .timedOut,
   .unexpectedEof]

/-- The class of a connection's error. -/
def ConnectionError.classify : ConnectionError → FailureClass
  | .identityMismatch _ _ => .protocolMismatch
  | .protocol _ => .protocolMismatch
  | .invalidAddress _ => .fatal
  | .io e => if transientKinds.contains e.kind then .transientNetwork else matchPhrases e.text
  | .other reason => matchPhrases reason

/-- The class of the error. -/
def ProbeError.classify : ProbeError → FailureClass
  | .connection _ e => e.classify
  | .deadline _ _ => .transientNetwork
  | .disabled => .fatal

/-- The error as outcomes carry it. -/
def ProbeError.toFailure (e : ProbeError) : Failure := ⟨e.classify, e.message⟩

end PeerWatch
