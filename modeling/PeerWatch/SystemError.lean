import PeerWatch.Text.Quoted

/-!
# Errors of the operating system

The host tells an error by a number.  It has a text, and some numbers a kind;
the full form of an error gives all three.
-/

namespace PeerWatch

/-- The kinds of input and output errors that are told apart. -/
inductive IoKind where
  | notFound
  | permissionDenied
  | connectionRefused
  | connectionReset
  | hostUnreachable
  | networkUnreachable
  | connectionAborted
  | notConnected
  | addrInUse
  | addrNotAvailable
  | networkDown
  | brokenPipe
  | alreadyExists
  | wouldBlock
  | notADirectory
  | isADirectory
  | invalidInput
  | invalidData
  | timedOut
  | writeZero
  | interrupted
  | unsupported
  | unexpectedEof
  | outOfMemory
  | other
  | uncategorized
deriving DecidableEq, Repr

namespace IoKind

/-- Each kind with its name and its text. -/
def table : List (IoKind × String × String) :=
  [(.notFound, "NotFound", "entity not found"),
   (.permissionDenied, "PermissionDenied", "permission denied"),
   (.connectionRefused, "ConnectionRefused", "connection refused"),
   (.connectionReset, "ConnectionReset", "connection reset"),
   (.hostUnreachable, "HostUnreachable", "host unreachable"),
   (.networkUnreachable, "NetworkUnreachable", "network unreachable"),
   (.connectionAborted, "ConnectionAborted", "connection aborted"),
   (.notConnected, "NotConnected", "not connected"),
   (.addrInUse, "AddrInUse", "address in use"),
   (.addrNotAvailable, "AddrNotAvailable", "address not available"),
   (.networkDown, "NetworkDown", "network down"),
   (.brokenPipe, "BrokenPipe", "broken pipe"),
   (.alreadyExists, "AlreadyExists", "entity already exists"),
   (.wouldBlock, "WouldBlock", "operation would block"),
   (.notADirectory, "NotADirectory", "not a directory"),
   (.isADirectory, "IsADirectory", "is a directory"),
   (.invalidInput, "InvalidInput", "invalid input parameter"),
   (.invalidData, "InvalidData", "invalid data"),
   (.timedOut, "TimedOut", "timed out"),
   (.writeZero, "WriteZero", "write zero"),
   (.interrupted, "Interrupted", "operation interrupted"),
   (.unsupported, "Unsupported", "unsupported"),
   (.unexpectedEof, "UnexpectedEof", "unexpected end of file"),
   (.outOfMemory, "OutOfMemory", "out of memory"),
   (.other, "Other", "other error"),
   (.uncategorized, "Uncategorized", "uncategorized error")]

/-- The name of a kind, as a script writes it. -/
def name (kind : IoKind) : String :=
  match table.find? (·.1 = kind) with
  | some (_, name, _) => name
  | none => "Uncategorized"

/-- The text of an error of which only the kind is known. -/
def text (kind : IoKind) : String :=
  match table.find? (·.1 = kind) with
  | some (_, _, text) => text
  | none => "uncategorized error"

/-- The kind of a name. -/
def ofName? (name : String) : Option IoKind :=
  (table.find? fun entry => entry.2.1 = name).map (·.1)

end IoKind

/-- An error number of the operating system. -/
structure SystemError where
  number : Nat
deriving DecidableEq, Repr

namespace SystemError

/-- There is no such file. -/
def noEntry : SystemError := ⟨2⟩

/-- There is such a file already. -/
def fileExists : SystemError := ⟨17⟩

/-- A directory lies where a file was expected. -/
def isADirectory : SystemError := ⟨21⟩

/-- Something else lies where a directory was expected. -/
def notADirectory : SystemError := ⟨20⟩

/-- The call does not take its arguments. -/
def invalidArgument : SystemError := ⟨22⟩

/-- The machine does not have the address. -/
def addressNotAvailable : SystemError := ⟨99⟩

/-- No route leads to the address. -/
def networkUnreachable : SystemError := ⟨101⟩

/-- The texts of the numbers that have one. -/
def texts : List (Nat × String) :=
  [(1, "Operation not permitted"),
   (2, "No such file or directory"),
   (3, "No such process"),
   (4, "Interrupted system call"),
   (5, "Input/output error"),
   (6, "No such device or address"),
   (7, "Argument list too long"),
   (8, "Exec format error"),
   (9, "Bad file descriptor"),
   (10, "No child processes"),
   (11, "Resource temporarily unavailable"),
   (12, "Cannot allocate memory"),
   (13, "Permission denied"),
   (14, "Bad address"),
   (15, "Block device required"),
   (16, "Device or resource busy"),
   (17, "File exists"),
   (18, "Invalid cross-device link"),
   (19, "No such device"),
   (20, "Not a directory"),
   (21, "Is a directory"),
   (22, "Invalid argument"),
   (23, "Too many open files in system"),
   (24, "Too many open files"),
   (25, "Inappropriate ioctl for device"),
   (26, "Text file busy"),
   (27, "File too large"),
   (28, "No space left on device"),
   (29, "Illegal seek"),
   (30, "Read-only file system"),
   (31, "Too many links"),
   (32, "Broken pipe"),
   (33, "Numerical argument out of domain"),
   (34, "Numerical result out of range"),
   (35, "Resource deadlock avoided"),
   (36, "File name too long"),
   (37, "No locks available"),
   (38, "Function not implemented"),
   (39, "Directory not empty"),
   (40, "Too many levels of symbolic links"),
   (42, "No message of desired type"),
   (43, "Identifier removed"),
   (44, "Channel number out of range"),
   (45, "Level 2 not synchronized"),
   (46, "Level 3 halted"),
   (47, "Level 3 reset"),
   (48, "Link number out of range"),
   (49, "Protocol driver not attached"),
   (50, "No CSI structure available"),
   (51, "Level 2 halted"),
   (52, "Invalid exchange"),
   (53, "Invalid request descriptor"),
   (54, "Exchange full"),
   (55, "No anode"),
   (56, "Invalid request code"),
   (57, "Invalid slot"),
   (59, "Bad font file format"),
   (60, "Device not a stream"),
   (61, "No data available"),
   (62, "Timer expired"),
   (63, "Out of streams resources"),
   (64, "Machine is not on the network"),
   (65, "Package not installed"),
   (66, "Object is remote"),
   (67, "Link has been severed"),
   (68, "Advertise error"),
   (69, "Srmount error"),
   (70, "Communication error on send"),
   (71, "Protocol error"),
   (72, "Multihop attempted"),
   (73, "RFS specific error"),
   (74, "Bad message"),
   (75, "Value too large for defined data type"),
   (76, "Name not unique on network"),
   (77, "File descriptor in bad state"),
   (78, "Remote address changed"),
   (79, "Can not access a needed shared library"),
   (80, "Accessing a corrupted shared library"),
   (81, ".lib section in a.out corrupted"),
   (82, "Attempting to link in too many shared libraries"),
   (83, "Cannot exec a shared library directly"),
   (84, "Invalid or incomplete multibyte or wide character"),
   (85, "Interrupted system call should be restarted"),
   (86, "Streams pipe error"),
   (87, "Too many users"),
   (88, "Socket operation on non-socket"),
   (89, "Destination address required"),
   (90, "Message too long"),
   (91, "Protocol wrong type for socket"),
   (92, "Protocol not available"),
   (93, "Protocol not supported"),
   (94, "Socket type not supported"),
   (95, "Operation not supported"),
   (96, "Protocol family not supported"),
   (97, "Address family not supported by protocol"),
   (98, "Address already in use"),
   (99, "Cannot assign requested address"),
   (100, "Network is down"),
   (101, "Network is unreachable"),
   (102, "Network dropped connection on reset"),
   (103, "Software caused connection abort"),
   (104, "Connection reset by peer"),
   (105, "No buffer space available"),
   (106, "Transport endpoint is already connected"),
   (107, "Transport endpoint is not connected"),
   (108, "Cannot send after transport endpoint shutdown"),
   (109, "Too many references: cannot splice"),
   (110, "Connection timed out"),
   (111, "Connection refused"),
   (112, "Host is down"),
   (113, "No route to host"),
   (114, "Operation already in progress"),
   (115, "Operation now in progress"),
   (116, "Stale file handle"),
   (117, "Structure needs cleaning"),
   (118, "Not a XENIX named type file"),
   (119, "No XENIX semaphores available"),
   (120, "Is a named type file"),
   (121, "Remote I/O error"),
   (122, "Disk quota exceeded"),
   (123, "No medium found"),
   (124, "Wrong medium type"),
   (125, "Operation canceled"),
   (126, "Required key not available"),
   (127, "Key has expired"),
   (128, "Key has been revoked"),
   (129, "Key was rejected by service"),
   (130, "Owner died"),
   (131, "State not recoverable"),
   (132, "Operation not possible due to RF-kill"),
   (133, "Memory page has hardware error")]

/-- The text of an error, or its number where it has none. -/
def text (e : SystemError) : String :=
  match texts.find? (·.1 = e.number) with
  | some (_, text) => text
  | none => "Unknown error " ++ toString e.number

/-- The kinds of the numbers that have one. -/
def kinds : List (Nat × IoKind) :=
  [(1, .permissionDenied), (2, .notFound), (4, .interrupted), (11, .wouldBlock),
   (12, .outOfMemory), (13, .permissionDenied), (17, .alreadyExists), (20, .notADirectory),
   (21, .isADirectory), (22, .invalidInput), (32, .brokenPipe), (38, .unsupported),
   (95, .unsupported), (98, .addrInUse), (99, .addrNotAvailable), (100, .networkDown),
   (101, .networkUnreachable), (103, .connectionAborted), (104, .connectionReset),
   (107, .notConnected), (110, .timedOut), (111, .connectionRefused), (113, .hostUnreachable)]

/-- The kind of an error, by its number. -/
def kind (e : SystemError) : IoKind :=
  match kinds.find? (·.1 = e.number) with
  | some (_, kind) => kind
  | none => .uncategorized

/-- The text of an error together with its number. -/
def message (e : SystemError) : String :=
  e.text ++ " (os error " ++ toString e.number ++ ")"

/-- Number, kind and text in full. -/
def inFull (e : SystemError) : String :=
  "Os \x7b code: " ++ toString e.number ++ ", kind: " ++ e.kind.name ++ ", message: "
    ++ Text.quoteString e.text ++ " \x7d"

end SystemError

end PeerWatch
