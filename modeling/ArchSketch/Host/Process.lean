import ArchSketch.Files.Store

/-! The machine around the program. It starts other programs with arguments and an input, telling
what they wrote and how they ended, and it reaches servers. -/
namespace ArchSketch.Host

open Files

inductive Status where
  | exited (code : Nat)
  | killed (signal : Nat)
  deriving DecidableEq, Repr

def signals : List (Nat × String) :=
  [(1, "HUP"), (2, "INT"), (3, "QUIT"), (4, "ILL"), (5, "TRAP"), (6, "ABRT"), (7, "BUS"),
    (8, "FPE"), (9, "KILL"), (10, "USR1"), (11, "SEGV"), (12, "USR2"), (13, "PIPE"),
    (14, "ALRM"), (15, "TERM"), (16, "STKFLT"), (17, "CHLD"), (18, "CONT"), (19, "STOP"),
    (20, "TSTP"), (21, "TTIN"), (22, "TTOU"), (23, "URG"), (24, "XCPU"), (25, "XFSZ"),
    (26, "VTALRM"), (27, "PROF"), (28, "WINCH"), (29, "IO"), (30, "PWR"), (31, "SYS")]

namespace Status

def isSuccess : Status → Bool
  | exited code => code == 0
  | killed _ => false

def text : Status → String
  | exited code => "exit status: " ++ toString code
  | killed signal =>
    match signals.lookup signal with
    | some name => "signal: " ++ toString signal ++ " (SIG" ++ name ++ ")"
    | none => "signal: " ++ toString signal

end Status

structure Exit where
  status : Status
  output : ByteArray
  errors : ByteArray
  store : Store

structure Response where
  isSuccess : Bool
  status : String
  complaint : Option String
  body : ByteArray

structure Machine where
  searchPath : List String
  /-- Starts the program at a path; the error is the reason why it cannot be started. -/
  start : Store → (path : String) → (arguments : List String) → (input : ByteArray) →
    Except IoError Exit
  /-- Posts a text to a server; the error is the reason why there is no answer. -/
  post : (url body : String) → Except String Response

namespace Machine

def isRunnable (s : Store) (path : String) : Bool :=
  match s.entry path with
  | .ok (.file _ executable) => executable
  | _ => false

def find? (m : Machine) (s : Store) (name : String) : Option String :=
  (m.searchPath.map (Path.join · name)).find? (isRunnable s)

/-- Tries paths in turn. A program that is missing gives way to the next one, and so does one that
must not be run, unless none is left. -/
def startFirst (m : Machine) (s : Store) (arguments : List String) (input : ByteArray)
    (failure : IoError) : List String → Except IoError Exit
  | [] => .error failure
  | path :: paths =>
    match m.start s path arguments input with
    | .ok exit => .ok exit
    | .error .permissionDenied => m.startFirst s arguments input .permissionDenied paths
    | .error .notFound => m.startFirst s arguments input failure paths
    | .error .notDirectory => m.startFirst s arguments input failure paths
    | .error e => .error e

def launch (m : Machine) (s : Store) (program : String) (arguments : List String)
    (input : ByteArray) : Except IoError Exit :=
  if program.isEmpty then .error .notFound
  else if program.toList.contains '\x00' then .error (.other "nul byte found in provided data")
  else if program.toList.contains '/' then m.start s program arguments input
  else m.startFirst s arguments input .notFound (m.searchPath.map (Path.join · program))

end Machine
end ArchSketch.Host
