import CompiledViews.Text.Basic

/-!
# Signals

Signals end a process, unless they are harmless.
-/

namespace CompiledViews

/-- A signal: its number, its name, what a shell says when a process has ended by it, and whether it
does not end one. -/
structure Signal where
  number : Nat
  name : Text
  description : Text
  harmless : Bool
deriving DecidableEq, Repr

namespace Signal

/-- The signals that have a meaning of their own; the one with the number zero only asks for a
process. -/
def standard : List Signal := [
  ⟨0, "EXIT", [], true⟩,
  ⟨1, "HUP", "Hangup", false⟩,
  ⟨2, "INT", [], false⟩,
  ⟨3, "QUIT", "Quit", false⟩,
  ⟨4, "ILL", "Illegal instruction", false⟩,
  ⟨5, "TRAP", "Trace/breakpoint trap", false⟩,
  ⟨6, "ABRT", "Aborted", false⟩,
  ⟨7, "BUS", "Bus error", false⟩,
  ⟨8, "FPE", "Floating point exception", false⟩,
  ⟨9, "KILL", "Killed", false⟩,
  ⟨10, "USR1", "User defined signal 1", false⟩,
  ⟨11, "SEGV", "Segmentation fault", false⟩,
  ⟨12, "USR2", "User defined signal 2", false⟩,
  ⟨13, "PIPE", [], false⟩,
  ⟨14, "ALRM", "Alarm clock", false⟩,
  ⟨15, "TERM", "Terminated", false⟩,
  ⟨16, "16", "Stack fault", false⟩,
  ⟨17, "CHLD", [], true⟩,
  ⟨18, "CONT", [], true⟩,
  ⟨19, "STOP", [], true⟩,
  ⟨20, "TSTP", [], true⟩,
  ⟨21, "TTIN", [], true⟩,
  ⟨22, "TTOU", [], true⟩,
  ⟨23, "URG", [], true⟩,
  ⟨24, "XCPU", "CPU time limit exceeded", false⟩,
  ⟨25, "XFSZ", "File size limit exceeded", false⟩,
  ⟨26, "VTALRM", "Virtual timer expired", false⟩,
  ⟨27, "PROF", "Profiling timer expired", false⟩,
  ⟨28, "WINCH", [], true⟩,
  ⟨29, "IO", "I/O possible", false⟩,
  ⟨30, "PWR", "Power failure", false⟩,
  ⟨31, "SYS", "Bad system call", false⟩,
  ⟨32, "32", "Unknown signal 32", false⟩,
  ⟨33, "33", "Unknown signal 33", false⟩]

/-- How many signals have no meaning of their own. -/
def freeCount : Nat := 31

/-- A signal without a meaning of its own. They are numbered from both ends. -/
def free (index : Nat) : Signal :=
  let name : Text :=
    if index = 0 then "RTMIN"
    else if index ≤ freeCount / 2 then "RTMIN+" ++ Text.ofNat index
    else if index + 1 = freeCount then "RTMAX"
    else "RTMAX-" ++ Text.ofNat (freeCount - 1 - index)
  ⟨34 + index, name, "Real-time signal " ++ Text.ofNat index, false⟩

/-- The signals in the order of their numbers. -/
def all : List Signal := standard ++ (List.range freeCount).map free

/-- The signal with a number or a name, in letters of any case. -/
def find? (word : Text) : Option Signal :=
  all.find? fun signal =>
    Text.ofNat signal.number == word || signal.name == word.map Char.toUpper

/-- The signal that ends a process that writes what nobody reads. -/
def brokenPipe : Signal := ⟨13, "PIPE", [], false⟩

/-- The signal that ends a process whose scripts are nested too deeply. -/
def badAccess : Signal := ⟨11, "SEGV", "Segmentation fault", false⟩

/-- The signal that no process can ignore. -/
def isFinal (signal : Signal) : Bool := signal.number == 9

/-- The signal after which a process goes on that has been stopped. -/
def goOn : Signal := ⟨18, "CONT", [], true⟩

/-- Whether a signal stops a process, which it cannot ignore. -/
def stops (signal : Signal) : Bool := signal.number == 19

/-- The status that stands for the end by a signal. -/
def status (signal : Signal) : Nat := 128 + signal.number

end Signal

end CompiledViews
