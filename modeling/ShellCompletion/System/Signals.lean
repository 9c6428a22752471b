import ShellCompletion.Candidate

/-!
# Signals

The signals of a POSIX system with their numbers. They are completed by their names, with or without
`SIG` in front and in any letter case, or by their numbers.
-/
namespace ShellCompletion

structure Signal where
  number : Nat
  /-- The name without `SIG`. -/
  shortName : String
  description : String
deriving DecidableEq, Repr

namespace Signal

def name (signal : Signal) : String := "SIG" ++ signal.shortName

/-- Every signal, by number. -/
def all : List Signal :=
  [⟨1, "HUP", "Hangup"⟩,
   ⟨2, "INT", "Interrupt"⟩,
   ⟨3, "QUIT", "Quit"⟩,
   ⟨4, "ILL", "Illegal instruction"⟩,
   ⟨5, "TRAP", "Trace/breakpoint trap"⟩,
   ⟨6, "ABRT", "Aborted"⟩,
   ⟨7, "BUS", "Bus error"⟩,
   ⟨8, "FPE", "Floating point exception"⟩,
   ⟨9, "KILL", "Killed"⟩,
   ⟨10, "USR1", "User defined signal 1"⟩,
   ⟨11, "SEGV", "Segmentation fault"⟩,
   ⟨12, "USR2", "User defined signal 2"⟩,
   ⟨13, "PIPE", "Broken pipe"⟩,
   ⟨14, "ALRM", "Alarm clock"⟩,
   ⟨15, "TERM", "Terminated"⟩,
   ⟨16, "STKFLT", "Stack fault"⟩,
   ⟨17, "CHLD", "Child exited"⟩,
   ⟨18, "CONT", "Continued"⟩,
   ⟨19, "STOP", "Stopped (signal)"⟩,
   ⟨20, "TSTP", "Stopped"⟩,
   ⟨21, "TTIN", "Stopped (tty input)"⟩,
   ⟨22, "TTOU", "Stopped (tty output)"⟩,
   ⟨23, "URG", "Urgent I/O condition"⟩,
   ⟨24, "XCPU", "CPU time limit exceeded"⟩,
   ⟨25, "XFSZ", "File size limit exceeded"⟩,
   ⟨26, "VTALRM", "Virtual timer expired"⟩,
   ⟨27, "PROF", "Profiling timer expired"⟩,
   ⟨28, "WINCH", "Window changed"⟩,
   ⟨29, "IO", "I/O possible"⟩,
   ⟨30, "PWR", "Power failure"⟩,
   ⟨31, "SYS", "Bad system call"⟩]

/-- The description that candidates carry, with the signal's number. -/
def label (signal : Signal) : Bytes :=
  utf8 signal.description ++ utf8 " (" ++ Bytes.decimal signal.number ++ utf8 ")"

/-- The form in which a signal is offered for a token: its number for digits, its full name for one
    that starts with `SIG`, and else its short name. -/
def form (token : Bytes) (signal : Signal) : Bytes :=
  if Bytes.allDigits token then Bytes.decimal signal.number
  else if (utf8 "SIG").isPrefixOf (Bytes.upper token) then utf8 signal.name
  else utf8 signal.shortName

/-- The signals whose form starts with the token. -/
def candidates (token : Bytes) : List Candidate :=
  (all.filter fun signal => (Bytes.upper token).isPrefixOf (signal.form token)).map fun signal =>
    .of .argument (signal.form token) (some signal.label)

end Signal

end ShellCompletion
