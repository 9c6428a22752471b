import ShellCompletion.Bytes

/-!
# Runs of commands

What can be seen of a command that runs: what it writes and when, when its output is closed, and when
and how it ends. A run has limits of time and of output, and gives the output of a command that keeps
them and ends well.
-/
namespace ShellCompletion

/-- What a command does, with times in milliseconds after its start. -/
structure Trace where
  writes : List (Nat × Bytes)
  /-- When nothing holds the output any longer, if that comes. -/
  closed : Option Nat
  /-- When the command ends, if it does, and its exit code. -/
  ended : Option (Nat × Nat)
deriving DecidableEq, Repr

/-- The limits of a run. -/
structure RunLimits where
  /-- In milliseconds. -/
  timeout : Int
  maxOutput : Nat := 2 * 1024 * 1024
  /-- Nobody waits for the output any longer. -/
  cancelled : Bool := false
deriving DecidableEq, Repr

/-- Why a run gives no output. -/
inductive RunFault where
  | emptyCommand
  | cancelled
  | timedOut (timeout : Int)
  | tooMuchOutput
  /-- The output was closed, but the command did not end. -/
  | stillRunning
  | failed (exitCode : Nat)
deriving DecidableEq, Repr

/-- What is said about the command of that label. -/
def RunFault.message (label : Bytes) : RunFault → Bytes
  | emptyCommand => utf8 "empty command"
  | cancelled => utf8 "'" ++ label ++ utf8 "' cancelled"
  | timedOut timeout =>
    utf8 "'" ++ label ++ utf8 "' timed out after " ++ Bytes.decimalInt timeout ++ utf8 " ms"
  | tooMuchOutput => utf8 "'" ++ label ++ utf8 "' produced too much output"
  | stillRunning => utf8 "'" ++ label ++ utf8 "' did not exit in time"
  | failed exitCode =>
    utf8 "'" ++ label ++ utf8 "' failed with exit code " ++ Bytes.decimal exitCode

namespace Trace

/-- The trace of a command that ends at once without output. -/
def exited (exitCode : Nat) : Trace := ⟨[], some 0, some (0, exitCode)⟩

def outputWithin (trace : Trace) (timeout : Int) : Bytes :=
  (trace.writes.filter fun write => (write.1 : Int) < timeout).flatMap Prod.snd

def outcome (trace : Trace) (limits : RunLimits) : Except RunFault Bytes :=
  let inTime (time : Nat) : Bool := (time : Int) < limits.timeout
  let output := trace.outputWithin limits.timeout
  if limits.cancelled then .error .cancelled
  else if limits.timeout ≤ 0 then .error (.timedOut limits.timeout)
  else if limits.maxOutput < output.length then .error .tooMuchOutput
  else if !trace.closed.any inTime then .error (.timedOut limits.timeout)
  else match trace.ended with
    | none => .error .stillRunning
    | some (time, exitCode) =>
      if !inTime time then .error .stillRunning
      else if exitCode = 0 then .ok output
      else .error (.failed exitCode)

end Trace

end ShellCompletion
