import ShellCompletion.Command.Action

/-!
# Schedules

Processes take turns. One goes on until it has to wait, and then the one that has waited longest and
can go on does. If none can, the time goes on to when the first of them wants to. A process that does
not come to wait is taken to use up the time until then.
-/
namespace ShellCompletion

/-- When a run of a machine is over. -/
structure Horizon where
  /-- In microseconds. -/
  time : Nat
  /-- More collected bytes than this are of no use. -/
  size : Nat

/-- A process and what it goes on to do. -/
abbrev Thread := Nat × Action

/-- How a run of a machine came to its end. -/
inductive Halt where
  /-- Nothing more is of interest. -/
  | finished
  /-- No process can ever go on. -/
  | idle
  /-- A process goes round in circles; it has collected something in its last turn, or not. -/
  | endless (productive : Bool)
deriving DecidableEq, Repr

namespace Machine

def isOver (machine : Machine) (horizon : Horizon) : Bool :=
  (machine.ended.isSome && machine.closed.isSome) || decide (horizon.time ≤ machine.now) ||
    decide (horizon.size < machine.size)

/-- The time at which the first process wants to go on. -/
def nextWake? (machine : Machine) : Option Nat :=
  (machine.processes.flatMap fun process =>
    let times := if process.stopped then process.alarm.toList else process.wake.toList ++ process.alarm.toList
    if process.ending.isNone then times.filter (machine.now < ·) else []).min?

def isReady (machine : Machine) (thread : Thread) : Bool :=
  machine.isActive thread.1 && match thread.2 with
    | .wait ready _ => ready { machine with current := thread.1 }
    | _ => true

/-- The first thread that can go on, and the others. -/
def takeReady (machine : Machine) (threads : List Thread) : Option (Thread × List Thread) :=
  match threads.findIdx? machine.isReady with
  | none => none
  | some index => (threads[index]?).map fun thread => (thread, threads.eraseIdx index)

/-- Goes on in time until a thread can go on: that one, the others, and the machine then. `fuel` bounds
    the times at which something wants to happen. -/
def awaken : (fuel : Nat) → Machine → List Thread → Option (Thread × List Thread) × Machine
  | 0, machine, _ => (none, machine)
  | fuel + 1, machine, threads =>
    let threads := threads.filter fun thread => machine.isAlive thread.1
    match machine.takeReady threads, machine.nextWake? with
    | some found, _ => (some found, machine)
    | none, none => (none, machine)
    | none, some now => awaken fuel (machine.advance now) threads

/-- How many steps a process takes in one turn. -/
def turnLength : Nat := 200000

/-- Lets a thread and others go on. `left` counts the steps of the thread's turn, and `size` is what
    had been collected at the start of it. `fuel` bounds all the steps. -/
def run (horizon : Horizon) : (fuel : Nat) → (left size : Nat) → Machine → (thread : Thread) →
    (others : List Thread) → Halt × Machine
  | 0, _, size, machine, _, _ => (.endless (size < machine.size), machine)
  | fuel + 1, left, size, machine, thread, others =>
    let (number, action) := thread
    if machine.isOver horizon then (.finished, machine)
    else if left = 0 then
      let machine := machine.advance (machine.nextWake?.getD machine.now)
      match machine.takeReady (others ++ [thread]) with
      | some (thread, others) => run horizon fuel turnLength machine.size machine thread others
      | none => (.idle, machine)
    else
      let switch (machine : Machine) (threads : List Thread) : Halt × Machine :=
        match awaken (2 * machine.processes.length + 2) machine threads with
        | (some (thread, others), machine) => run horizon fuel turnLength machine.size machine thread others
        | (none, machine) => (.idle, machine)
      let machine := { machine with current := number }
      if !machine.isActive number then switch machine (others ++ [thread])
      else match action with
        | .exit status => switch (machine.finish number (.exited (status % 256))) others
        | .act step =>
          let (next, machine) := step machine
          run horizon fuel (left - 1) size machine (number, next) others
        | .wait ready next =>
          if ready machine then run horizon fuel (left - 1) size machine (number, next) others
          else switch machine (others ++ [thread])
        | .fork child next =>
          let machine := machine.spawn
          let child : Thread := (machine.next - 1, child)
          run horizon fuel (left - 1) size machine (number, next child.1) (others ++ [child])

end Machine

end ShellCompletion
