import ShellCompletion.Command.Perl.Calls

/-!
# Processes of Perl programs

How a program goes on in two processes, runs commands, waits for them and sends signals; and how it
sleeps, which signals interrupt.
-/
namespace ShellCompletion.Perl

namespace Running

/-- The processes that the program has started and that have not been waited for. -/
def children (machine : Machine) : List Process :=
  machine.processes.filter fun process => process.parent = machine.current

/-- Goes on in two processes. The new one meets signals like the old one. -/
def forkHere : Running Scalar := do
  let number ← divide
  if number = 0 then noteSignals
  return Scalar.ofNat number

/-- Notes how a process has ended. -/
def noteEnding (number : Nat) : Running Unit := do
  setShared "?" (Scalar.ofNat (← awaitStatus number))

/-- Waits for a process, or for any; it need not have ended if that is said. -/
def waitFor (go : Evaluator) (wanted : Option Nat) (patient : Bool) : Running Scalar := do
  let isMeant (process : Process) : Bool := wanted.all (· == process.number)
  let candidates (machine : Machine) : List Process := (children machine).filter isMeant
  let hasEnded (machine : Machine) : Bool :=
    (candidates machine).isEmpty || (candidates machine).any (·.ending.isSome)
  if patient then waitMeeting go hasEnded manyRounds
  match ← act (Act.look fun machine => (candidates machine, (candidates machine).find? (·.ending.isSome))) with
  | ([], _) =>
    setFault 10
    setShared "?" (.int (-1))
    return .int (-1)
  | (_, some process) =>
    noteEnding process.number
    return Scalar.ofNat process.number
  | (_, none) => return .int 0

def sendSignal (values : List Scalar) : Running Scalar := do
  let text ← textOf (values.headD .nothing)
  let bare := if text.head? = some '-'.toUInt8 then text.drop 1 else text
  match signalNumber? bare with
  | none => fail (utf8 "Unrecognized signal name \"" ++ text ++ utf8 "\"")
  | some signal =>
    let mut count : Nat := 0
    for value in values.drop 1 do
      let number := value.toInt
      let group := text.head? = some '-'.toUInt8 || number ≤ 0
      let self ← act Act.self
      let goal := if number = 0 then self else number.natAbs
      let goals ← if group then
          act (Act.look fun machine => machine.processes.filterMap fun process =>
            if process.number = goal || process.parent = goal then some process.number else none)
        else pure [goal]
      for goal in goals do
        if ← act (Act.send signal goal) then count := count + 1
    if count = 0 then setFault 3
    return Scalar.ofNat count

/-- Sleeps for some microseconds, unless a signal comes; says how long it was. -/
def sleepFor (go : Evaluator) (duration : Nat) : Running Nat := do
  let start ← act (Act.look (·.now))
  act (Act.waitAtMost duration hasPending)
  let passed := (← act (Act.look (·.now))) - start
  meetPending go
  return passed

/-- Asks for the signal of the clock after some microseconds; says how long the last wish had left. -/
def setAlarm (duration : Nat) : Running Nat := act (Act.access fun machine =>
  let old := ((machine.process? machine.current).bind (·.alarm)).map (· - machine.now)
  (old.getD 0, machine.update machine.current
    ({ · with alarm := if duration = 0 then none else some (machine.now + duration) })))

/-- Runs a command and waits for it; the result tells how it has ended. -/
def runCommand (words : List Bytes) : Running Scalar := do
  flushAll
  let call ← currentCall
  if !(← act (isRunnable call words)) then
    setFault 2
    setShared "?" (.int (-1))
    return .int (-1)
  let child ← act (Act.fork (become call words))
  let status ← awaitStatus child
  setShared "?" (Scalar.ofNat status)
  return Scalar.ofNat status

/-- Lets a command take the place of the program. -/
def takePlace (words : List Bytes) : Running Scalar := do
  flushAll
  let call ← currentCall
  if ← act (isRunnable call words) then
    let status ← act (become call words)
    throw (.abort status)
  else
    setFault 2
    return Scalar.ofBool false

/-- What a command prints. -/
def outputOf (text : Bytes) : Running (Option Bytes) := do
  flushAll
  let call ← currentCall
  if !(← act (isRunnable call [text])) then
    setFault 2
    setShared "?" (.int (-1))
    return none
  let (intake, outlet) ← act Act.openPipe
  let child ← act (Act.fork do
    Act.moveDescriptor outlet 1
    Act.close intake
    become call [text])
  act (Act.close outlet)
  let output ← act (Act.readAll intake)
  act (Act.close intake)
  noteEnding child
  return some (output.toOption.getD [])

end Running

end ShellCompletion.Perl
