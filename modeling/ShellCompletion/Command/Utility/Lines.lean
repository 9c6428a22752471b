import ShellCompletion.Command.Utility.Basic

/-!
# Lines as they come

A text that is read line by line from a descriptor, and a text that is written in blocks. No more is
read than is asked for, but for the rest of the block that a line stands in.
-/
namespace ShellCompletion

/-- A text that is read at a descriptor. -/
structure Inlet where
  descriptor : Nat
  /-- What has been read and not yet been taken. -/
  buffered : Bytes := []
  /-- There is nothing more to be read. -/
  ended : Bool := false
deriving Repr

namespace Inlet

/-- Reads one more block. -/
def refill (inlet : Inlet) : Act (Except FileCause Inlet) := do
  match ← Act.read inlet.descriptor Act.portion with
  | .error cause => return .error cause
  | .ok [] => return .ok { inlet with ended := true }
  | .ok bytes => return .ok { inlet with buffered := inlet.buffered ++ bytes }

/-- Reads until something is there to be taken, or the end. -/
def peek (inlet : Inlet) : Act (Except FileCause Inlet) :=
  if inlet.ended || !inlet.buffered.isEmpty then return .ok inlet else inlet.refill

/-- The text has come to its end. -/
def isEmpty (inlet : Inlet) : Bool := inlet.ended && inlet.buffered.isEmpty

/-- Takes a line, and whether the byte that ends lines stood after it; none at the end. `fuel` bounds
    the blocks, and `start` is what of the line has been read already, block by block, from the last
    one. -/
def takeLine (ending : UInt8) : (fuel : Nat) → (start : List Bytes) → Inlet →
    Act (Except FileCause (Option (Bytes × Bool) × Inlet))
  | 0, _, _ => Act.hang
  | fuel + 1, start, inlet => do
    let line := inlet.buffered.takeWhile (· != ending)
    match inlet.buffered.drop line.length with
    | _ :: rest =>
      return .ok (some ((line :: start).reverse.flatten, true), { inlet with buffered := rest })
    | [] =>
      let start := if line.isEmpty then start else line :: start
      if inlet.ended then
        let found := if start.isEmpty then none else some (start.reverse.flatten, false)
        return .ok (found, { inlet with buffered := [] })
      else match ← ({ inlet with buffered := [] } : Inlet).refill with
        | .error cause => return .error cause
        | .ok inlet => takeLine ending fuel start inlet

def nextLine (inlet : Inlet) (ending : UInt8 := 10) :
    Act (Except FileCause (Option (Bytes × Bool) × Inlet)) :=
  takeLine ending Act.maxText [] inlet

end Inlet

/-- A text that is written at a descriptor. -/
structure Outlet where
  descriptor : Nat
  /-- What is still to be written, the last first, and how much that is. -/
  waiting : List Bytes := []
  size : Nat := 0
deriving Repr

namespace Outlet

/-- How much is written at once. -/
def block : Nat := 4096

/-- Writes what waits; says whether that could be done. -/
def flush (outlet : Outlet) : Act (Outlet × Bool) := do
  let emptied := { outlet with waiting := [], size := 0 }
  if outlet.waiting.isEmpty then return (emptied, true)
  else match ← Act.write outlet.descriptor outlet.waiting.reverse.flatten with
    | .ok () => return (emptied, true)
    | .error _ => return (emptied, false)

/-- Writes a text, or lets it wait until there is enough for a block. -/
def put (outlet : Outlet) (text : Bytes) : Act (Outlet × Bool) := do
  let outlet := { outlet with waiting := text :: outlet.waiting, size := outlet.size + text.length }
  if outlet.size < block then return (outlet, true) else outlet.flush

end Outlet

end ShellCompletion
