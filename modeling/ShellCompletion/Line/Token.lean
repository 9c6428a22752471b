import ShellCompletion.Quoting

/-!
# Tokens

A line falls into tokens at the blanks that stand unquoted. Quotes and backslashes stay in a
token's text, and a quote that is never closed runs to the end of the line.
-/
namespace ShellCompletion

/-- A word of a line: its bytes as typed, and the offsets of its first byte and of the byte after
    its last one. -/
structure Token where
  text : Bytes
  start : Nat
  stop : Nat
deriving DecidableEq, Repr

namespace Token

/-- A token being read: where it started, and its bytes so far, the last one first. -/
structure Pending where
  start : Nat
  reversed : Bytes

/-- The token is complete at the offset `stop`. -/
def Pending.close (pending : Pending) (stop : Nat) : Token :=
  ⟨pending.reversed.reverse, pending.start, stop⟩

/-- Takes the byte at `offset` into the token being read, or starts one with it. -/
def Pending.push (pending : Option Pending) (offset : Nat) (c : UInt8) : Pending :=
  match pending with
  | none => ⟨offset, [c]⟩
  | some pending => ⟨pending.start, c :: pending.reversed⟩

/-- The tokens of the rest of a line, read from its byte at `offset` in the state `q`. -/
def scan (q : Quoting) (offset : Nat) (pending : Option Pending) : Bytes → List Token
  | [] => (pending.map (·.close offset)).toList
  | c :: rest =>
    if (q.feed c).1 = .plain ∧ Bytes.isBlank c then
      (pending.map (·.close offset)).toList ++ scan (q.feed c).2 (offset + 1) none rest
    else
      scan (q.feed c).2 (offset + 1) (some (Pending.push pending offset c)) rest

end Token

/-- The tokens of a line, from left to right. -/
def tokenize (line : Bytes) : List Token := Token.scan .bare 0 none line

def words (line : Bytes) : List Bytes := (tokenize line).map Token.text

end ShellCompletion
