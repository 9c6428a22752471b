import ShellCompletion.Candidate
import ShellCompletion.Matching
import ShellCompletion.Word64

/-!
# Accounts

Users and groups as the account files list them: a line for each, with fields between colons, of
which the first is the name and the third the number.
-/
namespace ShellCompletion

structure User where
  name : Bytes
  uid : UInt32
  /-- The first part of the comment field. -/
  fullName : Bytes
deriving DecidableEq, Repr

structure Group where
  name : Bytes
  gid : UInt32
deriving DecidableEq, Repr

namespace Account

/-- The number that a text of digits and nothing else denotes; one that does not fit 64 bits counts
    as the largest one that does. -/
def number? (text : Bytes) : Option Nat :=
  if Bytes.allDigits text then some (min (Bytes.digitsValue text) Word64.maxUnsigned) else none

/-- The name, the number and the fields of an account line. A comment, a line with too few fields, an
    empty name and a third field that is no number make no account. -/
def line? (line : Bytes) : Option (Bytes × Nat × List Bytes) :=
  if line.isEmpty || line.head? == some '#'.toUInt8 then none
  else
    match Bytes.fields ':'.toUInt8 line with
    | name :: second :: number :: rest =>
      if name.isEmpty then none
      else (number? number).map fun n => (name, n, name :: second :: number :: rest)
    | _ => none

end Account

/-- The users of an account file. Of a number the lower 32 bits count. -/
def usersOf (content : Bytes) : List User :=
  (Bytes.lines content).filterMap fun line =>
    (Account.line? line).map fun (name, number, fields) =>
      { name, uid := UInt32.ofNat number
        fullName := Bytes.before ','.toUInt8 ((fields[4]?).getD []) }

/-- The groups of an account file. Of a number the lower 32 bits count. -/
def groupsOf (content : Bytes) : List Group :=
  (Bytes.lines content).filterMap fun line =>
    (Account.line? line).map fun (name, number, _) => { name, gid := UInt32.ofNat number }

/-- Numbers below this one belong to the system's own users. -/
def firstUserId : UInt32 := 1000

/-- The users whose names start with the token, in either letter case. The system's own are left out
    unless they are asked for, but `root` never is. -/
def userCandidates (includeSystem : Bool) (token : Bytes) (users : List User) : List Candidate :=
  (users.filter fun user =>
    (includeSystem || firstUserId ≤ user.uid || user.name == utf8 "root") &&
      startsWithAnyCase user.name token).map fun user =>
    .of .argument user.name (if user.fullName.isEmpty then none else some user.fullName)

/-- The groups whose names start with the token, in either letter case. -/
def groupCandidates (token : Bytes) (groups : List Group) : List Candidate :=
  (groups.filter fun group => startsWithAnyCase group.name token).map fun group =>
    .of .argument group.name (some (utf8 "GID: " ++ Bytes.decimal group.gid.toNat))

end ShellCompletion
