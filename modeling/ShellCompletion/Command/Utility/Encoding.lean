import ShellCompletion.Command.Digest
import ShellCompletion.Command.Utility.Basic

/-!
# Utilities for digests and encodings

The standard programs that compute digests of files or check them, and those that spell bytes by a few
letters.
-/
namespace ShellCompletion.Utility

/-! ## Digests -/

/-- A kind of digest: its name in results, and how long it is spelled. -/
structure DigestKind where
  name : String
  length : Nat
  digest : Bytes → Bytes

/-- The digests by the programs that compute them. -/
def digestKinds : List (String × DigestKind) :=
  [("b2sum", ⟨"BLAKE2b", 128, Digest.blake⟩), ("md5sum", ⟨"MD5", 32, Digest.md5⟩), ("sha1sum", ⟨"SHA1", 40, Digest.sha1⟩),
   ("sha224sum", ⟨"SHA224", 56, Digest.sha224⟩), ("sha256sum", ⟨"SHA256", 64, Digest.sha256⟩),
   ("sha384sum", ⟨"SHA384", 96, Digest.sha384⟩), ("sha512sum", ⟨"SHA512", 128, Digest.sha512⟩)]

def readDigestLine (kind : DigestKind) (line : Bytes) : Option (Bytes × Bytes) :=
  let line := Bytes.dropReturn line
  let start := utf8 kind.name ++ utf8 " ("
  if start.isPrefixOf line then
    let rest := line.drop start.length
    let digest := (rest.reverse.takeWhile (· != 32)).reverse
    let name := rest.take (rest.length - digest.length - 4)
    if digest.length = kind.length && digest.all Bytes.isHex then some (Bytes.lower digest, name) else none
  else
    let line := line.dropWhile fun c => c == 32 || c == 9
    let escaped := line.head? = some 92
    let line := if escaped then line.drop 1 else line
    let digest := line.takeWhile Bytes.isHex
    match line.drop digest.length with
    | 32 :: mark :: name =>
      if digest.length = kind.length && (mark == 32 || mark == 42) && !name.isEmpty then
        some (Bytes.lower digest, name)
      else none
    | _ => none

/-- Checks the digests that the lines of a file say. -/
def checkDigests (call : Call) (given : Given) (kind : DigestKind) (name : Bytes) : Act Bool := do
  let shown := if name = utf8 "-" then utf8 "standard input" else name
  match ← call.contentOf name with
  | .error cause =>
    call.complainOf name cause
    return false
  | .ok text =>
    let quiet := given.hasNamed "status"
    let mut (found, wrong, unread, odd) : Nat × Nat × Nat × Nat := (0, 0, 0, 0)
    for line in linesOf text do
      match readDigestLine kind line with
      | none => if line.head? ≠ some '#'.toUInt8 then odd := odd + 1
      | some (digest, file) =>
        found := found + 1
        match ← call.contentOf file with
        | .error cause =>
          if !(given.hasNamed "ignore-missing" && cause == FileCause.notFound) then
            call.complainOf file cause
            unread := unread + 1
            if !quiet then let _ ← call.put (file ++ utf8 ": FAILED open or read\n")
        | .ok content =>
          if Digest.hex (kind.digest content) = digest then
            if !quiet && !given.hasNamed "quiet" then let _ ← call.put (file ++ utf8 ": OK\n")
          else
            wrong := wrong + 1
            if !quiet then let _ ← call.put (file ++ utf8 ": FAILED\n")
    let count (n : Nat) (one many : String) : Bytes :=
      utf8 "WARNING: " ++ Bytes.decimal n ++ utf8 (if n = 1 then one else many)
    if found = 0 then
      call.complain (shown ++ utf8 ": no properly formatted checksum lines found")
      return false
    let remarks : List (Nat × String × String) :=
      [(odd, " line is improperly formatted", " lines are improperly formatted"),
       (unread, " listed file could not be read", " listed files could not be read"),
       (wrong, " computed checksum did NOT match", " computed checksums did NOT match")]
    if !quiet then
      for (n, one, many) in remarks do
        if n ≠ 0 then call.complain (count n one many)
    return wrong = 0 && unread = 0 && !(given.hasNamed "strict" && odd ≠ 0)

def digestTable : OptionTable :=
  { flags := "bctzw"
    long := [("binary", 'b'), ("check", 'c'), ("text", 't'), ("zero", 'z'), ("warn", 'w')]
    longOnly := [("tag", .none), ("quiet", .none), ("status", .none), ("strict", .none),
      ("ignore-missing", .none)] }

def digestProgram (kind : DigestKind) : Utility := fun call =>
  call.withOptions digestTable 1 fun given => do
    let names := if given.operands.isEmpty then [utf8 "-"] else given.operands
    let mut fine := true
    for name in names do
      if given.has 'c' then
        if !(← checkDigests call given kind name) then fine := false
      else match ← call.contentOf name with
        | .error cause =>
          call.complainOf name cause
          fine := false
        | .ok content =>
          let digest := Digest.hex (kind.digest content)
          let isOdd := !given.has 'z' && name.any fun c => c == 10 || c == 92 || c == 13
          let shown := if !isOdd then name else name.flatMap fun c =>
            if c = 10 then utf8 "\\n" else if c = 92 then utf8 "\\\\"
            else if c = 13 then utf8 "\\r" else [c]
          let ending : Bytes := if given.has 'z' then [0] else [10]
          let mark := if isOdd then [92] else []
          let _ ← call.put (mark ++ if given.hasNamed "tag" then
              utf8 kind.name ++ utf8 " (" ++ shown ++ utf8 ") = " ++ digest ++ ending
            else digest ++ (if given.has 'b' then utf8 " *" else utf8 "  ") ++ shown ++ ending)
    return if fine then 0 else 1

def forContents (call : Call) (names : List Bytes) (show_ : Bytes → Bytes → Bytes) : Act Nat := do
  let mut status := 0
  for name in if names.isEmpty then [[]] else names do
    match ← call.contentOf (if name.isEmpty then utf8 "-" else name) with
    | .error cause =>
      call.complainOf name cause
      status := 1
    | .ok content => let _ ← call.put (show_ name content)
  return status

def cksum : Utility := fun call =>
  let table := { digestTable with valued := "a", long := digestTable.long ++ [("algorithm", 'a')]
                                  longOnly := digestTable.longOnly ++ [("untagged", .none)] }
  call.withOptions table 1 fun given => do
    let named := (given.value? 'a').bind fun name =>
      (digestKinds.find? fun entry => utf8 entry.1 == name ++ utf8 "sum").map Prod.snd
    match given.value? 'a', named with
    | some _, some kind =>
      let tagged := if given.hasNamed "untagged" then [] else [utf8 "--tag"]
      digestProgram kind { call with arguments := tagged ++ utf8 "--" :: given.operands }
    | _, _ =>
      forContents call given.operands fun name content =>
        Bytes.decimal (Digest.crc content).toNat ++ [32] ++ Bytes.decimal content.length ++
          (if name.isEmpty then [] else 32 :: name) ++ [10]

/-- A number with digits before it. -/
def leftFilled (fill : UInt8) (width n : Nat) : Bytes :=
  let digits := Bytes.decimal n
  List.replicate (width - digits.length) fill ++ digits

def sum : Utility := fun call =>
  call.withOptions { flags := "rs", long := [("sysv", 's')] } 1 fun given =>
    forContents call given.operands fun name content =>
      let ending := (if name.isEmpty then [] else 32 :: name) ++ [10]
      if given.lastOf? "rs" = some 's' then
        Bytes.decimal (Digest.folded content) ++ [32] ++ Bytes.decimal ((content.length + 511) / 512) ++
          ending
      else
        leftFilled 48 5 (Digest.rotating content) ++ [32] ++
          leftFilled 32 5 ((content.length + 1023) / 1024) ++ ending

/-! ## Encodings -/

/-- An encoding that spells a group of bytes by letters. -/
structure Encoding where
  letters : Bytes
  /-- How many bits a letter stands for, and how many bytes and letters make a group. -/
  bits : Nat
  bytes : Nat
  count : Nat

def base64 : Encoding :=
  ⟨utf8 "ABCDEFGHIJKLMNOPQRSTUVWXYZabcdefghijklmnopqrstuvwxyz0123456789+/", 6, 3, 4⟩

def base64Url : Encoding :=
  ⟨utf8 "ABCDEFGHIJKLMNOPQRSTUVWXYZabcdefghijklmnopqrstuvwxyz0123456789-_", 6, 3, 4⟩

def base32 : Encoding := ⟨utf8 "ABCDEFGHIJKLMNOPQRSTUVWXYZ234567", 5, 5, 8⟩

def base16 : Encoding := ⟨utf8 "0123456789ABCDEF", 4, 1, 2⟩

namespace Encoding

def encodeGroup (encoding : Encoding) (group : Bytes) : Bytes :=
  let size := 1 <<< encoding.bits
  let padded := group ++ List.replicate (encoding.bytes - group.length) 0
  let value := padded.foldl (fun n c => 256 * n + c.toNat) 0
  let used := (8 * group.length + encoding.bits - 1) / encoding.bits
  (List.range encoding.count).map fun k =>
    if used ≤ k then 61
    else encoding.letters.getD (value >>> (encoding.bits * (encoding.count - 1 - k)) % size) 0

def encode (encoding : Encoding) (text : Bytes) : Bytes :=
  (Digest.blocks encoding.bytes text.length text).flatMap encoding.encodeGroup

/-- The bytes of letters, and whether all of them are right. -/
def decode (encoding : Encoding) (text : Bytes) : Bytes × Bool :=
  (Digest.blocks encoding.count text.length text).foldl (fun (bytes, fine) group =>
    if !fine then (bytes, false)
    else
      let letters := group.takeWhile (· != 61)
      let marks := group.drop letters.length
      let values := letters.map fun c => encoding.letters.idxOf c
      let known := values.takeWhile (· < encoding.letters.length)
      let size := 1 <<< encoding.bits
      let value := (known ++ List.replicate (encoding.count - known.length) 0).foldl
        (fun n digit => size * n + digit) 0
      let whole := Digest.bigBytes encoding.bytes value
      let used := encoding.bits * known.length / 8
      let good := known.length == letters.length && marks.all (· == 61) &&
        group.length == encoding.count && used != 0
      (bytes ++ whole.take used, good)) (([] : Bytes), true)

end Encoding

def encodingProgram (encoding : Encoding) : Utility := fun call =>
  let table : OptionTable :=
    { flags := "di", valued := "w"
      long := [("decode", 'd'), ("ignore-garbage", 'i'), ("wrap", 'w')] }
  call.withOptions table 1 fun given => do
    match given.operands with
    | _ :: extra :: _ => call.misuse (utf8 "extra operand " ++ quotedName extra) 1
    | names =>
      let name := names.headD (utf8 "-")
      match ← call.contentOf name with
      | .error cause =>
        call.complainOf name cause
        return 1
      | .ok content =>
        if given.has 'd' then
          let letters := content.filter fun c =>
            if given.has 'i' then encoding.letters.contains c || c == 61 else c != 10
          let (bytes, fine) := encoding.decode letters
          let status ← call.print bytes
          if fine then return status
          else
            call.complain (utf8 "invalid input")
            return 1
        else
          let width := (given.number? 'w').getD 76
          if given.has 'w' && (given.number? 'w').isNone then
            call.complain (utf8 "invalid wrap size: " ++ quotedName ((given.value? 'w').getD []))
            return 1
          else
            let text := encoding.encode content
            call.print (if width = 0 then text else textOfLines (Digest.blocks width text.length text))

def basenc : Utility := fun call =>
  let kinds : List (String × Encoding) :=
    [("--base64", base64), ("--base64url", base64Url), ("--base32", base32), ("--base16", base16)]
  let isKind (word : Bytes) : Bool := kinds.any fun entry => utf8 entry.1 == word
  match (call.arguments.filter isKind).getLast? with
  | none => call.misuse (utf8 "missing encoding type") 1
  | some word =>
    let encoding := ((kinds.find? fun entry => utf8 entry.1 == word).map Prod.snd).getD base64
    encodingProgram encoding { call with arguments := call.arguments.filter (!isKind ·) }

/-- The utilities of this kind by name. -/
def encoding : List (String × Utility) :=
  [("base32", encodingProgram base32), ("base64", encodingProgram base64), ("basenc", basenc),
   ("cksum", cksum), ("sum", sum)] ++
    digestKinds.map fun entry => (entry.1, digestProgram entry.2)

end ShellCompletion.Utility
