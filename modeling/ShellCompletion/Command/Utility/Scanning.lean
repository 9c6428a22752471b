import ShellCompletion.Command.Awk.Execution

/-!
# Scanning records

The standard program that does for each record of its input what a program of patterns and actions says.
-/
namespace ShellCompletion.Utility

/-- How a scan is asked for. -/
structure Scan where
  /-- The files that hold the program. -/
  files : List Bytes := []
  separator : Option Bytes := none
  /-- The variables that are set before the program starts. -/
  assignments : List Bytes := []
  operands : List Bytes := []
  /-- Nothing is scanned, but something is told. -/
  tells : Option String := none

namespace Scan

/-- The words that may come after `-W`. -/
def words : List String :=
  ["compat", "traditional", "dump", "dump-code", "exec", "help", "interactive", "lint", "posix",
   "posix_space", "random", "repetitions", "sprintf", "usage", "version", "whiny_users"]

/-- Reads the options, or says which one is none. -/
def read : (fuel : Nat) → Scan → List Bytes → Except Bytes Scan
  | 0, scan, _ | _, scan, [] => .ok scan
  | fuel + 1, scan, word :: rest =>
    let word? (value : Bytes) (rest : List Bytes) : Except Bytes Scan :=
      let name := Bytes.before '='.toUInt8 value
      match words.filter fun known => name.isPrefixOf (utf8 known) with
      | [] => read fuel scan rest
      | known :: _ =>
        if known = "version" ∨ known = "help" ∨ known = "usage" then
          .ok { scan with tells := some known }
        else if known = "exec" then
          match rest with
          | file :: rest => .ok { scan with files := scan.files ++ [file], operands := rest }
          | [] => .ok scan
        else read fuel scan rest
    match word with
    | [45] => .ok { scan with operands := word :: rest }
    | [45, 45] => .ok { scan with operands := rest }
    | 45 :: 45 :: long => word? long rest
    | 45 :: letter :: more =>
      let isValued := (utf8 "fFvW").contains letter
      match isValued, more, rest with
      | false, _, _ => .error (utf8 "not an option: " ++ word)
      | true, [], [] => .error (utf8 "option " ++ word ++ utf8 " lacks argument")
      | true, more, rest =>
        let (value, rest) := if more.isEmpty then (rest.headD [], rest.drop 1) else (more, rest)
        if letter = 'f'.toUInt8 then read fuel { scan with files := scan.files ++ [value] } rest
        else if letter = 'F'.toUInt8 then read fuel { scan with separator := some value } rest
        else if letter = 'v'.toUInt8 then
          read fuel { scan with assignments := scan.assignments ++ [value] } rest
        else word? value rest
    | word => .ok { scan with operands := word :: rest }

end Scan

def scanStart (call : Call) (program : Awk.Program) (words : List Bytes) : Awk.Session :=
  let shared : List (String × Awk.Value) :=
    [("FS", .text [32]), ("OFS", .text [32]), ("ORS", .text [10]), ("RS", .text [10]),
     ("SUBSEP", .text [28]), ("NR", .number 0), ("FNR", .number 0), ("RSTART", .number 0),
     ("RLENGTH", .number (-1)), ("CONVFMT", .text (utf8 "%.6g")), ("OFMT", .text (utf8 "%.6g")),
     ("FILENAME", .text []), ("ARGC", .number (Float.ofNat words.length))]
  let argv : Awk.Table := words.zipIdx.foldl (fun table (word, index) =>
    table.set (.number index) (if index = 0 then .text word else .input word)) {}
  let environ : Awk.Table := call.environment.entries.foldl (fun table (name, value) =>
    table.set (.text name) (.input value)) {}
  { call, program
    shared := shared.foldl (fun shared (name, value) => shared.insert (utf8 name) value) {}
    arrays := ({} : Std.HashMap Bytes Nat).insert (utf8 "ARGV") 0 |>.insert (utf8 "ENVIRON") 1
    tables := ({} : Std.HashMap Nat Awk.Table).insert 0 argv |>.insert 1 environ
    nextTable := 2 }

/-- The texts of files, or the first one that cannot be read. -/
def programText (call : Call) : List Bytes → Act (Except (Bytes × FileCause) Bytes)
  | [] => return .ok []
  | name :: rest => do
    match ← call.contentOf name with
    | .error cause => return .error (name, cause)
    | .ok text => return (← programText call rest).map (text ++ 10 :: ·)

def awk : Utility := fun call => do
  let name := Path.fileName call.name
  let call := { call with name }
  match Scan.read (call.arguments.length + 1) {} call.arguments with
  | .error text =>
    call.complain text
    return 2
  | .ok scan =>
    match scan.tells with
    | some "version" => call.print (utf8 "mawk 1.3.4 20240123\n")
    | some _ => call.print (utf8 "Usage: mawk [Options] [Program] [file ...]\n")
    | none =>
      let (text, operands) := match scan.files, scan.operands with
        | [], text :: operands => (some text, operands)
        | [], [] => (none, [])
        | _, operands => (some [], operands)
      match text with
      | none =>
        let _ ← Act.write 2 (utf8 "Usage: mawk [Options] [Program] [file ...]\n")
        return 2
      | some text =>
        match ← programText call scan.files with
        | .error (file, cause) =>
          call.complain (utf8 "cannot open \"" ++ file ++ utf8 "\" (" ++ utf8 cause.message ++ utf8 ")")
          return 2
        | .ok more =>
          match Awk.read (text ++ more) with
          | .error fault =>
            call.complain fault.message
            return 2
          | .ok program =>
            let session := scanStart call program (name :: operands)
            let start : Awk.Running Unit := do
              if let some separator := scan.separator then
                Awk.Running.assign (.shared (utf8 "FS"))
                  (.text (Awk.Reading.unescape separator.length separator))
              for word in scan.assignments do
                let _ ← Awk.Running.assignText word
            let running : StateT Awk.Session Act Nat := do
              match ← ExceptT.run start with
              | .ok () => Awk.Running.run
              | .error _ => return 2
            let (status, _) ← running.run session
            return status

/-- The utilities of this kind by name. -/
def scanning : List (String × Utility) := [("mawk", awk)]

end ShellCompletion.Utility
