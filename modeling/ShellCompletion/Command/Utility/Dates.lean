import ShellCompletion.Command.Calendar
import ShellCompletion.Command.Utility.Basic

/-!
# The time of day

The standard program that shows a moment: the present one, one that a text says, or the one at which a
file was changed.
-/
namespace ShellCompletion.Utility

def dateTable : OptionTable :=
  { flags := "uR", valued := "dfrs", optional := "I"
    long := [("utc", 'u'), ("universal", 'u'), ("date", 'd'), ("file", 'f'), ("reference", 'r'),
      ("set", 's'), ("rfc-email", 'R'), ("iso-8601", 'I')]
    longOnly := [("rfc-3339", .required), ("rfc-2822", .none), ("debug", .none), ("resolution", .none)] }

/-- The formats of dates that are read by programs, by the last unit that is shown. -/
def isoFormats (separator : String) : List (String × String) :=
  let start := "%Y-%m-%d" ++ separator
  [("date", "%Y-%m-%d"), ("hours", start ++ "%H%:z"), ("minutes", start ++ "%H:%M%:z"),
   ("seconds", start ++ "%H:%M:%S%:z"), ("ns", start ++ "%H:%M:%S,%N%:z")]

def zoneOf (environment : Environment) : Int × Bytes :=
  match environment.get? (utf8 "TZ") with
  | some text => Calendar.readZone text
  | none => (0, utf8 "UTC")

def date : Utility := fun call =>
  call.withOptions dateTable 1 fun given => do
    let fail (text : Bytes) : Act Nat := do
      call.complain text
      return 1
    let clock ← Act.look (·.clock)
    let (offset, zone) := if given.has 'u' then (0, utf8 "UTC") else zoneOf call.environment
    let now : Calendar.Moment :=
      { seconds := clock.fdiv 1000000, nanoseconds := ((clock.fmod 1000000) * 1000).toNat, offset, zone }
    let named (separator name : String) : Option String := (isoFormats separator).lookup name
    let wanted (separator : String) (text : Bytes) : Option Bytes :=
      let text := if text.isEmpty then utf8 "date" else text
      ((isoFormats separator).find? fun entry => text.isPrefixOf (utf8 entry.1)).map fun entry =>
        utf8 entry.2
    let known := [
      if given.has 'R' || given.hasNamed "rfc-2822" then some (some (utf8 "%a, %d %b %Y %H:%M:%S %z"))
        else none,
      (given.value? 'I').map (wanted "T"),
      (given.named? "rfc-3339").map fun text => (wanted " " text).map fun format =>
        if format = (named " " "ns").elim [] utf8 then utf8 "%Y-%m-%d %H:%M:%S.%N%:z" else format]
    let format := (known.filterMap id).head?
    match given.operands.find? fun word => word.head? ≠ some '+'.toUInt8 with
    | some word => fail (utf8 "invalid date " ++ quotedName word)
    | none =>
      match given.operands with
      | _ :: extra :: _ => call.misuse (utf8 "extra operand " ++ quotedName extra) 1
      | operands =>
        let usual := utf8 "%a %b %e %H:%M:%S %Z %Y"
        let format := match operands, format with
          | word :: _, _ => some (word.drop 1)
          | [], some format => format
          | [], none => some usual
        match format with
        | none => fail (utf8 "invalid argument")
        | some format =>
          match given.value? 'r', given.value? 'f', given.value? 'd' with
          | some name, _, _ =>
            match ← Act.look fun machine => (machine.files.locate call.directory name).bind fun place =>
                match machine.files.node? place with
                | some _ => .ok (machine.changedAt place)
                | none => .error FileCause.notFound with
            | .ok time =>
              call.print ({ now with
                seconds := time.fdiv 1000000
                nanoseconds := ((time.fmod 1000000) * 1000).toNat }.text format ++ [10])
            | .error cause => fail (name ++ utf8 ": " ++ utf8 cause.message)
          | none, some name, _ =>
            match ← call.contentOf name with
            | .error cause => fail (name ++ utf8 ": " ++ utf8 cause.message)
            | .ok text =>
              let mut status := 0
              for line in linesOf text do
                match Calendar.read now line with
                | some moment => let _ ← call.put (moment.text format ++ [10])
                | none =>
                  call.complain (utf8 "invalid date " ++ quotedName line)
                  status := 1
              return status
          | none, none, some text =>
            match Calendar.read now text with
            | some moment => call.print (moment.text format ++ [10])
            | none => fail (utf8 "invalid date " ++ quotedName text)
          | none, none, none => call.print (now.text format ++ [10])

/-- The utilities of this kind by name. -/
def dating : List (String × Utility) := [("date", date)]

end ShellCompletion.Utility
