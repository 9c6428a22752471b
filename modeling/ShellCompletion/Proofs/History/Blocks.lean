import Mathlib.Data.List.DropRight
import ShellCompletion.Proofs.Bytes.Parts
import ShellCompletion.Proofs.History.Entries

namespace ShellCompletion

namespace History

def isHeader (line : Bytes) : Bool := line.head? = some '#'.toUInt8

/-- The command that lines spell: all of them, without empty ones before the first and line feeds after the last. -/
def commandOf (lines : List Bytes) : Bytes :=
  dropFinalLineFeeds (Bytes.join ['\n'.toUInt8] (lines.dropWhile (·.isEmpty)))

/-- The commands with a header: the lines up to the next one, with the time that it gives. -/
def stamped : List Bytes → List Run
  | [] => []
  | line :: rest =>
    if isHeader line then ⟨commandOf (rest.takeWhile (!isHeader ·)), headerTime line⟩ :: stamped rest else stamped rest

/-- The commands in the lines of a history file: each line before the first header, and those with a header. -/
def blocks (lines : List Bytes) : List Run := (lines.takeWhile (!isHeader ·)).map (⟨·, 0⟩) ++ stamped lines

/-- The command is more than blanks. -/
def Run.isCommand (run : Run) : Bool := !run.command.all Bytes.isBlank

/-- Records runs one after the other. -/
def Recording.recordAll (recording : Recording) (runs : List Run) : Recording :=
  runs.foldl (fun recording run => recording.record run.command run.time) recording

/-- The command of a header with one more line. -/
def extend (command line : Bytes) : Bytes := if command.isEmpty then line else command ++ '\n'.toUInt8 :: line

theorem foldl_extend {command : Bytes} (begun : command ≠ []) (lines : List Bytes) :
    lines.foldl extend command = command ++ (lines.map (['\n'.toUInt8] ++ ·)).flatten := by
  induction lines generalizing command with
  | nil => simp
  | cons line rest ih =>
    have longer : extend command line = command ++ '\n'.toUInt8 :: line := if_neg (by simpa using begun)
    rw [List.foldl_cons, longer, ih (by simp)]
    simp

theorem foldl_extend_nil (lines : List Bytes) :
    lines.foldl extend [] = Bytes.join ['\n'.toUInt8] (lines.dropWhile (·.isEmpty)) := by
  induction lines with
  | nil => rfl
  | cons line rest ih =>
    cases line with
    | nil => exact ih
    | cons c line =>
      rw [List.foldl_cons, show extend [] (c :: line) = c :: line from rfl, foldl_extend (List.cons_ne_nil c line),
        List.dropWhile_cons_of_neg (by simp), Bytes.join_cons]

theorem dropFinalLineFeeds_idem (command : Bytes) :
    dropFinalLineFeeds (dropFinalLineFeeds command) = dropFinalLineFeeds command :=
  List.rdropWhile_idempotent (· == '\n'.toUInt8) command

theorem record_lines (recording : Recording) (lines : List Bytes) (time : Int) :
    recording.record (lines.foldl extend []) time = recording.record (commandOf lines) time := by
  rw [foldl_extend_nil, Recording.record, Recording.record, commandOf, dropFinalLineFeeds_idem]

theorem step_header {line : Bytes} (header : isHeader line) (reading : FileReading) :
    reading.step line = ⟨reading.finish, some (headerTime line, [])⟩ := if_pos (by simpa [isHeader] using header)

theorem step_pending {line : Bytes} (plain : isHeader line = false) (recording : Recording) (time : Int)
    (command : Bytes) :
    FileReading.step ⟨recording, some (time, command)⟩ line = ⟨recording, some (time, extend command line)⟩ :=
  if_neg (by simpa [isHeader] using plain)

theorem step_bare {line : Bytes} (plain : isHeader line = false) (recording : Recording) :
    FileReading.step ⟨recording, none⟩ line = ⟨recording.record line 0, none⟩ :=
  if_neg (by simpa [isHeader] using plain)

/-- Behind a header the lines up to the next one go on with its command, and those after it are blocks again. -/
theorem finish_foldl_pending (recording : Recording) (time : Int) (command : Bytes) (lines : List Bytes) :
    (lines.foldl FileReading.step ⟨recording, some (time, command)⟩).finish =
      (recording.record ((lines.takeWhile (!isHeader ·)).foldl extend command) time).recordAll (stamped lines) := by
  induction lines generalizing recording time command with
  | nil => rfl
  | cons line rest ih =>
    rw [List.foldl_cons, stamped]
    by_cases header : isHeader line
    · -- The header closes the command that is open, and its own one has no line so far.
      rw [step_header header, ih, record_lines, if_pos header, List.takeWhile_cons_of_neg (by simpa using header)]
      rfl
    · have plain : isHeader line = false := by simpa using header
      rw [step_pending plain, ih, if_neg header, List.takeWhile_cons_of_pos (by simpa using plain), List.foldl_cons]

theorem finish_foldl (recording : Recording) (lines : List Bytes) :
    (lines.foldl FileReading.step ⟨recording, none⟩).finish = recording.recordAll (blocks lines) := by
  induction lines generalizing recording with
  | nil => rfl
  | cons line rest ih =>
    rw [List.foldl_cons, blocks, stamped]
    by_cases header : isHeader line
    · rw [step_header header, finish_foldl_pending, record_lines, if_pos header,
        List.takeWhile_cons_of_neg (by simpa using header)]
      rfl
    · have plain : isHeader line = false := by simpa using header
      rw [step_bare plain, ih, if_neg header, List.takeWhile_cons_of_pos (by simpa using plain)]
      rfl

variable {lines : List Bytes} {run : Run}

theorem mem_stamped (member : run ∈ stamped lines) :
    ∃ header spelled, run = ⟨commandOf spelled, headerTime header⟩ := by
  induction lines with
  | nil => simp [stamped] at member
  | cons line rest ih =>
    rw [stamped] at member
    split_ifs at member
    · rcases List.mem_cons.mp member with rfl | later
      · exact ⟨line, _, rfl⟩
      · exact ih later
    · exact ih member

theorem dropFinalLineFeeds_of_free {command : Bytes} (free : '\n'.toUInt8 ∉ command) :
    dropFinalLineFeeds command = command :=
  List.rdropWhile_eq_self_iff.mpr fun nonempty feed => free (by
    rw [← eq_of_beq feed]
    exact List.getLast_mem nonempty)

theorem mem_blocks (member : run ∈ blocks lines) :
    (∃ line ∈ lines, run = ⟨line, 0⟩) ∨ ∃ header spelled, run = ⟨commandOf spelled, headerTime header⟩ := by
  rcases List.mem_append.mp member with bare | later
  · obtain ⟨line, before, rfl⟩ := List.mem_map.mp bare
    exact .inl ⟨line, (List.takeWhile_sublist _).subset before, rfl⟩
  · exact .inr (mem_stamped later)

theorem closed_of_mem_blocks (free : ∀ line ∈ lines, '\n'.toUInt8 ∉ line) (member : run ∈ blocks lines) :
    dropFinalLineFeeds run.command = run.command := by
  rcases mem_blocks member with ⟨line, inside, rfl⟩ | ⟨header, spelled, rfl⟩
  · exact dropFinalLineFeeds_of_free (free line inside)
  · exact dropFinalLineFeeds_idem _

theorem headerTime_nonneg (header : Bytes) : 0 ≤ headerTime header := by
  unfold headerTime
  split
  · exact Int.le_refl 0
  · exact Int.le_max_left 0 _

theorem time_nonneg_of_mem_blocks (member : run ∈ blocks lines) : 0 ≤ run.time := by
  rcases mem_blocks member with ⟨line, _, rfl⟩ | ⟨header, spelled, rfl⟩
  · exact Int.le_refl 0
  · exact headerTime_nonneg header

/-- Commands that end in no line feed are added as they are, unless they are blank. -/
theorem entries_recordAll {recording : Recording} (agrees : recording.Agrees) {runs : List Run}
    (closed : ∀ run ∈ runs, dropFinalLineFeeds run.command = run.command) :
    (recording.recordAll runs).entries = addAll recording.entries (runs.filter Run.isCommand) := by
  induction runs generalizing recording with
  | nil => rfl
  | cons run rest ih =>
    obtain ⟨agrees', recorded⟩ := Recording.record_agrees agrees run.command run.time
    have later := ih agrees' fun other member => closed other (List.mem_cons_of_mem run member)
    rw [closed run List.mem_cons_self] at recorded
    rw [Recording.recordAll, List.foldl_cons, ← Recording.recordAll, later, recorded, List.filter_cons]
    by_cases blank : run.command.all Bytes.isBlank
    · rw [if_pos blank, if_neg (by simp [Run.isCommand, blank])]
    · rw [if_neg blank, if_pos (by simp [Run.isCommand, blank])]
      rfl

theorem lastUsed_nonneg {runs : List Run} (past : ∀ run ∈ runs, 0 ≤ run.time) (command : Bytes) :
    0 ≤ (entryFor runs command).lastUsed := by
  dsimp only [entryFor]
  cases latest : (timesOf runs command).max? with
  | none => exact Int.le_refl 0
  | some time =>
    obtain ⟨run, member, rfl⟩ := List.mem_map.mp (List.max?_mem latest)
    exact past run (List.mem_filter.mp member).1

/-- A history file has one entry for each command of its blocks that is more than blanks, in the order in which the
    commands occur first. The entry says how many blocks have the command and the latest of their times, which is
    never negative. These are the entries of a history to which the commands of the blocks are added one by one. -/
theorem ofFile_blocks (content : Bytes) :
    let runs := (blocks (Bytes.lines content)).filter Run.isCommand
    ofFile content = (runs.map Run.command).eraseDups.map (entryFor runs) ∧
      ofFile content = runs.foldl (fun entries run => add run.command run.time entries) [] ∧
      ∀ entry ∈ ofFile content, 0 ≤ entry.lastUsed := by
  intro runs
  have closed : ∀ run ∈ blocks (Bytes.lines content), dropFinalLineFeeds run.command = run.command :=
    fun run => closed_of_mem_blocks fun line => Bytes.not_mem_of_mem_lines
  have past : ∀ run ∈ runs, 0 ≤ run.time :=
    fun run member => time_nonneg_of_mem_blocks (List.mem_filter.mp member).1
  have added : ofFile content = addAll [] runs := by
    rw [ofFile, finish_foldl, entries_recordAll (fun _ => rfl) closed]
  have entries : ofFile content = (runs.map Run.command).eraseDups.map (entryFor runs) := added.trans (addAll_eq runs)
  refine ⟨entries, added, ?_⟩
  rw [entries]
  intro entry member
  obtain ⟨command, _, rfl⟩ := List.mem_map.mp member
  exact lastUsed_nonneg past command

/-- A command that stands before the first header and behind a later one, one behind an empty line, and one of two
    lines behind a header without a number. -/
theorem ofFile_blocks_repeated :
    let content := utf8 "ls\n \t\n#200\n\ngit log\n\n#100\nls\r\n# now\nfor i\n do\n\n"
    blocks (Bytes.lines content) = [⟨utf8 "ls", 0⟩, ⟨utf8 " \t", 0⟩, ⟨utf8 "git log", 200⟩, ⟨utf8 "ls", 100⟩,
        ⟨utf8 "for i\n do", 0⟩] ∧
      ofFile content = [⟨utf8 "ls", 2, 100⟩, ⟨utf8 "git log", 1, 200⟩, ⟨utf8 "for i\n do", 1, 0⟩] ∧
      ⟨utf8 "ls", 2, 100⟩ ∈ ofFile content ∧ (0 : Int) ≤ 100 := by
  intro content
  obtain ⟨entries, _, past⟩ := ofFile_blocks content
  have read : ofFile content = [⟨utf8 "ls", 2, 100⟩, ⟨utf8 "git log", 1, 200⟩, ⟨utf8 "for i\n do", 1, 0⟩] :=
    entries.trans (by decide +kernel)
  have member : ⟨utf8 "ls", 2, 100⟩ ∈ ofFile content := read ▸ List.mem_cons_self
  exact ⟨by decide +kernel, read, member, past _ member⟩

end History

end ShellCompletion
