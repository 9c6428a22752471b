import ShellCompletion.Candidate
import ShellCompletion.Line.Parse
import ShellCompletion.Matching
import ShellCompletion.Path.Basic

/-!
# Handlers

A handler completes the words of certain commands from what other commands print: process numbers,
accounts, branches and remotes, packages. What a handler asks for is a list of words to run, and the
answer is the lines that this prints; a command that fails prints none. The handlers are written for
any way of asking, so that a cache or a log can stand behind it.
-/
namespace ShellCompletion

inductive Handler where
  | processId
  | account
  | branch
  | package
deriving DecidableEq, Repr

namespace Handler

/-- The handlers in the order in which they are asked. -/
def all : List Handler := [processId, account, branch, package]

def name : Handler → String
  | processId => "process-id"
  | account => "account"
  | branch => "vcs-branch"
  | package => "package"

/-! ## Which handlers answer -/

/-- The words after the command, up to the token under the cursor and without it. -/
def wordsBefore (parsed : ParsedLine) : List Bytes :=
  let arguments := parsed.arguments.map Token.text
  let all := parsed.subcommandPath ++ arguments
  if !parsed.current.isEmpty && arguments.getLast? == some parsed.current then all.dropLast else all

/-- The token under the cursor is a plain word: neither a command, an option nor an option's value. -/
def completesWord (parsed : ParsedLine) : Bool :=
  (match parsed.context with
    | .subcommand | .argument .. => true
    | .command | .shortOption | .longOption | .optionValue .. => false) &&
  parsed.current.head? != some '-'.toUInt8

/-- A package manager is told to install. -/
def isInstall (command : Bytes) (words : List Bytes) (options : List Bytes) : Bool :=
  if command = utf8 "pacman" then options.contains (utf8 "-S")
  else (command == utf8 "apt" || command == utf8 "apt-get") && words.head? == some (utf8 "install")

def behindSudo (command : Bytes) (words : List Bytes) : Bytes × List Bytes :=
  match words with
  | [] => (command, [])
  | word :: rest => if command = utf8 "sudo" then (word, rest) else (command, words)

/-- The subcommands that deal with remotes. -/
def remoteActions : List Bytes := [utf8 "push", utf8 "pull", utf8 "fetch"]

/-- The subcommands that take a branch. -/
def branchActions : List Bytes :=
  [utf8 "checkout", utf8 "switch", utf8 "merge", utf8 "rebase"] ++ remoteActions

/-- The handler has something to say about the line. -/
def answers (handler : Handler) (parsed : ParsedLine) : Bool :=
  let words := wordsBefore parsed
  completesWord parsed && match handler with
    | processId => parsed.command == utf8 "kill"
    | account => parsed.command == utf8 "sudo" && words.isEmpty
    | branch => parsed.command == utf8 "git" && words.head?.any branchActions.contains
    | package =>
      let (command, words) := behindSudo parsed.command words
      isInstall command words parsed.options

/-! ## What they answer -/

/-- The lines of an output that are not blank, trimmed. -/
def outputLines (output : Bytes) : List Bytes :=
  ((Bytes.lines output).map Bytes.trim).filter (!·.isEmpty)

/-- The first word of a text, after white space, and what follows it. -/
def splitWord (text : Bytes) : Bytes × Bytes :=
  let text := text.dropWhile Bytes.isSpace
  (text.takeWhile (!Bytes.isSpace ·), text.dropWhile (!Bytes.isSpace ·))

/-- The candidate of a line of the process list: number, share of processor and memory, command. A
    token of digits starts the number, any other matches the name of the program. -/
def processCandidate? (settings : Settings) (token line : Bytes) : Option Candidate :=
  let (pid, rest) := splitWord line
  let (cpu, rest) := splitWord rest
  let (memory, rest) := splitWord rest
  let command := Bytes.trim rest
  if memory.isEmpty || !Bytes.allDigits pid then none
  else
    let wanted :=
      if token.isEmpty then true
      else if Bytes.allDigits token then token.isPrefixOf pid
      else settings.accepts (Path.baseName (Bytes.before ' '.toUInt8 command)) token
    if wanted then
      some (.of .process pid
        (some (command ++ utf8 " (cpu " ++ cpu ++ utf8 "%, mem " ++ memory ++ utf8 "%)")))
    else none

/-- The candidate of a line of the account list: the name before the first colon. -/
def accountCandidate? (settings : Settings) (token line : Bytes) : Option Candidate :=
  let name := Bytes.before ':'.toUInt8 line
  if !name.isEmpty && settings.accepts name token then
    some (.of .argument name (some (utf8 "user")))
  else none

/-- The name of a branch of a remote has the remote's in front; the remote's `HEAD` is no branch. -/
def isRemoteBranch (name : Bytes) : Bool :=
  name.contains '/'.toUInt8 && !Bytes.endsWith name (utf8 "/HEAD")

section
variable {m : Type → Type} [Monad m] (ask : List Bytes → m (List Bytes))

/-- The branches whose names start as given: the local ones, then those of remotes. -/
def branches (localStart remoteStart : Bytes) : m (List Candidate) := do
  let locals ← ask [utf8 "git", utf8 "branch", utf8 "--format=%(refname:short)", utf8 "--list",
    localStart ++ utf8 "*"]
  let remotes ← ask [utf8 "git", utf8 "branch", utf8 "-r", utf8 "--format=%(refname:short)",
    utf8 "--list", remoteStart ++ utf8 "*"]
  return (locals.map fun name => Candidate.of .argument name (some (utf8 "local branch"))) ++
    (remotes.filter isRemoteBranch).map fun name =>
      Candidate.of .argument name (some (utf8 "remote branch"))

/-- A branch as it is typed after a remote: with the remote in front if the token has it, and else
    without. -/
def asTyped (remoteStart : Bytes) (qualified : Bool) (candidate : Candidate) : Candidate :=
  let fromRemote := remoteStart.isPrefixOf candidate.text
  if qualified && !fromRemote then { candidate with text := remoteStart ++ candidate.text }
  else if !qualified && fromRemote then
    { candidate with text := candidate.text.drop remoteStart.length }
  else candidate

def distinctTexts (candidates : List Candidate) : List Candidate :=
  candidates.foldl (fun kept new => if kept.any (·.text = new.text) then kept else kept ++ [new]) []

/-- Branches for the first word after `checkout` and its like; for `push` and its like a remote, and
    after a remote its branches. -/
def branchCandidates (settings : Settings) (token : Bytes) (words : List Bytes) :
    m (List Candidate) :=
  match words with
  | [] => pure []
  | action :: rest =>
    if !remoteActions.contains action then
      if rest.isEmpty then branches ask token token else pure []
    else do
      let remotes ← ask [utf8 "git", utf8 "remote"]
      match rest with
      | [] =>
        return (remotes.filter (settings.accepts · token)).map fun remote =>
          Candidate.of .argument remote (some (utf8 "remote"))
      | [remote] =>
        if !remotes.contains remote then return []
        else
          let remoteStart := remote ++ utf8 "/"
          let qualified := remoteStart.isPrefixOf token
          let partialName := if qualified then token.drop remoteStart.length else token
          let found ← branches ask partialName (remoteStart ++ partialName)
          return distinctTexts (found.map (asTyped remoteStart qualified))
      | _ => return []

/-- What is run to find the packages whose names start with the token. -/
def packageQuery (manager token : Bytes) : List Bytes :=
  if manager = utf8 "pacman" then [utf8 "pacman", utf8 "-Ssq", '^'.toUInt8 :: token]
  else [utf8 "apt-cache", utf8 "pkgnames"] ++ if token.isEmpty then [] else [token]

def candidates (settings : Settings) (parsed : ParsedLine) (handler : Handler) :
    m (List Candidate) := do
  let token := parsed.current
  let words := wordsBefore parsed
  match handler with
  | processId =>
    let lines ← ask [utf8 "ps", utf8 "-xo", utf8 "pid,%cpu,%mem,command"]
    return (lines.drop 1).filterMap (processCandidate? settings token)
  | account =>
    let lines ← ask [utf8 "getent", utf8 "passwd"]
    return lines.filterMap (accountCandidate? settings token)
  | branch => branchCandidates ask settings token words
  | package =>
    let names ← ask (packageQuery (behindSudo parsed.command words).1 token)
    return (names.filter (settings.accepts · token)).map fun name =>
      Candidate.of .argument name (some (utf8 "package"))

end

end Handler

end ShellCompletion
