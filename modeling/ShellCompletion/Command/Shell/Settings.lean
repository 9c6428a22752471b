import ShellCompletion.Command.Shell.Arrays
import ShellCompletion.Command.Shell.Builtin

/-!
# Settings of the extended language

The options of a shell. Some have a letter; all have a name, by which they are turned on and off with one
of two commands.
-/
namespace ShellCompletion.Builtin

open Shell

/-- The options of the first command, with the letters of those that have one. -/
def namedOptions : List (String × Option Char) :=
  [("allexport", some 'a'), ("braceexpand", some 'B'), ("emacs", none), ("errexit", some 'e'),
   ("errtrace", some 'E'), ("functrace", some 'T'), ("hashall", some 'h'), ("histexpand", some 'H'),
   ("history", none), ("ignoreeof", none), ("interactive-comments", none), ("keyword", some 'k'),
   ("monitor", some 'm'), ("noclobber", some 'C'), ("noexec", some 'n'), ("noglob", some 'f'),
   ("nolog", none), ("notify", some 'b'), ("nounset", some 'u'), ("onecmd", some 't'),
   ("physical", some 'P'), ("pipefail", none), ("posix", none), ("privileged", some 'p'),
   ("verbose", some 'v'), ("vi", none), ("xtrace", some 'x')]

/-- The options of the second command, each with whether it is on at the start. -/
def otherOptions : List (String × Bool) :=
  [("autocd", false), ("assoc_expand_once", false), ("cdable_vars", false), ("cdspell", false),
   ("checkhash", false), ("checkjobs", false), ("checkwinsize", true), ("cmdhist", true),
   ("compat31", false), ("compat32", false), ("compat40", false), ("compat41", false),
   ("compat42", false), ("compat43", false), ("compat44", false), ("complete_fullquote", true),
   ("direxpand", false), ("dirspell", false), ("dotglob", false), ("execfail", false),
   ("expand_aliases", false), ("extdebug", false), ("extglob", false), ("extquote", true),
   ("failglob", false), ("force_fignore", true), ("globasciiranges", true), ("globskipdots", true),
   ("globstar", false), ("gnu_errfmt", false), ("histappend", false), ("histreedit", false),
   ("histverify", false), ("hostcomplete", true), ("huponexit", false), ("inherit_errexit", false),
   ("interactive_comments", true), ("lastpipe", false), ("lithist", false),
   ("localvar_inherit", false), ("localvar_unset", false), ("login_shell", false),
   ("mailwarn", false), ("no_empty_cmd_completion", false), ("nocaseglob", false),
   ("nocasematch", false), ("noexpand_translation", false), ("nullglob", false),
   ("patsub_replacement", true), ("progcomp", true), ("progcomp_alias", false), ("promptvars", true),
   ("restricted_shell", false), ("shift_verbose", false), ("sourcepath", true),
   ("varredir_close", false), ("xpg_echo", false)]

/-- The names of the options without letters that are on at the start. -/
def startSettings : List Bytes :=
  utf8 "interactive-comments" :: ((otherOptions.filter Prod.snd).map fun entry => utf8 entry.1)

def isOn (shell : Shell) (entry : String × Option Char) : Bool :=
  match entry.2 with
  | some letter => shell.hasOption letter
  | none => shell.hasSetting entry.1

/-- Puts the names of the options that are on into variables. -/
def noteSettings : Step Unit := modify fun shell =>
  let listed (names : List String) : Option Bytes := some (Bytes.join (utf8 ":") (names.map utf8))
  let first := (namedOptions.filter (isOn shell)).map Prod.fst
  let second := (otherOptions.map Prod.fst).filter shell.hasSetting
  let put (shell : Shell) (name : String) (names : List String) : Shell :=
    let exported := ((shell.binding? (utf8 name)).map (·.exported)).getD false
    shell.store { name := utf8 name, value := listed names, fixed := true, exported }
  put (put shell "SHELLOPTS" first) "BASHOPTS" second

/-- Turns an option without a letter on or off. -/
def putSetting (name : Bytes) (on : Bool) : Step Unit := do
  modify fun shell =>
    let others := shell.settings.filter (· != name)
    { shell with settings := if on then name :: others else others }
  noteSettings

def putLetter (letter : UInt8) (on : Bool) : Step Unit := do
  modify fun shell =>
    let others := shell.options.filter (· != letter)
    { shell with options := if on then letter :: others else others }
  noteSettings

/-- A name in a column, and whether its option is on. -/
def settingLine (name : String) (on : Bool) : Bytes :=
  line [Format.pad { left := true, width := 15 } [] (utf8 name) false, utf8 "\t",
    utf8 (if on then "on" else "off")]

/-- Turns an option on or off by its name; without one, all are shown. -/
def nameOption (name : Option Bytes) (on : Bool) : Step Unit := do
  let shell ← get
  match name with
  | none =>
    let spelled (entry : String × Option Char) : Bytes :=
      if on then settingLine entry.1 (isOn shell entry)
      else line [utf8 (if isOn shell entry then "set -o " else "set +o "), utf8 entry.1]
    let _ ← print (namedOptions.flatMap spelled)
  | some name =>
    match namedOptions.find? (utf8 ·.1 = name) with
    | some (_, some letter) => putLetter letter.toUInt8 on
    | some (known, none) => putSetting (utf8 known) on
    | none => refuse 2 (name ++ utf8 ": invalid option name")

/-- Sets options by their letters; the arguments after them come back, if they become the arguments of
    the script. -/
def readLetters : (fuel : Nat) → List Bytes → Step (Option (List Bytes))
  | 0, _ | _, [] => return none
  | fuel + 1, word :: rest => do
    match word with
    | [45, 45] => return some rest
    | [45] =>
      putLetter 'x'.toUInt8 false
      putLetter 'v'.toUInt8 false
      return if rest.isEmpty then none else some rest
    | c :: letters =>
      let on := c == '-'.toUInt8
      if (!on && c != '+'.toUInt8) || letters.isEmpty then return some (word :: rest)
      let rest ← letters.foldlM (fun (rest : List Bytes) letter => do
        if letter = 'o'.toUInt8 then
          nameOption rest.head? on
          return rest.drop 1
        else if (utf8 "abefhkmnptuvxBCEHPT").contains letter then
          putLetter letter on
          return rest
        else misuse [] (c :: letter :: utf8 ": invalid option")) rest
      readLetters fuel rest
    | [] => return some (word :: rest)

/-- The variables by name, each with its value. -/
def listing (shell : Shell) : Bytes :=
  let isShown (entry : Variable) : Bool := entry.value.isSome
  ((shell.bindings.filter isShown).mergeSort fun a b => Bytes.le a.name b.name).flatMap fun entry =>
    line [entry.name, valueText Quoted.listed entry]

def setExtended (arguments : List Bytes) : Step Nat := do
  if arguments.isEmpty then print (listing (← get))
  else
    match ← readLetters (arguments.length + 1) arguments with
    | some arguments => modify ({ · with arguments, optionOffset := 0 })
    | none => pure ()
    return 0

/-- Turns options on and off, or shows them. -/
def shopt (arguments : List Bytes) : Step Nat := do
  let (letters, names) ← options "supqo" "" arguments
  let has (letter : Char) : Bool := hasLetter letters letter
  let shell ← get
  let known : List (Bytes × Bool) :=
    if has 'o' then namedOptions.map fun entry => (utf8 entry.1, isOn shell entry)
    else otherOptions.map fun entry => (utf8 entry.1, shell.hasSetting entry.1)
  let shown (entry : Bytes × Bool) : Bytes :=
    if has 'p' then
      if has 'o' then line [utf8 (if entry.2 then "set -o " else "set +o "), entry.1]
      else line [utf8 (if entry.2 then "shopt -s " else "shopt -u "), entry.1]
    else line [Format.pad { left := true, width := 15 } [] entry.1 false, utf8 "\t",
      utf8 (if entry.2 then "on" else "off")]
  if has 's' && has 'u' then refuse 1 (utf8 "cannot set and unset shell options simultaneously")
  if names.isEmpty then
    let wanted := known.filter fun entry =>
      if has 's' then entry.2 else if has 'u' then !entry.2 else true
    if has 'q' then return 0 else print (wanted.flatMap shown)
  else
    let mut status := 0
    for name in names do
      match known.find? (·.1 = name) with
      | none =>
        complain (name ++ utf8 (if has 'o' then ": invalid option name" else ": invalid shell option name"))
        status := 1
      | some entry =>
        if has 's' || has 'u' then
          if has 'o' then nameOption (some name) (has 's') else putSetting name (has 's')
        else
          if !entry.2 then status := 1
          if !has 'q' then let _ ← print (shown entry)
    return status

end ShellCompletion.Builtin
