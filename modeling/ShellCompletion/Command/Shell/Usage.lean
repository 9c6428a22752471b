import ShellCompletion.Bytes

/-!
# How builtin commands are used

The arguments that the builtin commands of the extended language take, as they are shown when a command
is used otherwise.
-/
namespace ShellCompletion.Builtin

/-- The commands with their arguments. -/
def usages : List (String × String) :=
  [(".", ". filename [arguments]"),
   (":", ":"),
   ("[", "[ arg... ]"),
   ("alias", "alias [-p] [name[=value] ... ]"),
   ("bg", "bg [job_spec ...]"),
   ("break", "break [n]"),
   ("builtin", "builtin [shell-builtin [arg ...]]"),
   ("caller", "caller [expr]"),
   ("cd", "cd [-L|[-P [-e]] [-@]] [dir]"),
   ("command", "command [-pVv] command [arg ...]"),
   ("continue", "continue [n]"),
   ("declare",
      "declare [-aAfFgiIlnrtux] [name[=value] ...] or declare -p [-aAfFilnrtux] [name ...]"),
   ("dirs", "dirs [-clpv] [+N] [-N]"),
   ("disown", "disown [-h] [-ar] [jobspec ... | pid ...]"),
   ("echo", "echo [-neE] [arg ...]"),
   ("eval", "eval [arg ...]"),
   ("exec", "exec [-cl] [-a name] [command [argument ...]] [redirection ...]"),
   ("exit", "exit [n]"),
   ("export", "export [-fn] [name[=value] ...] or export -p"),
   ("false", "false"),
   ("fg", "fg [job_spec]"),
   ("getopts", "getopts optstring name [arg ...]"),
   ("hash", "hash [-lr] [-p pathname] [-dt] [name ...]"),
   ("jobs", "jobs [-lnprs] [jobspec ...] or jobs -x command [args]"),
   ("kill", "kill [-s sigspec | -n signum | -sigspec] pid | jobspec ... or kill -l [sigspec]"),
   ("let", "let arg [arg ...]"),
   ("local", "local [option] name[=value] ..."),
   ("mapfile",
      "mapfile [-d delim] [-n count] [-O origin] [-s count] [-t] [-u fd] [-C callback] [-c quantum] [array]"),
   ("popd", "popd [-n] [+N | -N]"),
   ("printf", "printf [-v var] format [arguments]"),
   ("pushd", "pushd [-n] [+N | -N | dir]"),
   ("pwd", "pwd [-LP]"),
   ("read",
      "read [-ers] [-a array] [-d delim] [-i text] [-n nchars] [-N nchars] [-p prompt] [-t timeout] [-u fd] [name ...]"),
   ("readarray",
      "readarray [-d delim] [-n count] [-O origin] [-s count] [-t] [-u fd] [-C callback] [-c quantum] [array]"),
   ("readonly", "readonly [-aAf] [name[=value] ...] or readonly -p"),
   ("return", "return [n]"),
   ("set", "set [-abefhkmnptuvxBCEHPT] [-o option-name] [--] [-] [arg ...]"),
   ("shift", "shift [n]"),
   ("shopt", "shopt [-pqsu] [-o] [optname ...]"),
   ("source", "source filename [arguments]"),
   ("test", "test [expr]"),
   ("times", "times"),
   ("trap", "trap [-lp] [[arg] signal_spec ...]"),
   ("true", "true"),
   ("type", "type [-afptP] name [name ...]"),
   ("typeset",
      "typeset [-aAfFgiIlnrtux] name[=value] ... or typeset -p [-aAfFilnrtux] [name ...]"),
   ("ulimit", "ulimit [-SHabcdefiklmnpqrstuvxPRT] [limit]"),
   ("umask", "umask [-p] [-S] [mode]"),
   ("unalias", "unalias [-a] name [name ...]"),
   ("unset", "unset [-f] [-v] [-n] [name ...]"),
   ("wait", "wait [-fn] [-p var] [id ...]")]

/-- How a command is used. -/
def usage (name : Bytes) : Bytes :=
  match usages.find? fun entry => utf8 entry.1 == name with
  | some (_, text) => name ++ utf8 ": usage: " ++ utf8 text ++ utf8 "\n"
  | none => []

end ShellCompletion.Builtin
