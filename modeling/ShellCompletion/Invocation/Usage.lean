import ShellCompletion.Bytes

/-!
# Usage

What the program prints about itself: its version and how it is called.
-/
namespace ShellCompletion

def version : String := "1.4.0"

/-- The line that names the program and its version. -/
def versionText : Bytes := utf8 ("tabsh-complete " ++ version ++ "\n")

/-- The lines that explain how the program is called. -/
def usageLines : List String :=
  [
    "Usage: tabsh-complete [options] <line> [cursor]",
    "",
    "Prints the completion candidates for <line> with the cursor at byte",
    "offset [cursor] (default: end of line), one per line as TEXT<TAB>DESCRIPTION.",
    "",
    "Options:",
    "  -h, --help                 Display this help message and exit",
    "  -v, --version              Print version information and exit",
    "  -c, --cursor=N             Cursor byte offset inside <line>",
    "  -d, --dir=DIR              Resolve relative paths against DIR",
    "  -n, --max=N                Return at most N candidates (default 30)",
    "  -H, --history=FILE         Read history suggestions from FILE",
    "  -s, --schema-dir=DIR       Also load completion schemas from DIR",
    "                             (may be given more than once)",
    "",
    "Matching Options:",
    "  -f, --fuzzy                Accept subsequence matches and rank them",
    "  -C, --case-sensitive       Match prefixes case-sensitively",
    "      --no-dynamic           Do not run external commands for candidates",
    "",
    "Output Options:",
    "      --json                 Print candidates as a JSON array",
    "      --list-commands        Print every command with a schema and exit",
    "  -p, --path-prefix          Print the first path that extends <line>",
    "",
    "Examples:",
    "  tabsh-complete 'git c'                 Subcommands of git starting with c",
    "  tabsh-complete 'git commit --am' 10    Complete the word ending at byte 10",
    "  tabsh-complete -d /tmp -p 'fo'         First entry of /tmp starting with fo",
    "",
    "Configuration is read from $XDG_CONFIG_HOME/tabsh/config.json when present;",
    "command line flags take precedence."]

def usageText : Bytes := usageLines.flatMap fun line => utf8 (line ++ "\n")

end ShellCompletion
