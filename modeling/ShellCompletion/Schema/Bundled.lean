import ShellCompletion.Schema.Printer

/-!
# Bundled schemas

Schemas of common commands. The program carries them as documents, which are read like any other.
-/
namespace ShellCompletion.Bundled

/-! ## Building blocks -/

def short (form description : String) : OptionSpec :=
  ⟨some (utf8 form), none, some (utf8 description), false, none⟩

def long (form description : String) : OptionSpec :=
  ⟨none, some (utf8 form), some (utf8 description), false, none⟩

def both (shortForm longForm description : String) : OptionSpec :=
  ⟨some (utf8 shortForm), some (utf8 longForm), some (utf8 description), false, none⟩

/-- The option with a value of no declared kind. -/
def takingAny (option : OptionSpec) : OptionSpec := { option with takesValue := true }

def taking (type : ValueType) (option : OptionSpec) : OptionSpec :=
  { option with takesValue := true, valueType := some type }

/-- An optional argument. -/
def argument (name : String) (type : ValueType) : ArgumentSpec :=
  ⟨utf8 name, none, some type, false, false⟩

/-- The argument, which has to be given. -/
def required (argument : ArgumentSpec) : ArgumentSpec := { argument with required := true }

/-- The argument, which may be given any number of times. -/
def repeated (argument : ArgumentSpec) : ArgumentSpec := { argument with multiple := true }

/-- A subcommand with nothing below it. -/
def sub (name description : String) : Subcommand :=
  ⟨utf8 name, some (utf8 description), [], [], [], []⟩

/-- A command with nothing below it. -/
def command (name description : String) : Schema :=
  ⟨utf8 name, some (utf8 description), [], [], []⟩

/-! ## Commands -/

def git : Schema :=
  { command "git" "Distributed version control system" with
    globalOptions :=
    [taking .directory (short "-C" "Run as if started in <path>"),
     takingAny (short "-c" "Set a configuration parameter"),
     long "--no-pager" "Do not pipe output into a pager",
     long "--version" "Print the git suite version",
     long "--help" "Print the synopsis and common commands"]
    subcommands :=
    [{ sub "add" "Add file contents to the index" with
       options :=
         [both "-A" "--all" "Add changes from all tracked and untracked files",
          both "-p" "--patch" "Interactively choose hunks",
          both "-n" "--dry-run" "Don't actually add the files",
          both "-u" "--update" "Update tracked files"]
       arguments := [repeated (argument "pathspec" (.file []))] },
     { sub "commit" "Record changes to the repository" with
       options :=
         [takingAny (both "-m" "--message" "Use the given message"),
          both "-a" "--all" "Stage modified and deleted files",
          long "--amend" "Replace the tip of the current branch",
          taking (.file []) (both "-F" "--file" "Take the message from a file"),
          takingAny (long "--fixup" "Create a fixup commit"),
          long "--no-verify" "Bypass pre-commit and commit-msg hooks"] },
     { sub "checkout" "Switch branches or restore working tree files" with
       options :=
         [takingAny (short "-b" "Create and checkout a new branch"),
          long "--track" "Set upstream when creating a branch"] },
     { sub "switch" "Switch branches" with
       options :=
         [takingAny (both "-c" "--create" "Create a new branch"),
          long "--detach" "Switch to a commit for inspection"] },
     { sub "merge" "Join two or more development histories together" with
       options :=
         [long "--no-ff" "Always create a merge commit",
          long "--squash" "Squash the merged changes",
          long "--abort" "Abort the current conflict resolution"] },
     { sub "rebase" "Reapply commits on top of another base tip" with
       options :=
         [both "-i" "--interactive" "Make a list of commits to edit",
          long "--continue" "Restart the rebasing process",
          long "--abort" "Abort the rebase operation"] },
     { sub "push" "Update remote refs along with associated objects" with
       options :=
         [both "-f" "--force" "Force updates",
          both "-u" "--set-upstream" "Add upstream tracking reference",
          long "--tags" "Push all tags"] },
     { sub "pull" "Fetch from and integrate with another repository" with
       options :=
         [long "--rebase" "Rebase instead of merging",
          long "--ff-only" "Refuse to merge unless fast-forward"] },
     { sub "fetch" "Download objects and refs from another repository" with
       options :=
         [long "--all" "Fetch all remotes",
          both "-p" "--prune" "Remove deleted remote-tracking refs"] },
     { sub "status" "Show the working tree status" with
       options :=
         [both "-s" "--short" "Give the output in the short format",
          both "-b" "--branch" "Show branch information"] },
     { sub "log" "Show commit logs" with
       options :=
         [long "--oneline" "One commit per line",
          long "--graph" "Draw a text-based graph",
          taking .number (both "-n" "--max-count" "Limit the number of commits")] },
     { sub "diff" "Show changes between commits" with
       options :=
         [long "--staged" "Compare the index with HEAD",
          long "--stat" "Generate a diffstat"]
       arguments := [repeated (argument "path" (.file []))] },
     { sub "branch" "List, create, or delete branches" with
       options :=
         [both "-d" "--delete" "Delete a branch",
          both "-a" "--all" "List local and remote branches"] },
     { sub "remote" "Manage set of tracked repositories" with
       subcommands :=
         [{ sub "add" "Add a remote" with
            arguments :=
              [argument "name" .string,
               argument "url" .url] },
          { sub "remove" "Remove a remote" with
            aliases := [utf8 "rm"] },
          sub "rename" "Rename a remote",
          sub "show" "Show information about a remote"] },
     { sub "stash" "Stash the changes in a dirty working directory" with
       subcommands :=
         [sub "push" "Save local modifications",
          sub "pop" "Apply and remove a stash",
          sub "list" "List stash entries",
          sub "drop" "Remove a stash entry"] },
     { sub "clone" "Clone a repository into a new directory" with
       options :=
         [taking .number (long "--depth" "Create a shallow clone"),
          takingAny (both "-b" "--branch" "Checkout <name> instead of HEAD")]
       arguments :=
         [argument "repository" .url,
          argument "directory" .directory] },
     { sub "restore" "Restore working tree files" with
       options := [long "--staged" "Restore the index"]
       arguments := [repeated (argument "pathspec" (.file []))] }] }

def cargo : Schema :=
  { command "cargo" "Rust package manager" with
    globalOptions :=
    [both "-V" "--version" "Print version info",
     both "-v" "--verbose" "Use verbose output",
     both "-q" "--quiet" "Do not print cargo log messages",
     taking (.choice (["auto", "always", "never"].map utf8)) (long "--color" "Coloring")]
    subcommands :=
    [{ sub "build" "Compile the current package" with
       aliases := [utf8 "b"]
       options :=
         [both "-r" "--release" "Build artifacts in release mode",
          takingAny (long "--target" "Build for the target triple"),
          takingAny (both "-F" "--features" "Features to activate")] },
     { sub "run" "Run a binary or example" with
       aliases := [utf8 "r"]
       options :=
         [both "-r" "--release" "Build in release mode",
          takingAny (long "--bin" "Name of the bin target to run"),
          takingAny (long "--example" "Name of the example to run")] },
     { sub "test" "Run the tests" with
       aliases := [utf8 "t"]
       options := [long "--no-run" "Compile, but don't run tests"] },
     { sub "check" "Analyze the package for errors" with
       aliases := [utf8 "c"] },
     { sub "new" "Create a new cargo package" with
       options :=
         [long "--bin" "Use a binary template",
          long "--lib" "Use a library template",
          takingAny (long "--name" "Set the package name")]
       arguments := [argument "path" .directory] },
     { sub "add" "Add dependencies to a manifest" with
       options :=
         [taking .url (long "--git" "Git repository location"),
          taking .directory (long "--path" "Filesystem path to local crate"),
          long "--dev" "Add as development dependency"] },
     sub "fmt" "Format all bin and lib files",
     sub "clippy" "Check for common mistakes",
     { sub "doc" "Build documentation" with
       aliases := [utf8 "d"]
       options := [long "--open" "Open the docs in a browser"] },
     sub "clean" "Remove the target directory",
     sub "update" "Update dependencies in Cargo.lock"] }

def docker : Schema :=
  { command "docker" "Container runtime" with
    globalOptions :=
    [takingAny (long "--context" "Name of the context to use"),
     takingAny (both "-H" "--host" "Daemon socket to connect to")]
    subcommands :=
    [{ sub "run" "Create and run a new container" with
       options :=
         [both "-d" "--detach" "Run container in background",
          both "-i" "--interactive" "Keep STDIN open",
          both "-t" "--tty" "Allocate a pseudo-TTY",
          long "--rm" "Remove the container when it exits",
          taking .environment (both "-e" "--env" "Set environment variables"),
          takingAny (both "-v" "--volume" "Bind mount a volume"),
          taking (.choice (["bridge", "host", "none"].map utf8))
            (long "--network" "Connect to a network")] },
     { sub "build" "Build an image from a Dockerfile" with
       options :=
         [takingAny (both "-t" "--tag" "Name and optionally a tag"),
          taking (.file []) (both "-f" "--file" "Name of the Dockerfile")]
       arguments := [argument "context" .directory] },
     { sub "ps" "List containers" with
       options := [both "-a" "--all" "Show all containers"] },
     sub "images" "List images",
     sub "exec" "Execute a command in a running container",
     { sub "logs" "Fetch the logs of a container" with
       options := [both "-f" "--follow" "Follow log output"] },
     sub "stop" "Stop running containers",
     sub "pull" "Download an image from a registry",
     { sub "compose" "Define and run multi-container applications" with
       subcommands :=
         [{ sub "up" "Create and start containers" with
            options := [both "-d" "--detach" "Detached mode"] },
          sub "down" "Stop and remove containers",
          sub "logs" "View output from containers"] }] }

def kill : Schema :=
  { command "kill" "Send a signal to a process" with
    globalOptions :=
    [taking .signal (short "-s" "Signal to send"),
     short "-l" "List signal names"]
    arguments := [repeated (argument "pid" .string)] }

def asOtherUser : Schema :=
  { command "sudo" "Execute a command as another user" with
    globalOptions :=
    [taking .user (both "-u" "--user" "Run as the specified user"),
     taking .group (both "-g" "--group" "Run with the specified group"),
     both "-E" "--preserve-env" "Preserve user environment",
     both "-i" "--login" "Run login shell as the target user",
     both "-k" "--reset-timestamp" "Invalidate cached credentials"]
    arguments := [argument "command" .commandWithArgs] }

def env : Schema :=
  { command "env" "Run a program in a modified environment" with
    globalOptions :=
    [both "-i" "--ignore-environment" "Start with an empty environment",
     taking .environment (both "-u" "--unset" "Remove variable from the environment")]
    arguments := [argument "command" .commandWithArgs] }

def ssh : Schema :=
  { command "ssh" "OpenSSH remote login client" with
    globalOptions :=
    [taking (.file []) (short "-i" "Identity file"),
     taking .number (short "-p" "Port to connect to"),
     taking .user (short "-l" "Login name"),
     short "-v" "Verbose mode",
     short "-A" "Enable agent forwarding"]
    arguments := [argument "destination" .string] }

def tar : Schema :=
  { command "tar" "Archiving utility" with
    globalOptions :=
    [both "-c" "--create" "Create a new archive",
     both "-x" "--extract" "Extract files from an archive",
     both "-t" "--list" "List the contents of an archive",
     both "-v" "--verbose" "Verbosely list files processed",
     both "-z" "--gzip" "Filter the archive through gzip",
     taking (.file ([".tar", ".tar.gz", ".tgz", ".tar.xz", ".tar.bz2"].map utf8))
       (both "-f" "--file" "Use archive file"),
     taking .directory (both "-C" "--directory" "Change to directory")]
    arguments := [repeated (argument "file" (.file []))] }

def ip : Schema :=
  { command "ip" "Show and manipulate routing and network devices" with
    globalOptions :=
    [short "-4" "Use IPv4 only",
     short "-6" "Use IPv6 only",
     both "-c" "--color" "Color the output"]
    subcommands :=
    [{ sub "link" "Network device" with
       subcommands :=
         [{ sub "show" "Display device attributes" with
            arguments := [argument "device" .interface] },
          { sub "set" "Change device attributes" with
            arguments :=
              [argument "device" .interface,
               argument "state" (.choice (["up", "down"].map utf8))] }] },
     { sub "addr" "Protocol address on a device" with
       aliases := [utf8 "address"]
       subcommands :=
         [{ sub "show" "Look at protocol addresses" with
            arguments := [argument "device" .interface] }] },
     sub "route" "Routing table entry"] }

def chgrp : Schema :=
  { command "chgrp" "Change group ownership" with
    globalOptions :=
    [both "-R" "--recursive" "Operate on files recursively",
     both "-v" "--verbose" "Output a diagnostic for every file"]
    arguments :=
    [required (argument "group" .group),
     repeated (argument "file" (.file []))] }

def chown : Schema :=
  { command "chown" "Change file owner and group" with
    globalOptions :=
    [both "-R" "--recursive" "Operate on files recursively",
     taking (.file []) (long "--reference" "Use the owner of a reference file")]
    arguments :=
    [required (argument "owner" .user),
     repeated (argument "file" (.file []))] }

def cd : Schema :=
  { command "cd" "Change the working directory" with
    arguments := [argument "directory" .directory] }

/-- The bundled schemas, in the order in which they are registered. -/
def schemas : List Schema :=
  [git, cargo, docker, kill, asOtherUser, env, ssh, tar, ip, chgrp, chown, cd]

/-- The bundled documents with their sources. -/
def documents : List (Bytes × Bytes) :=
  schemas.map fun schema => (utf8 "<bundled:" ++ schema.command ++ utf8 ">", schema.text)

end ShellCompletion.Bundled
