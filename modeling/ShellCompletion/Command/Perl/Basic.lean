import ShellCompletion.Command.Perl.Scalar

/-!
# Perl programs

A program is a list of statements, which are made of expressions. An expression has one value or several
ones, as they are wanted. A variable belongs to the block that declares it, and is told by a number there,
or it is known everywhere under a name.
-/
namespace ShellCompletion.Perl

/-- What a variable holds: a value, values by number, values by name, a function or a file. -/
inductive Sigil where
  | scalar
  | array
  | table
  | code
  | handle
deriving DecidableEq

/-- How many values are wanted. -/
inductive Want where
  | none
  | one
  | many
deriving DecidableEq

/-- The operators on two values. -/
inductive Operator where
  | plus
  | minus
  | times
  | divided
  | modulo
  | power
  | joined
  | repeated
  | shiftLeft
  | shiftRight
  | bitAnd
  | bitOr
  | bitXor
deriving DecidableEq

inductive Comparison where
  | less
  | lessOrEqual
  | equal
  | notEqual
  | greater
  | greaterOrEqual
  | order
deriving DecidableEq

/-- How a second value is looked at after a first one. -/
inductive Connective where
  /-- If the first one is true. -/
  | both
  /-- If the first one is false. -/
  | either
  /-- If there is no first one. -/
  | otherwise
deriving DecidableEq

/-- The functions that every program knows. -/
inductive Function where
  | abs | alarm | atan2 | binmode | bless | caller | chdir | chmod | chomp | chop | chr | close
  | closedir | cos | defined | delete | die | each | eof | exec | exists | exit | exp | fc | fileno
  | flock | fork | getc | getppid | gmtime | hex | index | int | join | keys | kill | lc | lcfirst
  | length | link | localtime | log | lstat | mkdir | oct | open_ | opendir | ord | pack | pipe | pop
  | pos | push | quotemeta | rand | read | readdir | readlink | ref | rename | reverse | rewinddir
  | rindex | rmdir | scalar | seek | select | shift | sin | sleep | splice | split | sprintf | sqrt
  | srand | stat | substr | symlink | sysread | system | syswrite | tell | time | times | truncate
  | uc | ucfirst | umask | undef | unlink | unpack | unshift | utime | values | vec | wait | waitpid
  | wantarray | warn
  -- functions of modules
  | ceil | floor | fmod | strftime | mktime | sum | sum0 | product | min | max | minstr | maxstr
  | first | any | all | none_ | reduce | shuffle | uniq | uniqnum | pairs | pairkeys | pairvalues
  | pairmap | blessed | reftype | looksLikeNumber | refaddr | dumper | basename | dirname | fileparse
  | getcwd | absPath | strtol | isatty | exitNow | usleep | nanosleep | timeHires | sleepHires | tv_interval
  | croak | confess | carp | weaken | encodeBase64 | decodeBase64 | md5Hex | sha1Hex | sha256Hex
  | identity | makePath | removeTree | copyFile | moveFile | slurp | isExited | exitStatus | isSignaled
  | termSignal | tempfile | dupTo
deriving DecidableEq

/-- How a function takes its arguments. -/
inductive Arity where
  | none
  /-- One, which binds more than a comparison; without one it is the topic if that is wanted. -/
  | one (topic : Bool)
  | many
deriving DecidableEq

/-- What stands between the slashes of an expression to match with, and the letters after them. -/
structure Flags where
  letters : Bytes := []
deriving DecidableEq

def Flags.has (flags : Flags) (letter : Char) : Bool := flags.letters.contains letter.toUInt8

/-- What is translated into what: ranges have been written out. -/
structure Translation where
  wanted : Bytes
  replacement : Bytes
  complement : Bool := false
  deletes : Bool := false
  squeezes : Bool := false
  /-- The text is left as it is, and the value is the new one. -/
  returns : Bool := false

mutual

inductive Expr where
  | constant (value : Scalar)
  /-- Texts one after the other. -/
  | interpolated (parts : List Expr)
  /-- Values with the separator of lists between them. -/
  | joined (list : Expr)
  /-- A variable of a block; the name is told in messages. -/
  | lexical (sigil : Sigil) (slot : Nat)
  | shared (sigil : Sigil) (name : Bytes)
  /-- What a group of the last match matched; group zero is all of it. -/
  | capture (number : Nat)
  /-- What is before the last match, or after it. -/
  | around (after : Bool)
  | arguments
  /-- What a reference leads to. -/
  | follow (sigil : Sigil) (body : Expr)
  | element (array subscript : Expr)
  | entry (table key : Expr)
  | slice (array subscripts : Expr)
  | entries (table keys : Expr)
  /-- The subscripts or keys, each with its value. -/
  | pairs (container keys : Expr)
  | pick (list subscripts : Expr)
  | lastIndex (array : Expr)
  /-- Makes variables of a block anew. -/
  | declare (slots : List (Sigil × Nat)) (isList : Bool)
  /-- A variable of a block that is made only once, and its first value. -/
  | persistent (sigil : Sigil) (slot : Nat) (value : Option Expr)
  | localize (target : Expr)
  | assign (target value : Expr)
  | assignList (target value : Expr)
  | update (operator : Operator) (target value : Expr)
  | updateIf (connective : Connective) (target value : Expr)
  /-- Goes on by one; the value is the one from before or after that. -/
  | step (target : Expr) (up after : Bool)
  | binary (operator : Operator) (a b : Expr)
  | repeatList (list count : Expr)
  | compare (texts : Bool) (comparison : Comparison) (a b : Expr)
  | connect (connective : Connective) (a b : Expr)
  | exclusive (a b : Expr)
  | not (body : Expr)
  | negate (body : Expr)
  | complement (body : Expr)
  | choice (condition yes no : Expr)
  /-- Values one after the other; where one value is wanted, it is true from one condition to another
      one. -/
  | range (first last : Expr) (number : Nat) (exclusive : Bool)
  | list (parts : List Expr)
  | reference (body : Expr)
  | newArray (parts : List Expr)
  | newTable (parts : List Expr)
  | newCode (code : Code)
  /-- A function of the program; without brackets, it may get the arguments of the one that runs. -/
  | call (name : Bytes) (arguments : Option (List Expr)) (fallback : Option Scalar)
  | callValue (code : Expr) (arguments : Option (List Expr))
  | method (object : Expr) (name : Bytes) (dynamic : Option Expr) (arguments : List Expr) (package : Bytes)
  | function (function : Function) (arguments : List Expr)
  /-- Writes values one after the other, maybe with a line feed. -/
  | print (line : Bool) (handle : Option Expr) (arguments : List Expr)
  | printFormat (handle : Option Expr) (arguments : List Expr)
  | sort (order : Option Expr) (list : Expr)
  /-- Does something for each value, or selects values. -/
  | each (selects : Bool) (body : List Stmt) (list : Expr)
  /-- There is a match, or there is none; what is found is told. -/
  | isMatch (target : Option Expr) (pattern : Expr) (flags : Flags) (wanted : Bool)
  | substitute (target : Option Expr) (pattern replacement : Expr) (flags : Flags)
  | translate (target : Option Expr) (translation : Translation)
  | quotePattern (pattern : Expr) (flags : Flags)
  | readLine (handle : Expr)
  /-- A line of the files that are arguments. -/
  | readFiles
  | glob (pattern : Expr)
  | fileTest (letter : UInt8) (file : Expr)
  | block (body : List Stmt)
  | attempt (body : List Stmt)
  /-- Runs a text as a program; the variables that it finds are told. -/
  | evaluate (text : Expr) (scope : List (Bytes × Nat)) (package : Bytes)
  /-- Runs a file as a program; one that is needed has to be there, and is run only once. -/
  | runFile (name : Expr) (needed : Bool)
  | output (command : Expr)
  | leave (label : Option Bytes)
  | again (label : Option Bytes)
  | redo (label : Option Bytes)
  | giveBack (value : Option Expr)
  /-- A name, as it stands. -/
  | bareHandle (name : Bytes)
  | line

inductive Stmt where
  | evaluate (line : Nat) (value : Expr)
  | choose (line : Nat) (arms : List (Expr × List Stmt)) (otherwise : List Stmt)
  | loop (line : Nat) (label : Option Bytes) (condition : Option Expr) (wanted : Bool) (body next : List Stmt)
  /-- The condition is looked at after the body. -/
  | loopAfter (line : Nat) (condition : Expr) (wanted : Bool) (body : List Stmt)
  | count (line : Nat) (label : Option Bytes) (first condition next : Option Expr) (body : List Stmt)
  | forEach (line : Nat) (label : Option Bytes) (holder : Expr) (isNew : Bool) (list : Expr) (body : List Stmt)
  | block (label : Option Bytes) (body : List Stmt)
  | define (name : Bytes) (code : Code)
  /-- Is done before the statements around it, or when all is over. -/
  | early (body : List Stmt)
  | late (body : List Stmt)

/-- The body of a function. -/
inductive Code where
  | mk (body : List Stmt) (package : Bytes)

end

instance : Inhabited Expr := ⟨.list []⟩
instance : Inhabited Stmt := ⟨.block none []⟩
instance : Inhabited Code := ⟨.mk [] []⟩

def Code.body : Code → List Stmt
  | .mk body _ => body

def Code.package : Code → Bytes
  | .mk _ package => package

/-- A program that has been read. -/
structure Program where
  body : List Stmt
  /-- What follows the mark that ends the program. -/
  data : Option Bytes := none
  /-- The next number for a variable. -/
  slots : Nat
  /-- All of it is strict. -/
  strict : Bool := false

/-- What is wrong with a program. -/
structure Fault where
  line : Nat
  message : Bytes

/-! ## Functions by name -/

/-- The functions that need no module, each with how it takes arguments. -/
def coreFunctions : List (String × Function × Arity) :=
  [("abs", .abs, .one true), ("alarm", .alarm, .one true), ("atan2", .atan2, .many),
   ("binmode", .binmode, .many), ("bless", .bless, .many), ("caller", .caller, .one false),
   ("chdir", .chdir, .one false), ("chmod", .chmod, .many), ("chomp", .chomp, .one true),
   ("chop", .chop, .one true), ("chr", .chr, .one true), ("close", .close, .one false),
   ("closedir", .closedir, .one false), ("cos", .cos, .one true), ("defined", .defined, .one true),
   ("delete", .delete, .one false), ("die", .die, .many), ("each", .each, .one false),
   ("eof", .eof, .one false), ("exec", .exec, .many), ("exists", .exists, .one false),
   ("exit", .exit, .one false), ("exp", .exp, .one true), ("fc", .fc, .one true),
   ("fileno", .fileno, .one false), ("flock", .flock, .many), ("fork", .fork, .none),
   ("getc", .getc, .one false), ("getppid", .getppid, .none), ("gmtime", .gmtime, .one false),
   ("hex", .hex, .one true), ("index", .index, .many), ("int", .int, .one true), ("join", .join, .many),
   ("keys", .keys, .one false), ("kill", .kill, .many), ("lc", .lc, .one true),
   ("lcfirst", .lcfirst, .one true), ("length", .length, .one true), ("link", .link, .many),
   ("localtime", .localtime, .one false), ("log", .log, .one true), ("lstat", .lstat, .one true),
   ("mkdir", .mkdir, .many), ("oct", .oct, .one true), ("open", .open_, .many),
   ("opendir", .opendir, .many), ("ord", .ord, .one true), ("pack", .pack, .many),
   ("pipe", .pipe, .many), ("pop", .pop, .one false), ("pos", .pos, .one false),
   ("push", .push, .many), ("quotemeta", .quotemeta, .one true), ("rand", .rand, .one false),
   ("read", .read, .many), ("readdir", .readdir, .one false), ("readlink", .readlink, .one true),
   ("ref", .ref, .one true), ("rename", .rename, .many), ("reverse", .reverse, .many),
   ("rewinddir", .rewinddir, .one false), ("rindex", .rindex, .many), ("rmdir", .rmdir, .one true),
   ("scalar", .scalar, .one false), ("seek", .seek, .many), ("select", .select, .many),
   ("shift", .shift, .one false), ("sin", .sin, .one true), ("sleep", .sleep, .one false),
   ("splice", .splice, .many), ("split", .split, .many), ("sprintf", .sprintf, .many),
   ("sqrt", .sqrt, .one true), ("srand", .srand, .one false), ("stat", .stat, .one true),
   ("substr", .substr, .many), ("symlink", .symlink, .many), ("sysread", .sysread, .many),
   ("system", .system, .many), ("syswrite", .syswrite, .many), ("tell", .tell, .one false),
   ("time", .time, .none), ("times", .times, .none), ("truncate", .truncate, .many), ("uc", .uc, .one true),
   ("ucfirst", .ucfirst, .one true), ("umask", .umask, .one false), ("undef", .undef, .one false),
   ("unlink", .unlink, .many), ("unpack", .unpack, .many), ("unshift", .unshift, .many),
   ("utime", .utime, .many), ("values", .values, .one false), ("vec", .vec, .many), ("wait", .wait, .none),
   ("waitpid", .waitpid, .many), ("wantarray", .wantarray, .none), ("warn", .warn, .many)]

def modules : List (String × List (String × Function × Arity)) :=
  [("POSIX",
     [("ceil", .ceil, .one true), ("floor", .floor, .one true), ("fmod", .fmod, .many),
      ("strftime", .strftime, .many), ("mktime", .mktime, .many), ("strtol", .strtol, .many),
      ("isatty", .isatty, .one false), ("_exit", .exitNow, .one false), ("getpid", .identity, .many),
      ("toupper", .uc, .one true), ("tolower", .lc, .one true), ("getcwd", .getcwd, .none),
      ("WIFEXITED", .isExited, .one false), ("WEXITSTATUS", .exitStatus, .one false),
      ("WIFSIGNALED", .isSignaled, .one false), ("WTERMSIG", .termSignal, .one false),
      ("dup2", .dupTo, .many)]),
   ("List::Util",
     [("sum", .sum, .many), ("sum0", .sum0, .many), ("product", .product, .many), ("min", .min, .many),
      ("max", .max, .many), ("minstr", .minstr, .many), ("maxstr", .maxstr, .many),
      ("first", .first, .many), ("any", .any, .many), ("all", .all, .many), ("none", .none_, .many),
      ("reduce", .reduce, .many), ("shuffle", .shuffle, .many), ("uniq", .uniq, .many),
      ("uniqnum", .uniqnum, .many), ("uniqstr", .uniq, .many), ("pairs", .pairs, .many),
      ("pairkeys", .pairkeys, .many), ("pairvalues", .pairvalues, .many), ("pairmap", .pairmap, .many)]),
   ("Scalar::Util",
     [("blessed", .blessed, .one false), ("reftype", .reftype, .one false),
      ("looks_like_number", .looksLikeNumber, .one false), ("refaddr", .refaddr, .one false),
      ("weaken", .weaken, .one false)]),
   ("Data::Dumper", [("Dumper", .dumper, .many)]),
   ("File::Basename",
     [("basename", .basename, .many), ("dirname", .dirname, .one false), ("fileparse", .fileparse, .many)]),
   ("Cwd", [("getcwd", .getcwd, .none), ("cwd", .getcwd, .none), ("abs_path", .absPath, .one false),
      ("realpath", .absPath, .one false)]),
   ("Time::HiRes",
     [("time", .timeHires, .none), ("sleep", .sleepHires, .one false), ("usleep", .usleep, .one false),
      ("nanosleep", .nanosleep, .one false), ("tv_interval", .tv_interval, .many)]),
   ("Carp", [("croak", .croak, .many), ("confess", .confess, .many), ("carp", .carp, .many),
      ("cluck", .carp, .many)]),
   ("MIME::Base64", [("encode_base64", .encodeBase64, .many), ("decode_base64", .decodeBase64, .one false)]),
   ("Digest::MD5", [("md5_hex", .md5Hex, .many)]),
   ("Digest::SHA", [("sha1_hex", .sha1Hex, .many), ("sha256_hex", .sha256Hex, .many)]),
   ("Encode", [("encode", .identity, .many), ("decode", .identity, .many),
      ("encode_utf8", .identity, .many), ("decode_utf8", .identity, .many)]),
   ("File::Path", [("make_path", .makePath, .many), ("mkpath", .makePath, .many),
      ("remove_tree", .removeTree, .many), ("rmtree", .removeTree, .many)]),
   ("File::Copy", [("copy", .copyFile, .many), ("move", .moveFile, .many), ("cp", .copyFile, .many),
      ("mv", .moveFile, .many)]),
   ("File::Temp", [("tempfile", .tempfile, .many)])]

def moduleConstants : List (String × String × Scalar) :=
  [("POSIX", "WNOHANG", .int 1), ("POSIX", "INT_MAX", .int 2147483647), ("POSIX", "INT_MIN", .int (-2147483648)),
   ("POSIX", "UINT_MAX", .int 4294967295), ("POSIX", "LONG_MAX", .int 9223372036854775807),
   ("POSIX", "LONG_MIN", .int (-9223372036854775808)), ("POSIX", "DBL_MAX", .float 1.7976931348623157e308),
   ("POSIX", "DBL_MIN", .float 2.2250738585072014e-308), ("POSIX", "DBL_EPSILON", .float 2.220446049250313e-16),
   ("POSIX", "EXIT_SUCCESS", .int 0), ("POSIX", "EXIT_FAILURE", .int 1), ("POSIX", "SIGTERM", .int 15),
   ("POSIX", "SIGINT", .int 2), ("POSIX", "SIGKILL", .int 9), ("POSIX", "SIGALRM", .int 14),
   ("POSIX", "SIGHUP", .int 1), ("POSIX", "SIGCHLD", .int 17), ("POSIX", "SIGUSR1", .int 10),
   ("POSIX", "ENOENT", .int 2), ("POSIX", "EINTR", .int 4), ("POSIX", "EEXIST", .int 17),
   ("POSIX", "EACCES", .int 13), ("POSIX", "BUFSIZ", .int 8192), ("POSIX", "PATH_MAX", .int 4096),
   ("Errno", "ENOENT", .int 2), ("Errno", "EINTR", .int 4), ("Errno", "EEXIST", .int 17),
   ("Errno", "EACCES", .int 13), ("Errno", "ECHILD", .int 10), ("Errno", "EAGAIN", .int 11),
   ("Fcntl", "LOCK_SH", .int 1), ("Fcntl", "LOCK_EX", .int 2), ("Fcntl", "LOCK_NB", .int 4),
   ("Fcntl", "LOCK_UN", .int 8), ("Fcntl", "SEEK_SET", .int 0), ("Fcntl", "SEEK_CUR", .int 1),
   ("Fcntl", "SEEK_END", .int 2), ("Fcntl", "O_RDONLY", .int 0), ("Fcntl", "O_WRONLY", .int 1),
   ("Fcntl", "O_RDWR", .int 2), ("Fcntl", "O_CREAT", .int 64), ("Fcntl", "O_EXCL", .int 128),
   ("Fcntl", "O_TRUNC", .int 512), ("Fcntl", "O_APPEND", .int 1024)]

/-- The modules that only say how a program is meant. -/
def manners : List String :=
  ["strict", "warnings", "utf8", "feature", "vars", "lib", "integer", "bytes", "locale", "open", "diagnostics",
   "autodie", "Exporter", "IO::Handle", "IO::File", "experimental", "mro", "overload", "sort", "re", "if",
   "subs", "threads", "version", "bigint", "less", "fields", "File::Spec", "File::Find", "FindBin",
   "Getopt::Long", "Getopt::Std", "Term::ANSIColor", "Text::Wrap", "Text::ParseWords", "Storable", "Symbol",
   "Env", "English", "Socket", "IO::Select", "IPC::Open2", "IPC::Open3", "Time::Local", "Time::Piece",
   "Benchmark", "Config", "constant", "parent", "base", "Test::More", "Unicode::Normalize", "Tie::Hash",
   "Math::Trig", "Sys::Hostname", "JSON::PP", "File::stat", "Errno", "Fcntl"]

/-- A function that the program may call by its name without a module. -/
def coreFunction? (name : Bytes) : Option (Function × Arity) :=
  (coreFunctions.find? fun entry => utf8 entry.1 == name).map Prod.snd

def moduleFunction? (module name : Bytes) : Option (Function × Arity) :=
  (modules.find? fun entry => utf8 entry.1 == module).bind fun entry =>
    (entry.2.find? fun function => utf8 function.1 == name).map Prod.snd

def moduleConstant? (module name : Bytes) : Option Scalar :=
  (moduleConstants.find? fun entry => utf8 entry.1 == module && utf8 entry.2.1 == name).map (·.2.2)

end ShellCompletion.Perl
