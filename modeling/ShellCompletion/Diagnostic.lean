import ShellCompletion.Bytes

/-!
# Diagnostics

What the program says when something is wrong: the kind of fault, what it is about, a message, and
suggestions on lines of their own.
-/
namespace ShellCompletion

/-- What kind of fault a diagnostic reports. -/
inductive FaultKind where
  | commandNotFound
  | syntaxError
  | permissionDenied
  | fileNotFound
  | invalidArgument
  | runtimeError
  | unknownError
deriving DecidableEq, Repr

inductive Severity where
  | info
  | warning
  | error
  | critical
deriving DecidableEq, Repr

namespace Severity

/-- The severities, the mildest first. -/
def all : List Severity := [info, warning, error, critical]

def name : Severity → String
  | info => "info"
  | warning => "warning"
  | error => "error"
  | critical => "critical"

end Severity

namespace FaultKind

def all : List FaultKind :=
  [commandNotFound, syntaxError, permissionDenied, fileNotFound, invalidArgument, runtimeError,
    unknownError]

def words : FaultKind → String
  | commandNotFound => "command not found"
  | syntaxError => "syntax error"
  | permissionDenied => "permission denied"
  | fileNotFound => "file not found"
  | invalidArgument => "invalid argument"
  | runtimeError => "runtime error"
  | unknownError => "unknown error"

/-- How severe a fault of a kind is, unless a diagnostic says otherwise. -/
def severity : FaultKind → Severity
  | syntaxError => .critical
  | invalidArgument => .warning
  | _ => .error

end FaultKind

structure Diagnostic where
  kind : FaultKind := .unknownError
  severity : Severity := kind.severity
  /-- What the fault is about; may be empty. -/
  subject : Bytes := []
  /-- What is wrong; may be empty. -/
  message : Bytes := []
  suggestions : List Bytes := []
deriving DecidableEq, Repr

namespace Diagnostic

/-- The lines of a diagnostic: program, subject, kind and message with colons between them, and then
    the suggestions. -/
def text (diagnostic : Diagnostic) : Bytes :=
  let given (part : Bytes) : List Bytes := if part.isEmpty then [] else [part]
  let parts := utf8 "tabsh" ::
    (given diagnostic.subject ++ utf8 diagnostic.kind.words :: given diagnostic.message)
  (Bytes.join (utf8 ": ") parts :: diagnostic.suggestions).flatMap (· ++ utf8 "\n")

end Diagnostic

end ShellCompletion
