import ShellCompletion.Bytes

/-!
# Candidates

A candidate is a text to take the place of the token under the cursor. Its category gives the
priority it has unless it is made with another one.
-/
namespace ShellCompletion

/-- Where a candidate comes from. -/
inductive Category where
  | command
  | subcommand
  | shortOption
  | longOption
  | argument
  | executable
  | directory
  | file
  | process
  | history
  | generic
deriving DecidableEq, Repr

namespace Category

/-- Every category, in their order. -/
def all : List Category :=
  [command, subcommand, shortOption, longOption, argument, executable, directory, file, process,
    history, generic]

def name : Category → String
  | command => "command"
  | subcommand => "subcommand"
  | shortOption => "short-option"
  | longOption => "long-option"
  | argument => "argument"
  | executable => "executable"
  | directory => "directory"
  | file => "file"
  | process => "process"
  | history => "history"
  | generic => "generic"

/-- The priority of the category's candidates; a higher one comes first. -/
def priority : Category → Nat
  | subcommand => 100
  | shortOption | longOption => 80
  | history => 70
  | command | argument => 60
  | executable => 55
  | directory => 50
  | process => 45
  | file => 40
  | generic => 30

/-- Candidates that name files, and so may stand for one another by name. -/
def isPathLike : Category → Bool
  | command | executable | directory | file => true
  | _ => false

end Category

structure Candidate where
  text : Bytes
  description : Option Bytes
  category : Category
  priority : Nat
deriving DecidableEq, Repr

def Candidate.of (category : Category) (text : Bytes) (description : Option Bytes := none) :
    Candidate :=
  ⟨text, description, category, category.priority⟩

end ShellCompletion
