import ShellCompletion.FileTree
import ShellCompletion.History

/-!
# History files

The history that is kept in a file.
-/
namespace ShellCompletion.FileTree

def loadHistory (tree : FileTree) (base path : Bytes) : Except FileError (List HistoryEntry) :=
  if tree.exists? base path then (tree.read base path).map History.ofFile else .ok []

end ShellCompletion.FileTree
