import ImportOrder.FileTree
import ImportOrder.Path

/-!
What the tool asks of the system it runs on, and a system that is a value: a tree of files, a
working directory, an input and two outputs.
-/

namespace ImportOrder

class Host (m : Type → Type) where
  readFile : String → m (Except FileError Bytes)
  isFile : String → m Bool
  writeFile : String → Bytes → m (Except FileError Unit)
  appendFile : String → Bytes → m (Except FileError Unit)
  /-- Makes a directory and those above it, unless they are there. -/
  makeDirectories : String → m (Except FileError Unit)
  readInput : m Bytes
  print : String → m Unit
  /-- Writes to the standard error output. -/
  report : String → m Unit
  workingDirectory : m String
  timestamp : m String
  /-- Milliseconds since some moment. -/
  milliseconds : m Nat

structure World where
  tree : FileTree := {}
  /-- The names on the way from the root to the working directory. -/
  directory : List String := []
  input : Bytes := []
  output : String := ""
  errors : String := ""
  clock : String := ""

namespace World

/-- An operation on the tree of files, done if it succeeds. -/
def change (path : String) (f : World → Except FileFault FileTree) :
    StateM World (Except FileError Unit) := do
  let w ← get
  match f w with
  | .ok tree =>
      set { w with tree }
      return .ok ()
  | .error fault => return .error ⟨fault, path⟩

instance : Host (StateM World) where
  readFile path := do
    let w ← get
    match w.tree.read w.directory path with
    | .ok content => return .ok content
    | .error fault => return .error ⟨fault, path⟩
  isFile path := do
    let w ← get
    return w.tree.isFile w.directory path
  writeFile path content := change path fun w => w.tree.update w.directory path fun _ => content
  appendFile path content := change path fun w => w.tree.update w.directory path (· ++ content)
  makeDirectories path := do
    let w ← get
    let (done, tree) := FileTree.makeDirectories w.directory (path.length + 1) w.tree path
    set { w with tree }
    return done
  readInput := return (← get).input
  print t := modify fun w => { w with output := w.output ++ t }
  report t := modify fun w => { w with errors := w.errors ++ t }
  workingDirectory := return "/" ++ "/".intercalate (← get).directory
  timestamp := return (← get).clock
  milliseconds := return 0

end World
end ImportOrder
