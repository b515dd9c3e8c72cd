import ImportOrder.Text.Quoted

/-!
A tree of files and directories, and the operations on files that the tool needs.
-/

namespace ImportOrder

abbrev Bytes := List UInt8

namespace Bytes

/-- The text that bytes encode in UTF-8. -/
def decode? (data : Bytes) : Option (List Char) :=
  (String.fromUTF8? (ByteArray.mk data.toArray)).map String.toList

def ofText (t : List Char) : Bytes := (String.ofList t).toUTF8.toList

end Bytes

inductive FileFault where
  | notFound
  | alreadyThere
  | notDirectory
  | isDirectory
  | other (code : Nat) (text : String)
deriving DecidableEq, Repr

structure FileError where
  fault : FileFault
  path : String
deriving DecidableEq, Repr

namespace FileFault

def code : FileFault → Nat
  | .notFound => 2
  | .alreadyThere => 17
  | .notDirectory => 20
  | .isDirectory => 21
  | .other code _ => code

def text : FileFault → String
  | .notFound => "No such file or directory"
  | .alreadyThere => "File exists"
  | .notDirectory => "Not a directory"
  | .isDirectory => "Is a directory"
  | .other _ text => text

end FileFault

def FileError.message (e : FileError) : String :=
  "[Errno " ++ toString e.fault.code ++ "] " ++ e.fault.text ++ ": " ++ Text.quoted e.path

inductive FileTree.Entry where
  | directory
  | file (content : Bytes)
deriving DecidableEq, Repr

/-- The files and directories, each by the names on the way to it from the root. -/
structure FileTree where
  entries : List (List String × FileTree.Entry) := []

namespace FileTree

def lookup (tree : FileTree) (place : List String) : Option Entry :=
  if place.isEmpty then some .directory else tree.entries.lookup place

def set (tree : FileTree) (place : List String) (e : Entry) : FileTree :=
  ⟨(place, e) :: tree.entries.filter (·.1 != place)⟩

/-- Follows the segments of a path. Each segment is looked up in a directory. -/
def follow (tree : FileTree) : List String → List String → Except FileFault (List String)
  | place, [] => .ok place
  | place, s :: rest =>
      match tree.lookup place with
      | none => .error .notFound
      | some (.file _) => .error .notDirectory
      | some .directory =>
          if s == "" || s == "." then follow tree place rest
          else if s == ".." then follow tree place.dropLast rest
          else follow tree (place ++ [s]) rest

/-- What stands between the slashes of a path. -/
def segments (path : String) : List String := (path.toList.splitOn '/').map String.ofList

/-- The place that a path names, seen from a directory; nothing need be there. -/
def locate (tree : FileTree) (directory : List String) (path : String) :
    Except FileFault (List String) :=
  if path == "" then .error .notFound
  else tree.follow (if path.startsWith "/" then [] else directory) (segments path)

def read (tree : FileTree) (directory : List String) (path : String) : Except FileFault Bytes := do
  match tree.lookup (← tree.locate directory path) with
  | none => throw .notFound
  | some .directory => throw .isDirectory
  | some (.file content) => return content

def isFile (tree : FileTree) (directory : List String) (path : String) : Bool :=
  match tree.read directory path with
  | .ok _ => true
  | .error _ => false

def isThere (tree : FileTree) (directory : List String) (path : String) : Bool :=
  match tree.locate directory path with
  | .ok place => (tree.lookup place).isSome
  | .error _ => false

def isDirectory (tree : FileTree) (directory : List String) (path : String) : Bool :=
  match tree.locate directory path with
  | .ok place => tree.lookup place == some .directory
  | .error _ => false

/-- Gives a file new content, made from what it held before. -/
def update (tree : FileTree) (directory : List String) (path : String) (f : Bytes → Bytes) :
    Except FileFault FileTree := do
  let place ← tree.locate directory path
  match tree.lookup place with
  | some .directory => throw .isDirectory
  | some (.file content) => return tree.set place (.file (f content))
  | none => return tree.set place (.file (f []))

def makeDirectory (tree : FileTree) (directory : List String) (path : String) :
    Except FileFault FileTree := do
  let place ← tree.locate directory path
  match tree.lookup place with
  | some _ => throw .alreadyThere
  | none => return tree.set place .directory

/-- What stands before the last slash of a path, without the slashes at its end, and what stands
after it. -/
def splitLast (path : List Char) : List Char × List Char :=
  let reversed := path.reverse
  let head := (reversed.dropWhile (· != '/')).reverse
  let bare := (head.reverse.dropWhile (· == '/')).reverse
  (if bare.isEmpty then head else bare, (reversed.takeWhile (· != '/')).reverse)

/-- The path of the directory above and the last name of a path; slashes at its end do not count. -/
def parent (path : String) : String × String :=
  let (head, tail) := splitLast path.toList
  let (head, tail) := if tail.isEmpty then splitLast head else (head, tail)
  (String.ofList head, String.ofList tail)

/-- Makes a directory and the missing ones above it. One that is there already is fine, and a level
above that turns out to be a file is no failure of its own. What was made stays if the rest fails.
`fuel` bounds how many levels are made. -/
def makeDirectories (directory : List String) : Nat → FileTree → String →
    Except FileError Unit × FileTree
  | 0, tree, path => (.error ⟨.notFound, path⟩, tree)
  | fuel + 1, tree, path =>
      let (head, tail) := parent path
      let isBelow := head != "" && tail != "" && !tree.isThere directory head
      let above := if isBelow then makeDirectories directory fuel tree head else (.ok (), tree)
      goOn above fun tree => finish path isBelow tail tree
where
  /-- Takes the next level, unless the one above failed. -/
  goOn (above : Except FileError Unit × FileTree)
      (next : FileTree → Except FileError Unit × FileTree) : Except FileError Unit × FileTree :=
    match above.1 with
    | .error e => if e.fault == .alreadyThere then next above.2 else above
    | .ok () => next above.2
  finish (path : String) (isBelow : Bool) (tail : String) (tree : FileTree) :
      Except FileError Unit × FileTree :=
    if isBelow && tail == "." then (.ok (), tree)
    else match tree.makeDirectory directory path with
      | .ok made => (.ok (), made)
      | .error fault =>
          (if tree.isDirectory directory path then .ok () else .error ⟨fault, path⟩, tree)

/-- Puts a file or a directory at a place, with the directories on the way to it. -/
def plant (tree : FileTree) (place : List String) (e : Entry) : FileTree :=
  let above := (List.range place.length).map place.take
  let tree := above.foldl (fun t p => if (t.lookup p).isSome then t else t.set p .directory) tree
  tree.set place e

/-- The files below a directory with their paths from there, in the order of the paths. -/
def filesBelow (tree : FileTree) (directory : List String) : List (String × Bytes) :=
  let found := tree.entries.filterMap fun (place, e) =>
    match e with
    | .file content =>
        if directory.isPrefixOf place then
          some ("/".intercalate (place.drop directory.length), content)
        else none
    | .directory => none
  found.mergeSort fun a b => a.1 ≤ b.1

end FileTree
end ImportOrder
