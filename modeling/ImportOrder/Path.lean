/-!
Paths of files, read without looking at any file: empty segments and single dots do not count, two
dots do.
-/

namespace ImportOrder

structure Path where
  /-- Empty for a relative path. Two slashes at the start of a path are kept apart from one. -/
  root : String := ""
  parts : List String := []
deriving DecidableEq, Repr

namespace Path

def isSegment (s : String) : Bool := s != "" && s != "."

def ofText (t : String) : Path :=
  let root := match (t.toList.takeWhile (· == '/')).length with
    | 0 => ""
    | 2 => "//"
    | _ => "/"
  { root, parts := (t.splitOn "/").filter isSegment }

def toText (p : Path) : String :=
  let t := p.root ++ "/".intercalate p.parts
  if t == "" then "." else t

def isAbsolute (p : Path) : Bool := p.root != ""

def parent (p : Path) : Path := { p with parts := p.parts.dropLast }

/-- A path as seen from another one. -/
def append (p q : Path) : Path :=
  if q.isAbsolute then q else { p with parts := p.parts ++ q.parts }

/-- Two dots take the segment before them away. -/
def simplify (p : Path) : Path :=
  { p with parts := p.parts.foldl (fun done s => if s == ".." then done.dropLast else done ++ [s]) [] }

/-- A path and all directories above it, the nearest first. -/
def ancestors (p : Path) : List Path :=
  (List.range (p.parts.length + 1)).reverse.map fun n => { p with parts := p.parts.take n }

end Path
end ImportOrder
