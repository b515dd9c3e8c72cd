import ImportOrder.Clock
import ImportOrder.Command.Run
import Std.Time.DateTime.Timestamp

/-!
The tool as a program.
-/

namespace ImportOrder.Main

/-- The number of an error, which some calls give with its sign turned. -/
def numberOf (code : UInt32) : Nat := (min code (0 - code)).toNat

def faultOf : IO.Error → FileFault
  | .noFileOrDirectory .. => .notFound
  | .alreadyExists .. => .alreadyThere
  | .inappropriateType _ code details =>
      match numberOf code with
      | 20 => .notDirectory
      | 21 => .isDirectory
      | n => .other n details
  | .permissionDenied _ code details => .other (numberOf code) details
  | e => .other 5 (toString e)

/-- Does something with a file, or tells why it failed. -/
def attempt {α : Type} (path : String) (action : IO α) : IO (Except FileError α) := do
  try
    return .ok (← action)
  catch e => return .error ⟨faultOf e, path⟩

partial def readAll (input : IO.FS.Stream) (done : Bytes) : IO Bytes := do
  let part ← input.read 65536
  if part.isEmpty then return done else readAll input (done ++ part.toList)

instance : Host IO where
  readFile path := attempt path do return (← IO.FS.readBinFile path).toList
  isFile path := do
    match ← attempt path (IO.FS.readBinFile path) with
    | .ok _ => return true
    | .error _ => return false
  writeFile path content := attempt path (IO.FS.writeBinFile path ⟨content.toArray⟩)
  appendFile path content := attempt path do
    let handle ← IO.FS.Handle.mk path .append
    handle.write ⟨content.toArray⟩
  makeDirectories path := attempt path (IO.FS.createDirAll path)
  readInput := do readAll (← IO.getStdin) []
  print t := do (← IO.getStdout).putStr t
  report t := do (← IO.getStderr).putStr t
  workingDirectory := return (← IO.currentDir).toString
  timestamp := do
    let now ← Std.Time.Timestamp.now
    return Clock.timestamp (now.toNanosecondsSinceUnixEpoch.val / 1000).toNat
  milliseconds := IO.monoMsNow

end ImportOrder.Main

def main (arguments : List String) : IO UInt32 := do
  match ← ImportOrder.Command.run .standard arguments with
  | .exit code => return code.toUInt32
  | .undecodable => throw (IO.userError "a file is not UTF-8")
  | .badScalar _ => throw (IO.userError "no value can be made from a project file")
  | .breakdown _ => throw (IO.userError "a pattern cannot be compiled")
  | .inconsistent why => throw (IO.userError why.message)
