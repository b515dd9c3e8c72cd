import ImportOrder.Check
import ImportOrder.Host
import ImportOrder.Json
import ImportOrder.Sha256

/-!
The log of checks: a file with one line of JSON for each file checked.
-/

namespace ImportOrder.CheckLog

structure Entry where
  file : String
  status : String
  violations : List Violation
  imports : Nat
  /-- The text that was checked. -/
  source : Text
  milliseconds : Nat
  isFix : Bool := false

/-- The start of the digest of a text. -/
def codeHash (source : Text) : String :=
  Settings.hashPrefix ++
    String.ofList ((Sha256.hexDigest (Bytes.ofText source)).take Settings.hashLength)

def Entry.toJson (e : Entry) (timestamp : String) : Json :=
  .obj [
    ("timestamp", .str timestamp),
    ("event", .str (if e.isFix then "fix" else "check")),
    ("file", .str e.file),
    ("status", .str e.status),
    ("violations", .arr (e.violations.map fun v =>
      .obj [("kind", .str v.kind.name), ("line", .int v.position.line)])),
    ("imports", .int e.imports),
    ("code_hash", .str (codeHash e.source)),
    ("check_ms", .int e.milliseconds)]

def Entry.line (e : Entry) (timestamp : String) : Text := (e.toJson timestamp).compact ++ ['\n']

def fileIn (directory : String) : String :=
  if directory.endsWith '/' then directory ++ Settings.checkLog
  else directory ++ "/" ++ Settings.checkLog

variable {m : Type → Type} [Monad m] [Host m]

/-- Adds a line to the log in a directory, which is made if need be. Without a directory there is
no log. -/
def append (directory : String) (e : Entry) : ExceptT FileError m Unit := do
  if !directory.isEmpty then
    let _ ← ExceptT.mk (Host.makeDirectories directory : m (Except FileError Unit))
    let line := e.line (← (Host.timestamp : m String))
    ExceptT.mk (Host.appendFile (fileIn directory) (Bytes.ofText line))

end ImportOrder.CheckLog
