import ImportOrder.Host
import ImportOrder.Libraries

/-!
Project files: a policy and where the log of checks goes. They are found in the working directory
or above it.
-/

namespace ImportOrder

structure Project where
  policy : Policy
  path : Option String
  /-- Whether checks are logged; a file may leave this open. -/
  logs : Option Bool
  directory : String

namespace Project

/-- Where the log goes; empty if there is none. -/
def logDirectory (p : Project) : String := if p.logs == some true then p.directory else ""

/-! ### From a value -/

def loggingProblems : Value → List Problem
  | .null => []
  | .map logging =>
      (match Value.field "enabled" logging with
        | none | some .null | some (.bool _) => []
        | some v => [.enabledNotBool v.kind]) ++
      (match Value.field "directory" logging with
        | none | some .null | some (.str _) => []
        | some v => [.directoryNotString v.kind])
  | v => [.loggingNotMapping v.kind]

/-- What is wrong with a project file, its policy apart. -/
def problems : Value → List Problem
  | .map entries =>
      (entries.filterMap fun (key, _) =>
        if Settings.projectKeys.any fun k => key.sameKey (.str k) then none
        else some (.unknownOption key Settings.projectKeys)) ++
      (if (Value.field "policy" entries).isSome then [] else [.missingPolicy]) ++
      loggingProblems ((Value.field "logging" entries).getD .null)
  | v => [.projectNotMapping v.kind]

/-- The directory of the log, seen from the file that names it. -/
def directoryFrom (path : Option String) (directory : String) : String :=
  match path with
  | some p =>
      if (Path.ofText directory).isAbsolute then directory
      else ((Path.ofText p).parent.append (Path.ofText directory)).toText
  | none => directory

def logsOf (logging : List (Value × Value)) : Option Bool :=
  match Value.field "enabled" logging with
  | some (.bool b) => some b
  | some _ => none
  | none => some Settings.loggingEnabled

def directoryOf (logging : List (Value × Value)) : String :=
  match Value.field "directory" logging with
  | some (.str s) => if s.isEmpty then Settings.logDirectory else s
  | _ => Settings.logDirectory

def ofValue (compile : Regex.Compiler) (data : Value) (path : Option String) :
    Except ConfigurationFailure Project :=
  match problems data, data with
  | [], .map entries =>
      let logging := match Value.field "logging" entries with
        | some (.map s) => s
        | _ => []
      (Policy.ofValue compile ((Value.field "policy" entries).getD .null) path).map fun policy =>
        { policy
          path
          logs := logsOf logging
          directory := directoryFrom path (directoryOf logging) }
  | found, _ => .error (.refused (.invalid found path))

/-! ### From a file -/

inductive LoadError where
  | configuration (error : ConfigurationError)
  | file (error : FileError)
  | undecodable
  /-- The file is YAML from which no value can be made, such as a scalar that its tag does not
  fit. -/
  | badScalar (error : Yaml.Error)
  /-- The compiler breaks down on a pattern of the policy. -/
  | breakdown (breakdown : Regex.Breakdown)

def LoadError.ofConfiguration : ConfigurationFailure → LoadError
  | .refused e => .configuration e
  | .breakdown b => .breakdown b

/-- The entries of the mapping that a text spells. An empty text is an empty mapping. -/
def mappingOf (libraries : Libraries) (path : String) (t : Text) :
    Except LoadError (List (Value × Value)) :=
  match libraries.yaml (Text.unifyBreaks t) with
  | .error .malformed => .error (.configuration (.invalid [.notYaml] (some path)))
  | .error e => .error (.badScalar e)
  | .ok .null => .ok []
  | .ok (.map entries) => .ok entries
  | .ok v => .error (.configuration (.invalid [.notMapping v.kind] (some path)))

variable {m : Type → Type} [Monad m] [Host m]

def loadMapping (libraries : Libraries) (path : String) :
    ExceptT LoadError m (List (Value × Value)) := do
  match ← (Host.readFile path : m _) with
  | .error e => throw (.file e)
  | .ok content =>
      match content.decode? with
      | none => throw .undecodable
      | some t => liftExcept (mappingOf libraries path t)
where
  liftExcept {α : Type} : Except LoadError α → ExceptT LoadError m α := fun e => ExceptT.mk (pure e)

def load (libraries : Libraries) (path : String) : ExceptT LoadError m Project := do
  if ← (Host.isFile (Path.ofText path).toText : m Bool) then
    let entries ← loadMapping libraries path
    match ofValue libraries.compile (.map entries) (some path) with
    | .ok project => return project
    | .error e => throw (.ofConfiguration e)
  else throw (.configuration (.invalid [.fileNotFound path] (some path)))

def firstFile : List String → m (Option String)
  | [] => return none
  | p :: rest => do
      if ← Host.isFile p then return some p else firstFile rest

/-- The nearest project file in a directory or above it. -/
def find (start : String) : m (Option String) := do
  let here := Path.ofText (← Host.workingDirectory)
  let directory := (here.append (Path.ofText start)).simplify
  firstFile (directory.ancestors.map fun d =>
    (d.append { parts := [Settings.projectFile] }).toText)

end Project
end ImportOrder
