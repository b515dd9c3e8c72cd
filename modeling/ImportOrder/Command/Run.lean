import ImportOrder.CheckLog
import ImportOrder.Command.Usage
import ImportOrder.Project
import ImportOrder.Report

/-!
What the commands do. A command runs on any host and with any libraries. It ends with a code,
unless a text that it reads is not UTF-8, or its project file is one on which YAML or a pattern of
the policy fails in a way that is not reported.
-/

namespace ImportOrder.Command

inductive Ending where
  | exit (code : Nat)
  /-- Something that was read is not UTF-8. -/
  | undecodable
  /-- The project file is YAML from which no value can be made. -/
  | badScalar (error : Yaml.Error)
  /-- The compiler breaks down on a pattern of the policy. -/
  | breakdown (breakdown : Regex.Breakdown)
  /-- Placements do not fit the policy. -/
  | inconsistent (why : Inconsistency)

/-- What ends a command before it is done. -/
inductive Failure where
  | load (error : Project.LoadError)
  | check (file : String) (error : CheckError)
  | file (error : FileError)
  | undecodable

variable {m : Type → Type} [Monad m] [Host m] (libraries : Libraries)

def print (t : String) : ExceptT Failure m Unit := ExceptT.lift (Host.print t)

def report (t : String) : ExceptT Failure m Unit := ExceptT.lift (Host.report t)

/-- Does something that can fail on a file. -/
def onFile {α : Type} (action : m (Except FileError α)) : ExceptT Failure m α := do
  match ← ExceptT.lift action with
  | .ok a => return a
  | .error e => throw (.file e)

def decoded (content : Bytes) : ExceptT Failure m Text :=
  match content.decode? with
  | some t => return t
  | none => throw .undecodable

/-- The project that a path names, or the nearest one. -/
def loadProject (path : Option String) : ExceptT Failure m Project := do
  let load (p : String) : ExceptT Failure m Project := do
    match ← ExceptT.lift (Project.load libraries p).run with
    | .ok project => return project
    | .error e => throw (.load e)
  match path.filter (!·.isEmpty) with
  | some p => load p
  | none =>
      match ← ExceptT.lift (Project.find "") with
      | some p => load p
      | none =>
          throw (.load (.configuration (.invalid [.fileNotFound Settings.projectFile] none)))

/-- Checks or fixes one text and logs what came of it. -/
def examine (project : Project) (fixes : Bool) (file : String) (source : Text) :
    ExceptT Failure m Result := do
  let before ← ExceptT.lift Host.milliseconds
  let outcome := if fixes then (fix libraries.collect project.policy file source).2
    else check libraries.collect project.policy file source
  match outcome with
  | .error e => throw (.check file e)
  | .ok result =>
      let after ← ExceptT.lift Host.milliseconds
      let entry : CheckLog.Entry :=
        { file
          status := result.status
          violations := result.violations
          imports := result.statementCount
          source := result.fixed.getD source
          milliseconds := after - before
          isFix := 0 < result.fixesApplied }
      onFile (CheckLog.append project.logDirectory entry).run
      return result

def cannotRead (path : String) (e : FileError) : String :=
  Template.format Settings.fileNotFound [("path", path), ("error", e.message)] ++ "\n"

/-- Puts the fixed text into its file, if it differs from what was there. -/
def store (file : String) (source : Text) (result : Result) : ExceptT Failure m Unit := do
  match result.fixed with
  | some t =>
      if t != source then
        onFile (Host.writeFile file (Bytes.ofText t))
        report (Template.format Settings.fixedFile
          [("path", file), ("count", toString result.fixesApplied)] ++ "\n")
  | none => return

/-- One file of a list: its result, or nothing if it could not be read or parsed. -/
def checkFile (project : Project) (fixes : Bool) (file : String) :
    ExceptT Failure m (Option Result) := do
  match ← ExceptT.lift (Host.readFile file) with
  | .error e =>
      report (cannotRead file e)
      return none
  | .ok content =>
      let source ← decoded content
      match ← ExceptT.lift (examine libraries project fixes file source).run with
      | .ok result =>
          if fixes then store file source result
          return some result
      | .error (.check file .unparsed) =>
          report ("  " ++ CheckError.message file .unparsed ++ "\n")
          return none
      | .error e => throw e

/-- Results on the standard error output. -/
def present (asJson : Bool) (results : List Result) : ExceptT Failure m Unit :=
  if asJson then
    report (String.ofList ((Report.toJson results).indented Settings.jsonIndent 0) ++ "\n")
  else
    report ("\n\n".intercalate (Report.violationLines results ++ [Report.summary results]) ++ "\n")

def exitCode (failed : Bool) (results : List Result) : Nat :=
  if failed then Settings.exitError
  else if results.any (!·.passed) then Settings.exitViolations
  else Settings.exitOk

def checkInput (project : Project) (o : CheckOptions) : ExceptT Failure m Nat := do
  let name := (o.inputName.filter (!·.isEmpty)).getD Settings.stdinName
  let source ← decoded (← ExceptT.lift Host.readInput)
  let result ← examine libraries project o.fixes name (Text.unifyBreaks source)
  if o.fixes then
    if let some t := result.fixed then print (String.ofList t)
  present o.asJson [result]
  return exitCode false [result]

def runCheck (o : CheckOptions) : ExceptT Failure m Nat := do
  let project ← loadProject libraries o.config
  if o.readsInput then checkInput libraries project o
  else if o.files.isEmpty then
    report "importgate: no files given (use FILE... or --stdin)\n"
    return Settings.exitError
  else
    let results ← o.files.mapM (checkFile libraries project o.fixes)
    present o.asJson (results.filterMap id)
    return exitCode (results.any (·.isNone)) (results.filterMap id)

def runExplain (config : Option String) (file : String) : ExceptT Failure m Nat := do
  let project ← loadProject libraries config
  let source ← decoded (← onFile (Host.readFile file))
  match libraries.collect source with
  | none => throw (.check file .unparsed)
  | some found =>
      print (Report.table project.policy found.statements ++ "\n")
      return Settings.exitOk

/-- What a failure says and how it ends the command. -/
def conclude : Failure → m Ending
  | .load (.configuration e) => do
      Host.report (e.message ++ "\n")
      return .exit Settings.exitError
  | .load (.file e) => fileFault e
  | .load .undecodable => return .undecodable
  | .load (.badScalar e) => return .badScalar e
  | .load (.breakdown b) => return .breakdown b
  | .check _ (.inconsistent why) => return .inconsistent why
  | .check file .unparsed => do
      Host.report ("  " ++ CheckError.message file .unparsed ++ "\n")
      return .exit Settings.exitError
  | .file e => fileFault e
  | .undecodable => return .undecodable
where
  fileFault (e : FileError) : m Ending := do
    Host.report (cannotRead e.path e)
    return .exit Settings.exitError

def Request.run : Request → ExceptT Failure m Nat
  | .check o => runCheck libraries o
  | .explain config file => runExplain libraries config file
  | .overview => do
      print mainSpec.help
      return Settings.exitOk

def run (arguments : List String) : m Ending := do
  match Request.ofArguments arguments with
  | .error (.shown t) =>
      Host.print t
      return .exit Settings.exitOk
  | .error (.refused t) =>
      Host.report t
      return .exit Settings.exitError
  | .ok request =>
      match ← (request.run libraries).run with
      | .ok code => return .exit code
      | .error e => conclude e

end ImportOrder.Command
