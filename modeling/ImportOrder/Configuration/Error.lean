import ImportOrder.Pattern
import ImportOrder.Template
import ImportOrder.Value

/-!
What can be wrong with a policy or a project file. All problems of a file are reported together;
a breakdown of the compiler of patterns is not reported at all.
-/

namespace ImportOrder

inductive Problem where
  | policyNotMapping (kind : String)
  | unknownOption (key : Value) (known : List String)
  | missingOrder
  | wrongType (option expected actual : String)
  | nestedGroup (group name : String)
  | projectNotMapping (kind : String)
  | missingPolicy
  | loggingNotMapping (kind : String)
  | enabledNotBool (kind : String)
  | directoryNotString (kind : String)
  | fileNotFound (path : String)
  | notYaml
  | notMapping (kind : String)

def Problem.message : Problem → String
  | .policyNotMapping kind => "Policy must be a mapping, got " ++ kind
  | .unknownOption key known =>
      Template.format Settings.configUnknownKey
        [("key!r", key.quoted), ("expected", ", ".intercalate known)]
  | .missingOrder => Settings.configMissingOrder
  | .wrongType option expected actual =>
      Template.format Settings.configWrongType
        [("key!r", Text.quoted option), ("expected", expected), ("actual", actual)]
  | .nestedGroup group name =>
      Template.format Settings.configGroupReference
        [("group!r", Text.quoted group), ("name!r", Text.quoted name)]
  | .projectNotMapping kind => "Project config must be a mapping, got " ++ kind
  | .missingPolicy => "Missing required key: 'policy'"
  | .loggingNotMapping kind => "'logging' must be a mapping, got " ++ kind
  | .enabledNotBool kind => "logging.enabled must be a boolean, got " ++ kind
  | .directoryNotString kind => "logging.directory must be a string, got " ++ kind
  | .fileNotFound path => Template.format Settings.configNotFound [("path", path)]
  | .notYaml => "<yaml error>"
  | .notMapping kind => "Top level must be a mapping, got " ++ kind

/-- Why a configuration was refused: problems with its form, or a pattern that cannot be read. -/
inductive ConfigurationError where
  | invalid (problems : List Problem) (path : Option String)
  | badPattern (error : PatternError)

namespace ConfigurationError

def errors : ConfigurationError → List String
  | .invalid problems _ => problems.map (·.message)
  | .badPattern e =>
      [Template.format Settings.patternError
        [("token!r", Text.quoted e.token),
          ("error", e.error.message (Pattern.interior e.token))]]

def path : ConfigurationError → Option String
  | .invalid _ path => path
  | .badPattern _ => none

/-- A header with the file, and a line for each error. -/
def message (e : ConfigurationError) : String :=
  let location := match e.path with
    | some p => if p.isEmpty then "" else " in " ++ p
    | none => ""
  "\n".intercalate
    (Template.format Settings.configInvalid [("location", location)] ::
      e.errors.map ("  - " ++ ·))

end ConfigurationError

/-- A configuration is refused, or the compiler breaks down on one of its patterns. -/
inductive ConfigurationFailure where
  | refused (error : ConfigurationError)
  | breakdown (breakdown : Regex.Breakdown)

def ConfigurationFailure.ofPattern : Pattern.Failure → ConfigurationFailure
  | .error e => .refused (.badPattern e)
  | .breakdown b => .breakdown b

end ImportOrder
