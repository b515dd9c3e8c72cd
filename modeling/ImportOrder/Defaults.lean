import ImportOrder.Settings
import ImportOrder.Value

/-!
The constants of the tool as a mapping that is read from a file once, on the first request, and
kept. Values are asked for by names with dots between them.
-/

namespace ImportOrder.Defaults

def mapping (entries : List (String × Value)) : Value :=
  .map (entries.map fun (k, v) => (.str k, v))

def texts (entries : List (String × String)) : Value :=
  mapping (entries.map fun (k, v) => (k, .str v))

def strings (items : List String) : Value := .list (items.map .str)

/-- What the file holds that comes with the tool. -/
def shipped : Value :=
  mapping [
    ("options", texts [
      ("order", Settings.order),
      ("groups", Settings.groups),
      ("empty_lines", Settings.emptyLines),
      ("ignore_alphabetical_sort", Settings.ignoreAlphabeticalSort),
      ("ignore_in_group_sort", Settings.ignoreInGroupSort),
      ("ignore_members_sort", Settings.ignoreMembersSort)]),
    ("tokens", texts [
      ("everything_else", Settings.everythingElse),
      ("regex_delimiter", Settings.regexDelimiter.toString)]),
    ("messages", texts [
      ("wrong_order", Settings.wrongOrder),
      ("missing_blank_line", Settings.missingBlankLine),
      ("wrong_member_order", Settings.wrongMemberOrder),
      ("fix_wrong_order", Settings.fixWrongOrder),
      ("fix_missing_blank_line", Settings.fixMissingBlankLine),
      ("fix_wrong_member_order", Settings.fixWrongMemberOrder),
      ("config_invalid", Settings.configInvalid),
      ("config_missing_order", Settings.configMissingOrder),
      ("config_unknown_key", Settings.configUnknownKey),
      ("config_wrong_type", Settings.configWrongType),
      ("config_group_reference", Settings.configGroupReference),
      ("config_not_found", Settings.configNotFound),
      ("pattern_error", Settings.patternError),
      ("parse_error", Settings.parseError),
      ("invariant_group_index", Settings.invariantGroupIndex),
      ("invariant_count", Settings.invariantCount),
      ("fix_prefix", Settings.fixPrefix),
      ("file_not_found", Settings.fileNotFound),
      ("fixed_file", Settings.fixedFile)]),
    ("project", mapping [("allowed_keys", strings Settings.projectKeys)]),
    ("statuses", texts [("passed", Settings.passed), ("failed", Settings.failed)]),
    ("formats", texts [
      ("default", Settings.defaultFormat),
      ("stderr", Settings.plainFormat),
      ("json", Settings.jsonFormat)]),
    ("exit_codes", mapping [
      ("ok", .int Settings.exitOk),
      ("violations", .int Settings.exitViolations),
      ("error", .int Settings.exitError)]),
    ("filenames", texts [
      ("project_config", Settings.projectFile),
      ("check_log", Settings.checkLog)]),
    ("defaults", mapping [
      ("max_fix_passes", .int Settings.maxFixPasses),
      ("json_indent", .int Settings.jsonIndent),
      ("hash_truncation_length", .int Settings.hashLength),
      ("stdin_filename", .str Settings.stdinName),
      ("logging_enabled", .bool Settings.loggingEnabled),
      ("log_directory", .str Settings.logDirectory)]),
    ("formatting", mapping [
      ("summary_bar_char", .str Settings.barChar.toString),
      ("summary_bar_width", .int Settings.barWidth),
      ("json_separators", strings [",", ":"]),
      ("hash_prefix", .str Settings.hashPrefix),
      ("file_line_template", .str Settings.fileLine),
      ("classification_row", .str Settings.classificationRow),
      ("classification_header", .str Settings.classificationHeader),
      ("unmatched_token", .str Settings.unmatchedToken)]),
    ("labels", texts [
      ("violations", Settings.labelViolations),
      ("files", Settings.labelFiles),
      ("fixable", Settings.labelFixable),
      ("clean", Settings.labelClean)]),
    ("cli", texts [
      ("prog_name", Settings.program),
      ("description", Settings.description)])]

inductive Error where
  | noFile
  | notMapping (kind : String)
  | missing (key segment : String)
  | wrongKind (expected key actual : String)
deriving DecidableEq, Repr

/-- The text of an error, unless it is for the system to word. -/
def Error.message? : Error → Option String
  | .noFile => none
  | .notMapping kind => some ("defaults.yaml must be a YAML mapping, got " ++ kind)
  | .missing key segment =>
      some ("Config key not found: " ++ Text.quoted key ++ " (missing segment: " ++
        Text.quoted segment ++ ")")
  | .wrongKind expected key actual =>
      some ("Expected " ++ expected ++ " for " ++ Text.quoted key ++ ", got " ++ actual)

/-- The file, if there is one, and what has been read from it. -/
structure Store where
  file : Option Value := some shipped
  kept : Option (List (Value × Value)) := none

namespace Store

/-- What is kept, or what the file holds now, which is then kept. -/
def load (s : Store) : Except Error (List (Value × Value)) × Store :=
  match s.kept with
  | some entries => (.ok entries, s)
  | none =>
      match s.file with
      | none => (.error .noFile, s)
      | some (.map entries) => (.ok entries, { s with kept := some entries })
      | some v => (.error (.notMapping v.kind), s)

def reset (s : Store) : Store := { s with kept := none }

/-- Follows segments into nested mappings. -/
def descend (key : String) : List String → Value → Except Error Value
  | [], v => .ok v
  | segment :: rest, .map entries =>
      match Value.field segment entries with
      | some v => descend key rest v
      | none => .error (.missing key segment)
  | segment :: _, _ => .error (.missing key segment)

/-- The value under a name with dots. -/
def get (s : Store) (key : String) : Except Error Value × Store :=
  let (loaded, s) := s.load
  (loaded.bind fun entries => descend key (key.splitOn ".") (.map entries), s)

/-- The kinds of value that can be asked for. -/
inductive Kind where
  | text
  | whole
  | truth
  | list
deriving DecidableEq, Repr

namespace Kind

def name : Kind → String
  | .text => "str"
  | .whole => "int"
  | .truth => "bool"
  | .list => "list"

def holds : Kind → Value → Bool
  | .text, .str _ => true
  | .whole, .int _ => true
  | .truth, .bool _ => true
  | .list, .list _ => true
  | _, _ => false

end Kind

/-- The value under a name, which must be of a kind. A truth value is no number here. -/
def getAs (s : Store) (kind : Kind) (key : String) : Except Error Value × Store :=
  let (found, s) := s.get key
  (found.bind fun v => if kind.holds v then .ok v else .error (.wrongKind kind.name key v.kind), s)

end Store
end ImportOrder.Defaults
