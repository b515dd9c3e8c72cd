/-!
The constants of the tool: option names, tokens, message templates, labels and limits.
-/

namespace ImportOrder.Settings

/-! ### Options of a policy -/

def order : String := "order"
def groups : String := "groups"
def emptyLines : String := "empty-line-between-groups"
def ignoreAlphabeticalSort : String := "ignore-alphabetical-sort"
def ignoreInGroupSort : String := "ignore-in-group-sort"
def ignoreMembersSort : String := "ignore-members-sort"

/-! ### Tokens -/

def everythingElse : String := "everything-else"
def regexDelimiter : Char := '/'

/-! ### Messages -/

def wrongOrder : String :=
  "Expected import from '\x7bcurrent\x7d' to come before import from '\x7bprevious\x7d'."
def missingBlankLine : String := "Expected an empty line before import from '\x7bsource\x7d'."
def wrongMemberOrder : String :=
  "Member '\x7bspecifier\x7d' of the import declaration should be sorted alphabetically."
def fixWrongOrder : String := "Move this import above the import from '\x7bprevious\x7d'."
def fixMissingBlankLine : String := "Insert an empty line above this import."
def fixWrongMemberOrder : String := "Sort the imported names alphabetically."
def configInvalid : String := "Invalid importgate configuration\x7blocation\x7d:"
def configMissingOrder : String := "'order' is required and must be a non-empty list of strings"
def configUnknownKey : String := "Unknown option \x7bkey!r\x7d; expected one of: \x7bexpected\x7d"
def configWrongType : String := "Option \x7bkey!r\x7d must be \x7bexpected\x7d, got \x7bactual\x7d"
def configGroupReference : String :=
  "Group \x7bgroup!r\x7d references group \x7bname!r\x7d; groups cannot be nested"
def configNotFound : String := "Configuration file not found: \x7bpath\x7d"
def patternError : String := "Invalid regular expression \x7btoken!r\x7d: \x7berror\x7d"
def parseError : String := "Failed to parse \x7bfilepath\x7d: \x7berror\x7d"
def syntaxError : String := "<syntax error>"
def invariantGroupIndex : String :=
  "Statement \x7bindex\x7d classified into group \x7bgroup_index\x7d, outside [0, \x7blimit\x7d]"
def invariantCount : String := "Classified \x7bactual\x7d statements, expected \x7bexpected\x7d"
def fixPrefix : String := "Fix: "
def fileNotFound : String := "importgate: cannot read \x7bpath\x7d: \x7berror\x7d"
def fixedFile : String := "importgate: fixed \x7bpath\x7d (\x7bcount\x7d edit(s) applied)"

/-! ### Project file -/

def projectKeys : List String := ["policy", "logging"]
def projectFile : String := ".importgate.yaml"
def logDirectory : String := ".importgate/logs"
def loggingEnabled : Bool := false

/-! ### Results -/

def passed : String := "passed"
def failed : String := "failed"
def exitOk : Nat := 0
def exitViolations : Nat := 1
def exitError : Nat := 2
def maxFixPasses : Nat := 50
def plainFormat : String := "stderr"
def jsonFormat : String := "json"
def defaultFormat : String := plainFormat
def stdinName : String := "<stdin>"

/-! ### Check log -/

def checkLog : String := "importgate_checks.jsonl"
def hashPrefix : String := "sha256:"
def hashLength : Nat := 16

/-! ### Formatting -/

def barChar : Char := '-'
def barWidth : Nat := 60
def jsonIndent : Nat := 2
def unmatchedToken : String := "(everything-else)"
def fileLine : String := "\x7bfilepath\x7d:\x7bline\x7d:\x7bcolumn\x7d"
def classificationRow : String :=
  "\x7bline:>5\x7d  \x7bsource:<40\x7d \x7btoken:<24\x7d group=\x7bgroup_index\x7d sub=\x7bsub_index\x7d"
def classificationHeader : String :=
  "\x7bline:>5\x7d  \x7bsource:<40\x7d \x7btoken:<24\x7d indexes"
def labelViolations : String := "Violations:"
def labelFiles : String := "Files checked:"
def labelFixable : String := "fixable"
def labelClean : String := "All imports are in order."

/-! ### Command line -/

def program : String := "importgate"
def version : String := "0.1.0"
def description : String := "Check and fix import ordering against a configurable policy."

end ImportOrder.Settings
