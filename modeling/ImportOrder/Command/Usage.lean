import ImportOrder.Command.Arguments
import ImportOrder.Settings

/-!
The commands of the tool, their options and their help texts.
-/

namespace ImportOrder.Command

def lines (ls : List String) : String := String.join (ls.map (· ++ "\n"))

def helpOption : OptionSpec := ⟨["-h", "--help"], .help⟩

def configOption : OptionSpec := ⟨["--config"], .value []⟩

def mainSpec : Spec where
  program := Settings.program
  usage := lines ["usage: importgate [-h] [--version] \x7bcheck,explain\x7d ..."]
  details := lines
    [Settings.description,
     "",
     "positional arguments:",
     "  \x7bcheck,explain\x7d  Available commands",
     "    check          Check import order",
     "    explain        Show the group each import falls into",
     "",
     "options:",
     "  -h, --help       show this help message and exit",
     "  --version        show program's version number and exit"]
  version := lines [Settings.program ++ " " ++ Settings.version]
  options := [helpOption, ⟨["--version"], .version⟩]
  positional := .command "command" ["check", "explain"]

def checkSpec : Spec where
  program := Settings.program ++ " check"
  usage := lines
    ["usage: importgate check [-h] [--config CONFIG] [--fix]",
     "                        [--format \x7bstderr,json\x7d] [--stdin]",
     "                        [--filename FILENAME]",
     "                        [files ...]"]
  details := lines
    ["positional arguments:",
     "  files                 Python files to check",
     "",
     "options:",
     "  -h, --help            show this help message and exit",
     "  --config CONFIG       Path to .importgate.yaml",
     "  --fix                 Rewrite files with fixes applied",
     "  --format \x7bstderr,json\x7d",
     "                        Output format",
     "  --stdin               Read code from stdin",
     "  --filename FILENAME   Filename to use when reading from stdin"]
  options :=
    [helpOption, configOption, ⟨["--fix"], .flag⟩,
     ⟨["--format"], .value [Settings.plainFormat, Settings.jsonFormat]⟩, ⟨["--stdin"], .flag⟩,
     ⟨["--filename"], .value []⟩]
  positional := .many

def explainSpec : Spec where
  program := Settings.program ++ " explain"
  usage := lines ["usage: importgate explain [-h] [--config CONFIG] file"]
  details := lines
    ["positional arguments:",
     "  file             Python file to classify",
     "",
     "options:",
     "  -h, --help       show this help message and exit",
     "  --config CONFIG  Path to .importgate.yaml"]
  options := [helpOption, configOption]
  positional := .one "file"

structure CheckOptions where
  config : Option String := none
  fixes : Bool := false
  asJson : Bool := false
  readsInput : Bool := false
  inputName : Option String := none
  files : List String := []
deriving DecidableEq, Repr

/-- What a command line asks for. -/
inductive Request where
  | check (options : CheckOptions)
  | explain (config : Option String) (file : String)
  /-- The help text of the tool. -/
  | overview
deriving DecidableEq, Repr

def CheckOptions.ofParsed (p : Parsed) : CheckOptions :=
  { config := p.value? "--config"
    fixes := p.isSet "--fix"
    asJson := (p.value? "--format").getD Settings.defaultFormat == Settings.jsonFormat
    readsInput := p.isSet "--stdin"
    inputName := p.value? "--filename"
    files := p.taken.getD [] }

def refuseExtras (extras : List String) : Except Stop Unit :=
  if extras.isEmpty then .ok ()
  else mainSpec.refuse ("unrecognized arguments: " ++ " ".intercalate extras)

def Request.ofArguments (arguments : List String) : Except Stop Request := do
  let p ← mainSpec.parse arguments
  match p.taken with
  | some ("check" :: rest) =>
      let q ← checkSpec.parse rest
      refuseExtras (p.extras ++ q.extras)
      return .check (.ofParsed q)
  | some ("explain" :: rest) =>
      let q ← explainSpec.parse rest
      refuseExtras (p.extras ++ q.extras)
      return .explain (q.value? "--config") ((q.taken.getD []).headD "")
  | _ =>
      refuseExtras p.extras
      return .overview

end ImportOrder.Command
