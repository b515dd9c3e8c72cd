import ImportOrder.Text.Quoted
import ImportOrder.Text.Word

/-!
Reading the arguments of a command line.

Options and positional arguments may be mixed. The positional arguments are taken where the first
of them stands, as many as fit there. A long option may be shortened as long as no other one has
that start, and takes its value after an equals sign or from the next argument.
-/

namespace ImportOrder.Command

inductive OptionKind where
  | help
  | version
  | flag
  /-- Takes a value, one of the choices if there are any. -/
  | value (choices : List String)
deriving DecidableEq, Repr

structure OptionSpec where
  names : List String
  kind : OptionKind
deriving DecidableEq, Repr

inductive Positional where
  /-- Any number of arguments. -/
  | many
  /-- Exactly one. -/
  | one (name : String)
  /-- One of some commands, and all that follows it. -/
  | command (name : String) (choices : List String)
deriving DecidableEq, Repr

/-- What a command accepts and how it explains itself. -/
structure Spec where
  program : String
  usage : String
  /-- The help text after the usage. -/
  details : String
  version : String := ""
  options : List OptionSpec
  positional : Positional

/-- Why reading the arguments ends the program. -/
inductive Stop where
  /-- A text that was asked for. -/
  | shown (text : String)
  /-- A message about the arguments, after the usage. -/
  | refused (text : String)
deriving DecidableEq, Repr

/-- The arguments, read. -/
structure Parsed where
  flags : List String := []
  values : List (String × String) := []
  /-- The positional arguments, once they are taken. -/
  taken : Option (List String) := none
  /-- Arguments that nothing accepts. -/
  extras : List String := []
deriving Repr

namespace Parsed

def isSet (p : Parsed) (flag : String) : Bool := p.flags.contains flag

/-- The value of an option; the last one counts. -/
def value? (p : Parsed) (option : String) : Option String := p.values.lookup option

end Parsed

/-- A value written into the same argument as its option. -/
structure Written where
  /-- An equals sign stands before it. -/
  separated : Bool
  text : String
deriving DecidableEq, Repr

/-- What an argument is: the dashes that end the options, an option, perhaps an unknown one, or
anything else. -/
inductive Role where
  | plain
  | separator
  | option (spec : Option OptionSpec) (name : String) (written : Option Written)
deriving DecidableEq, Repr

namespace Spec

def refuse {α : Type} (s : Spec) (message : String) : Except Stop α :=
  .error (.refused (s.usage ++ s.program ++ ": error: " ++ message ++ "\n"))

def refuseArgument {α : Type} (s : Spec) (name message : String) : Except Stop α :=
  s.refuse ("argument " ++ name ++ ": " ++ message)

def refuseOption {α : Type} (s : Spec) (o : OptionSpec) (message : String) : Except Stop α :=
  s.refuseArgument ("/".intercalate o.names) message

def help (s : Spec) : String := s.usage ++ "\n" ++ s.details

/-! ### What an argument is -/

def named (s : Spec) : List (String × OptionSpec) :=
  s.options.flatMap fun o => o.names.map (·, o)

/-- The text before the first equals sign, and the text after it. -/
def splitValue (argument : String) : String × Option String :=
  let t := argument.toList
  let name := t.takeWhile (· != '=')
  match t.drop name.length with
  | [] => (argument, none)
  | _ :: value => (String.ofList name, some (String.ofList value))

/-- The options that an argument may mean which is no option's full name. -/
def candidates (s : Spec) (argument : String) : List (OptionSpec × String × Option Written) :=
  if argument.startsWith "--" then
    let (start, value) := splitValue argument
    s.named.filterMap fun (name, o) =>
      if start.toList.isPrefixOf name.toList then some (o, name, value.map (⟨true, ·⟩)) else none
  else
    s.named.filterMap fun (name, o) =>
      if name.toList == argument.toList.take 2 then
        some (o, name, some ⟨false, String.ofList (argument.toList.drop 2)⟩)
      else if argument.toList.isPrefixOf name.toList then some (o, name, none)
      else none

/-- A minus sign and a decimal number. -/
def isNegativeNumber (argument : String) : Bool :=
  match argument.toList with
  | '-' :: t =>
      let rest := t.dropWhile Text.isDecimal
      match rest with
      | [] => !t.isEmpty
      | '.' :: places => !places.isEmpty && places.all Text.isDecimal
      | _ => false
  | _ => false

def roleOf (s : Spec) (argument : String) : Except Stop Role :=
  if !argument.startsWith "-" then .ok .plain
  else match s.named.lookup argument with
    | some o => .ok (.option (some o) argument none)
    | none =>
        if argument == "-" then .ok .plain
        else
          let (start, value) := splitValue argument
          match value, s.named.lookup start with
          | some v, some o => .ok (.option (some o) start (some ⟨true, v⟩))
          | _, _ =>
              match s.candidates argument with
              | [] =>
                  if isNegativeNumber argument || argument.contains ' ' then .ok .plain
                  else .ok (.option none argument none)
              | [(o, name, written)] => .ok (.option (some o) name written)
              | several =>
                  s.refuse ("ambiguous option: " ++ argument ++ " could match " ++
                    ", ".intercalate (several.map (·.2.1)))

/-- The arguments with what they are. After the separator all are plain. -/
def roles (s : Spec) : List String → Except Stop (List (String × Role))
  | [] => .ok []
  | a :: rest =>
      if a == "--" then .ok ((a, .separator) :: rest.map (·, .plain))
      else do
        let role ← s.roleOf a
        return (a, role) :: (← s.roles rest)

/-! ### Taking arguments -/

def Role.isOption : Role → Bool
  | .option .. => true
  | _ => false

/-- How many of the arguments in front the positional ones take, if they can be taken here. -/
def reach (s : Spec) (arguments : List (String × Role)) : Option Nat :=
  let roles := arguments.map (·.2)
  match s.positional with
  | .many => some (roles.takeWhile (!Role.isOption ·)).length
  | .one _ =>
      let lead := (roles.takeWhile (· == .separator)).length
      match roles.drop lead with
      | .plain :: rest => some (lead + 1 + (rest.takeWhile (· == .separator)).length)
      | _ => none
  | .command .. =>
      match roles.drop (roles.takeWhile (· == .separator)).length with
      | .plain :: _ => some roles.length
      | _ => none

def checkChoice (s : Spec) (name : String) (choices : List String) (value : String) :
    Except Stop Unit :=
  if choices.isEmpty || choices.contains value then .ok ()
  else
    s.refuseArgument name
      ("invalid choice: " ++ Text.quoted value ++ " (choose from " ++
        ", ".intercalate (choices.map Text.quoted) ++ ")")

/-- Takes the positional arguments from the front, if it is their turn. -/
def takePositional (s : Spec) (p : Parsed) (arguments : List (String × Role)) :
    Except Stop (Parsed × List (String × Role)) :=
  match p.taken, s.reach arguments with
  | none, some n => do
      let strings := (arguments.take n).map (·.1)
      let strings ← match s.positional with
        | .command name choices => do
            s.checkChoice name choices (strings.headD "")
            pure strings
        | _ => pure (strings.erase "--")
      return ({ p with taken := some strings }, arguments.drop n)
  | _, _ => .ok (p, arguments)

/-- The letters after a short option that takes no value are further short options; here, all that
matters is whether they are refused. `initial` is the letter of the option itself. -/
def clusterFault (initial : Char) : Bool → List Char → Option String
  | _, [] => some ""
  | separated, c :: rest =>
      if separated || c == '-' then some (String.ofList (c :: rest))
      else if c == initial then
        match rest with
        | [] => none
        | '=' :: value => clusterFault initial true value
        | d :: more => clusterFault initial false (d :: more)
      else none

/-- The value written into an option that takes none. -/
def refuseWritten (s : Spec) (o : OptionSpec) (name : String) (w : Written) : Except Stop Unit :=
  let fault := match name.toList with
    | ['-', initial] => if initial == '-' then some w.text else clusterFault initial w.separated w.text.toList
    | _ => some w.text
  match fault with
  | some text => s.refuseOption o ("ignored explicit argument " ++ Text.quoted text)
  | none => .ok ()

/-- Takes an option, with its value from the arguments after it if it needs one. -/
def takeOption (s : Spec) (p : Parsed) (o : OptionSpec) (name : String) (written : Option Written)
    (rest : List (String × Role)) : Except Stop (Parsed × List (String × Role)) := do
  match o.kind with
  | .value choices =>
      let full := o.names.headD name
      match written, rest with
      | some w, _ =>
          s.checkChoice full choices w.text
          return ({ p with values := (full, w.text) :: p.values }, rest)
      | none, (a, .plain) :: rest =>
          s.checkChoice full choices a
          return ({ p with values := (full, a) :: p.values }, rest)
      | none, _ => s.refuseOption o "expected one argument"
  | .flag =>
      if let some w := written then s.refuseWritten o name w
      return ({ p with flags := o.names.headD name :: p.flags }, rest)
  | .help =>
      if let some w := written then s.refuseWritten o name w
      throw (.shown s.help)
  | .version =>
      if let some w := written then s.refuseWritten o name w
      throw (.shown s.version)

/-- Takes all arguments; `fuel` bounds the number of steps. -/
def takeAll (s : Spec) : Nat → Parsed → List (String × Role) → Except Stop Parsed
  | 0, p, _ => .ok p
  | fuel + 1, p, arguments =>
      if arguments.any (Role.isOption ·.2) then
        match arguments with
        | (a, .option spec name written) :: rest =>
            match spec with
            | none => s.takeAll fuel { p with extras := p.extras ++ [a] } rest
            | some o => do
                let (p, rest) ← s.takeOption p o name written rest
                s.takeAll fuel p rest
        | (a, _) :: rest => do
            let (p', left) ← s.takePositional p arguments
            if left.length < arguments.length then s.takeAll fuel p' left
            else s.takeAll fuel { p' with extras := p'.extras ++ [a] } rest
        | [] => .ok p
      else do
        let (p, left) ← s.takePositional p arguments
        return { p with extras := p.extras ++ left.map (·.1) }

/-- Reads the arguments of a command. What it does not accept is among the extras. -/
def parse (s : Spec) (arguments : List String) : Except Stop Parsed := do
  let roles ← s.roles arguments
  let p ← s.takeAll (2 * roles.length + 2) {} roles
  match s.positional, p.taken with
  | .one name, none => s.refuse ("the following arguments are required: " ++ name)
  | _, _ => return p

end Spec
end ImportOrder.Command
