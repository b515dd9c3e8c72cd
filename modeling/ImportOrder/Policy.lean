import ImportOrder.Configuration.Error

/-!
Ordering policies: a list of group tokens, named groups of sub-patterns, and four switches.
`problems` lists what is wrong with a value that should be a policy; `ofValue` builds the policy
of a value without problems, its patterns compiled.
-/

namespace ImportOrder

structure Policy where
  order : List String
  /-- The tokens of `order`, read. -/
  patterns : List Pattern
  groups : List (String × List Pattern)
  emptyLines : Bool := false
  ignoreAlphabeticalSort : Bool := false
  ignoreInGroupSort : Bool := false
  ignoreMembersSort : Bool := false

namespace Policy

def switches : List String :=
  [Settings.emptyLines, Settings.ignoreAlphabeticalSort, Settings.ignoreInGroupSort,
    Settings.ignoreMembersSort]

def options : List String := Settings.order :: Settings.groups :: switches

/-! ### Problems -/

def optionProblems (entries : List (Value × Value)) : List Problem :=
  entries.filterMap fun (key, _) =>
    if options.any fun o => key.sameKey (.str o) then none else some (.unknownOption key options)

def isOrder : Option Value → Bool
  | some (.list tokens) => !tokens.isEmpty && tokens.all (·.isString)
  | _ => false

def orderProblems (entries : List (Value × Value)) : List Problem :=
  if isOrder (Value.field Settings.order entries) then [] else [.missingOrder]

/-- A token that is no regular expression and equals a group's name would nest groups. -/
def subProblems (groups : List (Value × Value)) (group : String) (sub : Value) : List Problem :=
  match sub with
  | .str token =>
      if !Pattern.isRegexToken token && (Value.field token groups).isSome then
        [.nestedGroup group token]
      else []
  | v =>
      [.wrongType (Settings.groups ++ "." ++ group) "a list of strings"
        ("an entry of type " ++ v.kind)]

def groupProblems (groups : List (Value × Value)) : Value × Value → List Problem
  | (.str group, .list subs) => subs.flatMap (subProblems groups group)
  | (.str group, v) =>
      [.wrongType (Settings.groups ++ "." ++ group) "a list of strings" v.kind]
  | (key, _) => [.wrongType (Settings.groups ++ " name " ++ key.quoted) "a string" key.kind]

def groupsProblems (entries : List (Value × Value)) : List Problem :=
  match Value.field Settings.groups entries with
  | none | some .null => []
  | some (.map groups) => groups.flatMap (groupProblems groups)
  | some v => [.wrongType Settings.groups "a mapping" v.kind]

def switchProblems (entries : List (Value × Value)) (switch : String) : List Problem :=
  match Value.field switch entries with
  | none | some (.bool _) => []
  | some v => [.wrongType switch "a boolean" v.kind]

def problems : Value → List Problem
  | .map entries =>
      optionProblems entries ++ orderProblems entries ++ groupsProblems entries ++
        switches.flatMap (switchProblems entries)
  | v => [.policyNotMapping v.kind]

/-! ### Building a policy -/

/-- The strings of a list, its other items left out. -/
def strings : Value → List String
  | .list items => items.filterMap (·.string?)
  | _ => []

/-- The groups of a policy with their tokens, in the order of the file. -/
def groupTokens (entries : List (Value × Value)) : List (String × List String) :=
  match Value.field Settings.groups entries with
  | some (.map groups) =>
      groups.filterMap fun (name, subs) => name.string?.map fun n => (n, strings subs)
  | _ => []

def switchOn (entries : List (Value × Value)) (switch : String) : Bool :=
  match Value.field switch entries with
  | some (.bool b) => b
  | _ => false

/-- Compiles the patterns of a policy, those of its groups first. -/
def resolve (compile : Regex.Compiler) (entries : List (Value × Value)) :
    Except Pattern.Failure Policy := do
  let tokens := groupTokens entries
  let names := tokens.map (·.1)
  let groups ← tokens.mapM fun (name, subs) => do
    return (name, ← subs.mapM (Pattern.parse compile names))
  let order := strings ((Value.field Settings.order entries).getD .null)
  let patterns ← order.mapM (Pattern.parse compile names)
  return {
    order, patterns, groups
    emptyLines := switchOn entries Settings.emptyLines
    ignoreAlphabeticalSort := switchOn entries Settings.ignoreAlphabeticalSort
    ignoreInGroupSort := switchOn entries Settings.ignoreInGroupSort
    ignoreMembersSort := switchOn entries Settings.ignoreMembersSort }

def ofValue (compile : Regex.Compiler) (data : Value) (path : Option String) :
    Except ConfigurationFailure Policy :=
  match problems data, data with
  | [], .map entries => (resolve compile entries).mapError .ofPattern
  | found, _ => .error (.refused (.invalid found path))

/-! ### Slots -/

/-- The slot of modules that match no token: that of the everything-else token, or the one behind
the last. -/
def everythingElse (p : Policy) : Nat := p.order.idxOf Settings.everythingElse

/-- The token of a slot, for display. -/
def tokenAt (p : Policy) (slot : Nat) : String := p.order[slot]?.getD Settings.unmatchedToken

end Policy
end ImportOrder
