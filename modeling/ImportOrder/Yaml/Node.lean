import ImportOrder.Yaml.Layout
import ImportOrder.Yaml.Scalar

/-!
The nodes of a document: scalars, sequences and mappings, each with its tag. References are
replaced by the nodes they stand for.
-/

namespace ImportOrder.Yaml

inductive Node where
  | scalar (tag : String) (text : Text)
  | sequence (tag : String) (items : List Node)
  | mapping (tag : String) (entries : List (Node × Node))

def Node.empty : Node := .scalar Tag.null []

/-- What is left to read, the handles of tags, and the anchors so far; one whose node is not
complete has none yet. -/
structure Composition where
  tokens : List Token
  handles : List (String × String) := []
  anchors : List (String × Option Node) := []

abbrev Composing := StateT Composition (Except Error)

namespace Composing

def next? : Composing (Option Token) := return (← get).tokens.head?

def skip : Composing Unit := modify fun s => { s with tokens := s.tokens.tail }

def malformed {α : Type} : Composing α := throw .malformed

def take? (t : Token) : Composing Bool := do
  if (← next?) == some t then
    skip
    return true
  else return false

def expect (t : Token) : Composing Unit := do
  if !(← take? t) then malformed

def nextIsOne (ts : List Token) : Composing Bool := do
  return (← next?).any ts.contains

/-- Repeats a step while it asks for more, at most `fuel` times. -/
def repeatUpTo {α : Type} (step : α → Composing (α × Bool)) : Nat → α → Composing α
  | 0, _ => malformed
  | fuel + 1, a => do
      let (b, more) ← step a
      if more then repeatUpTo step fuel b else return b

/-- Repeats a step while it asks for more. All but the last repetition take a token. -/
def iterate {α : Type} (step : α → Composing (α × Bool)) (a : α) : Composing α := do
  repeatUpTo step ((← get).tokens.length + 2) a

/-- Where a node stands: block collections are possible in block context only, and the items of a
sequence without indentation only as the value of a block mapping. -/
inductive Context where
  | flow
  | block
  | indentless
deriving DecidableEq

/-- The anchor and the tag before a node, in either order. -/
def properties : Composing (Option String × Option (Option String × String)) := do
  let anchor : Composing (Option String) := do
    match ← next? with
    | some (.anchor name) => skip; return some name
    | _ => return none
  let tag : Composing (Option (Option String × String)) := do
    match ← next? with
    | some (.tag handle suffix) => skip; return some (handle, suffix)
    | _ => return none
  match ← anchor with
  | some a => return (some a, ← tag)
  | none =>
      match ← tag with
      | some t => return (← anchor, some t)
      | none => return (none, none)

/-- A tag with its handle written out. -/
def fullTag : Option String × String → Composing String
  | (none, suffix) => return suffix
  | (some handle, suffix) => do
      match (← get).handles.lookup handle with
      | some start => return start ++ suffix
      | none => malformed

/-- A node that may be missing before some tokens. -/
def nodeUnless (node : Composing Node) (ends : List Token) : Composing Node := do
  if ← nextIsOne ends then return .empty else node

/-- The items of a block sequence, up to what ends it. -/
def items (node : Composing Node) (ends : List Token) : Composing (List Node) :=
  iterate (fun items => do
    if ← take? .item then return (items ++ [← nodeUnless node ends], true)
    else return (items, false)) []

/-- The value of an entry, if it has a colon. -/
def valueUnless (node : Composing Node) (ends : List Token) : Composing Node := do
  if ← take? .value then nodeUnless node ends else return .empty

/-- The entries of a block mapping, up to its end. -/
def blockEntries (node : Composing Node) : Composing (List (Node × Node)) := do
  let ends := [Token.key, Token.value, Token.blockEnd]
  let entries ← iterate (fun entries => do
    if ← take? .key then
      let k ← nodeUnless node ends
      let v ← valueUnless node ends
      return (entries ++ [(k, v)], true)
    else return (entries, false)) []
  expect .blockEnd
  return entries

/-- What stands between commas up to a closing bracket. -/
def commaSeparated {α : Type} (part : Composing α) (close : Token) : Composing (List α) :=
  iterate (fun parts => do
    if ← take? close then return (parts, false)
    else
      if !parts.isEmpty then expect .comma
      if ← take? close then return (parts, false)
      else return (parts ++ [← part], true)) []

/-- An element of a flow sequence; a key makes it a mapping of one entry. -/
def flowItem (node : Composing Node) : Composing Node := do
  if ← take? .key then
    let k ← nodeUnless node [.value, .comma, .flowSequenceEnd]
    let v ← valueUnless node [.comma, .flowSequenceEnd]
    return .mapping Tag.map [(k, v)]
  else node

def flowEntry (node : Composing Node) : Composing (Node × Node) := do
  if ← take? .key then
    let k ← nodeUnless node [.value, .comma, .flowMappingEnd]
    return (k, ← valueUnless node [.comma, .flowMappingEnd])
  else return (← node, .empty)

/-- A node without its properties. `node` reads the nodes inside it. -/
def content (node : Context → Composing Node) (context : Context) (tag : Option String)
    (hasProperties : Bool) : Composing Node := do
  let isImplicit := tag.all (· == "!")
  let collectionTag := fun (standard : String) => if isImplicit then standard else tag.getD standard
  match ← next? with
  | some .item =>
      if context == .indentless then
        return .sequence (collectionTag Tag.seq)
          (← items (node .block) [.item, .key, .value, .blockEnd])
      else orEmpty isImplicit
  | some (.scalar t isPlain) =>
      skip
      let resolved :=
        if isImplicit then
          if isPlain || tag.isSome then Tag.ofPlain t else Tag.str
        else tag.getD Tag.str
      return .scalar resolved t
  | some .flowSequence =>
      skip
      return .sequence (collectionTag Tag.seq)
        (← commaSeparated (flowItem (node .flow)) .flowSequenceEnd)
  | some .flowMapping =>
      skip
      return .mapping (collectionTag Tag.map)
        (← commaSeparated (flowEntry (node .flow)) .flowMappingEnd)
  | some .blockSequence =>
      if context == .flow then orEmpty isImplicit
      else
        skip
        let parts ← items (node .block) [.item, .blockEnd]
        expect .blockEnd
        return .sequence (collectionTag Tag.seq) parts
  | some .blockMapping =>
      if context == .flow then orEmpty isImplicit
      else
        skip
        return .mapping (collectionTag Tag.map) (← blockEntries (node .indentless))
  | _ => orEmpty isImplicit
where
  /-- An empty scalar stands for what is missing after an anchor or a tag. -/
  orEmpty (isImplicit : Bool) : Composing Node :=
    if hasProperties then
      return .scalar (if isImplicit then Tag.null else tag.getD Tag.null) []
    else malformed

/-- How many nodes may stand inside one another. -/
def nestingLimit : Nat := 485

/-- A node in which nodes are nested at most `depth` deep, itself included. -/
def node : Nat → Context → Composing Node
  | 0, _ => throw .nestedTooDeep
  | depth + 1, context => do
      match ← next? with
      | some (.reference name) =>
          skip
          match (← get).anchors.lookup name with
          | some (some n) => return n
          | _ => malformed
      | _ =>
          let (anchor, written) ← properties
          let tag ← match written with
            | some t => some <$> fullTag t
            | none => pure none
          match anchor with
          | some name =>
              if ((← get).anchors.lookup name).isSome then malformed
              modify fun s => { s with anchors := (name, none) :: s.anchors }
              let n ← content (node depth) context tag true
              modify fun s => { s with anchors := (name, some n) :: s.anchors }
              return n
          | none => content (node depth) context tag tag.isSome

/-- The handles every document has. -/
def standardHandles : List (String × String) := [("!", "!"), ("!!", Tag.standard "")]

def directives : Composing Unit := do
  let (handles, _) ← iterate (fun (handles, versioned) => do
    match ← next? with
    | some (.versionDirective major) =>
        if versioned || major != 1 then malformed
        skip
        return ((handles, true), true)
    | some (.tagDirective handle start) =>
        if (handles.lookup handle).isSome then malformed
        skip
        return (((handle, start) :: handles, versioned), true)
    | some .otherDirective =>
        skip
        return ((handles, versioned), true)
    | _ => return ((handles, versioned), false)) (([] : List (String × String)), false)
  modify fun s => { s with handles := handles ++ standardHandles }

def isDirective : Token → Bool
  | .versionDirective _ | .tagDirective _ _ | .otherDirective => true
  | _ => false

/-- The only document of a text; none if the text has no document. -/
def document : Composing (Option Node) := do
  let skipEnds := iterate (fun _ => do return ((), ← take? .documentEnd)) ()
  let first ← next?
  let isMarked := first.any fun t => isDirective t || t == .documentStart
  if ← take? .finish then return none
  else
    let n ← if isMarked then (do
        directives
        expect .documentStart
        if (← next?).any fun t =>
            isDirective t || [.documentStart, .documentEnd, .finish].contains t then
          return Node.empty
        else node nestingLimit .block)
      else (do
        modify ({ · with handles := standardHandles })
        node nestingLimit .block)
    skipEnds
    expect .finish
    return some n

end Composing

/-- The node of the only document, if the text has one. -/
def Node.ofTokens (ts : List Token) : Except Error (Option Node) := do
  let (n, _) ← Composing.document.run { tokens := ts }
  return n

end ImportOrder.Yaml
