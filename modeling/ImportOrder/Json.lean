import ImportOrder.Text.Quoted

/-!
JSON documents with fields in a fixed order, written in ASCII: every other character is escaped
by the codes of its UTF-16 units.
-/

namespace ImportOrder

inductive Json where
  | null
  | bool (b : Bool)
  | int (n : Int)
  | str (s : String)
  | arr (items : List Json)
  | obj (fields : List (String × Json))

namespace Json

def unitEscape (n : Nat) : List Char := '\\' :: 'u' :: Text.hexDigits 4 n

def escapeChar (c : Char) : List Char :=
  if c == Text.quotationMark || c == '\\' then ['\\', c]
  else if c == '\n' then ['\\', 'n']
  else if c == '\r' then ['\\', 'r']
  else if c == '\t' then ['\\', 't']
  else if c == '\x08' then ['\\', 'b']
  else if c == '\x0c' then ['\\', 'f']
  else if 0x20 ≤ c.toNat && c.toNat < 0x7f then [c]
  else if c.toNat < 0x10000 then unitEscape c.toNat
  else
    let n := c.toNat - 0x10000
    unitEscape (0xd800 + n / 0x400) ++ unitEscape (0xdc00 + n % 0x400)

def escaped (s : String) : List Char :=
  Text.quotationMark :: s.toList.flatMap escapeChar ++ [Text.quotationMark]

def joined (separator : List Char) (parts : List (List Char)) : List Char :=
  separator.intercalate parts

mutual

/-- On one line, without blanks. -/
def compact : Json → List Char
  | .null => ['n', 'u', 'l', 'l']
  | .bool true => ['t', 'r', 'u', 'e']
  | .bool false => ['f', 'a', 'l', 's', 'e']
  | .int n => (toString n).toList
  | .str s => escaped s
  | .arr items => '[' :: joined [','] (compactItems items) ++ [']']
  | .obj fields => '\x7b' :: joined [','] (compactFields fields) ++ ['\x7d']

def compactItems : List Json → List (List Char)
  | [] => []
  | v :: rest => compact v :: compactItems rest

def compactFields : List (String × Json) → List (List Char)
  | [] => []
  | f :: rest => compactField f :: compactFields rest

def compactField : String × Json → List Char
  | (name, v) => escaped name ++ ':' :: compact v

end

def lineStart (depth : Nat) : List Char := '\n' :: List.replicate depth ' '

/-- Parts on lines of their own between brackets. -/
def block (step depth : Nat) (opened closed : Char) (parts : List (List Char)) : List Char :=
  if parts.isEmpty then [opened, closed]
  else
    opened :: lineStart (depth + step) ++ joined (',' :: lineStart (depth + step)) parts ++
      lineStart depth ++ [closed]

mutual

/-- On several lines, each level `step` blanks further in. -/
def indented (step : Nat) : Nat → Json → List Char
  | depth, .arr items => block step depth '[' ']' (indentedItems step (depth + step) items)
  | depth, .obj fields => block step depth '\x7b' '\x7d' (indentedFields step (depth + step) fields)
  | _, v => compact v

def indentedItems (step : Nat) : Nat → List Json → List (List Char)
  | _, [] => []
  | depth, v :: rest => indented step depth v :: indentedItems step depth rest

def indentedFields (step : Nat) : Nat → List (String × Json) → List (List Char)
  | _, [] => []
  | depth, f :: rest => indentedField step depth f :: indentedFields step depth rest

def indentedField (step : Nat) : Nat → String × Json → List Char
  | depth, (name, v) => escaped name ++ ':' :: ' ' :: indented step depth v

end

end Json
end ImportOrder
