import ImportOrder.Number.Decimal
import ImportOrder.Text.Quoted
import ImportOrder.Value.Date

/-!
Values of configuration files. A mapping keeps its entries in the order in which their keys first
came; numbers that are equal are one key, whatever their kind, and truth values count as 0 and 1.
-/

namespace ImportOrder

inductive Value where
  | null
  | bool (b : Bool)
  | int (n : Int)
  | float (x : Binary64)
  | str (s : String)
  | list (items : List Value)
  | map (entries : List (Value × Value))
  | bytes (data : List UInt8)
  | date (d : Date)
  | moment (m : Moment)
  /-- A key with its value where such pairs stand in a list. -/
  | pair (key value : Value)
  | set (items : List Value)
deriving Inhabited

namespace Value

/-- The name of a value's kind in messages. -/
def kind : Value → String
  | .null => "NoneType"
  | .bool _ => "bool"
  | .int _ => "int"
  | .float _ => "float"
  | .str _ => "str"
  | .list _ => "list"
  | .map _ => "dict"
  | .bytes _ => "bytes"
  | .date _ => "date"
  | .moment _ => "datetime"
  | .pair _ _ => "tuple"
  | .set _ => "set"

/-- The place of a number among all numbers. -/
def rank? : Value → Option Binary64.Rank
  | .bool b => some (.ratio (if b then 1 else 0) 0)
  | .int n => some (.ratio n 0)
  | .float x => x.rank?
  | _ => none

/-- Do two values name the same entry of a mapping? -/
def sameKey : Value → Value → Bool
  | .null, .null => true
  | .str a, .str b => a == b
  | .bytes a, .bytes b => a == b
  | .date a, .date b => a == b
  | .moment a, .moment b => a == b
  | a, b =>
    match a.rank?, b.rank? with
    | some x, some y => x.compare y == .eq
    | _, _ => false

def isKey : Value → Bool
  | .list _ | .map _ | .pair _ _ | .set _ => false
  | _ => true

def isString : Value → Bool
  | .str _ => true
  | _ => false

def string? : Value → Option String
  | .str s => some s
  | _ => none

def byteQuoted (mark : Char) (b : UInt8) : List Char :=
  let c := Char.ofNat b.toNat
  if c == mark || c == '\\' then ['\\', c]
  else if c == '\n' then ['\\', 'n']
  else if c == '\r' then ['\\', 'r']
  else if c == '\t' then ['\\', 't']
  else if 0x20 ≤ b && b < 0x7f then [c]
  else '\\' :: 'x' :: Text.hexDigits 2 b.toNat

def bytesQuoted (data : List UInt8) : String :=
  let mark := if data.contains 39 && !data.contains 34 then Text.quotationMark else Text.apostrophe
  String.ofList ('b' :: mark :: data.flatMap (byteQuoted mark) ++ [mark])

mutual

/-- The text of a value inside another one or in quotes. -/
def quoted : Value → String
  | .null => "None"
  | .bool b => if b then "True" else "False"
  | .int n => toString n
  | .float x => x.toText
  | .str s => Text.quoted s
  | .list items => "[" ++ ", ".intercalate (quotedItems items) ++ "]"
  | .map entries => "\x7b" ++ ", ".intercalate (quotedEntries entries) ++ "\x7d"
  | .bytes data => bytesQuoted data
  | .date d => d.quoted
  | .moment m => m.quoted
  | .pair k v => "(" ++ quoted k ++ ", " ++ quoted v ++ ")"
  | .set [] => "set()"
  | .set items => "\x7b" ++ ", ".intercalate (quotedItems items) ++ "\x7d"

def quotedItems : List Value → List String
  | [] => []
  | v :: rest => quoted v :: quotedItems rest

def quotedEntries : List (Value × Value) → List String
  | [] => []
  | e :: rest => quotedEntry e :: quotedEntries rest

def quotedEntry : Value × Value → String
  | (k, v) => quoted k ++ ": " ++ quoted v

end

/-- The text of a value on its own. -/
def toText : Value → String
  | .str s => s
  | .date d => d.toText
  | .moment m => m.toText
  | v => v.quoted

/-- Comparing two values of different kinds, or of a kind without order. -/
inductive Incomparable where
  | kinds (a b : String)

mutual

def sameList : List Value → List Value → Bool
  | [], [] => true
  | a :: as, b :: bs => same a b && sameList as bs
  | _, _ => false

/-- Equality of values; only keys and lists of them are compared here. -/
def same : Value → Value → Bool
  | .list a, .list b => sameList a b
  | a, b => sameKey a b

end

mutual

/-- Is the first value less than the second? Lists compare by their first difference. -/
def less : Value → Value → Except Incomparable Bool
  | .list a, .list b => lessList a b
  | .str a, .str b => .ok (a < b)
  | a, b =>
    match a, b, a.rank?, b.rank? with
    | _, _, some x, some y => .ok (x.compare y == .lt)
    | .float _, _, none, some _ | _, .float _, some _, none | .float _, .float _, none, none => .ok false
    | _, _, _, _ => .error (.kinds a.kind b.kind)

def lessList : List Value → List Value → Except Incomparable Bool
  | _, [] => .ok false
  | [], _ :: _ => .ok true
  | a :: as, b :: bs => if same a b then lessList as bs else less a b

end

/-! ### Entries of mappings -/

def lookup (key : Value) (entries : List (Value × Value)) : Option Value :=
  (entries.find? fun e => e.1.sameKey key).map (·.2)

def field (name : String) (entries : List (Value × Value)) : Option Value :=
  lookup (.str name) entries

/-- A new key goes to the end; a key that is there keeps its place and takes the new value. -/
def insert (key value : Value) : List (Value × Value) → List (Value × Value)
  | [] => [(key, value)]
  | e :: rest => if e.1.sameKey key then (e.1, value) :: rest else e :: insert key value rest

def ofEntries (entries : List (Value × Value)) : List (Value × Value) :=
  entries.foldl (fun done e => insert e.1 e.2 done) []

end Value
end ImportOrder
