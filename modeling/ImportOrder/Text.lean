import ImportOrder.Text.Blank

/-!
Text as a list of characters. Every offset, column and length counts characters.
-/

namespace ImportOrder

abbrev Text := List Char

namespace Text

/-- The characters from one offset up to another, as far as the text reaches. -/
def cut (t : Text) (lo hi : Nat) : Text := (t.drop lo).take (hi - lo)

/-- Where an index points in a text of `size` characters: one below zero counts from the end. -/
def place (size : Nat) (i : Int) : Nat := if i < 0 then (i + size).toNat else i.toNat

/-- Like `cut`, with indexes that may count from the end. -/
def slice (t : Text) (lo hi : Int) : Text := t.cut (place t.length lo) (place t.length hi)

def firstLine (t : Text) : Text := t.takeWhile (!isLineEnd ·)

/-- The text without the longest tail of characters that satisfy `p`. -/
def trimEnd (p : Char → Bool) (t : Text) : Text := (t.reverse.dropWhile p).reverse

/-- Replaces each occurrence of `needle`, from left to right; `pending` characters of the last
one are still to be passed over. -/
def replaceFrom (needle value : Text) : Text → Nat → Text
  | [], _ => []
  | _ :: rest, pending + 1 => replaceFrom needle value rest pending
  | c :: rest, 0 =>
      if needle.isPrefixOf (c :: rest) then
        value ++ replaceFrom needle value rest (needle.length - 1)
      else c :: replaceFrom needle value rest 0

def replace (t needle value : Text) : Text := replaceFrom needle value t 0

/-- Line breaks as a text reader sees them: a carriage return, with or without a line feed
after it, becomes one line feed. -/
def unifyBreaks : Text → Text
  | '\r' :: '\n' :: rest => '\n' :: unifyBreaks rest
  | '\r' :: rest => '\n' :: unifyBreaks rest
  | c :: rest => c :: unifyBreaks rest
  | [] => []

end Text

def padStart (width : Nat) (s : String) : String :=
  String.ofList (List.replicate (width - s.length) ' ') ++ s

def padEnd (width : Nat) (s : String) : String :=
  s ++ String.ofList (List.replicate (width - s.length) ' ')

end ImportOrder
