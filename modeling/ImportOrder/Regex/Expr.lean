import ImportOrder.Text.Blank
import ImportOrder.Text.LowerCase
import ImportOrder.Text.Word

/-!
Regular expressions: tests on one character, anchors, and the ways to put expressions together.
The width of an expression bounds the length of the texts it accepts.
-/

namespace ImportOrder.Regex

/-- How an expression is read and how its characters compare. -/
structure Flags where
  ignoreCase : Bool := false
  multiLine : Bool := false
  dotAll : Bool := false
  verbose : Bool := false
  ascii : Bool := false
  template : Bool := false

inductive Category where
  | digit
  | space
  | word

def Category.holds (ascii : Bool) (kind : Category) (c : Char) : Bool :=
  (!ascii || c.toNat < 0x80) &&
    match kind with
    | .digit => Text.isDecimal c
    | .space => Text.isBlank c && !(ascii && 0x1c ≤ c.toNat && c.toNat ≤ 0x1f)
    | .word => Text.isWord c

/-- A part of a character set. Codes are numbers, since a set may name what is no character. -/
inductive SetItem where
  | code (n : Nat)
  | range (lo hi : Nat)
  | category (kind : Category) (negated : Bool)

structure CharTest where
  negated : Bool
  items : List SetItem
  ignoreCase : Bool
  ascii : Bool

/-- The codes that count as `c` under the test. -/
def CharTest.variants (t : CharTest) (c : Char) : List Nat :=
  if !t.ignoreCase then [c.toNat]
  else if t.ascii then Text.asciiVariants c.toNat
  else Text.letterVariants c.toNat

def SetItem.holds (ascii : Bool) (variants : List Nat) (c : Char) : SetItem → Bool
  | .code n => variants.contains n
  | .range lo hi => variants.any fun n => lo ≤ n && n ≤ hi
  | .category kind negated => kind.holds ascii c != negated

def CharTest.accepts (t : CharTest) (c : Char) : Bool :=
  t.items.any (·.holds t.ascii (t.variants c) c) != t.negated

inductive Anchor where
  | start
  | lineStart
  | stop
  | lineStop
  | textStop
  | boundary (ascii : Bool)
  | nonBoundary (ascii : Bool)

/-- What a repetition does when it can go on or stop. -/
inductive Greed where
  | greedy
  | lazy
  | possessive

/-- Bounds on a length; `none` means that there is no upper one. -/
structure Width where
  lo : Nat
  hi : Option Nat

inductive Expr where
  | empty
  | char (test : CharTest)
  | anchor (a : Anchor)
  | seq (first second : Expr)
  | alt (first second : Expr)
  | loop (greed : Greed) (least : Nat) (most : Option Nat) (body : Expr)
  | group (body : Expr)
  | capture (index : Nat) (body : Expr)
  | backref (index : Nat) (width : Width) (ignoreCase ascii : Bool)
  | look (behind negative : Bool) (body : Expr)
  | atomic (body : Expr)
  | cond (index : Nat) (yes no : Expr)

namespace Width

def exactly (n : Nat) : Width := ⟨n, some n⟩

def add (a b : Width) : Width :=
  ⟨a.lo + b.lo, do return (← a.hi) + (← b.hi)⟩

def union (a b : Width) : Width :=
  ⟨min a.lo b.lo, do return max (← a.hi) (← b.hi)⟩

def times (least : Nat) (most : Option Nat) (w : Width) : Width :=
  ⟨w.lo * least,
    match w.hi, most with
    | some 0, _ => some 0
    | some n, some m => some (n * m)
    | none, some 0 => some 0
    | _, _ => none⟩

def isFixed (w : Width) : Bool := w.hi == some w.lo

end Width

namespace Expr

def width : Expr → Width
  | .empty | .anchor _ | .look .. => .exactly 0
  | .char _ => .exactly 1
  | .seq a b => a.width.add b.width
  | .alt a b => a.width.union b.width
  | .loop _ least most body => body.width.times least most
  | .group body | .capture _ body | .atomic body => body.width
  | .backref _ w _ _ => w
  | .cond _ yes no => yes.width.union no.width

def isAnchor : Expr → Bool
  | .anchor _ => true
  | _ => false

def isLoop : Expr → Bool
  | .loop .. => true
  | _ => false

def ofList (es : List Expr) : Expr := es.foldr .seq .empty

end Expr
end ImportOrder.Regex
