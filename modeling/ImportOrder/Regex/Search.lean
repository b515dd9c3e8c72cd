import ImportOrder.Regex.Expr

/-!
Searching a text for an expression. The first way to go on is tried first and the next one when
the rest of the expression fails; an iteration that moves nowhere is the last of its loop, so the
text that is left bounds every loop.
-/

namespace ImportOrder.Regex

/-- A place in a text, with what the groups have captured so far (the latest first). -/
structure Cursor where
  before : List Char
  after : List Char
  position : Nat
  captures : List (Nat × List Char)

namespace Cursor

def ofText (t : List Char) : Cursor := ⟨[], t, 0, []⟩

def advance (s : Cursor) : Option (Char × Cursor) :=
  match s.after with
  | [] => none
  | c :: rest => some (c, { s with before := c :: s.before, after := rest, position := s.position + 1 })

def back (s : Cursor) (n : Nat) : Option Cursor :=
  if n ≤ s.position then
    some { s with
      before := s.before.drop n
      after := (s.before.take n).reverse ++ s.after
      position := s.position - n }
  else none

def captured (s : Cursor) (index : Nat) : Option (List Char) :=
  (s.captures.find? (·.1 == index)).map (·.2)

/-- Records what stands between an earlier place and this one. -/
def capture (s : Cursor) (index : Nat) (opened : Cursor) : Cursor :=
  { s with captures := (index, (s.before.take (s.position - opened.position)).reverse) :: s.captures }

/-- Passes over a text, comparing characters by `same`. -/
def passOver (same : Char → Char → Bool) : List Char → Cursor → Option Cursor
  | [], s => some s
  | c :: rest, s =>
    match s.advance with
    | some (d, next) => if same c d then passOver same rest next else none
    | none => none

def isAtBoundary (ascii : Bool) (s : Cursor) : Bool :=
  let isWord (c : Option Char) := c.any (Category.word.holds ascii)
  isWord s.before.head? != isWord s.after.head?

end Cursor

def Anchor.holds (s : Cursor) : Anchor → Bool
  | .start => s.before.isEmpty
  | .lineStart => s.before.isEmpty || s.before.head? == some '\n'
  | .stop => s.after.isEmpty || s.after == ['\n']
  | .lineStop => s.after.isEmpty || s.after.head? == some '\n'
  | .textStop => s.after.isEmpty
  | .boundary ascii => !(s.before.isEmpty && s.after.isEmpty) && s.isAtBoundary ascii
  | .nonBoundary ascii => !(s.before.isEmpty && s.after.isEmpty) && !s.isAtBoundary ascii

/-- What is left to match after an expression. -/
abbrev Rest := Cursor → Option Cursor

/-- A way to match: from the rest to be matched afterwards and a place to the first success. -/
abbrev Step := Rest → Cursor → Option Cursor

namespace Step

def times (step : Step) : Nat → Step
  | 0, k, s => k s
  | n + 1, k, s => step (times step n k) s

/-- Up to `n` iterations, as many as possible first. -/
def greedy (step : Step) : Nat → Step
  | 0, k, s => k s
  | n + 1, k, s =>
    match step (fun t => if t.position == s.position then k t else greedy step n k t) s with
    | some r => some r
    | none => k s

/-- Up to `n` iterations, as few as possible first. -/
def lazily (step : Step) : Nat → Step
  | 0, k, s => k s
  | n + 1, k, s =>
    match k s with
    | some r => some r
    | none => step (fun t => if t.position == s.position then k t else lazily step n k t) s

/-- `least` and then up to `n` iterations; none of them is ever taken back. -/
def settled (step : Step) (least : Nat) : Nat → Cursor → Option Cursor :=
  let rec extend : Nat → Cursor → Cursor
    | 0, s => s
    | n + 1, s =>
      match step some s with
      | some t => if t.position == s.position then t else extend n t
      | none => s
  let rec begin : Nat → Cursor → Option Cursor
    | 0, s => some s
    | n + 1, s => (step some s).bind (begin n)
  fun n s => (begin least s).map (extend n)

end Step

/-- How often a loop may go round beyond its least number: each time but the last it moves. -/
def extraRounds (least : Nat) (most : Option Nat) (s : Cursor) : Nat :=
  match most with
  | some m => min (m - least) (s.after.length + 1)
  | none => s.after.length + 1

def Expr.run : Expr → Step
  | .empty, k, s => k s
  | .char test, k, s =>
    match s.advance with
    | some (c, next) => if test.accepts c then k next else none
    | none => none
  | .anchor a, k, s => if a.holds s then k s else none
  | .seq a b, k, s => a.run (b.run k) s
  | .alt a b, k, s =>
    match a.run k s with
    | some r => some r
    | none => b.run k s
  | .loop .greedy least most body, k, s =>
    Step.times body.run least (fun t => Step.greedy body.run (extraRounds least most t) k t) s
  | .loop .lazy least most body, k, s =>
    Step.times body.run least (fun t => Step.lazily body.run (extraRounds least most t) k t) s
  | .loop .possessive least most body, k, s =>
    (Step.settled body.run least (extraRounds least most s) s).bind k
  | .group body, k, s => body.run k s
  | .capture index body, k, s => body.run (fun t => k (t.capture index s)) s
  | .backref index _ ignoreCase ascii, k, s =>
    match s.captured index with
    | none => none
    | some t =>
      let same (c d : Char) :=
        if !ignoreCase then c == d
        else if ascii then Text.asciiLower c.toNat == Text.asciiLower d.toNat
        else Text.lower c.toNat == Text.lower d.toNat
      (s.passOver same t).bind k
  | .look behind negative body, k, s =>
    let origin := if behind then s.back body.width.lo else some s
    match origin.bind (body.run some), negative with
    | some t, false => k { s with captures := t.captures }
    | none, true => k s
    | _, _ => none
  | .atomic body, k, s => (body.run some s).bind k
  | .cond index yes no, k, s =>
    if (s.captured index).isSome then yes.run k s else no.run k s

/-- Does the expression match from here or from a later place? -/
def Expr.foundFrom (e : Expr) : Nat → Cursor → Bool
  | 0, s => (e.run some s).isSome
  | n + 1, s =>
    (e.run some s).isSome ||
      match s.advance with
      | some (_, next) => e.foundFrom n next
      | none => false

def Expr.foundIn (e : Expr) (t : List Char) : Bool := e.foundFrom t.length (.ofText t)

end ImportOrder.Regex
