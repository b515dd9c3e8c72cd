import ImportOrder.Code.Token

/-!
Taking tokens from the front of a list, or refusing them.
-/

namespace ImportOrder.Code

/-- A way to take tokens from the front of a list. What it leaves is always an end of the list. -/
structure Parse (α : Type) where
  run : List Token → Option (α × List Token)
  suffix : ∀ {ts rest : List Token} {a : α}, run ts = some (a, rest) → rest <:+ ts

namespace Parse

instance : Monad Parse where
  pure a :=
    { run := fun ts => some (a, ts)
      suffix := by
        rintro ts rest b h
        cases h
        exact List.suffix_refl ts }
  bind p f :=
    { run := fun ts => (p.run ts).bind fun (a, rest) => (f a).run rest
      suffix := by
        rintro ts rest b h
        obtain ⟨⟨a, mid⟩, hp, hf⟩ := Option.bind_eq_some_iff.mp h
        exact ((f a).suffix hf).trans (p.suffix hp) }

instance : Alternative Parse where
  failure :=
    { run := fun _ => none
      suffix := by
        rintro ts rest a h
        cases h }
  orElse p q :=
    { run := fun ts => (p.run ts).or ((q ()).run ts)
      suffix := by
        rintro ts rest a h
        rcases Option.or_eq_some_iff.mp h with hp | ⟨-, hq⟩
        · exact p.suffix hp
        · exact (q ()).suffix hq }

/-- The tokens that are left; none is taken. -/
def ahead : Parse (List Token) where
  run ts := some (ts, ts)
  suffix := by
    rintro ts rest a h
    cases h
    exact List.suffix_refl ts

def token : Parse Token where
  run
    | t :: rest => some (t, rest)
    | [] => none
  suffix := by
    rintro ts rest a h
    cases ts with
    | nil => cases h
    | cons t ts =>
        cases h
        exact List.suffix_cons _ _

/-- What the first parser finds. If that is nothing, the tokens it took are put back and the second
parser takes its place. -/
def orAgain {α : Type} (p : Parse (Option α)) (q : Parse α) : Parse α where
  run ts :=
    match p.run ts with
    | some (some a, rest) => some (a, rest)
    | some (none, _) => q.run ts
    | none => none
  suffix := by
    rintro ts rest a h
    split at h
    · next hp =>
        cases h
        exact p.suffix hp
    · exact q.suffix h
    · cases h

def next? : Parse (Option Lexeme) := do return (← ahead).head?.map (·.lexeme)

def second? : Parse (Option Lexeme) := do return (← ahead).tail.head?.map (·.lexeme)

/-- Takes the next token if it is this lexeme. -/
def take? (lexeme : Lexeme) : Parse Bool := do
  if (← next?) == some lexeme then
    let _ ← token
    return true
  else return false

def nextIs (lexeme : Lexeme) : Parse Bool := do return (← next?) == some lexeme

def expect (lexeme : Lexeme) : Parse Unit := do guard (← take? lexeme)

def mark? (spelling : String) : Parse Bool := take? (.mark spelling)

def word? (spelling : String) : Parse Bool := take? (.word spelling)

def mark (spelling : String) : Parse Unit := expect (.mark spelling)

def word (spelling : String) : Parse Unit := expect (.word spelling)

/-- Takes one of some marks, if it comes next. -/
def anyMark (spellings : List String) : Parse Bool := do
  match ← next? with
  | some (.mark m) =>
      if spellings.contains m then
        let _ ← token
        return true
      else return false
  | _ => return false

/-- A name that is no keyword. -/
def name : Parse (String × Token) := do
  let t ← token
  match t.lexeme with
  | .word spelling => if isKeyword spelling then failure else return (spelling, t)
  | _ => failure

def nextIsName : Parse Bool := do
  match ← next? with
  | some (.word spelling) => return !isKeyword spelling
  | _ => return false

/-- Repeats a step until it has nothing more to do, at most `fuel` times. -/
def repeatUpTo {α : Type} (step : α → Parse (Option α)) : Nat → α → Parse α
  | 0, _ => failure
  | fuel + 1, a => do
      match ← step a with
      | some b => repeatUpTo step fuel b
      | none => return a

/-- Repeats a step until it has nothing more to do. All but the last repetition take a token. -/
def iterate {α : Type} (step : α → Parse (Option α)) (a : α) : Parse α := do
  repeatUpTo step ((← ahead).length + 2) a

/-- Repeats a step while it finds something. -/
def many (step : Parse Bool) : Parse Unit :=
  iterate (fun _ => do return if ← step then some () else none) ()

/-- Repeats a step that must find something at least once. -/
def atLeastOne (step : Parse Bool) : Parse Unit := do
  guard (← step)
  many step

/-- One or more items with commas between them, and perhaps a comma at the end if a lexeme for
which `ends` holds comes after it. The answer tells whether there was any comma. -/
def commaList {α : Type} (item : Parse α) (ends : Lexeme → Bool) : Parse (List α × Bool) := do
  let first ← item
  let (items, commas) ← iterate (fun (items, _) => do
    if ← mark? "," then
      if (← next?).any ends then return some (items, true)
      else return some ((← item) :: items, true)
    else return none) ([first], false)
  return (items.reverse, commas)

end Parse
end ImportOrder.Code
