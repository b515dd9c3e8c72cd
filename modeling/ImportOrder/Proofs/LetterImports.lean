import ImportOrder.Proofs.Document
import ImportOrder.Proofs.ImportTokens

/-!
Documents of which every line imports one module with a name of one letter. Here the way from the
characters of a document to its statements can be followed forwards, line by line: what the reader
makes of a line, what the grammar makes of its tokens, and where the statement then stands. So
collecting the statements of such a document gives exactly those it is made of.
-/

namespace ImportOrder

def Item.letter (c : Char) : Item :=
  ⟨String.ofList [c], "import ".toList, none, [⟨String.ofList [c], [c], []⟩]⟩

def Document.letters (names : Text) : Document := ⟨.lf, names.map fun c => .item (.letter c)⟩

theorem Document.text_letters_cons (c : Char) (names : Text) :
    (letters (c :: names)).text =
      'i' :: 'm' :: 'p' :: 'o' :: 'r' :: 't' :: ' ' :: c :: '\n' :: (letters names).text := rfl

theorem Document.text_letters_append (front back : Text) :
    (letters (front ++ back)).text = (letters front).text ++ (letters back).text := by
  simp [letters, text, Chunk.render]

theorem Document.length_text_letters (names : Text) :
    (letters names).text.length = 9 * names.length := by
  induction names with
  | nil => rfl
  | cons c names ih =>
      simp only [text_letters_cons, List.length_cons, ih]
      omega

namespace Code

/-- A letter that a module may have for a name. -/
structure IsName (c : Char) : Prop where
  starts : isWordStart c = true
  identifier : Text.isIdentifier [c] = true
  free : isKeyword (String.ofList [c]) = false
  shown : Text.isBlank c = false

variable {c : Char} {names : Text}

theorem IsName.ne (h : IsName c) {d : Char} (hd : isWordStart d = false) : c ≠ d := by
  rintro rfl
  simp [h.starts] at hd

theorem isName_of_isAlpha (h : c.isAlpha = true) : IsName c := by
  have hrange : 65 ≤ c.toNat ∧ c.toNat ≤ 90 ∨ 97 ≤ c.toNat ∧ c.toNat ≤ 122 := by
    simpa [Char.isAlpha, Char.isUpper, Char.isLower, UInt32.le_iff_toNat_le] using h
  have hdigit : c.isDigit = false := by
    rw [← Bool.not_eq_true]
    simp only [Char.isDigit, UInt32.le_iff_toNat_le, ge_iff_le, Bool.and_eq_true, decide_eq_true_eq]
    change ¬ (48 ≤ c.toNat ∧ c.toNat ≤ 57)
    omega
  have hlong : ∀ keyword ∈ keywords, keyword.length ≠ 1 := by decide
  refine ⟨?_, ?_, ?_, ?_⟩
  · simp [isWordStart, isWordChar, h, hdigit]
  · simp [Text.isIdentifier, Text.isNameStart, h]
    omega
  · rw [isKeyword, ← Bool.not_eq_true, List.contains_iff_mem]
    exact fun hmem => hlong _ hmem (by simp)
  · simp [Text.isBlank, Text.covers, Text.blankRanges]
    omega

/-! ### Tokens -/

def importToken (line : Nat) : Token := ⟨.word "import", ⟨line, 0⟩, ⟨line, 6⟩, 0⟩

def nameToken (line : Nat) (c : Char) : Token :=
  ⟨.word (String.ofList [c]), ⟨line, 7⟩, ⟨line, 8⟩, 0⟩

def breakToken (line : Nat) : Token := ⟨.newline, ⟨line, 8⟩, ⟨line + 1, 0⟩, 0⟩

def finishToken (line : Nat) : Token := ⟨.finish, ⟨line, 0⟩, ⟨line, 0⟩, 0⟩

def lineTokens (line : Nat) (c : Char) : List Token :=
  [importToken line, nameToken line c, breakToken line]

/-- The tokens of a document of letters that starts on a line. -/
def letterTokens : Nat → Text → List Token
  | line, [] => [finishToken line]
  | line, c :: names => lineTokens line c ++ letterTokens (line + 1) names

theorem length_lt_letterTokens (line : Nat) (names : Text) :
    names.length < (letterTokens line names).length := by
  induction names generalizing line with
  | nil => simp [letterTokens]
  | cons c names ih =>
      have := ih (line + 1)
      simp only [letterTokens, lineTokens, List.length_append, List.length_cons, List.length_nil]
      omega

/-- A name at the end of a line opens no string, though its letter might be in front of one. -/
theorem IsName.stringOpening (h : IsName c) (rest : Text) :
    stringOpening? (c :: '\n' :: rest) = none := by
  have hquote : isQuote c = false := by
    simp [isQuote, h.ne (d := Text.apostrophe) (by decide),
      h.ne (d := Text.quotationMark) (by decide)]
  have hbreak : isQuote '\n' = false := by decide
  simp [stringOpening?, stringMarks, hquote, hbreak]

namespace Reader

theorem run_of_enterLine {r next : Reader} (hstrings : r.strings = []) (hmargin : r.atMargin = true)
    (hrest : r.rest ≠ []) (h : r.enterLine = some next) (fuel : Nat) :
    r.run (fuel + 1) = next.run fuel := by
  obtain ⟨c, rest, hcons⟩ := List.exists_cons_of_ne_nil hrest
  simp [run, hstrings, hcons, hmargin, h]

theorem run_of_readOn {r next : Reader} {c : Char} {rest : Text} (hstrings : r.strings = [])
    (hmargin : r.atMargin = false) (hrest : r.rest = c :: rest) (h : r.readOn c rest = some next)
    (fuel : Nat) : r.run (fuel + 1) = next.run fuel := by
  simp [run, hstrings, hrest, hmargin, h]

theorem readOn_import {r : Reader} {rest : Text}
    (h : r.rest = 'i' :: 'm' :: 'p' :: 'o' :: 'r' :: 't' :: ' ' :: rest) :
    r.readOn 'i' ('m' :: 'p' :: 'o' :: 'r' :: 't' :: ' ' :: rest) =
      some (r.emit (.word "import") 6) := by
  obtain ⟨_, _⟩ := r
  cases h
  rfl

theorem readOn_name (hc : IsName c) {r : Reader} {rest : Text} (h : r.rest = c :: '\n' :: rest) :
    r.readOn c ('\n' :: rest) = some (r.emit (.word (String.ofList [c])) 1) := by
  obtain ⟨hword, hdigit⟩ : isWordChar c = true ∧ c.isDigit = false := by
    simpa [isWordStart] using hc.starts
  have hbreak : isWordChar '\n' = false := by decide
  simp [readOn, readWord, h, hc.stringOpening, hc.starts, hc.identifier, hword, hdigit, hbreak,
    hc.ne (d := ' ') (by decide), hc.ne (d := '\t') (by decide), hc.ne (d := '\x0c') (by decide),
    hc.ne (d := '#') (by decide), hc.ne (d := '\n') (by decide), hc.ne (d := '\\') (by decide)]

/-- A line is read in five steps: its margin, two words, the blank between them and its end. -/
theorem run_line (hc : IsName c) (fuel line : Nat) (read : List Token) (rest : Text) :
    run (fuel + 5)
      { rest := 'i' :: 'm' :: 'p' :: 'o' :: 'r' :: 't' :: ' ' :: c :: '\n' :: rest
        position := ⟨line, 0⟩
        tokens := read } =
      run fuel
        { rest, position := ⟨line + 1, 0⟩, tokens := (lineTokens line c).reverse ++ read } := by
  rw [run_of_enterLine rfl rfl (by simp) rfl, run_of_readOn rfl rfl rfl (readOn_import rfl),
    run_of_readOn rfl rfl rfl rfl, run_of_readOn rfl rfl rfl (readOn_name hc rfl),
    run_of_readOn rfl rfl rfl rfl]
  simp [emit, skip, advance, lineTokens, importToken, nameToken, breakToken,
    hc.ne (d := '\n') (by decide)]

theorem run_letters (hnames : ∀ c ∈ names, IsName c) {fuel : Nat} (hfuel : 5 * names.length < fuel)
    (line : Nat) (read : List Token) :
    run fuel { rest := (Document.letters names).text, position := ⟨line, 0⟩, tokens := read } =
      some (read.reverse ++ letterTokens line names) := by
  induction names generalizing fuel line read with
  | nil =>
      obtain ⟨fuel, rfl⟩ := Nat.exists_eq_add_of_lt hfuel
      simp [run, conclude, note, letterTokens, finishToken, Document.letters, Document.text,
        Chunk.render]
  | cons c names ih =>
      rw [List.length_cons] at hfuel
      obtain ⟨fuel, rfl⟩ : ∃ more, fuel = more + 5 := ⟨fuel - 5, by omega⟩
      rw [Document.text_letters_cons, run_line (hnames c List.mem_cons_self),
        ih (fun d hd => hnames d (List.mem_cons_of_mem c hd)) (by omega)]
      simp [letterTokens]

end Reader

theorem unifyBreaks_letters (hnames : ∀ c ∈ names, IsName c) :
    Text.unifyBreaks (Document.letters names).text = (Document.letters names).text := by
  induction names with
  | nil => rfl
  | cons c names ih =>
      have hc := (hnames c List.mem_cons_self).ne (d := '\r') (by decide)
      have hrest := ih fun d hd => hnames d (List.mem_cons_of_mem c hd)
      simp [Document.text_letters_cons, Text.unifyBreaks, hc, hrest]

theorem tokens_letters (hnames : ∀ c ∈ names, IsName c) :
    tokens (Document.letters names).text = some (letterTokens 1 names) := by
  have hmark : ((Document.letters names).text.head? == some '\ufeff') = false := by
    cases names <;> rfl
  rw [tokens, unifyBreaks_letters hnames]
  simp only [hmark, Bool.false_eq_true, if_false]
  exact Reader.run_letters hnames (by rw [Document.length_text_letters]; omega) 1 []

/-! ### Imports -/

def letterImport (line : Nat) (c : Char) : Import :=
  { source := String.ofList [c]
    aliases := [⟨String.ofList [c], nameToken line c, nameToken line c⟩]
    first := importToken line
    last := nameToken line c }

/-- The imports of a document of letters that starts on a line. -/
def letterImports : Nat → Text → List Import
  | _, [] => []
  | line, c :: names => letterImport line c :: letterImports (line + 1) names

section Grammar

open Parse

theorem name_run (hc : IsName c) (line : Nat) (ts : List Token) :
    name.run (nameToken line c :: ts) = some ((String.ofList [c], nameToken line c), ts) := by
  change (if isKeyword (String.ofList [c]) then failure
    else return (String.ofList [c], nameToken line c) : Parse (String × Token)).run ts = _
  rw [hc.free]
  rfl

theorem renamed_run (hc : IsName c) (line : Nat) (ts : List Token) :
    (renamed dottedName).run (nameToken line c :: breakToken line :: ts) =
      some ((String.ofList [c], ⟨String.ofList [c], nameToken line c, nameToken line c⟩),
        breakToken line :: ts) := by
  have hdotted : dottedName.run (nameToken line c :: breakToken line :: ts) =
      some ((String.ofList [c], nameToken line c, nameToken line c), breakToken line :: ts) :=
    bind_eq_some.mpr ⟨_, _, name_run hc line _, rfl⟩
  exact bind_eq_some.mpr ⟨_, _, hdotted, rfl⟩

theorem importModules_run (hc : IsName c) (line : Nat) (ts : List Token) :
    importModules.run (lineTokens line c ++ ts) =
      some (letterImport line c, breakToken line :: ts) := by
  have hlist : (commaList (renamed dottedName) fun _ => false).run
      (nameToken line c :: breakToken line :: ts) = some (([(String.ofList [c],
        ⟨String.ofList [c], nameToken line c, nameToken line c⟩)], false), breakToken line :: ts) :=
    bind_eq_some.mpr ⟨_, _, renamed_run hc line ts, rfl⟩
  exact bind_eq_some.mpr ⟨importToken line, _, rfl, bind_eq_some.mpr ⟨_, _, hlist, rfl⟩⟩

theorem statement_run (g : Grammar) (hc : IsName c) (line : Nat) (ts : List Token) :
    g.statement.run (lineTokens line c ++ ts) = some (some (letterImport line c), ts) := by
  have hsmall : g.smallStatement.run (lineTokens line c ++ ts) =
      some (some (letterImport line c), breakToken line :: ts) :=
    bind_eq_some.mpr ⟨_, _, rfl, bind_eq_some.mpr ⟨_, _, importModules_run hc line ts, rfl⟩⟩
  have hline : g.line.run (lineTokens line c ++ ts) = some (some (letterImport line c), ts) :=
    bind_eq_some.mpr ⟨_, _, hsmall, rfl⟩
  exact bind_eq_some.mpr ⟨false, _, rfl, hline⟩

theorem another_run (g : Grammar) (hc : IsName c) (line : Nat) (found : List Import)
    (ts : List Token) :
    (g.another found).run (lineTokens line c ++ ts) =
      some (some (letterImport line c :: found), ts) :=
  bind_eq_some.mpr ⟨false, _, rfl, bind_eq_some.mpr ⟨_, _, statement_run g hc line ts, rfl⟩⟩

theorem repeatUpTo_run (g : Grammar) (hnames : ∀ c ∈ names, IsName c) {fuel : Nat}
    (hfuel : names.length < fuel) (line : Nat) (found : List Import) :
    (repeatUpTo g.another fuel found).run (letterTokens line names) =
      some ((letterImports line names).reverse ++ found, [finishToken (line + names.length)]) := by
  induction names generalizing fuel line found with
  | nil =>
      obtain ⟨fuel, rfl⟩ := Nat.exists_eq_add_of_lt hfuel
      rfl
  | cons c names ih =>
      obtain ⟨fuel, rfl⟩ := Nat.exists_eq_add_of_lt hfuel
      have hrest := ih (fun d hd => hnames d (List.mem_cons_of_mem c hd))
        (Nat.lt_add_right fuel (Nat.lt_succ_self names.length)) (line + 1)
        (letterImport line c :: found)
      refine bind_eq_some.mpr ⟨_, _, another_run g (hnames c List.mem_cons_self) line found _, ?_⟩
      refine hrest.trans ?_
      simp [letterImports, Nat.add_assoc, Nat.add_comm 1]

theorem imports_letters (hnames : ∀ c ∈ names, IsName c) :
    imports? (Document.letters names).text = some (letterImports 1 names) := by
  have hrun (g : Grammar) : g.imports.run (letterTokens 1 names) =
      some (letterImports 1 names, [finishToken (1 + names.length)]) := by
    have hfuel := Nat.lt_add_right 2 (length_lt_letterTokens 1 names)
    refine bind_eq_some.mpr ⟨_, _, repeatUpTo_run g hnames hfuel 1 [], ?_⟩
    simp [pure]
  simp [imports?, tokens_letters hnames, hrun]

end Grammar

/-! ### Statements -/

theorem startsFrom_letters (hnames : ∀ c ∈ names, IsName c) (offset : Nat) :
    Text.startsFrom offset (Document.letters names).text =
      (List.range names.length).map fun k => offset + 9 * (k + 1) := by
  induction names generalizing offset with
  | nil => rfl
  | cons c names ih =>
      have hc := hnames c List.mem_cons_self
      have hrest := ih fun d hd => hnames d (List.mem_cons_of_mem c hd)
      simp [Document.text_letters_cons, Text.startsFrom, Text.isBreak,
        hc.ne (d := '\n') (by decide), hc.ne (d := '\r') (by decide), hrest,
        List.range_succ_eq_map]
      omega

theorem lineStart_letters (hnames : ∀ c ∈ names, IsName c) {k : Nat} (hk : k ≤ names.length) :
    (LineIndex.ofText (Document.letters names).text).lineStart (k + 1) = 9 * k := by
  cases k with
  | zero => rfl
  | succ k =>
      simp [LineIndex.lineStart, LineIndex.ofText, startsFrom_letters hnames,
        List.getD_eq_getElem?_getD, hk]

/-- An import is the statement that stands on its line. -/
theorem statement_letterImport (hc : IsName c) {index : LineIndex} {line offset : Nat} {rest : Text}
    (hstart : index.lineStart line = offset)
    (hline : index.text.drop offset =
      'i' :: 'm' :: 'p' :: 'o' :: 'r' :: 't' :: ' ' :: c :: '\n' :: rest) :
    (letterImport line c).statement index = (Item.letter c).statement offset line := by
  have hn := hc.ne (d := '\n') (by decide)
  have hr := hc.ne (d := '\r') (by decide)
  have hend : index.lineEnd line = offset + 8 := by
    simp [LineIndex.lineEnd, hstart, hline, Text.isBreak, hn, hr]
  have hname : index.text.drop (offset + 7) = c :: '\n' :: rest := by
    rw [← List.drop_drop, hline]
    rfl
  simp [Import.statement, letterImport, importToken, nameToken, relocate, LineIndex.offset,
    Alias.binding, trimmed, Text.trimEnd, Text.cut, hstart, hend, hline, hname, hc.shown,
    hc.ne (d := ',') (by decide), Item.statement, Item.letter, Item.text, Item.bindings,
    Entry.bindings, Text.breakCount, Text.startsFrom, Text.isBreak, hn, hr]

theorem map_statement_letters (front names : Text) (hnames : ∀ c ∈ front ++ names, IsName c) :
    (letterImports (front.length + 1) names).map
        (·.statement (.ofText (Document.letters (front ++ names)).text)) =
      Chunk.statements ['\n'] (9 * front.length) (front.length + 1)
        (Document.letters names).chunks := by
  induction names generalizing front with
  | nil => rfl
  | cons c names ih =>
      have hc := hnames c (by simp)
      have hrest := ih (front ++ [c]) (by simpa using hnames)
      rw [List.append_assoc, List.length_append] at hrest
      have hline : (Document.letters (front ++ c :: names)).text.drop (9 * front.length) =
          (Document.letters (c :: names)).text := by
        rw [Document.text_letters_append, List.drop_left' (Document.length_text_letters front)]
      have hstatement := statement_letterImport hc (lineStart_letters hnames (k := front.length)
        (by simp)) (hline.trans (Document.text_letters_cons c names))
      rw [letterImports, List.map_cons, hstatement]
      refine congrArg (List.cons _) (hrest.trans ?_)
      simp [Document.letters, Chunk.body, Item.letter, Item.text, Text.breakCount, Text.startsFrom,
        Text.isBreak, Nat.mul_add, hc.ne (d := '\n') (by decide), hc.ne (d := '\r') (by decide)]

theorem collect_letters (hnames : ∀ c ∈ names, IsName c) :
    collect (Document.letters names).text = some (Document.letters names).collection := by
  have hbreak : (Text.firstBreak (Document.letters names).text).getD ['\n'] = ['\n'] := by
    cases names with
    | nil => rfl
    | cons c names =>
        have hc := hnames c List.mem_cons_self
        simp [Document.text_letters_cons, Text.firstBreak, Text.isBreak,
          hc.ne (d := '\n') (by decide), hc.ne (d := '\r') (by decide)]
  have hstatements := map_statement_letters [] names hnames
  rw [List.nil_append] at hstatements
  rw [collect, imports_letters hnames, Option.map_some, hbreak]
  exact congrArg (fun s => some (⟨s, ['\n']⟩ : Collection)) hstatements

end Code
end ImportOrder
