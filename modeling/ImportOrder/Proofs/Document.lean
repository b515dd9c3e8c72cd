import ImportOrder.LineIndex
import ImportOrder.Proofs.Sorting
import ImportOrder.Proofs.Splice

/-!
Uniform documents: whole lines that all end in the same line break, some of them taken up by import
statements. A document is given by its chunks, so its text and its statements cannot disagree: the
range of a statement is where its chunk lies in the text, the ranges of its names are where they lie
in its chunk, and positions count the lines above it.
-/

namespace ImportOrder

/-- The line break that all lines of a document end in. -/
inductive LineBreak where
  | lf
  | crlf
  | cr
deriving DecidableEq, Repr

def LineBreak.text : LineBreak → Text
  | .lf => ['\n']
  | .crlf => ['\r', '\n']
  | .cr => ['\r']

theorem LineBreak.length_pos (b : LineBreak) : 0 < b.text.length := by
  cases b <;> decide

def Text.breakCount (t : Text) : Nat := (t.startsFrom 0).length

/-! ### Statements by themselves -/

/-- A name in the list that a statement binds, with what stands between it and the next one; for
the last one, up to the end of the statement. -/
structure Entry where
  name : String
  text : Text
  gap : Text
deriving DecidableEq, Repr

namespace Entry

def render (entries : List Entry) : Text := entries.flatMap fun e => e.text ++ e.gap

/-- The names as bindings of a document in which the list starts at `offset`. -/
def bindings : Nat → List Entry → List Binding
  | _, [] => []
  | offset, e :: rest =>
      { name := e.name, text := e.text, span := ⟨offset, offset + e.text.length⟩ } ::
        bindings (offset + e.text.length + e.gap.length) rest

/-- Commas between names, and `last` behind the last one. -/
def separate (last : Text) : List Entry → List Entry
  | [] => []
  | [e] => [{ e with gap := last }]
  | e :: f :: rest => { e with gap := [',', ' '] } :: separate last (f :: rest)

/-- What stands behind the last name. -/
def trailer (entries : List Entry) : Text := (entries.getLast?.map (·.gap)).getD []

end Entry

/-- An import statement wherever it may stand. -/
structure Item where
  source : String
  /-- What stands before the names that may be sorted. -/
  lead : Text
  /-- A leading name that is never sorted; its span counts from the start of the statement. -/
  leading : Option Binding
  entries : List Entry
deriving DecidableEq, Repr

namespace Item

def text (x : Item) : Text := x.lead ++ Entry.render x.entries

def bindings (x : Item) (offset : Nat) : List Binding :=
  (x.leading.map fun b =>
    { b with span := ⟨offset + b.span.start, offset + b.span.stop⟩, isDefault := true }).toList ++
    Entry.bindings (offset + x.lead.length) x.entries

/-- The statement in a document that has it at an offset and on a line. -/
def statement (x : Item) (offset line : Nat) : Statement :=
  { source := x.source
    text := x.text
    bindings := x.bindings offset
    start := ⟨line, 0⟩
    stop := ⟨line + x.text.breakCount, (x.text.reverse.takeWhile (!Text.isBreak ·)).length⟩
    span := ⟨offset, offset + x.text.length⟩ }

def firstName (x : Item) : Option String :=
  match x.leading with
  | some b => some b.name
  | none => x.entries.head?.map (·.name)

/-- The statement with its names sorted and single commas between them. Its module may then be
another one, since a statement without `from` imports the module it names first. -/
def sorted (x : Item) (source : String) : Item :=
  { x with
    source
    entries := Entry.separate (Entry.trailer x.entries)
      (x.entries.mergeSort fun a b => a.name ≤ b.name) }

end Item

/-! ### Documents -/

/-- A statement, or one line of anything else; both without the line break that ends them. -/
inductive Chunk where
  | item (x : Item)
  | line (text : Text)
deriving DecidableEq, Repr

namespace Chunk

def body : Chunk → Text
  | .item x => x.text
  | .line text => text

def item? : Chunk → Option Item
  | .item x => some x
  | .line _ => none

def line? : Chunk → Option Text
  | .item _ => none
  | .line text => some text

def render (newline : Text) (chunks : List Chunk) : Text :=
  chunks.flatMap fun c => c.body ++ newline

def lineCount (chunks : List Chunk) : Nat := (chunks.map fun c => c.body.breakCount + 1).sum

/-- The statements of chunks that start at an offset and on a line. -/
def statements (newline : Text) : Nat → Nat → List Chunk → List Statement
  | _, _, [] => []
  | offset, row, c :: rest =>
      (c.item?.map (·.statement offset row)).toList ++
        statements newline (offset + (c.body ++ newline).length) (row + c.body.breakCount + 1) rest

end Chunk

structure Document where
  newline : LineBreak
  chunks : List Chunk

namespace Document

def text (d : Document) : Text := Chunk.render d.newline.text d.chunks

def statements (d : Document) : List Statement := Chunk.statements d.newline.text 0 1 d.chunks

def items (d : Document) : List Item := d.chunks.filterMap Chunk.item?

/-- The lines that belong to no statement. -/
def lines (d : Document) : List Text := d.chunks.filterMap Chunk.line?

/-- What collecting the statements of the document should give. -/
def collection (d : Document) : Collection := ⟨d.statements, d.newline.text⟩

end Document

/-! ### Where things stand -/

namespace Entry

@[simp] theorem render_nil : render [] = [] := rfl

@[simp] theorem render_cons (e : Entry) (rest : List Entry) :
    render (e :: rest) = e.text ++ e.gap ++ render rest := rfl

theorem bindings_named (offset : Nat) (entries : List Entry) :
    ∀ b ∈ bindings offset entries, b.isDefault = false := by
  induction entries generalizing offset with
  | nil => simp [bindings]
  | cons e rest ih => simpa [bindings] using ih _

theorem map_bindings (offset : Nat) (entries : List Entry) :
    (bindings offset entries).map (fun b => (b.name, b.text)) =
      entries.map fun e => (e.name, e.text) := by
  induction entries generalizing offset with
  | nil => rfl
  | cons e rest ih => simp [bindings, ih]

theorem head?_bindings (offset : Nat) (entries : List Entry) :
    (bindings offset entries).head?.map (·.span.start) = entries.head?.map fun _ => offset := by
  cases entries <;> rfl

theorem trailer_length_le (entries : List Entry) :
    (trailer entries).length ≤ (render entries).length := by
  induction entries with
  | nil => simp [trailer]
  | cons e rest ih =>
      cases rest with
      | nil => simp [trailer]
      | cons f more =>
          have h : trailer (e :: f :: more) = trailer (f :: more) := by simp [trailer]
          rw [h, render_cons, List.length_append]
          omega

/-- The names end where what stands behind the last one begins. -/
theorem getLast?_bindings (offset : Nat) {entries : List Entry} (h : entries ≠ []) :
    (bindings offset entries).getLast?.map (·.span.stop) =
      some (offset + (render entries).length - (trailer entries).length) := by
  induction entries generalizing offset with
  | nil => exact absurd rfl h
  | cons e rest ih =>
      cases rest with
      | nil =>
          simp [bindings, trailer]
          omega
      | cons f more =>
          have ht : trailer (e :: f :: more) = trailer (f :: more) := by simp [trailer]
          have hle := trailer_length_le (f :: more)
          have hb : (bindings offset (e :: f :: more)).getLast? =
              (bindings (offset + e.text.length + e.gap.length) (f :: more)).getLast? := by
            simp [bindings]
          rw [hb, ih _ (by simp), ht]
          simp only [render_cons, List.length_append, Option.some.injEq] at hle ⊢
          omega

theorem render_separate (last : Text) {entries : List Entry} (h : entries ≠ []) :
    render (separate last entries) = [',', ' '].intercalate (entries.map (·.text)) ++ last := by
  induction entries with
  | nil => exact absurd rfl h
  | cons e rest ih =>
      cases rest with
      | nil => simp [separate, List.intercalate]
      | cons f more =>
          have := ih (by simp)
          simp only [List.map_cons, List.intercalate] at this
          simp [separate, this, List.intercalate]

theorem map_name_separate (last : Text) (entries : List Entry) :
    (separate last entries).map (·.name) = entries.map (·.name) := by
  induction entries with
  | nil => rfl
  | cons e rest ih => cases rest <;> simp_all [separate]

/-- The list is its part up to the last name, and what stands behind that. -/
theorem render_eq_take_append_trailer (entries : List Entry) :
    (render entries).take ((render entries).length - (trailer entries).length) ++
      trailer entries = render entries := by
  have suffix : trailer entries <:+ render entries := by
    induction entries with
    | nil => exact List.suffix_refl _
    | cons e rest ih =>
        cases rest with
        | nil => simp [trailer]
        | cons f more =>
            have ht : trailer (e :: f :: more) = trailer (f :: more) := by simp [trailer]
            rw [ht, render_cons]
            exact ih.trans (List.suffix_append _ _)
  obtain ⟨front, h⟩ := suffix
  rw [← h]
  simp

end Entry

/-! ### Sorted names -/

/-- The name as the numbers of its characters, by which names compare. -/
def Binding.codes (b : Binding) : List Nat := b.name.toList.map Char.toNat

theorem map_toNat_lt_iff (a b : List Char) :
    a.map Char.toNat < b.map Char.toNat ↔ a < b := by
  induction a generalizing b with
  | nil => cases b <;> simp
  | cons c a ih =>
      cases b with
      | nil => simp
      | cons d b =>
          rw [List.map_cons, List.map_cons, List.cons_lt_cons_iff, List.cons_lt_cons_iff, ih,
            Char.toNat_inj]
          exact Iff.rfl

theorem Binding.codes_lt_iff {a b : Binding} : a.codes < b.codes ↔ a.name < b.name := by
  rw [codes, codes, map_toNat_lt_iff, String.lt_iff_toList_lt]

theorem Binding.codes_le_iff {a b : Binding} : a.codes ≤ b.codes ↔ a.name ≤ b.name := by
  rw [← not_lt, ← not_lt, codes_lt_iff]

namespace Statement

/-- Are the names that take part in sorting in order? -/
def InOrder (s : Statement) : Prop := s.named.Pairwise fun a b => a.codes ≤ b.codes

instance (s : Statement) : Decidable s.InOrder := inferInstanceAs (Decidable (s.named.Pairwise _))

theorem inOrder_iff {s : Statement} : s.InOrder ↔ (s.named.map (·.name)).Pairwise (· ≤ ·) := by
  simp only [InOrder, Binding.codes_le_iff, List.pairwise_map]

theorem sortedNamed_pairwise (s : Statement) :
    s.sortedNamed.Pairwise fun a b => a.name ≤ b.name :=
  pairwise_mergeSort_key Binding.name s.named

theorem firstMisplaced_eq_none {s : Statement} : s.firstMisplaced = none ↔ s.InOrder := by
  have hlen : s.named.length = s.sortedNamed.length := by
    simp [sortedNamed, List.length_mergeSort]
  constructor
  · intro h
    have same : s.named.map (·.name) = s.sortedNamed.map (·.name) := by
      apply List.ext_getElem (by simpa using hlen)
      intro i hi hi'
      rw [List.length_map] at hi hi'
      have hmem : (s.named[i], s.sortedNamed[i]) ∈ s.named.zip s.sortedNamed := by
        rw [List.mem_iff_getElem]
        exact ⟨i, by simp [hi, hi'], by simp⟩
      have := List.findSome?_eq_none_iff.mp h _ hmem
      simpa using this
    rw [inOrder_iff, same]
    exact List.pairwise_map.mpr s.sortedNamed_pairwise
  · intro h
    have same : s.sortedNamed = s.named := by
      rw [inOrder_iff, List.pairwise_map] at h
      exact List.mergeSort_of_pairwise (h.imp decide_eq_true)
    rw [firstMisplaced, same, List.findSome?_eq_none_iff]
    intro p hp
    obtain ⟨i, hi, rfl⟩ := List.mem_iff_getElem.mp hp
    simp

end Statement

namespace Item

theorem named_statement (x : Item) (offset row : Nat) :
    (x.statement offset row).named = Entry.bindings (offset + x.lead.length) x.entries := by
  have named := Entry.bindings_named (offset + x.lead.length) x.entries
  cases hl : x.leading with
  | some b => simp [Statement.named, statement, bindings, hl]
  | none =>
      simp only [Statement.named, statement, bindings, hl]
      cases he : Entry.bindings (offset + x.lead.length) x.entries with
      | nil => rfl
      | cons b rest =>
          have : b.isDefault = false := named b (he ▸ List.mem_cons_self)
          simp [this]

theorem firstName_statement (x : Item) (offset row : Nat) :
    (x.statement offset row).firstName = x.firstName := by
  cases hl : x.leading with
  | some b => simp [Statement.firstName, statement, bindings, firstName, hl]
  | none =>
      cases he : x.entries <;>
        simp [Statement.firstName, statement, bindings, firstName, hl, he, Entry.bindings]

theorem map_name_named (x : Item) (offset row : Nat) :
    (x.statement offset row).named.map (·.name) = x.entries.map (·.name) := by
  have names := congrArg (List.map Prod.fst)
    (Entry.map_bindings (offset + x.lead.length) x.entries)
  simp only [List.map_map] at names
  rw [named_statement]
  exact names

/-- Are the names of the statement in order, wherever it stands? -/
def InOrder (x : Item) : Prop := (x.statement 0 0).InOrder

instance (x : Item) : Decidable x.InOrder := inferInstanceAs (Decidable (x.statement 0 0).InOrder)

theorem inOrder_iff {x : Item} : x.InOrder ↔ (x.entries.map (·.name)).Pairwise (· ≤ ·) := by
  rw [InOrder, Statement.inOrder_iff, map_name_named]

theorem firstMisplaced_statement (x : Item) (offset row : Nat) :
    (x.statement offset row).firstMisplaced = none ↔ x.InOrder := by
  rw [Statement.firstMisplaced_eq_none, Statement.inOrder_iff, map_name_named, inOrder_iff]

theorem sorted_inOrder (x : Item) (source : String) : (x.sorted source).InOrder := by
  rw [inOrder_iff, sorted, Entry.map_name_separate, List.pairwise_map]
  exact pairwise_mergeSort_key Entry.name x.entries

/-- The texts that are written anew are those of the sorted names. -/
theorem sortedNamed_texts (x : Item) (offset row : Nat) :
    (x.statement offset row).sortedNamed.map (·.text) =
      (x.entries.mergeSort fun a b => a.name ≤ b.name).map (·.text) := by
  let le (a b : String × Text) : Bool := a.1 ≤ b.1
  have hb := List.map_mergeSort (f := fun b : Binding => (b.name, b.text)) (s := le)
    (r := fun a b => decide (a.name ≤ b.name))
    (l := Entry.bindings (offset + x.lead.length) x.entries) (fun _ _ _ _ => rfl)
  have he := List.map_mergeSort (f := fun e : Entry => (e.name, e.text)) (s := le)
    (r := fun a b => decide (a.name ≤ b.name)) (l := x.entries) (fun _ _ _ _ => rfl)
  rw [Entry.map_bindings, ← he] at hb
  have texts := congrArg (List.map Prod.snd) hb
  rw [List.map_map, List.map_map] at texts
  rw [Statement.sortedNamed, named_statement]
  exact texts

theorem text_sorted (x : Item) (source : String) (h : x.entries ≠ []) :
    (x.sorted source).text =
      x.lead ++ [',', ' '].intercalate
        ((x.entries.mergeSort fun a b => a.name ≤ b.name).map (·.text)) ++
        Entry.trailer x.entries := by
  have hs : (x.entries.mergeSort fun a b => a.name ≤ b.name) ≠ [] := by
    rw [← List.length_pos_iff, List.length_mergeSort]
    exact List.length_pos_iff.mpr h
  rw [text, sorted, Entry.render_separate _ hs, List.append_assoc]

/-- Where the list of names ends, counted from the start of the statement. -/
def stop (x : Item) : Nat :=
  x.lead.length + ((Entry.render x.entries).length - (Entry.trailer x.entries).length)

theorem stop_le (x : Item) : x.stop ≤ x.text.length := by
  rw [stop, text, List.length_append]
  omega

theorem lead_le_stop (x : Item) : x.lead.length ≤ x.stop := Nat.le_add_right _ _

theorem within_statement (x : Item) (offset row lo hi : Nat) :
    Edit.within (x.statement offset row) ⟨offset + lo, offset + hi⟩ = x.text.cut lo hi := by
  have hplace : ∀ n : Nat, Text.place x.text.length (Int.ofNat (offset + n) - offset) = n := by
    intro n
    have hn : Int.ofNat (offset + n) - offset = n := by simp
    rw [hn, Text.place, if_neg (by omega), Int.toNat_natCast]
  simp only [Edit.within, Text.slice, statement, hplace]

theorem planMembers_eq_nil (x : Item) (offset row : Nat) (h : x.entries = []) :
    Edit.planMembers (x.statement offset row) = [] := by
  simp [Edit.planMembers, named_statement, h, Entry.bindings]

/-- Sorting the names replaces the text from the first one to the last, in which no comment stands. -/
theorem planMembers_statement (x : Item) (offset row : Nat) (e : Edit)
    (h : e ∈ Edit.planMembers (x.statement offset row)) :
    Edit.planMembers (x.statement offset row) = [e] ∧ '#' ∉ x.text.cut x.lead.length x.stop ∧
      e.span = ⟨offset + x.lead.length, offset + x.stop⟩ ∧
      ∀ source, (x.sorted source).text = x.text.take x.lead.length ++ e.text ++ x.text.drop x.stop := by
  have hne : x.entries ≠ [] := by
    rintro he
    simp [planMembers_eq_nil x offset row he] at h
  have first := Entry.head?_bindings (offset + x.lead.length) x.entries
  have last := Entry.getLast?_bindings (offset + x.lead.length) hne
  have hle := Entry.trailer_length_le x.entries
  obtain ⟨entry, rest, hcons⟩ := List.exists_cons_of_ne_nil hne
  obtain ⟨b, hb, hb'⟩ := Option.map_eq_some_iff.mp (first.trans (by rw [hcons]; rfl))
  obtain ⟨c, hc, hc'⟩ := Option.map_eq_some_iff.mp last
  simp only [Edit.planMembers, named_statement, hb, hc, hb', hc'] at h ⊢
  split at h
  · simp at h
  · next clean =>
      rw [List.mem_singleton] at h
      subst h
      refine ⟨if_neg clean, ?_, ?_, ?_⟩
      · have hstop : offset + x.lead.length + (Entry.render x.entries).length -
            (Entry.trailer x.entries).length = offset + x.stop := by
          rw [stop]
          omega
        rw [hstop, within_statement] at clean
        simpa using clean
      · simp only [Span.mk.injEq, true_and, stop]
        omega
      · intro source
        rw [text_sorted x source hne, sortedNamed_texts]
        have htake : x.text.take x.lead.length = x.lead := by simp [text]
        have hdrop : x.text.drop x.stop = Entry.trailer x.entries := by
          have hsplit := Entry.render_eq_take_append_trailer x.entries
          rw [text, stop, ← List.drop_drop, List.drop_left]
          conv_lhs => rw [← hsplit]
          rw [List.drop_append_of_le_length (by simp), List.drop_eq_nil_of_le (by simp)]
          simp
        rw [htake, hdrop]

end Item

/-! ### Chunks in a row -/

namespace Chunk

variable {newline : Text}

@[simp] theorem render_nil : render newline [] = [] := rfl

@[simp] theorem render_cons (c : Chunk) (rest : List Chunk) :
    render newline (c :: rest) = c.body ++ newline ++ render newline rest := rfl

@[simp] theorem render_append (a b : List Chunk) :
    render newline (a ++ b) = render newline a ++ render newline b := List.flatMap_append

@[simp] theorem filterMap_item?_item (x : Item) (rest : List Chunk) :
    (item x :: rest).filterMap item? = x :: rest.filterMap item? := rfl

@[simp] theorem filterMap_item?_line (t : Text) (rest : List Chunk) :
    (line t :: rest).filterMap item? = rest.filterMap item? := rfl

theorem statements_append (offset row : Nat) (a b : List Chunk) :
    statements newline offset row (a ++ b) =
      statements newline offset row a ++
        statements newline (offset + (render newline a).length) (row + lineCount a) b := by
  induction a generalizing offset row with
  | nil => simp [statements, lineCount]
  | cons c rest ih =>
      simp only [List.cons_append, statements, ih, render_cons, List.append_assoc]
      simp [lineCount, Nat.add_assoc]

theorem length_statements (offset row : Nat) (chunks : List Chunk) :
    (statements newline offset row chunks).length = (chunks.filterMap item?).length := by
  induction chunks generalizing offset row with
  | nil => rfl
  | cons c rest ih => cases c <;> simp [statements, item?, ih]

theorem exists_split {chunks : List Chunk} {i : Nat} (h : i < (chunks.filterMap item?).length) :
    ∃ front x back, chunks = front ++ .item x :: back ∧ (front.filterMap item?).length = i := by
  induction chunks generalizing i with
  | nil => simp at h
  | cons c rest ih =>
      cases c with
      | line t =>
          obtain ⟨front, x, back, rfl, hi⟩ := ih (by simpa using h)
          exact ⟨.line t :: front, x, back, rfl, by simpa using hi⟩
      | item y =>
          cases i with
          | zero => exact ⟨[], y, rest, rfl, rfl⟩
          | succ i =>
              obtain ⟨front, x, back, rfl, hi⟩ := ih (i := i) (by simpa using h)
              exact ⟨.item y :: front, x, back, rfl, by simpa using hi⟩

/-- The statement of a chunk is found under the number of statements before it. -/
theorem getElem?_statements (offset row : Nat) (front : List Chunk) (x : Item) (back : List Chunk) :
    (statements newline offset row (front ++ .item x :: back))[(front.filterMap item?).length]? =
      some (x.statement (offset + (render newline front).length) (row + lineCount front)) := by
  rw [statements_append, ← @length_statements newline offset row front]
  simp [statements, item?]

/-- The statements are those of the items, each somewhere. -/
theorem forall₂_statements (offset row : Nat) (chunks : List Chunk) :
    List.Forall₂ (fun x s => ∃ offset row, s = Item.statement x offset row)
      (chunks.filterMap item?) (statements newline offset row chunks) := by
  induction chunks generalizing offset row with
  | nil => exact .nil
  | cons c rest ih =>
      cases c with
      | item x => exact .cons ⟨offset, row, rfl⟩ (ih _ _)
      | line t => exact ih _ _

end Chunk

namespace Document

variable {d : Document} {i : Nat}

theorem forall₂_statements (d : Document) :
    List.Forall₂ (fun x s => ∃ offset row, s = Item.statement x offset row) d.items d.statements :=
  Chunk.forall₂_statements 0 1 d.chunks

theorem statement_of_item {x : Item} (h : d.items[i]? = some x) :
    ∃ offset row, d.statements[i]? = some (x.statement offset row) := by
  obtain ⟨hlt, rfl⟩ := List.getElem?_eq_some_iff.mp h
  have hlt' : i < d.statements.length := d.forall₂_statements.length_eq ▸ hlt
  obtain ⟨offset, row, hs⟩ := d.forall₂_statements.get hlt hlt'
  exact ⟨offset, row, List.getElem?_eq_some_iff.mpr ⟨hlt', hs⟩⟩

theorem item_of_statement {s : Statement} (h : d.statements[i]? = some s) :
    ∃ x offset row, d.items[i]? = some x ∧ s = x.statement offset row := by
  obtain ⟨hlt, rfl⟩ := List.getElem?_eq_some_iff.mp h
  have hlt' : i < d.items.length := d.forall₂_statements.length_eq.symm ▸ hlt
  obtain ⟨offset, row, hs⟩ := d.forall₂_statements.get hlt' hlt
  exact ⟨d.items[i], offset, row, List.getElem?_eq_getElem hlt', hs⟩

/-- What does not depend on where a statement stands can be read off the items. -/
theorem map_statements {α : Type} {f : Statement → α} {g : Item → α}
    (h : ∀ x offset row, f (Item.statement x offset row) = g x) :
    d.statements.map f = d.items.map g := by
  have same : List.Forall₂ Eq (d.items.map g) (d.statements.map f) := by
    rw [List.forall₂_map_left_iff, List.forall₂_map_right_iff]
    exact d.forall₂_statements.imp fun x s ⟨offset, row, hs⟩ => hs ▸ (h x offset row).symm
  rw [List.forall₂_eq_eq_eq] at same
  exact same.symm

end Document

end ImportOrder
