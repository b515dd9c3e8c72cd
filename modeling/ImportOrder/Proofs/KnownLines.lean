import ImportOrder.Proofs.Passes

/-!
A collector that knows statements by their lines. It splits a text at its line feeds and takes a line
for a statement if it is the text of one that it knows. However a document of such lines is fixed,
this collector finds its statements, as long as it knows the statements with sorted names as well.
-/

namespace ImportOrder

/-- The lines of a text, without the line feeds that end them. -/
def Text.rows : Text → List Text
  | [] => []
  | c :: rest =>
      if c = '\n' then [] :: rows rest
      else
        match rows rest with
        | [] => [[c]]
        | row :: more => (c :: row) :: more

theorem Text.rows_append {row : Text} (h : '\n' ∉ row) (rest : Text) :
    rows (row ++ '\n' :: rest) = row :: rows rest := by
  induction row with
  | nil => simp [rows]
  | cons c row ih =>
      rw [List.mem_cons, not_or] at h
      simp [rows, ih h.2, Ne.symm h.1]

/-- What a line is, to someone who knows some statements. -/
def recognize (known : List Item) (row : Text) : Chunk :=
  match known.find? (·.text == row) with
  | some x => .item x
  | none => .line row

def lineCollector (known : List Item) : Collector := fun text =>
  some (Document.mk .lf ((Text.rows text).map (recognize known))).collection

/-- A chunk of one line that is taken for what it is. -/
def Recognized (known : List Item) (c : Chunk) : Prop :=
  '\n' ∉ c.body ∧ recognize known c.body = c

instance (known : List Item) : DecidablePred (Recognized known) :=
  fun c => inferInstanceAs (Decidable (_ ∧ recognize known c.body = c))

variable {known : List Item} {d : Document}

theorem map_recognize_rows {chunks : List Chunk} (h : ∀ c ∈ chunks, Recognized known c) :
    (Text.rows (Chunk.render ['\n'] chunks)).map (recognize known) = chunks := by
  induction chunks with
  | nil => rfl
  | cons c rest ih =>
      obtain ⟨single, found⟩ := h c List.mem_cons_self
      rw [Chunk.render_cons, List.append_assoc, List.singleton_append, Text.rows_append single,
        List.map_cons, found, ih fun e he => h e (List.mem_cons_of_mem c he)]

theorem lineCollector_text (lf : d.newline = .lf) (h : ∀ c ∈ d.chunks, Recognized known c) :
    lineCollector known d.text = some d.collection := by
  obtain ⟨newline, chunks⟩ := d
  subst lf
  rw [lineCollector, Document.text, LineBreak.text, map_recognize_rows h]

theorem mem_of_recognized {x : Item} (h : Recognized known (.item x)) : x ∈ known := by
  have found := h.2
  unfold recognize at found
  split at found
  · next y hy =>
      cases found
      exact List.mem_of_find?_eq_some hy
  · cases found

/-- A change of a document keeps its lines recognizable. -/
theorem Reworked.recognized {sortable : Item → Prop} {reread : Item → String} {a b : List Chunk}
    (blank : Recognized known (.line []))
    (sorts : ∀ x ∈ known, sortable x → Recognized known (.item (x.sorted (reread x))))
    (h : Reworked sortable reread a b) (ha : ∀ c ∈ a, Recognized known c) :
    ∀ c ∈ b, Recognized known c := by
  cases h with
  | move front y mid x back =>
      intro c hc
      apply ha
      simp only [List.mem_append, List.mem_cons] at hc ⊢
      tauto
  | blank front x back =>
      intro c hc
      simp only [List.mem_append, List.mem_cons] at hc
      rcases hc with hc | rfl | hc
      · exact ha c (by simp [hc])
      · exact blank
      · exact ha c (by simpa using .inr hc)
  | sort front x back admitted =>
      have hx : x ∈ known := mem_of_recognized (ha (.item x) (by simp))
      intro c hc
      simp only [List.mem_append, List.mem_cons] at hc
      rcases hc with hc | rfl | hc
      · exact ha c (by simp [hc])
      · exact sorts x hx admitted
      · exact ha c (by simp [hc])

/-- Documents of recognizable lines are read however they are fixed. -/
theorem readBy_lineCollector {sortable : Item → Prop} {reread : Item → String}
    (lf : d.newline = .lf) (blank : Recognized known (.line []))
    (sorts : ∀ x ∈ known, sortable x → Recognized known (.item (x.sorted (reread x))))
    (h : ∀ c ∈ d.chunks, Recognized known c) :
    d.ReadBy (lineCollector known) (Reworked sortable reread) := by
  intro chunks star
  have recognized : ∀ c ∈ chunks, Recognized known c := by
    induction star with
    | refl => exact h
    | tail _ step ih => exact step.recognized blank sorts ih
  exact lineCollector_text (d := d.withChunks chunks) lf recognized

end ImportOrder
