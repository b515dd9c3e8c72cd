import ImportOrder.Proofs.KnownLines

/-!
Fixing comes to an end. Each pass that applies a fix lowers, in this order: the number of statements
with unsorted names, the place of the sequence of keys among its rearrangements, and the number of
statements directly below another one. All three are read off the statements, so they are the same
whenever the text is.
-/

namespace ImportOrder

/-! ### The place of a list among its rearrangements -/

section Rank

variable {K : Type} [LinearOrder K] {a b : List K}

/-- How many rearrangements of a list come before it. -/
def rank (keys : List K) : Nat := (keys.permutations.toFinset.filter (· < keys)).card

theorem rank_lt (perm : b.Perm a) (less : b < a) : rank b < rank a := by
  apply Finset.card_lt_card
  rw [Finset.ssubset_iff_of_subset]
  · refine ⟨b, ?_, ?_⟩
    · simpa using ⟨perm, less⟩
    · simp
  · intro l hl
    simp only [Finset.mem_filter, List.mem_toFinset, List.mem_permutations] at hl ⊢
    exact ⟨hl.1.trans perm, hl.2.trans less⟩

end Rank

/-! ### What a pass lowers -/

/-- The number of statements with unsorted names. -/
def misplaced (statements : List Statement) : Nat :=
  (statements.map (·.firstMisplaced.isSome)).count true

/-- The number of statements directly below the one before them. -/
def touching : Option Statement → List Statement → Nat
  | _, [] => 0
  | previous, s :: rest =>
      (if previous.any (!Placed.lineBetween · s) then 1 else 0) + touching (some s) rest

/-- How far statements are from being in order. -/
def effort (policy : Policy) (statements : List Statement) : ℕ ×ₗ ℕ ×ₗ ℕ :=
  toLex (misplaced statements, toLex
    (rank (statements.map fun s => policy.sortKey (policy.place s.source) s.firstName),
      touching none statements))

theorem misplaced_document (d : Document) :
    misplaced d.statements = d.items.countP fun x => decide ¬ x.InOrder := by
  have hmap := d.map_statements (f := fun s => s.firstMisplaced.isSome)
    (g := fun x => decide ¬ x.InOrder) (by
      intro x offset row
      rw [Bool.eq_iff_iff, decide_eq_true_eq, Option.isSome_iff_ne_none, ne_eq,
        x.firstMisplaced_statement])
  rw [misplaced, hmap, List.count_eq_countP, List.countP_map]
  congr
  funext x
  simp

theorem Piece.items_chunks (row : List Piece) :
    (row.map Piece.chunk).filterMap Chunk.item? = (Piece.items row).map Prod.snd := by
  induction row with
  | nil => rfl
  | cons p rest ih => cases p <;> simp [Piece.chunk, Piece.items, ih]

theorem countP_lt_countP {α : Type} {p q : α → Bool} {l : List α} {a : α}
    (imp : ∀ b ∈ l, p b = true → q b = true) (ha : a ∈ l) (hp : p a = false) (hq : q a = true) :
    l.countP p < l.countP q := by
  obtain ⟨front, back, rfl⟩ := List.append_of_mem ha
  have hfront := List.countP_mono_left fun b hb => imp b (List.mem_append_left _ hb)
  have hback := List.countP_mono_left fun b hb =>
    imp b (List.mem_append_right front (List.mem_cons_of_mem a hb))
  simp only [List.countP_append, List.countP_cons, hp, hq, Bool.false_eq_true, if_false, if_true]
  omega

namespace Sweep

variable {reread : Item → String} {row out : List Piece} {fixes : List Fix}

theorem countP_lt (h : Sweep reread row fixes out)
    (nodup : ((Piece.items row).map Prod.fst).Nodup) {k : Nat} {x : Item}
    (hk : .sort k ∈ fixes) (hx : (k, x) ∈ Piece.items row) (unsorted : ¬ x.InOrder) :
    (Piece.items out).countP (fun p => decide ¬ p.2.InOrder) <
      (Piece.items row).countP fun p => decide ¬ p.2.InOrder := by
  rw [(h.items_perm nodup).countP_eq, List.countP_map]
  refine countP_lt_countP ?_ hx ?_ (decide_eq_true unsorted)
  · intro p _ hp
    rw [Function.comp_apply, mend, decide_eq_true_eq] at hp
    rw [decide_eq_true_eq]
    split at hp
    · exact absurd (Item.sorted_inOrder _ _) hp
    · exact hp
  · simp [mend, hk, Item.sorted_inOrder]

theorem items_perm_of_not_sort (h : Sweep reread row fixes out)
    (nodup : ((Piece.items row).map Prod.fst).Nodup) (keep : ∀ k, .sort k ∉ fixes) :
    (Piece.items out).Perm (Piece.items row) := by
  have hperm := h.items_perm nodup
  rwa [show mend reread fixes = id from funext fun p => by simp [mend, keep], List.map_id] at hperm

/-- The first statement that moves up goes in front of a larger key. -/
theorem keys_lt {K : Type} [LinearOrder K] (key : Item → K) (h : Sweep reread row fixes out)
    (moves : ∀ f ∈ fixes, ∃ j i, f = .move j i) (some : fixes ≠ [])
    (down : ∀ j i y x, .move j i ∈ fixes → (j, y) ∈ Piece.items row → (i, x) ∈ Piece.items row →
      key x < key y) :
    (Piece.items out).map (fun p => key p.2) < (Piece.items row).map fun p => key p.2 := by
  cases h with
  | done rest => exact absurd rfl some
  | @move front j y mid i x back out fixes next =>
      have hlt : key x < key y :=
        down j i y x List.mem_cons_self (by simp [Piece.items]) (by simp [Piece.items])
      simp only [Piece.items_append, Piece.items, List.map_append, List.map_cons]
      exact List.append_left_lt (List.Lex.rel hlt)
  | blank front i x x' next =>
      obtain ⟨j, i, hf⟩ := moves _ List.mem_cons_self
      cases hf
  | sort front i x next =>
      obtain ⟨j, i, hf⟩ := moves _ List.mem_cons_self
      cases hf

theorem items_eq_of_blank (h : Sweep reread row fixes out)
    (blanks : ∀ f ∈ fixes, ∃ i, f = .blank i) : Piece.items out = Piece.items row := by
  induction h with
  | done rest => rfl
  | move front j y mid i x next ih =>
      obtain ⟨k, hf⟩ := blanks _ List.mem_cons_self
      cases hf
  | blank front i x x' next ih =>
      have hnext := ih fun f hf => blanks f (List.mem_cons_of_mem _ hf)
      simpa [Piece.items] using hnext
  | sort front i x next ih =>
      obtain ⟨k, hf⟩ := blanks _ List.mem_cons_self
      cases hf

end Sweep

/-! ### Statements directly below another one -/

namespace Chunk

/-- How many statements follow another one directly; `before` says if one stands in front. -/
def touching : Bool → List Chunk → Nat
  | _, [] => 0
  | before, .item _ :: rest => before.toNat + touching true rest
  | _, .line _ :: rest => touching false rest

/-- Does a statement come last? -/
def endsIn : Bool → List Chunk → Bool
  | before, [] => before
  | _, .item _ :: rest => endsIn true rest
  | _, .line _ :: rest => endsIn false rest

theorem touching_append (before : Bool) (a b : List Chunk) :
    touching before (a ++ b) = touching before a + touching (endsIn before a) b := by
  induction a generalizing before with
  | nil => simp [touching, endsIn]
  | cons c rest ih => cases c <;> simp [touching, endsIn, ih, Nat.add_assoc]

theorem endsIn_append (before : Bool) (a b : List Chunk) :
    endsIn before (a ++ b) = endsIn (endsIn before a) b := by
  induction a generalizing before with
  | nil => rfl
  | cons c rest ih => cases c <;> exact ih _

theorem endsIn_concat_item (before : Bool) (a : List Chunk) (x : Item) :
    endsIn before (a ++ [item x]) = true := by
  rw [endsIn_append]
  rfl

theorem lineBetween_statement {p : Statement} {x : Item} {offset row : Nat} (h : p.stop.line < row) :
    Placed.lineBetween p (x.statement offset row) = decide (p.stop.line + 1 ≠ row) := by
  have hrow : (x.statement offset row).start.line = row := rfl
  rw [Placed.lineBetween, hrow, Bool.eq_iff_iff]
  simp only [Bool.or_eq_true, decide_eq_true_eq]
  omega

/-- The count on chunks is the one on their statements. -/
theorem touching_statements {newline : Text} {before : Bool} {previous : Option Statement}
    (offset row : Nat) (chunks : List Chunk) (above : ∀ p ∈ previous, p.stop.line < row)
    (hbefore : before = true ↔ ∃ p ∈ previous, p.stop.line + 1 = row) :
    ImportOrder.touching previous (statements newline offset row chunks) =
      touching before chunks := by
  induction chunks generalizing offset row before previous with
  | nil => rfl
  | cons c rest ih =>
      cases c with
      | item x =>
          have hnext : ImportOrder.touching (some (x.statement offset row))
              (statements newline (offset + (x.text ++ newline).length)
                (row + x.text.breakCount + 1) rest) = touching true rest :=
            ih _ _ (by simp [Item.statement]) (by simp [Item.statement])
          have hany : previous.any (!Placed.lineBetween · (x.statement offset row)) = before := by
            cases previous with
            | none => simpa using hbefore
            | some p =>
                rw [Bool.eq_iff_iff, hbefore, Option.any_some, lineBetween_statement (above p rfl)]
                simp
          simp only [statements, item?, body, Option.map_some, Option.toList_some,
            List.cons_append, List.nil_append, ImportOrder.touching, touching, hany, hnext]
          cases before <;> rfl
      | line t =>
          refine ih _ _ ?_ ?_
          · intro p hp
            have := above p hp
            omega
          · simp only [Bool.false_eq_true, false_iff, not_exists, not_and]
            intro p hp
            have := above p hp
            omega

theorem touching_document (d : Document) :
    ImportOrder.touching none d.statements = touching false d.chunks :=
  touching_statements 0 1 d.chunks (by simp) (by simp)

theorem lineCount_append (a b : List Chunk) : lineCount (a ++ b) = lineCount a + lineCount b := by
  simp [lineCount]

theorem eq_nil_of_lineCount_eq_zero {chunks : List Chunk} (h : lineCount chunks = 0) :
    chunks = [] := by
  cases chunks with
  | nil => rfl
  | cons c rest => simp [lineCount] at h

end Chunk

/-- What starts a group without an empty line stands directly below a statement. -/
theorem Document.endsIn_of_crowded {policy : Policy} {d : Document} {front back : List Chunk}
    {x : Item} (split : d.chunks = front ++ Chunk.item x :: back)
    (h : Placed.Crowded policy (policy.placed d.statements) (front.filterMap Chunk.item?).length) :
    Chunk.endsIn false front = true := by
  obtain ⟨a, b, ha, hb, hline⟩ := h.touching
  obtain ⟨pre, y, mid, rfl, hpre⟩ := Chunk.exists_split (Nat.sub_lt h.positive Nat.one_pos)
  have hsplit : d.chunks = pre ++ Chunk.item y :: (mid ++ Chunk.item x :: back) := by
    simpa using split
  obtain ⟨s, hs, rfl⟩ := Policy.getElem?_placed.mp ha
  obtain ⟨t, ht, rfl⟩ := Policy.getElem?_placed.mp hb
  rw [← hpre, Document.statements, hsplit, Chunk.getElem?_statements] at hs
  rw [Document.statements, split, Chunk.getElem?_statements] at ht
  cases hs
  cases ht
  have hmid : Chunk.lineCount mid = 0 := by
    simp only [Placed.lineBetween, Item.statement, Bool.or_eq_false_iff, decide_eq_false_iff_not,
      Chunk.lineCount_append] at hline
    simp only [Chunk.lineCount, List.map_cons, List.sum_cons, Chunk.body] at hline ⊢
    omega
  rw [Chunk.eq_nil_of_lineCount_eq_zero hmid]
  exact Chunk.endsIn_concat_item false pre y

namespace Sweep

variable {reread : Item → String} {row out : List Piece} {fixes : List Fix}

theorem touching_le (h : Sweep reread row fixes out) (blanks : ∀ f ∈ fixes, ∃ i, f = .blank i)
    (before : Bool) :
    Chunk.touching before (out.map Piece.chunk) ≤ Chunk.touching before (row.map Piece.chunk) := by
  induction h generalizing before with
  | done rest => exact le_rfl
  | move front j y mid i x next ih =>
      obtain ⟨k, hf⟩ := blanks _ List.mem_cons_self
      cases hf
  | blank front i x x' next ih =>
      have hnext := ih (fun f hf => blanks f (List.mem_cons_of_mem _ hf)) false
      simp only [List.map_append, List.map_cons, Piece.chunk, Chunk.touching_append,
        Chunk.touching, Bool.toNat_false, Nat.zero_add] at hnext ⊢
      omega
  | sort front i x next ih =>
      obtain ⟨k, hf⟩ := blanks _ List.mem_cons_self
      cases hf

/-- An empty line below a statement parts it from the next one. -/
theorem touching_lt (h : Sweep reread row fixes out) (blanks : ∀ f ∈ fixes, ∃ i, f = .blank i)
    (some : fixes ≠ []) {before : Bool}
    (below : ∀ i front x back, .blank i ∈ fixes → row = front ++ Piece.item i x :: back →
      Chunk.endsIn before (front.map Piece.chunk) = true) :
    Chunk.touching before (out.map Piece.chunk) < Chunk.touching before (row.map Piece.chunk) := by
  cases h with
  | done rest => exact absurd rfl some
  | move front j y mid i x next =>
      obtain ⟨k, hf⟩ := blanks _ List.mem_cons_self
      cases hf
  | @blank front i x x' back out fixes next =>
      have hnext := next.touching_le (fun f hf => blanks f (List.mem_cons_of_mem _ hf)) false
      have hbelow := below i front x back List.mem_cons_self rfl
      simp only [List.map_append, List.map_cons, Piece.chunk, Chunk.touching_append,
        Chunk.touching, Bool.toNat_false, Nat.zero_add, hbelow, Bool.toNat_true] at hnext ⊢
      omega
  | sort front i x next =>
      obtain ⟨k, hf⟩ := blanks _ List.mem_cons_self
      cases hf

end Sweep

/-! ### Every pass makes progress -/

section Progress

variable {policy : Policy} {reread : Item → String} {d : Document} {violations : List Violation}
variable {out : List Piece}

theorem Document.items_eq (d : Document) : d.items = (Piece.items d.pieces).map Prod.snd := by
  rw [← Piece.items_chunks, pieces, Chunk.map_chunk_number, items]

theorem Document.items_withChunks (d : Document) (out : List Piece) :
    (d.withChunks (out.map Piece.chunk)).items = (Piece.items out).map Prod.snd :=
  Piece.items_chunks out

/-- A piece of the document carries its number among the statements. -/
theorem Document.length_of_pieces_eq {front back : List Piece} {i : Nat} {x : Item}
    (h : d.pieces = front ++ Piece.item i x :: back) : (Piece.items front).length = i := by
  have hitems := d.items_pieces
  rw [h, Piece.items_append, Piece.items] at hitems
  have hget := congrArg (·[(Piece.items front).length]?) hitems
  simp only [List.getElem?_append_right, le_refl, Nat.sub_self, List.getElem?_cons_zero,
    List.getElem?_map, List.getElem?_zipIdx, Nat.zero_add] at hget
  cases hx : d.items[(Piece.items front).length]? with
  | none => simp [hx] at hget
  | some z =>
      simp only [hx, Option.map_some, Prod.swap_prod_mk, Option.some.injEq, Prod.mk.injEq] at hget
      exact hget.1.symm

theorem Document.keys_eq (policy : Policy) (d : Document) :
    (d.statements.map fun s => policy.sortKey (policy.place s.source) s.firstName) =
      d.items.map (Item.key policy) := by
  apply d.map_statements
  intro x offset row
  rw [x.firstName_statement]
  rfl

theorem effort_lt (h : checkStatements policy d.newline.text d.statements = .ok violations)
    (sweep : Sweep reread d.pieces (carriedOut d.text violations) out)
    (some : carriedOut d.text violations ≠ []) :
    effort policy (d.withChunks (out.map Piece.chunk)).statements < effort policy d.statements := by
  have hitems := d.items_withChunks out
  rw [effort, effort, Prod.Lex.toLex_lt_toLex, Prod.Lex.toLex_lt_toLex]
  simp only [misplaced_document, Document.keys_eq, Chunk.touching_document, hitems, d.items_eq,
    List.countP_map, List.map_map]
  by_cases hsort : ∃ k, .sort k ∈ carriedOut d.text violations
  · obtain ⟨k, hk⟩ := hsort
    obtain ⟨⟨_, x⟩, hx, rfl⟩ := List.mem_map.mp (sweep.index_mem hk)
    have unsorted := (unsorted_of_sort h hk (Document.mem_items_pieces.mp hx)).2
    exact .inl (sweep.countP_lt d.nodup_pieces hk hx unsorted.1)
  · rw [not_exists] at hsort
    have hperm := sweep.items_perm_of_not_sort d.nodup_pieces hsort
    refine .inr ⟨hperm.countP_eq _, ?_⟩
    by_cases hmove : ∃ j i, .move j i ∈ carriedOut d.text violations
    · obtain ⟨j, i, hmove⟩ := hmove
      have moves : ∀ f ∈ carriedOut d.text violations, ∃ j i, f = .move j i := by
        intro f hf
        cases f with
        | move j i => exact ⟨j, i, rfl⟩
        | blank k => exact absurd hmove ((crowded_of_blank h hf).2 j i)
        | sort k => exact absurd hf (hsort k)
      refine .inl (rank_lt (hperm.map _) (sweep.keys_lt _ moves some ?_))
      intro j i y x hf hy hx
      exact Document.key_lt_of_wants (wants_of_move h hf) (Document.mem_items_pieces.mp hx)
        (Document.mem_items_pieces.mp hy)
    · have blanks : ∀ f ∈ carriedOut d.text violations, ∃ i, f = .blank i := by
        intro f hf
        cases f with
        | move j i => exact absurd ⟨j, i, hf⟩ hmove
        | blank k => exact ⟨k, rfl⟩
        | sort k => exact absurd hf (hsort k)
      refine .inr ⟨by rw [sweep.items_eq_of_blank blanks], ?_⟩
      have below : ∀ i front x back, .blank i ∈ carriedOut d.text violations →
          d.pieces = front ++ Piece.item i x :: back →
          Chunk.endsIn false (front.map Piece.chunk) = true := by
        intro i front x back hf hrow
        have crowded := (crowded_of_blank h hf).1
        have hchunks := congrArg (List.map Piece.chunk) hrow
        rw [Document.pieces, Chunk.map_chunk_number, List.map_append, List.map_cons] at hchunks
        rw [← Document.length_of_pieces_eq hrow, ← List.length_map (f := Prod.snd),
          ← Piece.items_chunks] at crowded
        exact Document.endsIn_of_crowded hchunks crowded
      have hlt := sweep.touching_lt blanks some below
      rwa [Document.pieces, Chunk.map_chunk_number] at hlt

end Progress

/-! ### Sequences of passes -/

section Sequences

variable {collect : Collector} {policy : Policy} {reread : Item → String} {text next : Text}

/-- A text that is read as a document, however it is fixed. -/
def Readable (collect : Collector) (reread : Item → String) (text : Text) : Prop :=
  ∃ d : Document, d.text = text ∧ d.ReadBy collect (Reworked Item.Unsorted reread)

/-- How far the statements found in a text are from being in order. -/
def textEffort (collect : Collector) (policy : Policy) (text : Text) : ℕ ×ₗ ℕ ×ₗ ℕ :=
  effort policy ((collect text).elim [] (·.statements))

theorem Readable.advances (resolved : policy.Resolved) (readable : Readable collect reread text)
    (h : Advances collect policy text next) :
    Readable collect reread next ∧
      textEffort collect policy next < textEffort collect policy text := by
  obtain ⟨d, rfl, reads⟩ := readable
  obtain ⟨violations, out, hcheck, some, sweep, rfl, reads'⟩ :=
    reads.advances resolved (fun _ _ _ unsorted => unsorted) h
  refine ⟨⟨_, rfl, reads'⟩, ?_⟩
  rw [textEffort, textEffort, reads.self, reads'.self]
  exact ImportOrder.effort_lt hcheck sweep some

theorem Readable.of_star (resolved : policy.Resolved) (readable : Readable collect reread text)
    (h : Relation.ReflTransGen (Advances collect policy) text next) :
    Readable collect reread next := by
  induction h with
  | refl => exact readable
  | tail _ step ih => exact (ih.advances resolved step).1

theorem Readable.effort_lt (resolved : policy.Resolved) (readable : Readable collect reread text)
    (h : Relation.TransGen (Advances collect policy) text next) :
    textEffort collect policy next < textEffort collect policy text := by
  induction h with
  | single step => exact (readable.advances resolved step).2
  | tail first step ih =>
      have hmid := readable.of_star resolved first.to_reflTransGen
      exact (hmid.advances resolved step).2.trans ih

/-- Passes under an invariant that lowers the effort reach a text at which they apply nothing. -/
theorem exists_stuck {P : Text → Prop}
    (step : ∀ text next, P text → Advances collect policy text next →
      P next ∧ textEffort collect policy next < textEffort collect policy text)
    (settle : ∀ text, P text → (∀ next, ¬ Advances collect policy text next) →
      ∀ more, (passes collect policy more text).2 = .ok text) (h : P text) :
    ∃ limit final, Relation.ReflTransGen (Advances collect policy) text final ∧ P final ∧
      (∀ next, ¬ Advances collect policy final next) ∧
      ∀ more ≥ limit, (passes collect policy more text).2 = .ok final := by
  induction heffort : textEffort collect policy text using WellFoundedLT.induction
    generalizing text with
  | ind effort ih =>
      by_cases hadv : ∃ next, Advances collect policy text next
      · obtain ⟨next, hnext⟩ := hadv
        obtain ⟨h', hlt⟩ := step text next h hnext
        obtain ⟨limit, final, star, hfinal, stuck, hpasses⟩ := ih _ (heffort ▸ hlt) h' rfl
        refine ⟨limit + 1, final, .head hnext star, hfinal, stuck, ?_⟩
        intro more hmore
        obtain ⟨more, rfl⟩ := Nat.exists_eq_add_of_le' (Nat.le_of_add_left_le hmore)
        rw [passes_of_advances hnext]
        exact hpasses more (by omega)
      · rw [not_exists] at hadv
        exact ⟨0, text, .refl, h, hadv, fun more _ => settle text h hadv more⟩

theorem Readable.passes_of_stuck (resolved : policy.Resolved)
    (readable : Readable collect reread text)
    (stuck : ∀ next, ¬ Advances collect policy text next) (more : Nat) :
    (passes collect policy more text).2 = .ok text := by
  obtain ⟨d, rfl, reads⟩ := readable
  obtain ⟨violations, -, hsurvey, settled⟩ := exists_settled resolved reads.self stuck
  exact passes_of_settled hsurvey settled more

end Sequences

/-- However statements move, names are sorted and empty lines come in: no sequence of passes that
each apply a fix goes on for ever or comes back to a text, and where it stops only names that have a
comment between them may be out of order. -/
theorem fixing_terminates (collect : Collector) (compile : Regex.Compiler) (data : Value)
    (path : Option String) (policy : Policy) (built : Policy.ofValue compile data path = .ok policy)
    (reread : Item → String) (d : Document)
    (reads : d.ReadBy collect (Reworked Item.Unsorted reread)) :
    (¬ ∃ texts : Nat → Text, texts 0 = d.text ∧
      ∀ n, Advances collect policy (texts n) (texts (n + 1))) ∧
    (∀ text next, Relation.ReflTransGen (Advances collect policy) d.text text →
      Relation.TransGen (Advances collect policy) text next → text ≠ next) ∧
    (∀ text, Relation.ReflTransGen (Advances collect policy) d.text text →
      (∀ next, ¬ Advances collect policy text next) →
      ∃ found violations, survey collect policy text = .ok (found, violations) ∧
        ∀ v ∈ violations, v.kind = .wrongMemberOrder ∧ v.edits = []) ∧
    ∃ limit final, Relation.ReflTransGen (Advances collect policy) d.text final ∧
      (∀ next, ¬ Advances collect policy final next) ∧
      ∀ more ≥ limit, (passes collect policy more d.text).2 = .ok final := by
  have resolved := Policy.resolved_of_ofValue built
  have readable : Readable collect reread d.text := ⟨d, rfl, reads⟩
  refine ⟨?_, ?_, ?_, ?_⟩
  · rintro ⟨texts, hzero, steps⟩
    have hreadable : ∀ n, Readable collect reread (texts n) := by
      intro n
      induction n with
      | zero => exact hzero ▸ readable
      | succ n ih => exact (ih.advances resolved (steps n)).1
    obtain ⟨n, hn⟩ := WellFounded.not_rel_apply_succ (r := (· < ·))
      fun n => textEffort collect policy (texts n)
    exact hn ((hreadable n).advances resolved (steps n)).2
  · rintro text next star trans rfl
    exact ((readable.of_star resolved star).effort_lt resolved trans).false
  · intro text star stuck
    obtain ⟨e, rfl, reads'⟩ := readable.of_star resolved star
    obtain ⟨violations, hcheck, hsurvey, settled⟩ := exists_settled resolved reads'.self stuck
    exact ⟨_, violations, hsurvey, fun v hv => settled_violations hcheck settled hv⟩
  · obtain ⟨limit, final, star, -, stuck, hpasses⟩ := exists_stuck
      (fun _ _ readable => readable.advances resolved)
      (fun _ readable => readable.passes_of_stuck resolved) readable
    exact ⟨limit, final, star, stuck, hpasses⟩

/-- A statement without `from` imports the module that it names first. -/
def Item.firstModule (x : Item) : String := ((x.sorted x.source).firstName).getD x.source

/-- `import q, os`, which with sorted names imports from another module. -/
def Item.twoModules : Item :=
  ⟨"q", "import ".toList, none, [⟨"q", ['q'], [',', ' ']⟩, ⟨"os", ['o', 's'], []⟩]⟩

def Item.twoModulesSorted : Item :=
  ⟨"os", "import ".toList, none, [⟨"os", ['o', 's'], [',', ' ']⟩, ⟨"q", ['q'], []⟩]⟩

/-- `import z` above `import q, os`. -/
def Document.twoModules : Document :=
  ⟨.lf, [.item ⟨"z", "import ".toList, none, [⟨"z", ['z'], []⟩]⟩, .item .twoModules]⟩

theorem fixing_terminates_twoModules :
    Document.twoModules.ReadBy (lineCollector (.twoModulesSorted :: Document.twoModules.items))
        (Reworked Item.Unsorted Item.firstModule) ∧
      (¬ ∃ texts : Nat → Text, texts 0 = Document.twoModules.text ∧
        ∀ n, Advances (lineCollector (.twoModulesSorted :: Document.twoModules.items)) .systemFirst
          (texts n) (texts (n + 1))) ∧
      ∃ limit final, ∀ more ≥ limit,
        (passes (lineCollector (.twoModulesSorted :: Document.twoModules.items)) .systemFirst more
          Document.twoModules.text).2 = .ok final := by
  have reads : Document.twoModules.ReadBy
      (lineCollector (.twoModulesSorted :: Document.twoModules.items))
      (Reworked Item.Unsorted Item.firstModule) := by
    refine readBy_lineCollector rfl (by decide) ?_ (by decide)
    have hsorted : Item.twoModules.sorted Item.twoModules.firstModule = .twoModulesSorted := by cbv
    intro x hx unsorted
    rcases List.mem_cons.mp hx with rfl | hx
    · exact absurd (by decide) unsorted.1
    · rcases List.mem_cons.mp hx with rfl | hx
      · exact absurd (by decide) unsorted.1
      · obtain rfl := List.mem_singleton.mp hx
        rw [hsorted]
        decide
  obtain ⟨finite, -, -, limit, final, -, -, ends⟩ := fixing_terminates _ Regex.compile _ none
    .systemFirst (Policy.ofValue_systemFirst _) Item.firstModule .twoModules reads
  exact ⟨reads, finite, limit, final, ends⟩

end ImportOrder
