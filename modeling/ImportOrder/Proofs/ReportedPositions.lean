import ImportOrder.Proofs.CollectedSpans

/-!
Where names are reported. The position of a name is counted from the start of its statement, line
feed by line feed, without a look at the rest of the document. In a document without carriage
returns of their own it is the position that the line index has: the line that holds the name, and
the column that leads back to its offset.
-/

namespace ImportOrder

/-! ### Counting line feeds -/

namespace Code

theorem advance_append (p : Position) (x y : Text) :
    advance p (x ++ y) = advance (advance p x) y := List.foldl_append

theorem advance_cons (line column : Nat) (c : Char) (x : Text) :
    advance ⟨line, column⟩ (c :: x) =
      if c = '\n' then advance ⟨line + 1, 0⟩ x else advance ⟨line, column + 1⟩ x := by
  by_cases hc : c = '\n' <;> simp [advance, hc]

theorem advance_eq (p : Position) (x : Text) :
    advance p x =
      if x.count '\n' = 0 then ⟨p.line, p.column + x.length⟩
      else ⟨p.line + x.count '\n', (x.reverse.takeWhile (· != '\n')).length⟩ := by
  induction x using List.reverseRecOn with
  | nil => rfl
  | append_singleton x c ih =>
      rw [advance_append, ih, List.reverse_append]
      by_cases hc : c = '\n'
      · by_cases hx : x.count '\n' = 0 <;> simp [hc, hx, advance, Nat.add_assoc]
      · by_cases hx : x.count '\n' = 0 <;> simp [hc, hx, advance, Nat.add_assoc]

end Code

theorem Statement.positionOf_eq (s : Statement) (n : Nat) :
    s.positionOf n = Code.advance s.start (s.text.take (n - s.span.start)) := by
  simp only [positionOf, Code.advance_eq, beq_iff_eq]

/-! ### Lines by their line feeds -/

namespace Text

/-- Is every carriage return followed by a line feed? -/
def Paired (t : Text) : Prop := ∀ n < t.length, t[n]? = some '\r' → t[n + 1]? = some '\n'

instance (t : Text) : Decidable t.Paired := inferInstanceAs (Decidable (∀ n < t.length, _))

theorem Paired.of_cons {c : Char} {t : Text} (h : Paired (c :: t)) : t.Paired := by
  intro n hn hreturn
  exact h (n + 1) (Nat.succ_lt_succ hn) hreturn

/-- The offsets just after the line feeds of a text that itself starts at `offset`. -/
def behindFeeds (offset : Nat) : Text → List Nat
  | [] => []
  | c :: rest =>
      if c = '\n' then (offset + 1) :: behindFeeds (offset + 1) rest
      else behindFeeds (offset + 1) rest

theorem startsFrom_of_paired {t : Text} (h : t.Paired) (offset : Nat) :
    t.startsFrom offset = t.behindFeeds offset := by
  fun_induction startsFrom offset t with
  | case1 => rfl
  | case2 offset rest ih =>
      rw [ih h.of_cons.of_cons]
      simp [behindFeeds]
  | case3 offset c rest alone hbreak ih =>
      have hc : c = '\n' := by
        rw [isBreak, Bool.or_eq_true, beq_iff_eq, beq_iff_eq] at hbreak
        apply hbreak.resolve_right
        intro hreturn
        have hnext := h 0 (by simp) (by simp [hreturn])
        obtain ⟨more, hmore⟩ := List.head?_eq_some_iff.mp (List.head?_eq_getElem?.trans hnext)
        exact alone more hreturn hmore
      rw [ih h.of_cons, behindFeeds, if_pos hc]
  | case4 offset c rest alone hbreak ih =>
      have hc : c ≠ '\n' := by
        rintro rfl
        exact hbreak rfl
      rw [ih h.of_cons, behindFeeds, if_neg hc]

theorem lt_of_mem_behindFeeds {offset n : Nat} {t : Text} (h : n ∈ t.behindFeeds offset) :
    offset < n := by
  induction t generalizing offset with
  | nil => cases h
  | cons c t ih =>
      rw [behindFeeds] at h
      by_cases hc : c = '\n'
      · rw [if_pos hc] at h
        cases List.mem_cons.mp h with
        | inl heq => omega
        | inr h => exact Nat.lt_of_succ_lt (ih h)
      · rw [if_neg hc] at h
        exact Nat.lt_of_succ_lt (ih h)

/-- Some characters into a text, of which the current line began at `start`, the line reached is the
one that the feeds in front give, and it goes on behind the character reached. -/
theorem exists_behindFeeds {t : Text} {start column offset n : Nat} (k : Nat)
    (here : start + column = offset) (hn : n ≤ t.length) :
    ∃ i lo, (Code.advance ⟨k, column⟩ (t.take n)).line = k + i ∧
      (start :: t.behindFeeds offset)[i]? = some lo ∧
      lo + (Code.advance ⟨k, column⟩ (t.take n)).column = offset + n ∧
      ∀ hi, (start :: t.behindFeeds offset)[i + 1]? = some hi → offset + n < hi := by
  induction t generalizing start column offset n k with
  | nil =>
      obtain rfl : n = 0 := Nat.le_zero.mp hn
      exact ⟨0, start, rfl, rfl, here, by simp [behindFeeds]⟩
  | cons c t ih =>
      cases n with
      | zero =>
          refine ⟨0, start, rfl, rfl, here, ?_⟩
          intro hi hmem
          exact lt_of_mem_behindFeeds (List.mem_of_getElem? hmem)
      | succ n =>
          have hn' : n ≤ t.length := Nat.le_of_succ_le_succ hn
          rw [List.take_succ_cons, Code.advance_cons, behindFeeds]
          by_cases hc : c = '\n'
          · obtain ⟨i, lo, hline, hlo, hcolumn, hnext⟩ :=
              ih (k + 1) (Nat.add_zero (offset + 1)) hn'
            rw [if_pos hc, if_pos hc]
            refine ⟨i + 1, lo, ?_, hlo, ?_, ?_⟩
            · omega
            · omega
            · intro hi hmem
              have := hnext hi hmem
              omega
          · obtain ⟨i, lo, hline, hlo, hcolumn, hnext⟩ :=
              ih k (show start + (column + 1) = offset + 1 by omega) hn'
            rw [if_neg hc, if_neg hc]
            refine ⟨i, lo, hline, hlo, ?_, ?_⟩
            · omega
            · intro hi hmem
              have := hnext hi hmem
              omega

end Text

/-! ### Positions of the line index -/

namespace LineIndex

/-- A position on the line that holds an offset, in the column that leads to it. -/
structure Locates (index : LineIndex) (n : Nat) (p : Position) : Prop where
  first : 1 ≤ p.line
  last : p.line ≤ index.starts.length
  offset : index.offset p = n
  below : p.line < index.starts.length → n < index.lineStart (p.line + 1)

variable {source : Text} {n : Nat} {p q : Position}

theorem lineStart_lt_lineStart {k l : Nat} (first : 1 ≤ k) (hlt : k < l)
    (last : l ≤ (ofText source).starts.length) :
    (ofText source).lineStart k < (ofText source).lineStart l := by
  have hend : (ofText source).lineStart k ≤ (ofText source).lineEnd k := Nat.le_add_right _ _
  exact Nat.lt_of_le_of_lt hend (Text.lineEnd_lt_lineStart first hlt last).1

theorem Locates.line_le (hp : (ofText source).Locates n p) (hq : (ofText source).Locates n q) :
    q.line ≤ p.line := by
  apply Nat.le_of_not_lt
  intro hlt
  have hnext := hp.below (Nat.lt_of_lt_of_le hlt hq.last)
  have hline : (ofText source).lineStart (p.line + 1) ≤ (ofText source).lineStart q.line := by
    cases Nat.eq_or_lt_of_le (Nat.succ_le_of_lt hlt) with
    | inl heq => rw [← heq]
    | inr hlt => exact Nat.le_of_lt (lineStart_lt_lineStart (Nat.succ_pos _) hlt hq.last)
  have hown := hq.offset
  rw [LineIndex.offset] at hown
  omega

theorem Locates.unique (hp : (ofText source).Locates n p) (hq : (ofText source).Locates n q) :
    p = q := by
  have hline : p.line = q.line := Nat.le_antisymm (hq.line_le hp) (hp.line_le hq)
  have hcolumn : p.column = q.column := by
    have hsame := hp.offset.trans hq.offset.symm
    rw [LineIndex.offset, LineIndex.offset, hline] at hsame
    exact Nat.add_left_cancel hsame
  cases p
  cases q
  simp_all

/-- In a text without carriage returns of their own, counting line feeds finds the position of every
offset. -/
theorem locates_advance (paired : source.Paired) (hn : n ≤ source.length) :
    (ofText source).Locates n (Code.advance ⟨1, 0⟩ (source.take n)) := by
  obtain ⟨i, lo, hline, hlo, hcolumn, hnext⟩ :=
    Text.exists_behindFeeds 1 (Nat.add_zero 0) hn
  rw [← Text.startsFrom_of_paired paired] at hlo hnext
  have hlt : i < (ofText source).starts.length := (List.getElem?_eq_some_iff.mp hlo).1
  refine ⟨by omega, by omega, ?_, ?_⟩
  · have hstart : (ofText source).lineStart (1 + i) = lo := by
      rw [lineStart, ofText, Nat.add_sub_cancel_left, List.getD_eq_getElem?_getD, hlo]
      rfl
    rw [LineIndex.offset, hline, hstart, hcolumn, Nat.zero_add]
  · intro hmore
    rw [hline] at hmore ⊢
    have hget := List.getElem?_eq_getElem (show i + 1 < (ofText source).starts.length by omega)
    have hbelow := hnext _ hget
    rw [lineStart, Nat.add_sub_cancel, Nat.add_comm 1 i, List.getD_eq_getElem?_getD, hget]
    simpa using hbelow

end LineIndex

/-- The positions of a statement are those that the line index has for its offsets, from its start
to its end, and so are the positions at which its names are reported. They grow with the offset. -/
theorem reported_positions_agree (source : Text) (paired : source.Paired) (s : Statement)
    (order : s.span.start ≤ s.span.stop) (reach : s.span.stop ≤ source.length)
    (text : s.text = source.cut s.span.start s.span.stop)
    (start : (LineIndex.ofText source).Locates s.span.start s.start) :
    (∀ n, s.span.start ≤ n → n ≤ s.span.stop →
      (LineIndex.ofText source).Locates n (s.positionOf n)) ∧
    (∀ m n, s.span.start ≤ m → m < n → n ≤ s.span.stop →
      (s.positionOf m).place < (s.positionOf n).place) ∧
    ∀ (v : Violation) (b : Binding), v.statement = s → v.binding = some b →
      s.span.start ≤ b.span.start → b.span.start ≤ s.span.stop →
      (LineIndex.ofText source).Locates b.span.start v.position := by
  have hstart : s.start = Code.advance ⟨1, 0⟩ (source.take s.span.start) :=
    start.unique (LineIndex.locates_advance paired (order.trans reach))
  have counted : ∀ n, s.span.start ≤ n → n ≤ s.span.stop →
      s.positionOf n = Code.advance ⟨1, 0⟩ (source.take n) := by
    intro n hlo hhi
    have hcut : s.text.take (n - s.span.start) = source.cut s.span.start n := by
      rw [text, Text.cut, Text.cut, List.take_take, Nat.min_eq_left (by omega)]
    rw [s.positionOf_eq, hcut, hstart, ← Code.advance_append, Text.take_append_cut hlo]
  have located : ∀ n, s.span.start ≤ n → n ≤ s.span.stop →
      (LineIndex.ofText source).Locates n (s.positionOf n) := by
    intro n hlo hhi
    rw [counted n hlo hhi]
    exact LineIndex.locates_advance paired (hhi.trans reach)
  refine ⟨located, ?_, ?_⟩
  · intro m n hlo hlt hhi
    rw [counted m hlo (hlt.le.trans hhi), counted n (hlo.trans hlt.le) hhi,
      ← Text.take_append_cut hlt.le, Code.advance_append]
    apply Code.place_lt_advance
    rw [← List.length_pos_iff, Text.cut, List.length_take, List.length_drop]
    omega
  · intro v b hv hb hlo hhi
    simp only [Violation.position, hb, hv]
    exact located b.span.start hlo hhi

/-- A statement on three lines that end in different ways; it starts in the middle of a line. -/
def Text.foldedNames : Text := "x\r\ny; from a import (c,\r\n b,\nd)\n".toList

def Violation.foldedNames : Violation where
  index := 0
  statement :=
    { source := "a"
      text := "from a import (c,\r\n b,\nd)".toList
      bindings := [⟨"c", ['c'], ⟨21, 22⟩, false⟩, ⟨"b", ['b'], ⟨26, 27⟩, false⟩,
        ⟨"d", ['d'], ⟨29, 30⟩, false⟩]
      start := ⟨2, 3⟩
      stop := ⟨4, 2⟩
      span := ⟨6, 31⟩ }
  fault := .wrongMemberOrder ⟨"b", ['b'], ⟨26, 27⟩, false⟩

/-- The first name of the second line, and the middle of the line break in front of it. -/
theorem reported_positions_agree_foldedNames :
    Text.foldedNames.Paired ∧
    (LineIndex.ofText .foldedNames).Locates 6 Violation.foldedNames.statement.start ∧
    Violation.foldedNames.position = ⟨3, 1⟩ ∧
    (LineIndex.ofText .foldedNames).Locates 26 ⟨3, 1⟩ ∧
    (LineIndex.ofText .foldedNames).Locates 24 ⟨2, 21⟩ ∧
    (Violation.foldedNames.statement.positionOf 24).place < (⟨3, 1⟩ : Position).place := by
  have paired : Text.foldedNames.Paired := by decide
  have start : (LineIndex.ofText .foldedNames).Locates 6 Violation.foldedNames.statement.start :=
    ⟨by decide, by decide, by decide, by decide⟩
  have reported : Violation.foldedNames.position = ⟨3, 1⟩ := by decide
  have split : Violation.foldedNames.statement.positionOf 24 = ⟨2, 21⟩ := by decide
  have second : Violation.foldedNames.statement.positionOf 26 = ⟨3, 1⟩ := by decide
  obtain ⟨located, grow, names⟩ := reported_positions_agree .foldedNames paired
    Violation.foldedNames.statement (by decide) (by decide) (by decide) start
  refine ⟨paired, start, reported, ?_, ?_, ?_⟩
  · rw [← reported]
    exact names .foldedNames _ rfl rfl (by decide) (by decide)
  · rw [← split]
    exact located 24 (by decide) (by decide)
  · rw [← second]
    exact grow 24 26 (by decide) (by decide) (by decide)

end ImportOrder
