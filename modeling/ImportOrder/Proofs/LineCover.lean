import ImportOrder.Proofs.ReportedPositions

/-!
A line index divides its text. The starts of the lines come from one scan of the whole text and each
line end from a search of its own; together they cut the text into lines without line breaks and the
breaks between them, of which none is a part of another, and nothing is left over.
-/

namespace ImportOrder

open Line (render)

namespace Text

/-- Nothing ends the last line but the text. -/
theorem ending_last (owned : Nat → Bool) (k : Nat) (t : Text) :
    ∀ x ∈ (ruled owned k t).getLast?, x.ending = [] := by
  fun_induction ruled owned k t with
  | case1 k => simp
  | case2 k rest ih =>
      intro x hx
      rw [List.getLast?_cons_of_ne_nil (ruled_ne_nil owned _ rest)] at hx
      exact ih x hx
  | case3 k c rest _ _ ih =>
      intro x hx
      rw [List.getLast?_cons_of_ne_nil (ruled_ne_nil owned _ rest)] at hx
      exact ih x hx
  | case4 k c rest _ _ ih =>
      obtain ⟨l, lines, hl⟩ := List.exists_cons_of_ne_nil (ruled_ne_nil owned k rest)
      rw [hl] at ih ⊢
      cases lines with
      | nil => simpa using ih
      | cons m lines => simpa using ih

end Text

namespace LineIndex

def line (index : LineIndex) (k : Nat) : Text :=
  index.text.cut (index.lineStart k) (index.lineEnd k)

/-- What stands between the end of a line and the start of the next. -/
def breakBehind (index : LineIndex) (k : Nat) : Text :=
  index.text.cut (index.lineEnd k) (index.lineStart (k + 1))

variable {t : Text} {k : Nat}

theorem starts_increasing (t : Text) : (ofText t).starts.Pairwise (· < ·) := by
  apply List.pairwise_iff_getElem.mpr
  intro i j hi hj hlt
  have h := lineStart_lt_lineStart (Nat.succ_pos i) (Nat.succ_lt_succ hlt) hj
  simpa [lineStart, hi, hj] using h

theorem lineStart_le_lineEnd (index : LineIndex) (k : Nat) :
    index.lineStart k ≤ index.lineEnd k :=
  Nat.le_add_right _ _

theorem exists_line_above (first : 1 ≤ k) (more : k < (ofText t).starts.length) :
    ∃ front x back, t.ruled (fun _ => false) 1 = front ++ x :: back ∧ back ≠ [] ∧
      k = front.length + 1 := by
  obtain ⟨front, x, back, hsplit, rfl⟩ := Text.exists_line first (Nat.le_of_lt more)
  refine ⟨front, x, back, hsplit, ?_, rfl⟩
  rintro rfl
  have hlength := congrArg List.length hsplit
  rw [Text.length_ruled, ← Text.length_starts, List.length_append, List.length_singleton] at hlength
  omega

section Split

variable {front back : List Line} {x : Line}

theorem lineStart_next (hsplit : t.ruled (fun _ => false) 1 = front ++ x :: back)
    (hback : back ≠ []) :
    (ofText t).lineStart (front.length + 1 + 1) =
      (render front ++ x.content).length + x.ending.length := by
  have whole : t.ruled (fun _ => false) 1 = (front ++ [x]) ++ back := by simp [hsplit]
  simpa [Line.text, Nat.add_assoc] using Text.lineStart_eq whole hback

theorem text_of_split (hsplit : t.ruled (fun _ => false) 1 = front ++ x :: back) :
    t = (render front ++ x.content) ++ x.ending ++ render back := by
  rw [← Text.render_ruled (fun _ => false) 1 t, hsplit]
  simp [Line.text]

theorem breakBehind_eq (hsplit : t.ruled (fun _ => false) 1 = front ++ x :: back)
    (hback : back ≠ []) : (ofText t).breakBehind (front.length + 1) = x.ending := by
  rw [breakBehind, Text.lineEnd_eq hsplit, lineStart_next hsplit hback, text_ofText,
    ← List.length_append]
  conv_lhs => rw [text_of_split hsplit]
  exact Text.cut_append _ _ _

end Split

theorem breakBehind_cases (first : 1 ≤ k) (more : k < (ofText t).starts.length) :
    ((ofText t).breakBehind k = ['\r', '\n'] ∨ (ofText t).breakBehind k = ['\r'] ∨
        (ofText t).breakBehind k = ['\n']) ∧
      ((ofText t).breakBehind k = ['\r'] → t[(ofText t).lineStart (k + 1)]? ≠ some '\n') := by
  obtain ⟨front, x, back, hsplit, hback, rfl⟩ := exists_line_above first more
  have proper : Line.Proper (x :: back) := (hsplit ▸ Text.proper_ruled _ 1 t).right
  rw [breakBehind_eq hsplit hback, lineStart_next hsplit hback]
  cases proper with
  | cons sound final apart next =>
      -- Only the last line may lack its break, and this one has lines below it.
      constructor
      · rcases sound.ends (fun h => hback (final h)) with h | h | h <;> simp [h]
      · intro hreturn hfeed
        apply apart hreturn
        rw [text_of_split hsplit, ← List.length_append,
          List.getElem?_append_right (Nat.le_refl _), Nat.sub_self] at hfeed
        rwa [List.head?_eq_getElem?]

theorem lineEnd_last (t : Text) : (ofText t).lineEnd (ofText t).starts.length = t.length := by
  have first : 1 ≤ (ofText t).starts.length := Nat.succ_pos _
  obtain ⟨front, x, back, hsplit, hline⟩ := Text.exists_line first (Nat.le_refl _)
  have hback : back = [] := by
    have hlength := congrArg List.length hsplit
    rw [Text.length_ruled, ← Text.length_starts, hline] at hlength
    simpa using hlength
  rw [hback] at hsplit
  have hending : x.ending = [] := by
    apply Text.ending_last (fun _ => false) 1 t
    simp [hsplit]
  have hlength := congrArg List.length (text_of_split hsplit)
  rw [hline, Text.lineEnd_eq hsplit, hlength]
  simp [hending]

theorem line_append_breakBehind (first : 1 ≤ k) (more : k < (ofText t).starts.length) :
    (ofText t).line k ++ (ofText t).breakBehind k =
      t.cut ((ofText t).lineStart k) ((ofText t).lineStart (k + 1)) := by
  have hend := (Text.lineEnd_lt_lineStart first (Nat.lt_succ_self k) more).1
  exact Text.cut_append_cut (lineStart_le_lineEnd _ k) (Nat.le_of_lt hend)

/-- The first lines with their breaks are the text in front of the next line. -/
theorem flatMap_lines {count : Nat} (h : count < (ofText t).starts.length) :
    ((List.range' 1 count).flatMap fun k => (ofText t).line k ++ (ofText t).breakBehind k) =
      t.take ((ofText t).lineStart (count + 1)) := by
  induction count with
  | zero => rfl
  | succ count ih =>
      have hstart := lineStart_lt_lineStart (Nat.succ_pos count) (Nat.lt_succ_self _) h
      rw [List.range'_1_concat, List.flatMap_append, ih (Nat.lt_of_succ_lt h),
        List.flatMap_singleton, Nat.add_comm 1 count,
        line_append_breakBehind (Nat.succ_pos count) h, Text.take_append_cut (Nat.le_of_lt hstart)]

theorem flatMap_lines_append_last (t : Text) :
    ((List.range' 1 ((ofText t).starts.length - 1)).flatMap fun k =>
        (ofText t).line k ++ (ofText t).breakBehind k) ++
      (ofText t).line (ofText t).starts.length = t := by
  have first : 1 ≤ (ofText t).starts.length := Nat.succ_pos _
  rw [flatMap_lines (Nat.sub_lt first Nat.one_pos), Nat.sub_add_cancel first, line, text_ofText,
    Text.take_append_cut (lineStart_le_lineEnd _ _), lineEnd_last, List.take_length]

end LineIndex

/-- The lines of a line index and the breaks behind them divide the text, whatever line breaks it
mixes. The first line starts at the start of the text and each other one further on; no line holds a
break; behind each line but the last stands one break, which is not the first half of a longer one;
the last line ends where the text does; and line by line the text is there again. -/
theorem line_index_divides_text (t : Text) :
    (LineIndex.ofText t).starts.head? = some 0 ∧ (LineIndex.ofText t).starts.Pairwise (· < ·) ∧
      (∀ k, 1 ≤ k → k ≤ (LineIndex.ofText t).starts.length →
        ∀ c ∈ (LineIndex.ofText t).line k, c ≠ '\r' ∧ c ≠ '\n') ∧
      (∀ k, 1 ≤ k → k < (LineIndex.ofText t).starts.length →
        ((LineIndex.ofText t).breakBehind k = ['\r', '\n'] ∨
          (LineIndex.ofText t).breakBehind k = ['\r'] ∨
          (LineIndex.ofText t).breakBehind k = ['\n']) ∧
        ((LineIndex.ofText t).breakBehind k = ['\r'] →
          t[(LineIndex.ofText t).lineStart (k + 1)]? ≠ some '\n')) ∧
      (LineIndex.ofText t).lineEnd (LineIndex.ofText t).starts.length = t.length ∧
      ((List.range' 1 ((LineIndex.ofText t).starts.length - 1)).flatMap fun k =>
          (LineIndex.ofText t).line k ++ (LineIndex.ofText t).breakBehind k) ++
        (LineIndex.ofText t).line (LineIndex.ofText t).starts.length = t := by
  refine ⟨rfl, LineIndex.starts_increasing t, ?_, ?_, LineIndex.lineEnd_last t,
    LineIndex.flatMap_lines_append_last t⟩
  · intro k _ _ c hc
    have hplain := LineIndex.cut_lineEnd t k c hc
    have hboth : c ≠ '\n' ∧ c ≠ '\r' := by simpa [Text.isBreak] using hplain
    exact hboth.symm
  · intro k first more
    exact LineIndex.breakBehind_cases first more

/-- Five lines, three of them empty, with line breaks of every kind between them. -/
def Text.unlikeBreaks : Text := ['a', '\r', '\r', '\n', '\n', 'b', '\r']

theorem line_index_divides_text_unlikeBreaks :
    (LineIndex.ofText .unlikeBreaks).starts = [0, 2, 4, 5, 7] ∧
      (LineIndex.ofText .unlikeBreaks).breakBehind 1 = ['\r'] ∧
      Text.unlikeBreaks[(LineIndex.ofText .unlikeBreaks).lineStart 2]? ≠ some '\n' ∧
      ∀ c ∈ (LineIndex.ofText .unlikeBreaks).line 4, c ≠ '\r' ∧ c ≠ '\n' := by
  obtain ⟨-, -, unbroken, breaks, -, -⟩ := line_index_divides_text .unlikeBreaks
  have alone : (LineIndex.ofText .unlikeBreaks).breakBehind 1 = ['\r'] := by decide
  exact ⟨by decide, alone, (breaks 1 (by decide) (by decide)).2 alone,
    unbroken 4 (by decide) (by decide)⟩

end ImportOrder
