import ImportOrder.Proofs.MixedBreaks

/-!
The lines of a source that belong to no import statement, in one pass of fixing over the source,
whatever mixture of line breaks it has. They are all kept, in their order, if the line breaks behind
the statements that are moved fit the line break of the document. How many characters a pass loses
is counted exactly: one for each statement that is moved from in front of a line with characters
although its line break is shorter than the document's.
-/

namespace ImportOrder

namespace Statement

def ownBreak (t : Text) (s : Statement) : Text := Text.leadingBreak (t.drop s.span.stop)

/-- What stands on the lines behind a statement. -/
def next (t : Text) (s : Statement) : Text := t.drop (s.span.stop + (s.ownBreak t).length)

/-- Are the lines behind a statement still there when it is moved? -/
def Fits (t newline : Text) (statements : List Statement) (s : Statement) : Prop :=
  Text.Fits newline (s.ownBreak t) (Text.returned false (t.take s.span.start)) (s.next t)
    (coveredBy statements (s.stop.line + 1))

instance (t newline : Text) (statements : List Statement) (s : Statement) :
    Decidable (s.Fits t newline statements) := inferInstanceAs (Decidable (Text.Fits ..))

/-- The lines behind a statement when it is taken away. -/
def linesLeft (t newline : Text) (s : Statement) : List Text :=
  Text.linesFrom (Text.returned false (t.take s.span.start)) (t.drop (s.span.stop + newline.length))

/-- Does moving a statement take the first character of the next line with it? -/
def bites (t newline : Text) (s : Statement) : Bool :=
  (s.ownBreak t).length < newline.length && (s.next t).head?.any (!Text.isBreak ·)

end Statement

/-- The statements that a pass moves when it finds these violations. -/
def movedBy (t : Text) (violations : List Violation) : List Statement :=
  ((takenFixes t (passFixes violations)).filter (·.1.kind == .wrongOrder)).map (·.1.statement)

def Edit.moving (t newline : Text) (r s : Statement) : Edit :=
  ⟨⟨r.span.start, min (s.span.stop + newline.length) t.length⟩,
    s.text ++ newline ++ t.cut r.span.start s.span.start⟩

open Line (render)

section Splits

variable {t newline : Text} {statements : List Statement} {r s : Statement}

theorem covers_of_mem (h : s ∈ statements) {k : Nat} (first : s.start.line ≤ k)
    (last : k ≤ s.stop.line) : coveredBy statements k = true :=
  List.any_eq_true.mpr ⟨s, h, by simp [Statement.covers, first, last]⟩

/-- The lines of a text at a statement. -/
structure Statement.Splits (t : Text) (statements : List Statement) (s : Statement)
    (front block : List Line) (last : Line) (back : List Line) : Prop where
  lines : t.ruled (coveredBy statements) 1 = front ++ (block ++ last :: back)
  line : s.start.line = front.length + 1
  start : s.span.start = (render front).length
  stop : s.span.stop = (render (front ++ block)).length + last.content.length
  text : s.text = render block ++ last.content
  owned : ∀ l ∈ block ++ [last], l.owned = true
  next : ∀ l ∈ back.head?, l.owned = coveredBy statements (s.stop.line + 1)

theorem Statement.Fills.splits (h : s.Fills t) (hs : s ∈ statements) :
    ∃ front block last back, s.Splits t statements front block last back := by
  obtain ⟨front, block, last, back, lines, line, line', start, stop, text⟩ :=
    h.exists_split (coveredBy statements)
  have marked := Text.marked_ruled (coveredBy statements) 1 t
  have hlines : t.ruled (coveredBy statements) 1 = front ++ ((block ++ [last]) ++ back) := by
    simpa using lines
  rw [hlines] at marked
  rw [List.length_append] at line'
  refine ⟨front, block, last, back, lines, line, start, stop, text, ?_, ?_⟩
  · apply marked.right.left.owned_eq_true
    intro j hj hj'
    rw [List.length_append, List.length_singleton] at hj'
    exact covers_of_mem hs (by omega) (by omega)
  · intro l hl
    obtain ⟨rest, rfl⟩ := List.head?_eq_some_iff.mp hl
    have := marked.right.right.1
    rw [List.length_append, List.length_singleton] at this
    rw [this, line']
    congr 1
    omega

namespace Statement.Splits

variable {front block back : List Line} {last : Line}

theorem text_eq (h : s.Splits t statements front block last back) :
    t = render (front ++ block) ++ last.content ++ (last.ending ++ render back) := by
  rw [← Text.render_ruled (coveredBy statements) 1 t, h.lines]
  simp [Line.text]

theorem proper (h : s.Splits t statements front block last back) :
    Line.Proper (front ++ (block ++ last :: back)) :=
  h.lines ▸ Text.proper_ruled (coveredBy statements) 1 t

theorem drop_stop (h : s.Splits t statements front block last back) :
    t.drop s.span.stop = last.ending ++ render back := by
  rw [h.stop, ← List.length_append]
  conv_lhs => rw [h.text_eq]
  exact List.drop_left

theorem start_le (h : s.Splits t statements front block last back) :
    s.span.start ≤ s.span.stop := by
  rw [h.start, h.stop, Line.render_append, List.length_append]
  omega

theorem stop_le (h : s.Splits t statements front block last back) : s.span.stop ≤ t.length := by
  have hlength := congrArg List.length h.text_eq
  rw [List.length_append, List.length_append] at hlength
  rw [h.stop]
  omega

theorem drop_start (h : s.Splits t statements front block last back) :
    t.drop s.span.start = render (block ++ last :: back) := by
  rw [h.start]
  conv_lhs => rw [← Text.render_ruled (coveredBy statements) 1 t, h.lines, Line.render_append]
  exact List.drop_left

theorem take_start (h : s.Splits t statements front block last back) :
    t.take s.span.start = render front := by
  rw [h.start]
  conv_lhs => rw [← Text.render_ruled (coveredBy statements) 1 t, h.lines, Line.render_append]
  exact List.take_left

theorem ownBreak_eq (h : s.Splits t statements front block last back) :
    s.ownBreak t = last.ending := by
  rw [ownBreak, h.drop_stop]
  have proper : Line.Proper (last :: back) := h.proper.right.right
  cases proper with
  | cons sound final apart next =>
      rcases sound.ending with hend | hend | hend | hend
      · rw [hend, final hend]
        rfl
      · rw [hend]
        rfl
      · rw [hend]
        have hnext := apart hend
        cases hback : render back with
        | nil => rfl
        | cons c rest =>
            rw [hback] at hnext
            rw [List.singleton_append, Text.leadingBreak]
            · rfl
            · rintro more - hmore
              simp [(List.cons.inj hmore).1] at hnext
      · rw [hend]
        rfl

theorem next_eq (h : s.Splits t statements front block last back) : s.next t = render back := by
  rw [Statement.next, h.ownBreak_eq, ← List.drop_drop, h.drop_stop, List.drop_left]

theorem exists_first (h : s.Splits t statements front block last back) :
    ∃ first rest, block ++ last :: back = first :: rest ∧ first.owned = true := by
  cases block with
  | nil => exact ⟨last, back, rfl, h.owned last (by simp)⟩
  | cons first block => exact ⟨first, block ++ last :: back, rfl, h.owned first (by simp)⟩

/-- In front of a statement stand the lines of one above it. -/
theorem exists_between {front' block' back' : List Line} {last' : Line}
    (h : s.Splits t statements front block last back)
    (h' : r.Splits t statements front' block' last' back')
    (above : r.start.line < s.start.line) :
    ∃ first mid, front = front' ++ first :: mid ∧ first.owned = true := by
  have hline := h.line
  have hline' := h'.line
  obtain ⟨first, rest, hfirst, owned⟩ := h'.exists_first
  have hlines := h'.lines.symm.trans h.lines
  rw [hfirst] at hlines
  rcases List.append_eq_append_iff.mp hlines with ⟨more, rfl, hmore⟩ | ⟨more, rfl, -⟩
  · cases more with
    | nil =>
        rw [List.append_nil] at hline
        omega
    | cons l mid =>
        obtain ⟨rfl, -⟩ := List.cons.inj hmore
        exact ⟨first, mid, rfl, owned⟩
  · rw [List.length_append] at hline'
    omega

theorem place_le {front' block' back' : List Line} {last' : Line}
    (h : s.Splits t statements front block last back)
    (h' : r.Splits t statements front' block' last' back')
    (above : r.start.line < s.start.line) : r.span.start ≤ s.span.start := by
  obtain ⟨first, mid, rfl, -⟩ := h.exists_between h' above
  rw [h'.start, h.start, Line.render_append, List.length_append]
  omega

end Statement.Splits

theorem Text.Fits.of_taken {newline own next : Text} {returned taken taken' : Bool}
    (h : Text.Fits newline own returned next taken) (htaken : next ≠ [] → taken = taken') :
    Text.Fits newline own returned next taken' := by
  by_cases hnext : next = []
  · exact .inl hnext
  · exact htaken hnext ▸ h

/-- In front of a line of no statement, a statement fits exactly if no line behind it is lost. -/
theorem fits_iff (hs : s.Fills t) (hsm : s ∈ statements)
    (hnewline : newline = ['\n'] ∨ newline = ['\r'] ∨ newline = ['\r', '\n'])
    (bare : coveredBy statements (s.stop.line + 1) = false) :
    s.Fits t newline statements ↔ (s.next t).lines.Sublist (s.linesLeft t newline) := by
  obtain ⟨front, block, last, back, split⟩ := hs.splits hsm
  have proper : Line.Proper (last :: back) := split.proper.right.right
  have hlength : newline.length = 1 ∨ newline.length = 2 := by
    rcases hnewline with rfl | rfl | rfl <;> simp
  rw [Statement.Fits, Statement.linesLeft, bare, ← List.drop_drop, split.drop_stop,
    split.ownBreak_eq, split.next_eq]
  cases proper with
  | cons sound final apart next =>
      refine Text.fits_iff hlength sound.ending ?_
      intro hending
      rw [final hending]
      rfl

/-- A statement that fits is moved over lines without harm to those behind it. -/
theorem changesIn_moving (hr : r.Fills t) (hs : s.Fills t) (hrm : r ∈ statements)
    (hsm : s ∈ statements) (above : r.start.line < s.start.line)
    (fits : s.Fits t newline statements) :
    Line.ChangesIn t newline (t.ruled (coveredBy statements) 1) (Edit.moving t newline r s) := by
  obtain ⟨front', block', last', back', split'⟩ := hr.splits hrm
  obtain ⟨front, block, last, back, split⟩ := hs.splits hsm
  obtain ⟨first, mid, rfl, owned⟩ := split.exists_between split' above
  have hlines : t.ruled (coveredBy statements) 1 =
      front' ++ (first :: mid ++ (block ++ last :: back)) := by
    rw [split.lines, List.append_assoc]
  have htext : t = render front' ++ (render (first :: mid) ++ render (block ++ last :: back)) := by
    rw [← Text.render_ruled (coveredBy statements) 1 t, hlines]
    simp
  have hplace : t.drop r.span.start = render (first :: mid ++ (block ++ last :: back)) := by
    rw [split'.start, Line.render_append]
    conv_lhs => rw [htext]
    exact List.drop_left
  refine ⟨_, ⟨front', hlines.symm⟩, hplace, ?_, .move owned split.owned ?_ ?_ ?_⟩
  · exact split'.start_le.trans split'.stop_le
  · rw [Edit.moving, ← List.drop_eq_drop_min, ← List.drop_drop, split.drop_stop]
  · have hcut : t.cut r.span.start s.span.start = render (first :: mid) := by
      rw [split'.start, split.start, Line.render_append, List.length_append]
      conv_lhs => rw [htext, ← List.append_assoc]
      exact Text.cut_append _ _ _
    rw [Edit.moving, split.text, hcut]
  · have proper : Line.Proper (first :: mid ++ (block ++ last :: back)) := by
      have := split.proper
      rw [List.append_assoc] at this
      exact this.right
    have hfirst := proper.render_ne_nil (by simp)
    rw [Statement.Fits, split.ownBreak_eq, split.next_eq, split.take_start, Line.render_append,
      Text.returned_append, Line.returned_eq hfirst _ false] at fits
    refine fits.of_taken fun hback => ?_
    cases back with
    | nil => exact absurd rfl hback
    | cons l back => exact (split.next l rfl).symm

/-- An empty line in front of a statement does no harm. -/
theorem changesIn_blank (hs : s.Fills t) (hsm : s ∈ statements) :
    Line.ChangesIn t newline (t.ruled (coveredBy statements) 1)
      ⟨⟨s.span.start, s.span.start⟩, newline⟩ := by
  obtain ⟨front, block, last, back, split⟩ := hs.splits hsm
  obtain ⟨first, rest, hfirst, owned⟩ := split.exists_first
  have hstart := split.drop_start
  rw [hfirst] at hstart
  refine ⟨first :: rest, ⟨front, ?_⟩, hstart, split.start_le.trans split.stop_le, ?_⟩
  · rw [split.lines, hfirst]
  · exact .blank owned hstart rfl

/-! ### Characters that are lost -/

/-- Of what is taken behind a line, at most one character belongs to the next line. -/
theorem Line.countP_taken {last : Line} {back : List Line} (proper : Line.Proper (last :: back))
    (hnewline : newline.length = 1 ∨ newline.length = 2) :
    ((last.ending ++ render back).take newline.length).countP (!Text.isBreak ·) =
      (decide (last.ending.length < newline.length) &&
        (render back).head?.any (!Text.isBreak ·)).toNat := by
  cases proper with
  | cons sound final apart next =>
      have hending : (last.ending.take newline.length).countP (!Text.isBreak ·) = 0 := by
        rw [List.countP_eq_zero]
        intro c hc
        have := List.mem_of_mem_take hc
        rcases sound.ending with h | h | h | h <;> rw [h] at this <;> simp at this
        · simp [this, Text.isBreak]
        · simp [this, Text.isBreak]
        · rcases this with rfl | rfl <;> simp [Text.isBreak]
      rw [List.take_append, List.countP_append, hending, Nat.zero_add]
      by_cases hlt : last.ending.length < newline.length
      · by_cases hnil : last.ending = []
        · simp [final hnil]
        · have hone : newline.length - last.ending.length = 1 := by
            have := List.length_pos_iff.mpr hnil
            omega
          rw [hone, decide_eq_true hlt, Bool.true_and]
          cases render back with
          | nil => rfl
          | cons c rest => cases h : Text.isBreak c <;> simp [h]
      · rw [Nat.sub_eq_zero_of_le (by omega), decide_eq_false hlt]
        rfl

theorem moving_ordered (hr : r.Fills t) (hs : s.Fills t) (hrm : r ∈ statements)
    (hsm : s ∈ statements) (above : r.start.line < s.start.line) :
    (Edit.moving t newline r s).span.start ≤ (Edit.moving t newline r s).span.stop := by
  obtain ⟨front', block', last', back', split'⟩ := hr.splits hrm
  obtain ⟨front, block, last, back, split⟩ := hs.splits hsm
  have hplace := split.place_le split' above
  have := split.start_le
  have := split.stop_le
  simp only [Edit.moving]
  omega

theorem countP_moving (hr : r.Fills t) (hs : s.Fills t) (hrm : r ∈ statements)
    (hsm : s ∈ statements) (above : r.start.line < s.start.line)
    (hnewline : newline = ['\n'] ∨ newline = ['\r'] ∨ newline = ['\r', '\n']) :
    (Edit.moving t newline r s).text.countP (!Text.isBreak ·) + (s.bites t newline).toNat =
      (t.cut (Edit.moving t newline r s).span.start
        (Edit.moving t newline r s).span.stop).countP (!Text.isBreak ·) := by
  obtain ⟨front', block', last', back', split'⟩ := hr.splits hrm
  obtain ⟨front, block, last, back, split⟩ := hs.splits hsm
  have hlength : newline.length = 1 ∨ newline.length = 2 := by
    rcases hnewline with rfl | rfl | rfl <;> simp
  have hbreak : newline.countP (!Text.isBreak ·) = 0 := by
    rcases hnewline with rfl | rfl | rfl <;> rfl
  have hplace := split.place_le split' above
  have hstop : s.span.stop ≤ min (s.span.stop + newline.length) t.length := by
    have := split.stop_le
    omega
  have htaken : t.cut s.span.stop (min (s.span.stop + newline.length) t.length) =
      (t.drop s.span.stop).take newline.length := by
    rw [Text.cut, List.take_eq_take_iff, List.length_drop]
    omega
  have hbites : s.bites t newline = (decide (last.ending.length < newline.length) &&
      (render back).head?.any (!Text.isBreak ·)) := by
    rw [Statement.bites, split.ownBreak_eq, split.next_eq]
  simp only [Edit.moving]
  rw [← Text.cut_append_cut hplace (split.start_le.trans hstop),
    ← Text.cut_append_cut split.start_le hstop, ← hs.text, htaken, split.drop_stop, hbites]
  simp only [List.countP_append, hbreak, Line.countP_taken split.proper.right.right hlength]
  omega

end Splits

/-! ### A pass over a source -/

section Pass

variable {source : Text} {found : Collection} {policy : Policy} {violations : List Violation}

theorem fix_cases (accepted : Code.collect source = some found)
    (off : policy.ignoreMembersSort = true)
    (h : checkStatements policy found.newline found.statements = .ok violations) {v : Violation}
    (hv : v ∈ violations) {e : Edit} (he : Edit.merge source v.edits = some e) :
    v.statement ∈ found.statements ∧
      ((v.kind = .wrongOrder ∧ ∃ r ∈ found.statements, r.start.line < v.statement.start.line ∧
          e = Edit.moving source found.newline r v.statement) ∨
        v.kind = .missingBlankLine ∧
          e = ⟨⟨v.statement.span.start, v.statement.span.start⟩, found.newline⟩) := by
  obtain ⟨fills, below⟩ := Code.collect_fills accepted
  rcases (mem_of_checkStatements h).mp hv with ⟨i, j, s, r, wants, hs, hr, rfl⟩ |
    ⟨i, s, -, hs, rfl⟩ | ⟨i, s, b, on, -⟩
  · have hsm := List.mem_of_getElem? hs
    have hrm := List.mem_of_getElem? hr
    obtain ⟨front', block', last', back', split'⟩ := (fills r hrm).splits hrm
    obtain ⟨front, block, last, back, split⟩ := (fills s hsm).splits hsm
    have above : r.start.line < s.start.line := by
      obtain ⟨hi, rfl⟩ := List.getElem?_eq_some_iff.mp hs
      obtain ⟨hj, rfl⟩ := List.getElem?_eq_some_iff.mp hr
      have := List.pairwise_iff_getElem.mp below j i hj hi wants.before
      have := (fills _ hrm).order
      omega
    refine ⟨hsm, .inl ⟨rfl, r, hrm, above, ?_⟩⟩
    rw [Edit.merge_planMove (split.place_le split' above) split.start_le] at he
    exact (Option.some_injective _ he).symm
  · have hsm := List.mem_of_getElem? hs
    obtain ⟨front, block, last, back, split⟩ := (fills s hsm).splits hsm
    refine ⟨hsm, .inr ⟨rfl, ?_⟩⟩
    rw [Edit.merge_planBlankLine (split.start_le.trans split.stop_le)] at he
    exact (Option.some_injective _ he).symm
  · rw [off] at on
    cases on

theorem mem_of_mem_movedBy (accepted : Code.collect source = some found)
    (off : policy.ignoreMembersSort = true)
    (h : checkStatements policy found.newline found.statements = .ok violations) {s : Statement}
    (hs : s ∈ movedBy source violations) : s ∈ found.statements := by
  obtain ⟨f, hf, rfl⟩ := List.mem_map.mp hs
  obtain ⟨hv, he⟩ := mem_mergedFixes.mp (mem_mergedFixes_of_taken (List.mem_of_mem_filter hf))
  exact (fix_cases accepted off h (mem_of_mem_passFixes hv) he).1

theorem changesIn_taken (accepted : Code.collect source = some found)
    (off : policy.ignoreMembersSort = true)
    (h : checkStatements policy found.newline found.statements = .ok violations)
    (fits : ∀ s ∈ movedBy source violations, s.Fits source found.newline found.statements)
    {f : Violation × Edit} (hf : f ∈ takenFixes source (passFixes violations)) :
    Line.ChangesIn source found.newline (source.ruled (coveredBy found.statements) 1) f.2 := by
  obtain ⟨fills, -⟩ := Code.collect_fills accepted
  obtain ⟨hv, he⟩ := mem_mergedFixes.mp (mem_mergedFixes_of_taken hf)
  obtain ⟨hs, ⟨hkind, r, hr, above, heq⟩ | ⟨-, heq⟩⟩ :=
    fix_cases accepted off h (mem_of_mem_passFixes hv) he
  · have hmoved : f.1.statement ∈ movedBy source violations :=
      List.mem_map.mpr ⟨f, List.mem_filter.mpr ⟨hf, by simp [hkind]⟩, rfl⟩
    rw [heq]
    exact changesIn_moving (fills r hr) (fills _ hs) hr hs above (fits _ hmoved)
  · rw [heq]
    exact changesIn_blank (fills _ hs) hs

theorem countP_taken (accepted : Code.collect source = some found)
    (off : policy.ignoreMembersSort = true)
    (h : checkStatements policy found.newline found.statements = .ok violations)
    {f : Violation × Edit} (hf : f ∈ takenFixes source (passFixes violations)) :
    f.2.text.countP (!Text.isBreak ·) +
        (f.1.statement.bites source found.newline && f.1.kind == .wrongOrder).toNat =
      (source.cut f.2.span.start f.2.span.stop).countP (!Text.isBreak ·) := by
  obtain ⟨fills, -⟩ := Code.collect_fills accepted
  have hnewline := Code.collect_newline accepted
  obtain ⟨hv, he⟩ := mem_mergedFixes.mp (mem_mergedFixes_of_taken hf)
  obtain ⟨hs, ⟨hkind, r, hr, above, heq⟩ | ⟨hkind, heq⟩⟩ :=
    fix_cases accepted off h (mem_of_mem_passFixes hv) he
  · rw [heq, hkind, beq_self_eq_true, Bool.and_true]
    exact countP_moving (fills r hr) (fills _ hs) hr hs above hnewline
  · have hbreak : found.newline.countP (!Text.isBreak ·) = 0 := by
      rcases hnewline with hn | hn | hn <;> rw [hn] <;> rfl
    have hother : (Kind.missingBlankLine == .wrongOrder) = false := rfl
    rw [heq, hkind, hother, Bool.and_false, Text.cut_of_le (Nat.le_refl _)]
    exact hbreak

theorem pairwise_taken (accepted : Code.collect source = some found)
    (off : policy.ignoreMembersSort = true)
    (h : checkStatements policy found.newline found.statements = .ok violations) :
    (∀ f ∈ takenFixes source (passFixes violations), f.2.span.start ≤ f.2.span.stop) ∧
      (takenFixes source (passFixes violations)).Pairwise
        fun f g => f.2.span.stop < g.2.span.start := by
  have ordered : ∀ f ∈ takenFixes source (passFixes violations),
      f.2.span.start ≤ f.2.span.stop := by
    intro f hf
    obtain ⟨fills, -⟩ := Code.collect_fills accepted
    obtain ⟨hv, he⟩ := mem_mergedFixes.mp (mem_mergedFixes_of_taken hf)
    obtain ⟨hs, ⟨-, r, hr, above, heq⟩ | ⟨-, heq⟩⟩ :=
      fix_cases accepted off h (mem_of_mem_passFixes hv) he
    · rw [heq]
      exact moving_ordered (fills r hr) (fills _ hs) hr hs above
    · rw [heq]
  exact ⟨ordered, Edit.pairwise_of_isChain _ ordered (Edit.isChain_selectBy_none _ _)⟩

theorem pass_keeps_other_lines (source : Text) (found : Collection) (policy : Policy)
    (accepted : Code.collect source = some found) (off : policy.ignoreMembersSort = true) :
    (∀ compile data path, Policy.ofValue compile data path = .ok policy →
      ∃ violations, checkStatements policy found.newline found.statements = .ok violations) ∧
    ∀ violations, checkStatements policy found.newline found.statements = .ok violations →
      ((∀ s ∈ movedBy source violations, s.Fits source found.newline found.statements) →
        (otherLines source found.statements).Sublist
          (applyFixes source ((passFixes violations).map (·.edits))).text.lines) ∧
      (∀ s ∈ movedBy source violations, coveredBy found.statements (s.stop.line + 1) = false →
        (s.Fits source found.newline found.statements ↔
          (s.next source).lines.Sublist (s.linesLeft source found.newline))) ∧
      (applyFixes source ((passFixes violations).map (·.edits))).text.countP (!Text.isBreak ·) +
          (movedBy source violations).countP (·.bites source found.newline) =
        source.countP (!Text.isBreak ·) := by
  refine ⟨?_, ?_⟩
  · intro compile data path h
    exact ⟨_, checkStatements_of_resolved (Policy.resolved_of_ofValue h) _ _⟩
  · intro violations h
    obtain ⟨ordered, apart⟩ := pairwise_taken accepted off h
    rw [applyFixes_text]
    refine ⟨?_, ?_, ?_⟩
    · intro fits
      rw [otherLines_eq]
      refine Line.splices (Code.collect_newline accepted) (List.pairwise_map.mpr apart)
        (fun e _ => Nat.zero_le _) _ false ?_ (Text.proper_ruled _ 1 source) ?_ ?_
      · rw [Text.render_ruled, List.drop_zero]
      · intro l _ returned
        cases returned
      · intro e he
        obtain ⟨f, hf, rfl⟩ := List.mem_map.mp he
        exact changesIn_taken accepted off h fits hf
    · intro s hs bare
      have hsm := mem_of_mem_movedBy accepted off h hs
      obtain ⟨fills, -⟩ := Code.collect_fills accepted
      exact fits_iff (fills s hsm) hsm (Code.collect_newline accepted) bare
    · have hmoved : (movedBy source violations).countP (·.bites source found.newline) =
          (takenFixes source (passFixes violations)).countP fun f =>
            f.1.statement.bites source found.newline && f.1.kind == .wrongOrder := by
        rw [movedBy, List.countP_map, List.countP_filter]
        rfl
      rw [hmoved]
      exact countP_splice (fun f hf => countP_taken accepted off h hf)
        (fun f _ => Nat.zero_le _) ordered apart

end Pass

/-- All modules are in one group, and the names that a statement imports are left alone. -/
def Policy.oneGroup : Policy :=
  { order := [Settings.everythingElse]
    patterns := [.literal Settings.everythingElse]
    groups := []
    ignoreMembersSort := true }

def Value.oneGroup : Value :=
  .map [(.str Settings.order, .list [.str Settings.everythingElse]),
    (.str Settings.ignoreMembersSort, .bool true)]

theorem Policy.ofValue_oneGroup (compile : Regex.Compiler) :
    ofValue compile .oneGroup none = .ok .oneGroup := rfl

theorem Policy.resolved_oneGroup : oneGroup.Resolved :=
  resolved_of_ofValue (ofValue_oneGroup Regex.compile)

/-- A line that imports one module. -/
def Statement.bare (name : String) (line offset : Nat) : Statement :=
  { source := name
    text := "import ".toList ++ name.toList
    bindings := [⟨name, name.toList, ⟨offset + 7, offset + 7 + name.length⟩, false⟩]
    start := ⟨line, 0⟩
    stop := ⟨line, 7 + name.length⟩
    span := ⟨offset, offset + 7 + name.length⟩ }

/-- Two statements in the wrong order end with a longer line break than the first line. -/
def Text.longBreaks : Text := "x = 1\nimport b\r\nimport a\r\nyy = 2\r".toList

theorem Code.collect_longBreaks :
    collect .longBreaks = some ⟨[.bare "b" 2 6, .bare "a" 3 16], ['\n']⟩ := by decide

theorem pass_keeps_other_lines_longBreaks :
    ∃ found violations, Code.collect .longBreaks = some found ∧
      checkStatements .oneGroup found.newline found.statements = .ok violations ∧
      movedBy .longBreaks violations ≠ [] ∧
      (∀ s ∈ movedBy .longBreaks violations,
        s.Fits .longBreaks found.newline found.statements) ∧
      (otherLines .longBreaks found.statements).Sublist
        (applyFixes .longBreaks ((passFixes violations).map (·.edits))).text.lines := by
  have accepted := Code.collect_longBreaks
  have h := checkStatements_of_resolved Policy.resolved_oneGroup
    ['\n'] [.bare "b" 2 6, .bare "a" 3 16]
  have moved : movedBy .longBreaks ((Placed.checkOrder .oneGroup (Policy.oneGroup.placed
      [.bare "b" 2 6, .bare "a" 3 16])).map (·.withPlan ['\n'])) = [.bare "a" 3 16] := by cbv
  have fits : (Statement.bare "a" 3 16).Fits .longBreaks ['\n']
      [.bare "b" 2 6, .bare "a" 3 16] := by decide
  have keeps := (pass_keeps_other_lines .longBreaks _ .oneGroup accepted rfl).2 _ h
  rw [moved] at keeps
  refine ⟨_, _, accepted, h, by simp [moved], ?_, keeps.1 (by simpa using fits)⟩
  rw [moved]
  simpa using fits

/-- Two statements in the wrong order end with a shorter line break than the first line. -/
def Text.shortBreaks : Text := "x = 1\r\nimport b\nimport a\nyy = 2\n".toList

theorem Code.collect_shortBreaks :
    collect .shortBreaks = some ⟨[.bare "b" 2 7, .bare "a" 3 16], ['\r', '\n']⟩ := by
  decide

/-- A character is lost where the document's line break is longer. -/
theorem pass_bites_shortBreaks :
    ∃ found violations, Code.collect .shortBreaks = some found ∧
      checkStatements .oneGroup found.newline found.statements = .ok violations ∧
      (applyFixes .shortBreaks ((passFixes violations).map (·.edits))).text =
        "x = 1\r\nimport a\r\nimport b\ny = 2\n".toList ∧
      ¬ (otherLines .shortBreaks found.statements).Sublist
        (applyFixes .shortBreaks ((passFixes violations).map (·.edits))).text.lines := by
  have h := checkStatements_of_resolved Policy.resolved_oneGroup
    ['\r', '\n'] [.bare "b" 2 7, .bare "a" 3 16]
  have fixed : (applyFixes .shortBreaks ((passFixes ((Placed.checkOrder .oneGroup
      (Policy.oneGroup.placed [.bare "b" 2 7, .bare "a" 3 16])).map
        (·.withPlan ['\r', '\n']))).map (·.edits))).text =
      "x = 1\r\nimport a\r\nimport b\ny = 2\n".toList := by cbv
  refine ⟨_, _, Code.collect_shortBreaks, h, fixed, ?_⟩
  rw [fixed]
  decide

end ImportOrder
