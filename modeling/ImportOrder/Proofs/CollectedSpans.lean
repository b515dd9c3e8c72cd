import ImportOrder.Proofs.StatementLines

/-!
The spans of collected statements and of the names they bind. Statements reach from line starts to
line ends, with a line break between any two of them; the names stand inside their statement, one
behind the other; and texts, positions and spans all say the same.

Line continuations in the margin of a statement are left out when positions are counted, so behind
one a position need not be one of the text. Everywhere else it is.
-/

namespace ImportOrder

open Line (render)

/-! ### Line ends and line starts -/

namespace LineIndex

/-- A position on one of the lines, no further than its end. -/
def Has (index : LineIndex) (p : Position) : Prop :=
  1 ≤ p.line ∧ p.line ≤ index.starts.length ∧ index.offset p ≤ index.lineEnd p.line

theorem text_ofText (t : Text) : (ofText t).text = t := rfl

instance (index : LineIndex) (p : Position) : Decidable (index.Has p) :=
  inferInstanceAs (Decidable (_ ∧ _))

end LineIndex

theorem Line.Sound.exists_break {x : Line} (sound : x.Sound) (ended : x.ending ≠ []) :
    ∃ c more, x.ending = c :: more ∧ Text.isBreak c = true := by
  rcases sound.ends ended with h | h | h
  · exact ⟨_, _, h, rfl⟩
  · exact ⟨_, _, h, rfl⟩
  · exact ⟨_, _, h, rfl⟩

namespace Text

variable {t : Text} {k l : Nat}

theorem length_startsOf (offset : Nat) (lines : List Line) :
    (startsOf offset lines).length = lines.length := by
  induction lines generalizing offset with
  | nil => rfl
  | cons x lines ih => rw [startsOf, List.length_cons, List.length_cons, ih]

theorem length_starts (t : Text) :
    (LineIndex.ofText t).starts.length = 1 + (unifyBreaks t).count '\n' := by
  rw [LineIndex.ofText, startsFrom_eq (fun _ => false) 0 1, length_startsOf, length_ruled]

/-- A line of a text with those above and below it. -/
theorem exists_line (first : 1 ≤ k) (last : k ≤ (LineIndex.ofText t).starts.length) :
    ∃ front x back, t.ruled (fun _ => false) 1 = front ++ x :: back ∧ k = front.length + 1 := by
  rw [length_starts, ← length_ruled (fun _ => false) 1] at last
  have hlt : k - 1 < (t.ruled (fun _ => false) 1).length := by omega
  refine ⟨(t.ruled (fun _ => false) 1).take (k - 1), (t.ruled (fun _ => false) 1)[k - 1],
    (t.ruled (fun _ => false) 1).drop (k - 1 + 1), ?_, ?_⟩
  · rw [← List.drop_eq_getElem_cons hlt, List.take_append_drop]
  · rw [List.length_take]
    omega

theorem lineEnd_le_length (first : 1 ≤ k) (last : k ≤ (LineIndex.ofText t).starts.length) :
    (LineIndex.ofText t).lineEnd k ≤ t.length := by
  obtain ⟨front, x, back, hsplit, rfl⟩ := exists_line first last
  have hlength := congrArg List.length (render_ruled (fun _ => false) 1 t)
  rw [hsplit] at hlength
  simp only [Line.render_append, Line.render_cons, Line.text, List.length_append] at hlength
  rw [lineEnd_eq hsplit]
  omega

/-- A line ends at a line break if there is a line below it. -/
theorem lineEnd_lt_lineStart (first : 1 ≤ k) (hlt : k < l)
    (last : l ≤ (LineIndex.ofText t).starts.length) :
    (LineIndex.ofText t).lineEnd k < (LineIndex.ofText t).lineStart l ∧
      ∃ c, t[(LineIndex.ofText t).lineEnd k]? = some c ∧ isBreak c = true := by
  have hcount := last
  rw [length_starts, ← length_ruled (fun _ => false) 1] at hcount
  obtain ⟨front, x, back, hsplit, rfl⟩ := exists_line first (Nat.le_trans (Nat.le_of_lt hlt) last)
  rw [hsplit, List.length_append, List.length_cons] at hcount
  obtain ⟨mid, rest, rfl, hmid⟩ : ∃ mid rest, back = mid ++ rest ∧
      mid.length = l - (front.length + 1) - 1 :=
    ⟨_, _, (List.take_append_drop (l - (front.length + 1) - 1) back).symm, by
      rw [List.length_take]
      omega⟩
  have hrest : rest ≠ [] := by
    rintro rfl
    rw [List.append_nil] at hcount
    omega
  have hline : l = (front ++ x :: mid).length + 1 := by
    rw [List.length_append, List.length_cons]
    omega
  have hproper : Line.Proper (x :: (mid ++ rest)) := (hsplit ▸ proper_ruled _ 1 t).right
  cases hproper with
  | cons sound final apart next =>
      have ended : x.ending ≠ [] := by
        intro hnil
        exact hrest (List.append_eq_nil_iff.mp (final hnil)).2
      obtain ⟨c, more, hc, hbreak⟩ := sound.exists_break ended
      rw [lineEnd_eq hsplit, hline, lineStart_eq (hsplit.trans (by simp)) hrest]
      refine ⟨?_, c, ?_, hbreak⟩
      · simp only [Line.render_append, Line.render_cons, Line.text, List.length_append, hc,
          List.length_cons]
        omega
      · have htext : t = (render front ++ x.content) ++ c :: (more ++ render (mid ++ rest)) := by
          rw [← render_ruled (fun _ => false) 1 t, hsplit]
          simp [Line.text, hc]
        have hlength : (render front).length + x.content.length =
            (render front ++ x.content).length := by rw [List.length_append]
        rw [hlength]
        conv_lhs => rw [htext]
        rw [List.getElem?_append_right (Nat.le_refl _), Nat.sub_self]
        rfl

theorem lineEnd_mono (first : 1 ≤ k) (hle : k ≤ l)
    (last : l ≤ (LineIndex.ofText t).starts.length) :
    (LineIndex.ofText t).lineEnd k ≤ (LineIndex.ofText t).lineEnd l := by
  rcases Nat.eq_or_lt_of_le hle with rfl | hlt
  · exact Nat.le_refl _
  · have hbelow := (lineEnd_lt_lineStart first hlt last).1
    exact Nat.le_trans (Nat.le_of_lt hbelow) (Nat.le_add_right _ _)

end Text

/-! ### Positions of a text -/

namespace LineIndex

variable {t : Text} {p q : Position}

theorem Has.offset_lt (hp : (ofText t).Has p) (hq : (ofText t).Has q) (h : p.place < q.place) :
    (ofText t).offset p < (ofText t).offset q := by
  obtain ⟨first, -, hend⟩ := hp
  obtain ⟨-, last, -⟩ := hq
  rcases Position.place_lt_iff.mp h with hline | ⟨hline, hcolumn⟩
  · have hbelow := (Text.lineEnd_lt_lineStart first hline last).1
    have hstart : (ofText t).lineStart q.line ≤ (ofText t).offset q := Nat.le_add_right _ _
    omega
  · rw [offset, offset, hline]
    omega

theorem Has.offset_le (hp : (ofText t).Has p) (hq : (ofText t).Has q) (h : p.place ≤ q.place) :
    (ofText t).offset p ≤ (ofText t).offset q := by
  rcases h.eq_or_lt with heq | hlt
  · obtain ⟨hline, hcolumn⟩ := Prod.mk.inj (toLex.injective heq)
    rw [offset, offset, hline, hcolumn]
  · exact Nat.le_of_lt (hp.offset_lt hq hlt)

/-- What stands to the left of a position of the text is one too. -/
theorem Has.left (hp : (ofText t).Has p) {column : Nat} (h : column ≤ p.column) :
    (ofText t).Has ⟨p.line, column⟩ := by
  obtain ⟨first, last, hend⟩ := hp
  refine ⟨first, last, Nat.le_trans ?_ hend⟩
  exact Nat.add_le_add_left h _

end LineIndex

/-- A position on some lines, of which the first has number `k` and starts in some column. -/
def Line.Reach : Nat → Nat → List Line → Position → Prop
  | _, _, [], _ => False
  | k, column, x :: rest, p =>
      p.line = k ∧ p.column ≤ column + x.content.length ∨ Reach (k + 1) 0 rest p

theorem Line.Reach.exists_split {k column : Nat} {lines : List Line} {p : Position}
    (h : Reach k column lines p) :
    ∃ front x back, lines = front ++ x :: back ∧ p.line = front.length + k ∧
      p.column ≤ column + x.content.length := by
  induction lines generalizing k column with
  | nil => cases h
  | cons x rest ih =>
      rcases h with ⟨hline, hcolumn⟩ | h
      · exact ⟨[], x, rest, rfl, by simpa using hline, hcolumn⟩
      · obtain ⟨front, y, back, rfl, hline, hcolumn⟩ := ih h
        refine ⟨x :: front, y, back, rfl, ?_, ?_⟩
        · rw [hline, List.length_cons]
          omega
        · omega

/-- The first characters of a text lead to one of its lines. -/
theorem Text.reach_of_prefix (k column : Nat) (t : Text) {u : Text} (h : u <+: t.unifyBreaks) :
    Line.Reach k column (t.ruled (fun _ => false) k) (Code.advance ⟨k, column⟩ u) := by
  fun_induction ruled (fun _ => false) k t generalizing u column with
  | case1 k =>
      obtain rfl : u = [] := List.prefix_nil.mp h
      exact .inl ⟨rfl, Nat.le_refl _⟩
  | case2 k rest ih =>
      rw [unifyBreaks] at h
      rcases List.prefix_cons_iff.mp h with rfl | ⟨v, rfl, hv⟩
      · exact .inl ⟨rfl, Nat.le_refl _⟩
      · exact .inr (ih 0 hv)
  | case3 k c rest alone hbreak ih =>
      rw [unifyBreaks_of_break alone hbreak] at h
      rcases List.prefix_cons_iff.mp h with rfl | ⟨v, rfl, hv⟩
      · exact .inl ⟨rfl, Nat.le_refl _⟩
      · exact .inr (ih 0 hv)
  | case4 k c rest alone hbreak ih =>
      have hc : (c == '\n') = false := by
        simp only [isBreak, Bool.or_eq_true, not_or] at hbreak
        simpa using hbreak.1
      rw [unifyBreaks_of_not_break hbreak] at h
      obtain ⟨x, lines, hruled⟩ := List.exists_cons_of_ne_nil (ruled_ne_nil (fun _ => false) k rest)
      rcases List.prefix_cons_iff.mp h with rfl | ⟨v, rfl, hv⟩
      · rw [hruled]
        exact .inl ⟨rfl, Nat.le_add_right _ _⟩
      · have hadvance : Code.advance ⟨k, column⟩ (c :: v) = Code.advance ⟨k, column + 1⟩ v := by
          rw [Code.advance, List.foldl_cons, hc]
          rfl
        have hreach := ih (column + 1) hv
        rw [hruled] at hreach ⊢
        rw [hadvance]
        rcases hreach with ⟨hline, hcolumn⟩ | hreach
        · refine .inl ⟨hline, ?_⟩
          rw [List.length_cons]
          omega
        · exact .inr hreach

theorem LineIndex.has_of_reached {t : Text} {p : Position} (h : Code.Reached t.unifyBreaks p) :
    (ofText t).Has p := by
  obtain ⟨u, hu, rfl⟩ := h
  obtain ⟨front, x, back, hsplit, hline, hcolumn⟩ := (Text.reach_of_prefix 1 0 t hu).exists_split
  have hlength := congrArg List.length hsplit
  rw [Text.length_ruled, ← Text.length_starts, List.length_append, List.length_cons] at hlength
  refine ⟨by omega, by omega, ?_⟩
  rw [offset, hline, Text.lineStart_eq hsplit (by simp), Text.lineEnd_eq hsplit]
  omega

/-! ### Positions counted from a statement -/

namespace Code

variable {first : Token} {p q : Position}

theorem relocate_place_lt (counted : first.joined < first.start.line)
    (hp : first.start.place ≤ p.place) (h : p.place < q.place) :
    (relocate first p).place < (relocate first q).place := by
  rw [Position.place_le_iff] at hp
  rw [Position.place_lt_iff] at h ⊢
  simp only [relocate, beq_iff_eq]
  split <;> split <;> omega

theorem relocate_place_le (counted : first.joined < first.start.line)
    (hp : first.start.place ≤ p.place) (h : p.place ≤ q.place) :
    (relocate first p).place ≤ (relocate first q).place := by
  rw [Position.place_le_iff] at hp h ⊢
  simp only [relocate, beq_iff_eq]
  split <;> split <;> omega

/-- The positions of the names of an import are positions of the text. -/
def Import.Present (source : Text) (i : Import) : Prop :=
  ∀ a ∈ i.aliases, (LineIndex.ofText source).Has (relocate i.first a.first.start) ∧
    (LineIndex.ofText source).Has (relocate i.first a.last.stop)

instance (source : Text) (i : Import) : Decidable (i.Present source) :=
  inferInstanceAs (Decidable (∀ a ∈ i.aliases, _))

/-- Where no line continuations are left out, all positions are positions of the text. -/
theorem Import.Laid.present {source : Text} {i : Import} (h : i.Laid source.unifyBreaks)
    (counted : i.first.joined = 0) : i.Present source := by
  have has : ∀ {p}, Reached source.unifyBreaks p →
      (LineIndex.ofText source).Has (relocate i.first p) := by
    intro p hp
    have hleft : (relocate i.first p).column ≤ p.column := by
      simp only [relocate]
      split
      · exact Nat.sub_le _ _
      · exact Nat.le_refl _
    have hline : (relocate i.first p).line = p.line := by simp [relocate, counted]
    have := (LineIndex.has_of_reached hp).left hleft
    rwa [← hline] at this
  intro a ha
  obtain ⟨start, stop⟩ := h.reached a ha
  exact ⟨has start, has stop⟩

end Code

/-! ### Names inside statements -/

theorem Text.trimEnd_prefix (p : Char → Bool) (t : Text) : t.trimEnd p <+: t :=
  List.rdropWhile_prefix p t

theorem Code.trimmed_prefix (t : Text) : trimmed t <+: t :=
  ((Text.trimEnd_prefix _ _).trans (Text.trimEnd_prefix _ _)).trans (Text.trimEnd_prefix _ _)

/-- A binding with its text, inside a stretch of the document. -/
structure Binding.Inside (source : Text) (lo hi : Nat) (b : Binding) : Prop where
  text : b.text = source.cut b.span.start b.span.stop
  start : lo ≤ b.span.start
  order : b.span.start ≤ b.span.stop
  stop : b.span.stop ≤ hi

theorem Binding.Inside.mono {source : Text} {lo hi lo' hi' : Nat} {b : Binding}
    (h : b.Inside source lo hi) (hlo : lo' ≤ lo) (hhi : hi ≤ hi') : b.Inside source lo' hi' :=
  ⟨h.text, Nat.le_trans hlo h.start, h.order, Nat.le_trans h.stop hhi⟩

theorem Code.Alias.inside {source : Text} {first : Token} (a : Alias)
    (order : (LineIndex.ofText source).offset (relocate first a.first.start) ≤
      (LineIndex.ofText source).offset (relocate first a.last.stop)) :
    (a.binding (.ofText source) first).Inside source
      ((LineIndex.ofText source).offset (relocate first a.first.start))
      ((LineIndex.ofText source).offset (relocate first a.last.stop)) := by
  simp only [binding, LineIndex.text_ofText]
  generalize (LineIndex.ofText source).offset (relocate first a.first.start) = lo at order ⊢
  generalize (LineIndex.ofText source).offset (relocate first a.last.stop) = hi at order ⊢
  have hcut : trimmed (source.cut lo hi) <+: source.cut lo hi := trimmed_prefix _
  have hlength : (trimmed (source.cut lo hi)).length ≤ hi - lo := by
    refine Nat.le_trans hcut.length_le ?_
    rw [Text.cut, List.length_take]
    exact Nat.min_le_left _ _
  refine ⟨?_, Nat.le_refl _, Nat.le_add_right _ _, by simp only; omega⟩
  simp only [Text.cut, Nat.add_sub_cancel_left]
  exact List.prefix_iff_eq_take.mp (hcut.trans (List.take_prefix _ _))

/-! ### Consistent statements -/

/-- A statement that is where it says, up to the end of a line. -/
structure Statement.Consistent (source : Text) (s : Statement) : Prop where
  order : s.span.start ≤ s.span.stop
  reach : s.span.stop ≤ source.length
  text : s.text = source.cut s.span.start s.span.stop
  start : (LineIndex.ofText source).offset s.start = s.span.start
  stop : (LineIndex.ofText source).offset s.stop = s.span.stop
  lines : s.start.line ≤ s.stop.line
  /-- The last line goes on to the end of the span and no further. -/
  unbroken : ∀ c ∈ source.cut ((LineIndex.ofText source).lineStart s.stop.line) s.span.stop,
    Text.isBreak c = false
  ended : ∀ c ∈ (source.drop s.span.stop).head?, Text.isBreak c = true
  bindings : ∀ b ∈ s.bindings, b.Inside source s.span.start s.span.stop
  apart : s.bindings.Pairwise fun a b => a.span.stop < b.span.start

namespace LineIndex

variable (t : Text) (k : Nat)

theorem cut_lineEnd : ∀ c ∈ t.cut ((ofText t).lineStart k) ((ofText t).lineEnd k),
    Text.isBreak c = false := by
  intro c hc
  rw [Text.cut, lineEnd, Nat.add_sub_cancel_left, text_ofText,
    ← List.prefix_iff_eq_take.mp (List.takeWhile_prefix _)] at hc
  simpa using List.mem_takeWhile_imp hc

theorem head_drop_lineEnd : ∀ c ∈ (t.drop ((ofText t).lineEnd k)).head?,
    Text.isBreak c = true := by
  intro c hc
  have hdrop : t.drop ((ofText t).lineEnd k) =
      (t.drop ((ofText t).lineStart k)).dropWhile (!Text.isBreak ·) := by
    rw [lineEnd, text_ofText, ← List.drop_drop]
    conv_lhs =>
      arg 2
      rw [← List.takeWhile_append_dropWhile (p := (!Text.isBreak ·))
        (l := t.drop ((ofText t).lineStart k))]
    exact List.drop_left
  rw [hdrop] at hc
  have hnot := List.head?_dropWhile_not (!Text.isBreak ·) (t.drop ((ofText t).lineStart k))
  rw [Option.mem_def.mp hc] at hnot
  simpa using hnot

end LineIndex

section Names

open Code

variable {source : Text} {i : Import} (first : 1 ≤ i.firstLine) (order : i.firstLine ≤ i.lastLine)
  (last : i.lastLine ≤ (LineIndex.ofText source).starts.length)
  (laid : i.Laid source.unifyBreaks) (present : i.Present source)

include first order last laid present in
theorem Code.Import.bindings_inside :
    ∀ b ∈ (i.statement (.ofText source)).bindings, b.Inside source
      (i.statement (.ofText source)).span.start (i.statement (.ofText source)).span.stop := by
  have counted : i.first.joined < i.first.start.line := by
    simp only [Import.firstLine, relocate] at first
    omega
  have here : (LineIndex.ofText source).Has (relocate i.first i.first.start) := by
    refine ⟨first, Nat.le_trans order last, ?_⟩
    simp [LineIndex.offset, LineIndex.lineEnd, relocate]
  intro b hb
  obtain ⟨a, ha, rfl⟩ := List.mem_map.mp hb
  obtain ⟨start, stop⟩ := present a ha
  obtain ⟨hfirst, hown, hlast⟩ := laid.inside a ha
  have hline : (relocate i.first a.last.stop).line ≤ i.lastLine := by
    have := Position.place_le_iff.mp (relocate_place_le counted (hfirst.trans hown) hlast)
    simp only [Import.lastLine]
    omega
  refine (a.inside (start.offset_le stop (relocate_place_le counted hfirst hown))).mono ?_ ?_
  · exact here.offset_le start (relocate_place_le counted le_rfl hfirst)
  · exact Nat.le_trans stop.2.2 (Text.lineEnd_mono stop.1 hline last)

include first laid present in
theorem Code.Import.bindings_apart :
    (i.statement (.ofText source)).bindings.Pairwise fun a b => a.span.stop < b.span.start := by
  have counted : i.first.joined < i.first.start.line := by
    simp only [Import.firstLine, relocate] at first
    omega
  refine List.pairwise_map.mpr (laid.apart.imp_of_mem ?_)
  intro a b ha hb hapart
  obtain ⟨start, stop⟩ := present a ha
  obtain ⟨start', -⟩ := present b hb
  obtain ⟨hfirst, hown, -⟩ := laid.inside a ha
  have hinside := a.inside (start.offset_le stop (relocate_place_le counted hfirst hown))
  exact Nat.lt_of_le_of_lt hinside.stop
    (stop.offset_lt start' (relocate_place_lt counted (hfirst.trans hown) hapart))

include first order last laid present in
theorem Code.Import.consistent : (i.statement (.ofText source)).Consistent source := by
  have hfills : (i.statement (.ofText source)).Fills source :=
    Import.fills first order (Text.length_starts source ▸ last)
  have hend : (LineIndex.ofText source).lineStart i.lastLine ≤
      (LineIndex.ofText source).lineEnd i.lastLine := Nat.le_add_right _ _
  have hreach := Text.lineEnd_le_length (Nat.le_trans first order) last
  refine ⟨?_, hreach, rfl, rfl, Nat.add_sub_cancel' hend, order, LineIndex.cut_lineEnd source _,
    LineIndex.head_drop_lineEnd source _, bindings_inside first order last laid present,
    bindings_apart first laid present⟩
  calc (i.statement (.ofText source)).span.start
    _ = (LineIndex.ofText source).lineStart i.firstLine := hfills.start
    _ ≤ (LineIndex.ofText source).lineEnd i.firstLine := Nat.le_add_right _ _
    _ ≤ (LineIndex.ofText source).lineEnd i.lastLine := Text.lineEnd_mono first order last

end Names

/-- Statements on different lines have a line break between them. -/
theorem Statement.Fills.apart {source : Text} {a b : Statement} (ha : a.Fills source)
    (hb : b.Fills source) (hlines : a.stop.line < b.start.line) :
    a.span.stop < b.span.start ∧
      ∃ c ∈ source.cut a.span.stop b.span.start, Text.isBreak c = true := by
  have hfirst : 1 ≤ a.stop.line := Nat.le_trans ha.first ha.order
  have hlast : b.start.line ≤ (LineIndex.ofText source).starts.length := by
    rw [Text.length_starts]
    exact Nat.le_trans hb.order hb.last
  obtain ⟨hlt, c, hc, hbreak⟩ := Text.lineEnd_lt_lineStart hfirst hlines hlast
  rw [← ha.stop] at hlt hc
  rw [← hb.start] at hlt
  refine ⟨hlt, c, ?_, hbreak⟩
  rw [Text.cut, List.mem_iff_getElem?]
  refine ⟨0, ?_⟩
  rw [List.getElem?_take_of_lt (by omega), List.getElem?_drop, Nat.add_zero, hc]

/-- The statements of a source agree with it and with each other, if their names stand on its
lines. Only line continuations left out in a margin can put them elsewhere. -/
theorem collected_document_consistent (source : Text) (found : Collection)
    (accepted : Code.collect source = some found)
    (present : ∀ i ∈ (Code.imports? source).getD [], i.first.joined ≠ 0 → i.Present source) :
    (∀ s ∈ found.statements, s.Consistent source) ∧
    found.statements.Pairwise fun a b => a.span.stop < b.span.start ∧
      ∃ c ∈ source.cut a.span.stop b.span.start, Text.isBreak c = true := by
  obtain ⟨fills, below⟩ := Code.collect_fills accepted
  obtain ⟨is, his, rfl⟩ := Option.map_eq_some_iff.mp accepted
  obtain ⟨lines, -⟩ := Code.imports_lines his
  have laid := Code.imports_laid his
  rw [his, Option.getD_some] at present
  constructor
  · intro s hs
    obtain ⟨i, hi, rfl⟩ := List.mem_map.mp hs
    obtain ⟨first, order, last⟩ := lines i hi
    rw [← Text.length_starts] at last
    apply Code.Import.consistent first order last (laid i hi)
    by_cases counted : i.first.joined = 0
    · exact (laid i hi).present counted
    · exact present i hi counted
  · exact below.imp_of_mem fun ha hb hlines => (fills _ ha).apart (fills _ hb) hlines

/-- Three kinds of line breaks, names on several lines, and a statement below a margin with a line
continuation, counted one line too high. -/
def Text.joinedMargin : Text :=
  "from a import (b ,\r\n  c as d,\r\n)\r\\\nx = 1000000000\nimport os, re".toList

theorem collected_document_consistent_joinedMargin :
    (∀ i ∈ (Code.imports? Text.joinedMargin).getD [], i.first.joined ≠ 0 →
      i.Present Text.joinedMargin) ∧
    ∃ found, Code.collect Text.joinedMargin = some found ∧
      found.statements.map (fun s => (s.span, s.bindings.map (·.span))) =
        [(⟨0, 32⟩, [⟨15, 16⟩, ⟨22, 28⟩]), (⟨35, 49⟩, [⟨42, 44⟩, ⟨46, 48⟩])] ∧
      (∀ s ∈ found.statements, s.Consistent Text.joinedMargin) ∧
      found.statements.Pairwise fun a b => a.span.stop < b.span.start := by
  have present : ∀ i ∈ (Code.imports? Text.joinedMargin).getD [], i.first.joined ≠ 0 →
      i.Present Text.joinedMargin := by decide
  have spans : (Code.collect Text.joinedMargin).map
      (·.statements.map fun s => (s.span, s.bindings.map (·.span))) =
        some [(⟨0, 32⟩, [⟨15, 16⟩, ⟨22, 28⟩]), (⟨35, 49⟩, [⟨42, 44⟩, ⟨46, 48⟩])] := by
    decide
  obtain ⟨found, accepted, hspans⟩ := Option.map_eq_some_iff.mp spans
  obtain ⟨consistent, apart⟩ := collected_document_consistent _ found accepted present
  exact ⟨present, found, accepted, hspans, consistent, apart.imp And.left⟩

end ImportOrder
