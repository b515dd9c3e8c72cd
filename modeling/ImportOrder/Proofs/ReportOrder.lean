import ImportOrder.Proofs.EditsInTurn
import ImportOrder.Proofs.LeadingMove

/-!
The order of a report. A pass sorts the merged edits of what was reported by their spans, so the
order in which violations come matters only to edits with the same span. In a document of statements
that are not empty and do not start with a name there are no two different ones: a move and an empty
line start where a statement does, sorted names behind that; an empty line takes up nothing, and a
move ends with the statement that it moves.
-/

namespace ImportOrder

/-! ### Sorting by span -/

theorem Edit.span_eq_of_le {a b : Edit} (h : a.le b = true) (h' : b.le a = true) :
    a.span = b.span := by
  rw [le_iff] at h h'
  have hstart : a.span.start = b.span.start := by omega
  have hstop : a.span.stop = b.span.stop := by omega
  calc a.span = ⟨a.span.start, a.span.stop⟩ := rfl
    _ = b.span := by rw [hstart, hstop]

/-- Sorting forgets in which order edits came, if different ones have different spans. -/
theorem Edit.sort_eq_of_perm {edits others : List Edit} (perm : edits.Perm others)
    (distinct : ∀ a ∈ edits, ∀ b ∈ edits, a.span = b.span → a = b) : sort edits = sort others := by
  have hperm : (sort edits).Perm (sort others) :=
    (List.mergeSort_perm edits le).trans (perm.trans (List.mergeSort_perm others le).symm)
  refine List.Perm.eq_of_pairwise ?_ (sort_sorted edits) (sort_sorted others) hperm
  intro a b ha hb hab hba
  exact distinct a (mem_sort.mp ha) b (mem_sort.mp (hperm.mem_iff.mpr hb)) (span_eq_of_le hab hba)

theorem applyFixes_perm {text : Text} {violations reordered : List Violation}
    (perm : reordered.Perm violations)
    (distinct : ∀ v ∈ violations, ∀ w ∈ violations, ∀ e f, Edit.merge text v.edits = some e →
      Edit.merge text w.edits = some f → e.span = f.span → e = f) :
    applyFixes text (reordered.map (·.edits)) = applyFixes text (violations.map (·.edits)) := by
  have hperm := (perm.map (·.edits)).filterMap (Edit.merge text)
  have hsort := Edit.sort_eq_of_perm hperm (by
    intro e he f hf
    obtain ⟨l, hl, he⟩ := List.mem_filterMap.mp he
    obtain ⟨v, hv, rfl⟩ := List.mem_map.mp hl
    obtain ⟨m, hm, hf⟩ := List.mem_filterMap.mp hf
    obtain ⟨w, hw, rfl⟩ := List.mem_map.mp hm
    exact distinct v (perm.mem_iff.mp hv) w (perm.mem_iff.mp hw) e f he hf)
  unfold applyFixes
  rw [hsort]

theorem passFixes_perm {violations reordered : List Violation}
    (perm : reordered.Perm violations) : (passFixes reordered).Perm (passFixes violations) := by
  unfold passFixes
  rw [perm.any_eq]
  split
  · exact perm.filter _
  · exact perm

/-! ### Spans of fixes -/

open Piece (item size)

/-- Two places in a row that reach into each other are one place. -/
theorem Piece.split_unique (newline : Text) {pre post pre' post' : List Piece} {p p' : Piece}
    (split : pre ++ p :: post = pre' ++ p' :: post')
    (h : size newline pre < size newline (pre' ++ [p']))
    (h' : size newline pre' < size newline (pre ++ [p])) :
    pre = pre' ∧ p = p' ∧ post = post' := by
  obtain ⟨skip, rfl, hskip⟩ := exists_skip newline split h
  cases skip with
  | nil =>
      obtain ⟨rfl, rfl⟩ := List.cons.inj hskip
      exact ⟨(List.append_nil _).symm, rfl, rfl⟩
  | cons q more =>
      obtain ⟨rfl, -⟩ := List.cons.inj hskip
      simp only [size_append, size_cons, size_nil] at h'
      omega

namespace Fix.Edits

variable {newline text tail : Text} {row : List Piece} {fix : Fix} {i j k l : Nat} {e f : Edit}
variable (broken : 0 < newline.length)

include broken in
theorem same_item {pre post pre' post' : List Piece} {x y : Item} {m n : Nat}
    (split : row = pre ++ item i x :: post) (split' : row = pre' ++ item j y :: post')
    (h : size newline pre + m = size newline pre' + n) (hm : m ≤ x.text.length)
    (hn : n ≤ y.text.length) : pre = pre' ∧ item i x = item j y ∧ post = post' ∧ m = n := by
  obtain ⟨rfl, hitem, hpost⟩ := Piece.split_unique newline (split.symm.trans split')
    (by rw [Piece.size_concat_item]; omega) (by rw [Piece.size_concat_item]; omega)
  exact ⟨rfl, hitem, hpost, Nat.add_left_cancel h⟩

theorem start_of_ne_sort (h : fix.Edits newline text row e) (hfix : ∀ k, fix ≠ .sort k) :
    ∃ pre i x post, row = pre ++ item i x :: post ∧ e.span.start = size newline pre := by
  cases h with
  | move split => exact ⟨_, _, _, _, split, rfl⟩
  | blank split => exact ⟨_, _, _, _, split, rfl⟩
  | sort => exact absurd rfl (hfix _)

include broken in
theorem sort_start_ne (led : ∀ x, (k, x) ∈ Piece.items row → x.lead ≠ [])
    (h : (Fix.sort k).Edits newline text row e) (h' : fix.Edits newline text row f)
    (hfix : ∀ l, fix ≠ .sort l) : e.span.start ≠ f.span.start := by
  obtain ⟨pre', i, y, post', split', hstart⟩ := h'.start_of_ne_sort hfix
  cases h with
  | @sort pre _ x post names split written =>
      have hlead := List.length_pos_of_ne_nil (led x (by simp [split, Piece.items]))
      intro heq
      obtain ⟨-, -, -, hzero⟩ := same_item broken split split'
        (heq.trans (hstart.trans (Nat.add_zero _).symm)) (x.lead_le_stop.trans x.stop_le)
        (Nat.zero_le _)
      omega

include broken in
theorem sort_unique (h : (Fix.sort k).Edits newline text row e)
    (h' : (Fix.sort l).Edits newline text row f) (hspan : e.span = f.span) : e = f := by
  cases h with
  | @sort pre _ x post names split written =>
      cases h' with
      | @sort pre' _ y post' names' split' written' =>
          obtain ⟨rfl, hitem, -, -⟩ := same_item broken split split' (congrArg Span.start hspan)
            (x.lead_le_stop.trans x.stop_le) (y.lead_le_stop.trans y.stop_le)
          cases hitem
          have hnames := (written x.source).symm.trans (written' x.source)
          rw [List.append_cancel_right_eq, List.append_cancel_left_eq] at hnames
          rw [hnames]

variable (whole : text ++ tail = Piece.render newline row) (short : tail.length ≤ newline.length)
variable (filled : ∀ i x, (i, x) ∈ Piece.items row → x.text ≠ [])

include broken whole short filled in
theorem size_lt_stop {pre post : List Piece} {x : Item} (split : row = pre ++ item i x :: post) :
    size newline pre < min (size newline (pre ++ [item i x])) text.length := by
  have hlen := size_add_le whole short split
  have hpos := List.length_pos_of_ne_nil (filled i x (by simp [split, Piece.items]))
  rw [Piece.size_concat_item]
  omega

include broken whole short filled in
theorem move_span_ne_blank (h : (Fix.move j i).Edits newline text row e)
    (h' : (Fix.blank k).Edits newline text row f) : e.span ≠ f.span := by
  cases h with
  | @move pre _ y mid _ x post split =>
      cases h' with
      | @blank pre' _ z post' split' =>
          have hlast : size newline (pre ++ item j y :: mid) <
              min (size newline (pre ++ item j y :: mid ++ [item i x])) text.length :=
            size_lt_stop broken whole short filled (by simpa using split)
          rw [List.append_assoc, List.cons_append, Piece.size_append] at hlast
          intro hspan
          obtain ⟨hstart, hstop⟩ := Span.mk.inj hspan
          omega

include broken whole short filled in
theorem move_unique (h : (Fix.move j i).Edits newline text row e)
    (h' : (Fix.move l k).Edits newline text row f) (hspan : e.span = f.span) : e = f := by
  cases h with
  | @move pre _ y mid _ x post split =>
      cases h' with
      | @move pre' _ y' mid' _ x' post' split' =>
          obtain ⟨hstart, hstop⟩ := Span.mk.inj hspan
          obtain ⟨rfl, hitem, -, -⟩ := same_item broken split split'
            (congrArg (· + 0) hstart) (Nat.zero_le _) (Nat.zero_le _)
          cases hitem
          -- The moved statements end at the same place, which lies in both.
          have hrow : row = (pre ++ item j y :: mid) ++ item i x :: post := by simpa using split
          have hrow' : row = (pre ++ item j y :: mid') ++ item k x' :: post' := by
            simpa using split'
          have hlast := size_lt_stop broken whole short filled hrow
          have hlast' := size_lt_stop broken whole short filled hrow'
          rw [← List.cons_append, ← List.append_assoc, ← List.cons_append,
            ← List.append_assoc] at hstop
          obtain ⟨hpre, hmoved, -⟩ := Piece.split_unique newline (hrow.symm.trans hrow')
            (by omega) (by omega)
          rw [List.append_cancel_left_eq] at hpre
          cases hpre
          cases hmoved
          rfl

include broken whole short filled in
/-- Two fixes of one span are carried out by the same edit. -/
theorem unique {fix' : Fix} (h : fix.Edits newline text row e) (h' : fix'.Edits newline text row f)
    (led : ∀ k, fix = .sort k ∨ fix' = .sort k → ∀ x, (k, x) ∈ Piece.items row → x.lead ≠ [])
    (hspan : e.span = f.span) : e = f := by
  have hstart := congrArg Span.start hspan
  cases fix with
  | move j i =>
      cases fix' with
      | move l k => exact move_unique broken whole short filled h h' hspan
      | blank k => exact absurd hspan (move_span_ne_blank broken whole short filled h h')
      | sort k => exact absurd hstart.symm (sort_start_ne broken (led k (.inr rfl)) h' h (by simp))
  | blank i =>
      cases fix' with
      | move l k => exact absurd hspan.symm (move_span_ne_blank broken whole short filled h' h)
      | blank k =>
          cases h
          cases h'
          simpa using hspan
      | sort k => exact absurd hstart.symm (sort_start_ne broken (led k (.inr rfl)) h' h (by simp))
  | sort i =>
      cases fix' with
      | move l k => exact absurd hstart (sort_start_ne broken (led i (.inl rfl)) h h' (by simp))
      | blank k => exact absurd hstart (sort_start_ne broken (led i (.inl rfl)) h h' (by simp))
      | sort k => exact sort_unique broken h h' hspan

end Fix.Edits

/-! ### Reports in any order -/

section Located

variable {d : Document} {statements : List Statement} {i : Nat} {x : Item}

theorem Document.Located.text_ne_nil (located : d.Located statements)
    (filled : ∀ s ∈ statements, s.text ≠ []) (hx : d.items[i]? = some x) : x.text ≠ [] := by
  obtain ⟨s, offset, row, hs, same⟩ := located.exists_statement hx
  have htext : s.text = x.text := congrArg Statement.text same
  exact htext ▸ filled s (List.mem_of_getElem? hs)

theorem Document.Located.lead_ne_nil (located : d.Located statements)
    (behind : ∀ s ∈ statements, ∀ b ∈ s.bindings, s.span.start < b.span.start)
    (hx : x ∈ d.items) (named : x.entries ≠ []) : x.lead ≠ [] := by
  obtain ⟨i, hi⟩ := List.getElem?_of_mem hx
  obtain ⟨s, offset, row, hs, same⟩ := located.exists_statement hi
  have hbindings : s.bindings = x.bindings offset := congrArg Statement.bindings same
  have hspan : s.span.start = offset := congrArg (fun s => s.span.start) same
  obtain ⟨entry, rest, hcons⟩ := List.exists_cons_of_ne_nil named
  have hbehind := behind s (List.mem_of_getElem? hs)
  rw [hbindings, hspan, Item.bindings, hcons, Entry.bindings] at hbehind
  have hlt := hbehind _ (List.mem_append_right _ List.mem_cons_self)
  exact List.ne_nil_of_length_pos (by simpa using hlt)

end Located

/-- Whatever the order of its report, a pass over a uniform document comes to the same text and
counts. The document's statements are not empty and their names stand behind their start. -/
theorem report_order_changes_nothing (d : Document) (policy : Policy) (statements : List Statement)
    (text tail : Text) (located : d.Located statements) (whole : text ++ tail = d.text)
    (ending : tail = [] ∨ tail = d.newline.text) (filled : ∀ s ∈ statements, s.text ≠ [])
    (behind : ∀ s ∈ statements, ∀ b ∈ s.bindings, s.span.start < b.span.start) :
    (∀ compile data path, Policy.ofValue compile data path = .ok policy →
      ∃ violations, checkStatements policy d.newline.text statements = .ok violations) ∧
    ∀ violations, checkStatements policy d.newline.text statements = .ok violations →
      ∀ reordered : List Violation, reordered.Perm violations →
        applyFixes text (reordered.map (·.edits)) = applyFixes text (violations.map (·.edits)) ∧
        applyFixes text ((passFixes reordered).map (·.edits)) =
          applyFixes text ((passFixes violations).map (·.edits)) := by
  refine ⟨?_, ?_⟩
  · intro compile data path h
    exact ⟨_, checkStatements_of_resolved (Policy.resolved_of_ofValue h) _ _⟩
  · intro violations h reordered perm
    have short := Document.short_of_ending ending
    have filled' : ∀ i x, (i, x) ∈ Piece.items d.pieces → x.text ≠ [] := fun i x hx =>
      located.text_ne_nil filled (Document.mem_items_pieces.mp hx)
    have behind' : ∀ x ∈ d.items, policy.ignoreMembersSort = false → x.Unsorted → x.lead ≠ [] :=
      fun x hx _ unsorted => located.lead_ne_nil behind hx unsorted.entries_ne_nil
    have distinct : ∀ v ∈ violations, ∀ w ∈ violations, ∀ e f, Edit.merge text v.edits = some e →
        Edit.merge text w.edits = some f → e.span = f.span → e = f := by
      intro v hv w hw e f he hf
      apply (edits_of_mem located whole short h hv he).unique d.newline.length_pos
        (Document.whole_pieces whole) short filled' (edits_of_mem located whole short h hw hf)
      intro k hk
      rcases hk with hk | hk
      · exact lead_ne_nil_of_edits located h behind' hv he hk
      · exact lead_ne_nil_of_edits located h behind' hw hf hk
    refine ⟨applyFixes_perm perm distinct, applyFixes_perm (passFixes_perm perm) ?_⟩
    intro v hv w hw
    exact distinct v (mem_of_mem_passFixes hv) w (mem_of_mem_passFixes hw)

/-- Three statements of which the second lacks an empty line, and the last is to move up to it and
to have its names sorted. -/
def Document.pressing : Document where
  newline := .lf
  chunks :=
    [.item ⟨"os", "import ".toList, none, [⟨"os", "os".toList, []⟩]⟩,
      .item ⟨"z", "import ".toList, none, [⟨"z", ['z'], []⟩]⟩,
      .item ⟨"q", "from q import ".toList, none, [⟨"d", ['d'], [',', ' ']⟩, ⟨"c", ['c'], []⟩]⟩]

/-- The empty line and the move start at the same place. The text lacks its last line break. -/
theorem report_order_changes_nothing_reversed :
    ∃ violations, checkStatements .systemFirst ['\n'] Document.pressing.statements =
        .ok violations ∧
      violations.map (fun v => (v.kind, v.index)) =
        [(.missingBlankLine, 1), (.wrongOrder, 2), (.wrongMemberOrder, 2)] ∧
      applyFixes "import os\nimport z\nfrom q import d, c".toList
          (violations.reverse.map (·.edits)) =
        ⟨"import os\n\nimport z\nfrom q import c, d".toList, 2, 1⟩ := by
  obtain ⟨violations, h, found⟩ := exists_checked_systemFirst ['\n'] Document.pressing.statements
    (fun violations => (violations.map (fun v => (v.kind, v.index)),
      applyFixes "import os\nimport z\nfrom q import d, c".toList (violations.map (·.edits))))
    (show _ = ([(.missingBlankLine, 1), (.wrongOrder, 2), (.wrongMemberOrder, 2)],
      ⟨"import os\n\nimport z\nfrom q import c, d".toList, 2, 1⟩) by cbv)
  have same := (report_order_changes_nothing .pressing .systemFirst Document.pressing.statements
    "import os\nimport z\nfrom q import d, c".toList ['\n'] rfl (by decide) (.inr rfl) (by decide)
    (by decide)).2 violations h
  have reversed := (same violations.reverse violations.reverse_perm).1
  obtain ⟨reports, outcome⟩ := Prod.mk.inj found
  exact ⟨violations, h, reports, reversed.trans outcome⟩

end ImportOrder
