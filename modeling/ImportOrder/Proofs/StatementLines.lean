import ImportOrder.Proofs.Lines
import ImportOrder.Proofs.Splice

/-!
The lines on which import statements stand. The statements that are collected from a source take up
whole lines of it, each on lines below those of the one before it; so the source can be cut into
lines at the places where statements begin and end.
-/

namespace ImportOrder

def Statement.covers (s : Statement) (k : Nat) : Bool := s.start.line ≤ k && k ≤ s.stop.line

def coveredBy (statements : List Statement) (k : Nat) : Bool := statements.any (·.covers k)

/-- The lines of a text that belong to none of some statements. -/
def otherLines (t : Text) (statements : List Statement) : List Text :=
  ((t.lines.zipIdx 1).filter fun p => !coveredBy statements p.2).map Prod.fst

/-- Lines from line `k` on that are marked where `owned` holds. -/
def Line.Marked (owned : Nat → Bool) : Nat → List Line → Prop
  | _, [] => True
  | k, l :: rest => l.owned = owned k ∧ Marked owned (k + 1) rest

section Marked

variable {owned : Nat → Bool}

variable (owned) in
theorem Text.marked_ruled (k : Nat) (t : Text) : Line.Marked owned k (ruled owned k t) := by
  fun_induction ruled owned k t with
  | case1 k => exact ⟨rfl, trivial⟩
  | case2 k rest ih => exact ⟨rfl, ih⟩
  | case3 k c rest hpair hbreak ih => exact ⟨rfl, ih⟩
  | case4 k c rest hpair hbreak ih =>
      obtain ⟨l, lines, hl⟩ := List.exists_cons_of_ne_nil (ruled_ne_nil owned k rest)
      rw [hl] at ih ⊢
      exact ih

theorem Line.Marked.left {k : Nat} {front back : List Line} (h : Marked owned k (front ++ back)) :
    Marked owned k front := by
  induction front generalizing k with
  | nil => trivial
  | cons l front ih => exact ⟨h.1, ih h.2⟩

theorem Line.Marked.right {k : Nat} {front back : List Line} (h : Marked owned k (front ++ back)) :
    Marked owned (k + front.length) back := by
  induction front generalizing k with
  | nil => exact h
  | cons l front ih =>
      have := ih h.2
      rwa [Nat.add_assoc, Nat.add_comm 1] at this

theorem Line.Marked.free_eq {k : Nat} {lines : List Line} (h : Marked owned k lines) :
    free lines = (((lines.map content).zipIdx k).filter fun p => !owned p.2).map Prod.fst := by
  induction lines generalizing k with
  | nil => rfl
  | cons l rest ih =>
      rw [free_cons, ih h.2, h.1, List.map_cons, List.zipIdx_cons, List.filter_cons]
      cases owned k <;> simp

theorem Line.Marked.owned_eq_true {k : Nat} {lines : List Line} (h : Marked owned k lines)
    (covered : ∀ j, k ≤ j → j < k + lines.length → owned j = true) :
    ∀ l ∈ lines, l.owned = true := by
  induction lines generalizing k with
  | nil => simp
  | cons l rest ih =>
      have hl : l.owned = true := h.1.trans (covered k (Nat.le_refl k) (by simp))
      have hrest := ih h.2 fun j hj hj' => covered j (by omega) (by simp only [List.length_cons]; omega)
      simpa using ⟨hl, hrest⟩

end Marked

theorem otherLines_eq (t : Text) (statements : List Statement) :
    otherLines t statements = Line.free (t.ruled (coveredBy statements) 1) := by
  rw [(Text.marked_ruled _ 1 t).free_eq, ← Text.lines_eq, otherLines]

/-! ### Statements on lines -/

/-- A statement that takes up whole lines of a text. -/
structure Statement.Fills (t : Text) (s : Statement) : Prop where
  first : 1 ≤ s.start.line
  order : s.start.line ≤ s.stop.line
  last : s.stop.line ≤ 1 + t.unifyBreaks.count '\n'
  start : s.span.start = (LineIndex.ofText t).lineStart s.start.line
  stop : s.span.stop = (LineIndex.ofText t).lineEnd s.stop.line
  text : s.text = t.cut s.span.start s.span.stop

theorem Code.Import.fills {source : Text} {i : Import} (first : 1 ≤ i.firstLine)
    (order : i.firstLine ≤ i.lastLine)
    (last : i.lastLine ≤ 1 + (Text.unifyBreaks source).count '\n') :
    (i.statement (.ofText source)).Fills source := by
  refine ⟨first, order, last, ?_, rfl, rfl⟩
  simp [Import.statement, LineIndex.offset, relocate]

/-- The statements of a source take up whole lines, each below the one before it. -/
theorem Code.collect_fills {source : Text} {found : Collection}
    (h : Code.collect source = some found) :
    (∀ s ∈ found.statements, s.Fills source) ∧
      found.statements.Pairwise fun a b => a.stop.line < b.start.line := by
  obtain ⟨is, his, rfl⟩ := Option.map_eq_some_iff.mp h
  obtain ⟨lines, pairs⟩ := imports_lines his
  refine ⟨?_, List.pairwise_map.mpr pairs⟩
  intro s hs
  obtain ⟨i, hi, rfl⟩ := List.mem_map.mp hs
  obtain ⟨first, order, last⟩ := lines i hi
  exact Import.fills first order last

theorem Text.firstBreak_eq_some {t b : Text} (h : t.firstBreak = some b) :
    b = ['\n'] ∨ b = ['\r'] ∨ b = ['\r', '\n'] := by
  fun_induction firstBreak t with
  | case1 => cases h
  | case2 =>
      cases h
      exact .inr (.inr rfl)
  | case3 c _ _ hbreak =>
      cases h
      have hc : c = '\n' ∨ c = '\r' := by simpa [isBreak] using hbreak
      rcases hc with rfl | rfl
      · exact .inl rfl
      · exact .inr (.inl rfl)
  | case4 _ _ _ _ ih => exact ih h

theorem Code.collect_newline {source : Text} {found : Collection}
    (h : Code.collect source = some found) :
    found.newline = ['\n'] ∨ found.newline = ['\r'] ∨ found.newline = ['\r', '\n'] := by
  obtain ⟨is, -, rfl⟩ := Option.map_eq_some_iff.mp h
  cases hbreak : source.firstBreak with
  | none => exact .inl rfl
  | some b => exact Text.firstBreak_eq_some hbreak

open Line (render)

/-- The lines of a text, cut where a statement begins and ends. -/
theorem Statement.Fills.exists_split {t : Text} {s : Statement} (h : s.Fills t)
    (owned : Nat → Bool) :
    ∃ front block last back, t.ruled owned 1 = front ++ (block ++ last :: back) ∧
      s.start.line = front.length + 1 ∧ s.stop.line = (front ++ block).length + 1 ∧
      s.span.start = (render front).length ∧
      s.span.stop = (render (front ++ block)).length + last.content.length ∧
      s.text = render block ++ last.content := by
  have hfirst := h.first
  have horder := h.order
  have hlast := h.last
  rw [← Text.length_ruled owned 1] at hlast
  obtain ⟨front, rest, hsplit, hfront⟩ : ∃ front rest, t.ruled owned 1 = front ++ rest ∧
      front.length = s.start.line - 1 :=
    ⟨_, _, (List.take_append_drop (s.start.line - 1) _).symm, by rw [List.length_take]; omega⟩
  have hlength := congrArg List.length hsplit
  rw [List.length_append] at hlength
  obtain ⟨block, rest', rfl, hblock⟩ : ∃ block rest', rest = block ++ rest' ∧
      block.length = s.stop.line - s.start.line :=
    ⟨_, _, (List.take_append_drop (s.stop.line - s.start.line) _).symm, by
      rw [List.length_take]; omega⟩
  obtain ⟨last, back, rfl⟩ : ∃ last back, rest' = last :: back := by
    apply List.exists_cons_of_ne_nil
    rintro rfl
    rw [List.length_append, List.length_nil] at hlength
    omega
  have hline : s.start.line = front.length + 1 := by omega
  have hline' : s.stop.line = (front ++ block).length + 1 := by
    rw [List.length_append]
    omega
  have hstart := h.start
  rw [hline, Text.lineStart_eq hsplit (by simp)] at hstart
  have hstop := h.stop
  rw [hline', Text.lineEnd_eq (hsplit.trans (List.append_assoc _ _ _).symm)] at hstop
  refine ⟨front, block, last, back, hsplit, hline, hline', hstart, hstop, ?_⟩
  have htext : t = render front ++ (render block ++ last.content) ++ (last.ending ++ render back) := by
    rw [← Text.render_ruled owned 1 t, hsplit]
    simp [Line.text]
  have hsize : (render (front ++ block)).length + last.content.length =
      (render front).length + (render block ++ last.content).length := by
    simp [Nat.add_assoc]
  rw [h.text, hstart, hstop, hsize]
  conv_lhs => rw [htext]
  exact Text.cut_append _ _ _

end ImportOrder
