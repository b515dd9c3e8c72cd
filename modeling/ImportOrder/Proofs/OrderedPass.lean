import ImportOrder.Proofs.KnownLines
import ImportOrder.Proofs.ReportOrder
import ImportOrder.Proofs.Termination

/-!
A pass over statements that are in order. Only empty lines and sorted names are left to do. Each of
them stays in its own statement, and in one statement the names stand behind the empty line, so no
fix is in the way of another. Where only empty lines are missing the pass puts them in, and nothing
is reported of the document that comes of it.
-/

namespace ImportOrder

/-! ### No fix is asked for twice -/

namespace Violation

variable {v w : Violation}

theorem kind_of_place {j : Nat} (h : v.place = some j) : v.kind = .wrongOrder := by
  unfold place at h
  unfold kind
  split at h <;> simp_all

theorem fix_eq_iff :
    v.fix = w.fix ↔ v.kind = w.kind ∧ (v.index, v.place) = (w.index, w.place) := by
  unfold fix kind place
  cases v.fault <;> cases w.fault <;> simp [and_comm]

theorem rank_eq_of_fix_eq (h : v.fix = w.fix) : v.rank = w.rank := by
  unfold fix at h
  unfold rank binding
  cases hv : v.fault <;> cases hw : w.fault <;> simp_all

end Violation

namespace Placed

/-- Only wrong orders are reported more than once of one statement. -/
theorem reportsAt_kinds (policy : Policy) (items : List Placed) (i : Nat) :
    (reportsAt policy items i).Pairwise fun v w => v.kind = w.kind → v.kind = .wrongOrder := by
  have single : ∀ o : Option Violation,
      o.toList.Pairwise fun v w => v.kind = w.kind → v.kind = .wrongOrder := by
    intro o
    cases o <;> simp
  have hgroup : ∀ v ∈ groupReport items i, v.kind = .wrongOrder := by
    intro v hv
    obtain ⟨j, hj, -⟩ := place_of_groupReport hv
    exact Violation.kind_of_place hj
  have hsub : ∀ v ∈ subReport policy items i, v.kind = .wrongOrder := by
    intro v hv
    obtain ⟨j, hj, -⟩ := place_of_subReport hv
    exact Violation.kind_of_place hj
  have hname : ∀ v ∈ nameReport policy items i, v.kind = .wrongOrder := by
    intro v hv
    obtain ⟨j, hj, -⟩ := place_of_nameReport hv
    exact Violation.kind_of_place hj
  simp only [reportsAt, startReports, List.pairwise_append, List.mem_append, Option.mem_toList]
  refine ⟨⟨⟨⟨single _, single _, ?_⟩, single _, ?_⟩, single _, ?_⟩, single _, ?_⟩
  · intro v hv w hw _
    exact hgroup v hv
  · intro v hv w hw same
    exact same.trans (hsub w hw)
  · intro v hv w hw same
    exact same.trans (hname w hw)
  · intro v hv w hw same
    rw [kind_of_memberReport hw] at same
    rcases hv with ((hv | hv) | hv) | hv
    · exact hgroup v hv
    · cases (kind_of_blankReport hv).symm.trans same
    · exact hsub v hv
    · exact hname v hv

theorem checkOrder_fixes (policy : Policy) (items : List Placed) :
    (checkOrder policy items).Pairwise fun v w => v.fix ≠ w.fix := by
  apply checkOrder_pairwise
  · intro v w h
    exact h.symm
  · intro v w h same
    exact h (Violation.rank_eq_of_fix_eq same)
  · intro i
    refine ((reportsAt_differ policy items i).and (reportsAt_kinds policy items i)).imp ?_
    intro v w h same
    obtain ⟨kind, target⟩ := Violation.fix_eq_iff.mp same
    have wrong := h.2 kind
    exact h.1 wrong (kind.symm.trans wrong) target

end Placed

theorem checkStatements_fixes {policy : Policy} {newline : Text} {statements : List Statement}
    {violations : List Violation} (h : checkStatements policy newline statements = .ok violations) :
    violations.Pairwise fun v w => v.fix ≠ w.fix := by
  rw [eq_of_checkStatements h, List.pairwise_map]
  exact Placed.checkOrder_fixes policy _

/-! ### Fixes that move nothing -/

open Piece (item size)

theorem Piece.split_cases (newline : Text) {pre post pre' post' : List Piece} {p p' : Piece}
    (split : pre ++ p :: post = pre' ++ p' :: post') :
    (pre = pre' ∧ p = p' ∧ post = post') ∨ size newline (pre ++ [p]) ≤ size newline pre' ∨
      size newline (pre' ++ [p']) ≤ size newline pre := by
  by_cases h : size newline (pre ++ [p]) ≤ size newline pre'
  · exact .inr (.inl h)
  · by_cases h' : size newline (pre' ++ [p']) ≤ size newline pre
    · exact .inr (.inr h')
    · exact .inl (split_unique newline split (not_le.mp h') (not_le.mp h))

namespace Fix.Edits

variable {newline text tail : Text} {row : List Piece} {fix fix' : Fix} {e f : Edit}

/-- Empty lines and sorted names stay in their statement. -/
theorem within_item (h : fix.Edits newline text row e) (still : ∀ j i, fix ≠ .move j i) :
    ∃ pre i x post, row = pre ++ item i x :: post ∧ size newline pre ≤ e.span.start ∧
      e.span.start ≤ e.span.stop ∧ e.span.stop ≤ size newline pre + x.text.length ∧
      (fix = .blank i ∧ e.span.stop = size newline pre ∨
        fix = .sort i ∧ e.span.start = size newline pre + x.lead.length) := by
  cases h with
  | move => exact absurd rfl (still _ _)
  | blank split =>
      exact ⟨_, _, _, _, split, le_rfl, le_rfl, Nat.le_add_right _ _, .inl ⟨rfl, rfl⟩⟩
  | @sort pre i x post names split written =>
      exact ⟨_, _, _, _, split, Nat.le_add_right _ _, Nat.add_le_add_left x.lead_le_stop _,
        Nat.add_le_add_left x.stop_le _, .inr ⟨rfl, rfl⟩⟩

/-- Different ones leave a gap. -/
theorem stop_lt_start_of_ne (broken : 0 < newline.length)
    (led : ∀ k, fix = .sort k ∨ fix' = .sort k → ∀ x, (k, x) ∈ Piece.items row → x.lead ≠ [])
    (h : fix.Edits newline text row e) (h' : fix'.Edits newline text row f)
    (still : ∀ j i, fix ≠ .move j i) (still' : ∀ j i, fix' ≠ .move j i) (hne : fix ≠ fix')
    (hle : e.span.start ≤ f.span.start) : e.span.stop < f.span.start := by
  obtain ⟨pre, i, x, post, split, hstart, hordered, hstop, hfix⟩ := h.within_item still
  obtain ⟨pre', i', x', post', split', hstart', hordered', hstop', hfix'⟩ := h'.within_item still'
  have hsplit := Piece.split_cases newline (split.symm.trans split')
  simp only [Piece.size_concat_item] at hsplit
  rcases hsplit with ⟨rfl, hitem, -⟩ | hbefore | hbehind
  · cases hitem
    have hlead : fix = .sort i ∨ fix' = .sort i → 0 < x.lead.length := fun hsort =>
      List.length_pos_of_ne_nil (led i hsort x (by simp [split, Piece.items]))
    rcases hfix with ⟨hblank, hempty⟩ | ⟨hsort, hnames⟩
    · rcases hfix' with ⟨hblank', -⟩ | ⟨hsort', hnames'⟩
      · exact absurd (hblank.trans hblank'.symm) hne
      · have := hlead (.inr hsort')
        omega
    · rcases hfix' with ⟨-, hempty'⟩ | ⟨hsort', -⟩
      · have := hlead (.inl hsort)
        omega
      · exact absurd (hsort.trans hsort'.symm) hne
  · omega
  · omega

end Fix.Edits

/-! ### A pass that skips nothing -/

section Ordered

variable {d : Document} {policy : Policy} {statements : List Statement} {text tail : Text}
variable {violations : List Violation}
variable (located : d.Located statements) (whole : text ++ tail = d.text)
variable (short : tail.length ≤ d.newline.text.length)
variable (h : checkStatements policy d.newline.text statements = .ok violations)
variable (behind : ∀ x ∈ d.items, policy.ignoreMembersSort = false → x.Unsorted → x.lead ≠ [])
variable (ordered : ∀ v ∈ violations, v.kind ≠ .wrongOrder)

include located whole short h ordered in
theorem inside_of_ordered : ∀ f ∈ mergedFixes text violations,
    f.2.span.start ≤ f.2.span.stop ∧ f.2.span.stop ≤ text.length := by
  intro f hf
  obtain ⟨hv, he⟩ := mem_mergedFixes.mp hf
  obtain ⟨pre, i, x, post, split, -, hordered, hstop, -⟩ :=
    (edits_of_mem located whole short h hv he).within_item
      (Violation.fix_ne_move (ordered f.1 hv))
  exact ⟨hordered, hstop.trans (size_add_le (Document.whole_pieces whole) short split)⟩

include located whole short h behind ordered in
theorem apart_of_ordered : (mergedFixes text violations).Pairwise
    fun f g => f.2.span.stop < g.2.span.start := by
  have once : (mergedFixes text violations).Pairwise fun f g => f.1.fix ≠ g.1.fix := by
    refine ((List.mergeSort_perm _ _).pairwise_iff fun h => h.symm).mpr ?_
    rw [List.pairwise_filterMap]
    refine (checkStatements_fixes h).imp ?_
    intro v w hne f hf g hg
    obtain ⟨e, -, rfl⟩ := Option.map_eq_some_iff.mp hf
    obtain ⟨e', -, rfl⟩ := Option.map_eq_some_iff.mp hg
    exact hne
  refine ((mergedFixes_sorted text violations).and once).imp_of_mem ?_
  intro f g hf hg hfg
  obtain ⟨hv, he⟩ := mem_mergedFixes.mp hf
  obtain ⟨hw, he'⟩ := mem_mergedFixes.mp hg
  have hle := Edit.le_iff.mp hfg.1
  apply (edits_of_mem located whole short h hv he).stop_lt_start_of_ne d.newline.length_pos ?_
    (edits_of_mem located whole short h hw he') (Violation.fix_ne_move (ordered f.1 hv))
    (Violation.fix_ne_move (ordered g.1 hw)) hfg.2
  · omega
  · intro k hk
    rcases hk with hk | hk
    · exact lead_ne_nil_of_edits located h behind hv he hk
    · exact lead_ne_nil_of_edits located h behind hw he' hk

include located whole short h behind ordered in
theorem takenFixes_of_ordered : takenFixes text violations = mergedFixes text violations :=
  Edit.selectBy_eq_self _ (apart_of_ordered located whole short h behind ordered) (by simp)

include located whole short h behind ordered in
theorem maximalPass_of_ordered :
    MaximalPass text violations (applyFixes text (violations.map (·.edits)))
      (mergedFixes text violations) [] := by
  have pass := maximalPass (inside_of_ordered located whole short h ordered)
  have taken := takenFixes_of_ordered located whole short h behind ordered
  have hlength := (Edit.selectBy_append_passedOver_perm (fun f : Violation × Edit => f.2) none
    (mergedFixes text violations)).length_eq
  rw [← takenFixes, taken, List.length_append] at hlength
  have hskipped : Edit.passedOver (fun f : Violation × Edit => f.2) none
      (mergedFixes text violations) = [] := List.eq_nil_of_length_eq_zero (by omega)
  rwa [taken, hskipped] at pass

end Ordered

/-! ### Empty lines in front of statements -/

/-- The chunks of a row, with an empty line in front of each statement whose number `starts`
admits. -/
def Piece.spaced (starts : Nat → Bool) : List Piece → List Chunk
  | [] => []
  | .item i x :: rest => (if starts i then [Chunk.line []] else []) ++ .item x :: spaced starts rest
  | .line text :: rest => .line text :: spaced starts rest
  | .blank _ :: rest => .line [] :: spaced starts rest

/-- The document with an empty line in front of each statement whose number `starts` admits. -/
def Document.spaced (d : Document) (starts : Nat → Bool) : Document :=
  d.withChunks (Piece.spaced starts d.pieces)

namespace Piece

variable {starts starts' : Nat → Bool}

theorem spaced_append (starts : Nat → Bool) (a b : List Piece) :
    spaced starts (a ++ b) = spaced starts a ++ spaced starts b := by
  induction a with
  | nil => rfl
  | cons p rest ih => cases p <;> simp [spaced, ih]

theorem spaced_congr {row : List Piece}
    (h : ∀ i ∈ (items row).map Prod.fst, starts i = starts' i) :
    spaced starts row = spaced starts' row := by
  induction row with
  | nil => rfl
  | cons p rest ih =>
      cases p with
      | item i x =>
          obtain ⟨hi, hrest⟩ := List.forall_mem_cons.mp h
          rw [spaced, spaced, hi, ih hrest]
      | line text => rw [spaced, spaced, ih h]
      | blank i => rw [spaced, spaced, ih h]

theorem spaced_false (row : List Piece) : spaced (fun _ => false) row = row.map chunk := by
  induction row with
  | nil => rfl
  | cons p rest ih => cases p <;> simp [spaced, chunk, ih]

theorem items_spaced (starts : Nat → Bool) (row : List Piece) :
    (spaced starts row).filterMap Chunk.item? = (items row).map Prod.snd := by
  induction row with
  | nil => rfl
  | cons p rest ih =>
      cases p with
      | item i x => by_cases h : starts i <;> simp [spaced, items, h, ih]
      | line text => simp [spaced, items, ih]
      | blank i => simp [spaced, items, ih]

theorem endsIn_spaced (starts : Nat → Bool) (row : List Piece) (before : Bool) :
    Chunk.endsIn before (spaced starts row) = Chunk.endsIn before (row.map chunk) := by
  induction row generalizing before with
  | nil => rfl
  | cons p rest ih =>
      cases p with
      | item i x => by_cases h : starts i <;> simp [spaced, chunk, Chunk.endsIn, h, ih]
      | line text => exact ih false
      | blank i => exact ih false

end Piece

namespace Sweep

variable {reread : Item → String} {row out : List Piece} {fixes : List Fix}

/-- A sweep of empty lines puts them in front of the statements they were asked for. -/
theorem map_chunk_of_blanks (h : Sweep reread row fixes out)
    (blanks : ∀ f ∈ fixes, ∃ i, f = .blank i) (nodup : ((Piece.items row).map Prod.fst).Nodup) :
    out.map Piece.chunk = Piece.spaced (fun i => decide (.blank i ∈ fixes)) row := by
  induction h with
  | done rest => simpa using (Piece.spaced_false rest).symm
  | move front j y mid i x next ih =>
      obtain ⟨k, hf⟩ := blanks _ List.mem_cons_self
      cases hf
  | @blank front i x x' back out fixes next ih =>
      rw [Piece.items_append, List.map_append, List.nodup_append] at nodup
      obtain ⟨-, hback, hfront⟩ := nodup
      have hnext := ih (fun f hf => blanks f (List.mem_cons_of_mem _ hf)) hback
      have hahead : Piece.spaced (fun k => decide (.blank k ∈ Fix.blank i :: fixes)) front =
          front.map Piece.chunk := by
        rw [← Piece.spaced_false]
        apply Piece.spaced_congr
        intro k hk
        rw [decide_eq_false_iff_not, List.mem_cons, not_or]
        refine ⟨?_, ?_⟩
        · intro heq
          exact hfront k hk i List.mem_cons_self (Fix.blank.inj heq)
        · intro hmem
          exact hfront k hk k (next.index_mem hmem) rfl
      have hbehind : Piece.spaced (fun k => decide (.blank k ∈ Fix.blank i :: fixes)) back =
          Piece.spaced (fun k => decide (.blank k ∈ fixes)) back := by
        apply Piece.spaced_congr
        intro k hk
        have hne : k ≠ i := by
          rintro rfl
          exact (List.nodup_cons.mp hback).1 hk
        simp [hne]
      -- The statement itself stands first in what is left, so no other line is put in front of it.
      by_cases hmem : .blank i ∈ fixes
      · simp [Piece.spaced, Piece.chunk, hmem] at hnext
      · simp only [Piece.spaced, Piece.chunk, hmem, decide_false, Bool.false_eq_true, if_false,
          List.nil_append, List.map_cons, List.cons.injEq, Chunk.item.injEq] at hnext
        obtain ⟨rfl, hout⟩ := hnext
        rw [Piece.spaced_append, hahead, List.map_append, List.map_cons, List.map_cons, hout,
          Piece.spaced, hbehind]
        simp [Piece.chunk]
  | sort front i x next ih =>
      obtain ⟨k, hf⟩ := blanks _ List.mem_cons_self
      cases hf

theorem size_of_blanks (newline : Text) (h : Sweep reread row fixes out)
    (blanks : ∀ f ∈ fixes, ∃ i, f = .blank i) :
    size newline out = size newline row + fixes.length * newline.length := by
  induction h with
  | done rest => simp
  | move front j y mid i x next ih =>
      obtain ⟨k, hf⟩ := blanks _ List.mem_cons_self
      cases hf
  | blank front i x x' next ih =>
      have hnext := ih fun f hf => blanks f (List.mem_cons_of_mem _ hf)
      have hblank : (Piece.blank i).chunk.body.length = 0 := rfl
      simp only [Piece.size_append, List.length_cons, Nat.add_mul]
      rw [Piece.size_cons, hnext, hblank]
      omega
  | sort front i x next ih =>
      obtain ⟨k, hf⟩ := blanks _ List.mem_cons_self
      cases hf

end Sweep

/-! ### Checking again -/

namespace Placed

variable {policy : Policy} {items others : List Placed} {i j : Nat}

/-- What the order of statements is checked by. -/
def view (a : Placed) : Placement × Option String := (a.placement, a.statement.firstName)

theorem groupAt_eq (items : List Placed) (n : Nat) :
    groupAt items n = (((items.map view)[n]?).map (·.1.group)).getD 0 := by
  simp [groupAt, view, Function.comp_def]

theorem subAt_eq (items : List Placed) (n : Nat) :
    subAt items n = (items.map view)[n]?.bind (·.1.sub) := by
  simp [subAt, view, Option.bind_map, Function.comp_def]

theorem nameAt_eq (items : List Placed) (n : Nat) :
    nameAt items n = (items.map view)[n]?.bind (·.2) := by
  simp [nameAt, view, Option.bind_map, Function.comp_def]

theorem groupAt_congr (h : items.map view = others.map view) : groupAt items = groupAt others := by
  funext n
  rw [groupAt_eq, groupAt_eq, h]

theorem Wants.congr (h : items.map view = others.map view) (wants : Wants policy items i j) :
    Wants policy others i j := by
  have hgroup := groupAt_congr h
  have hsub : subAt items = subAt others := by
    funext n
    rw [subAt_eq, subAt_eq, h]
  have hname : nameAt items = nameAt others := by
    funext n
    rw [nameAt_eq, nameAt_eq, h]
  cases wants with
  | group target => exact .group (hgroup ▸ target)
  | sub on defined target =>
      rw [hgroup, hsub] at target
      exact .sub on (hsub ▸ defined) target
  | name on named target =>
      rw [hgroup, hsub, hname] at target
      exact .name on (hname ▸ named) target

theorem startsGroup_congr (h : items.map view = others.map view)
    (starts : startsGroup items i = true) : startsGroup others i = true := by
  have hlen : items.length = others.length := by simpa using congrArg List.length h
  cases hi : items[i]? with
  | none => simp [startsGroup, hi] at starts
  | some a =>
      have hlt := (List.getElem?_eq_some_iff.mp hi).1
      rw [startsGroup_eq_true_iff (List.getElem?_eq_getElem (hlen ▸ hlt)), ← groupAt_congr h]
      exact (startsGroup_eq_true_iff hi).mp starts

end Placed

namespace Document

variable {d : Document} {policy : Policy} {starts : Nat → Bool} {front back : List Chunk} {x : Item}
variable {i : Nat}

theorem items_spaced (d : Document) (starts : Nat → Bool) : (d.spaced starts).items = d.items := by
  rw [d.items_eq, ← Piece.items_spaced starts]
  rfl

theorem view_spaced (d : Document) (policy : Policy) (starts : Nat → Bool) :
    (policy.placed (d.spaced starts).statements).map Placed.view =
      (policy.placed d.statements).map Placed.view := by
  have hview : ∀ d : Document, (policy.placed d.statements).map Placed.view =
      d.items.map fun x => (policy.place x.source, x.firstName) := by
    intro d
    rw [Policy.placed, List.map_map]
    apply d.map_statements
    intro x offset row
    rw [← x.firstName_statement offset row]
    rfl
  rw [hview, hview, items_spaced]

/-- A statement is crowded exactly if it starts a group right below another statement. -/
theorem crowded_iff (split : d.chunks = front ++ .item x :: back)
    (hi : (front.filterMap Chunk.item?).length = i) :
    Placed.Crowded policy (policy.placed d.statements) i ↔ policy.emptyLines = true ∧
      Placed.startsGroup (policy.placed d.statements) i = true ∧
      Chunk.endsIn false front = true := by
  subst hi
  constructor
  · intro h
    exact ⟨h.on, h.starts, endsIn_of_crowded split h⟩
  · rintro ⟨on, hstarts, hend⟩
    obtain ⟨pre, y, rfl⟩ : ∃ pre y, front = pre ++ [.item y] := by
      rcases List.eq_nil_or_concat front with rfl | ⟨pre, c, rfl⟩
      · cases hend
      · rw [List.concat_eq_append, Chunk.endsIn_append] at hend
        cases c with
        | item y => exact ⟨pre, y, List.concat_eq_append⟩
        | line text => cases hend
    have hlength : ((pre ++ [Chunk.item y]).filterMap Chunk.item?).length =
        (pre.filterMap Chunk.item?).length + 1 := by simp
    have hx := @Chunk.getElem?_statements d.newline.text 0 1 (pre ++ [.item y]) x back
    have hy := @Chunk.getElem?_statements d.newline.text 0 1 pre y (.item x :: back)
    rw [← split] at hx
    rw [List.append_cons, ← split, ← Nat.add_sub_cancel (pre.filterMap Chunk.item?).length 1,
      ← hlength] at hy
    refine ⟨on, hstarts, by omega, _, _, Policy.getElem?_placed.mpr ⟨_, hy, rfl⟩,
      Policy.getElem?_placed.mpr ⟨_, hx, rfl⟩, ?_⟩
    rw [Placed.lineBetween_eq_false_iff]
    simp only [Item.statement, Chunk.lineCount_append]
    simp only [Chunk.lineCount, List.map_cons, List.map_nil, List.sum_cons, List.sum_nil, Chunk.body]
    omega

/-- Where no empty line was put in front of it, a statement is as crowded as before. -/
theorem crowded_of_spaced
    (h : Placed.Crowded policy (policy.placed (d.spaced starts).statements) i) :
    starts i = false ∧ Placed.Crowded policy (policy.placed d.statements) i := by
  obtain ⟨-, b, -, hb, -⟩ := h.touching
  have hlt : i < (policy.placed d.statements).length := by
    have hlength := congrArg List.length (d.view_spaced policy starts)
    rw [List.length_map, List.length_map] at hlength
    exact hlength ▸ (List.getElem?_eq_some_iff.mp hb).1
  obtain ⟨front, x, back, split, hi⟩ : ∃ front x back, d.chunks = front ++ .item x :: back ∧
      (front.filterMap Chunk.item?).length = i := by
    apply Chunk.exists_split
    simpa [Policy.placed, Document.statements, Chunk.length_statements] using hlt
  have hpieces : d.pieces = Chunk.number 0 front ++ .item i x :: Chunk.number (i + 1) back := by
    rw [pieces, split, Chunk.number_of_split hi]
  have hspaced : (d.spaced starts).chunks = (Piece.spaced starts (Chunk.number 0 front) ++
      (if starts i then [Chunk.line []] else [])) ++
        .item x :: Piece.spaced starts (Chunk.number (i + 1) back) := by
    rw [spaced, withChunks, hpieces, Piece.spaced_append, Piece.spaced, List.append_assoc]
  have hcount : ((Piece.spaced starts (Chunk.number 0 front) ++
      (if starts i then [Chunk.line []] else [])).filterMap Chunk.item?).length = i := by
    rw [List.filterMap_append, Piece.items_spaced, Chunk.items_number, ← hi]
    split <;> simp
  obtain ⟨on, hstarts, hend⟩ := (crowded_iff hspaced hcount).mp h
  cases hline : starts i with
  | true =>
      rw [hline, if_pos rfl, Chunk.endsIn_append] at hend
      cases hend
  | false =>
      rw [hline, if_neg Bool.false_ne_true, List.append_nil, Piece.endsIn_spaced,
        Chunk.map_chunk_number] at hend
      exact ⟨rfl, (crowded_iff split hi).mpr
        ⟨on, Placed.startsGroup_congr (d.view_spaced policy starts) hstarts, hend⟩⟩

theorem exists_of_spaced {s : Statement} (h : (d.spaced starts).statements[i]? = some s) :
    ∃ x offset row, s = Item.statement x offset row ∧
      ∃ offset row, d.statements[i]? = some (x.statement offset row) := by
  obtain ⟨x, offset, row, hx, rfl⟩ := item_of_statement h
  rw [items_spaced] at hx
  exact ⟨x, offset, row, rfl, d.statement_of_item hx⟩

end Document

def reportedAt (violations : List Violation) (n : Nat) : Bool := violations.any (·.index == n)

section Spaced

variable {d : Document} {policy : Policy} {text tail : Text} {violations : List Violation}
variable (h : checkStatements policy d.newline.text d.statements = .ok violations)
variable (blanks : ∀ v ∈ violations, v.kind = .missingBlankLine)

include h blanks in
/-- With the empty lines that were asked for, nothing is left to report. -/
theorem checkStatements_spaced : checkStatements policy d.newline.text
    (d.spaced (reportedAt violations)).statements = .ok [] := by
  have hle : ∀ s ∈ (d.spaced (reportedAt violations)).statements,
      (policy.place s.source).group ≤ policy.order.length := by
    intro s hs
    obtain ⟨i, hi⟩ := List.getElem?_of_mem hs
    obtain ⟨x, offset, row, rfl, offset', row', hx⟩ := Document.exists_of_spaced hi
    exact group_le_of_checkStatements h (x.statement offset' row') (List.mem_of_getElem? hx)
  have checked := checkStatements_of_le d.newline.text hle
  rw [checked, Except.ok.injEq, List.eq_nil_iff_forall_not_mem]
  intro v hv
  rcases (mem_of_checkStatements checked).mp hv with ⟨i, j, s, r, wants, hs, hr, -⟩ |
    ⟨i, s, crowded, hs, -⟩ | ⟨i, s, b, on, hs, hb, -⟩
  · obtain ⟨x, -, -, -, offset, row, hx⟩ := Document.exists_of_spaced hs
    obtain ⟨y, -, -, -, offset', row', hy⟩ := Document.exists_of_spaced hr
    cases blanks _ ((mem_of_checkStatements h).mpr
      (.inl ⟨i, j, _, _, wants.congr (d.view_spaced _ _), hx, hy, rfl⟩))
  · obtain ⟨x, -, -, -, offset, row, hx⟩ := Document.exists_of_spaced hs
    obtain ⟨free, crowded'⟩ := Document.crowded_of_spaced crowded
    have hreport := (mem_of_checkStatements h).mpr (.inr (.inl ⟨i, _, crowded', hx, rfl⟩))
    have := List.any_eq_false.mp free _ hreport
    simp at this
  · obtain ⟨x, offset, row, rfl, offset', row', hx⟩ := Document.exists_of_spaced hs
    have unsorted : (x.statement offset' row').firstMisplaced ≠ none := by
      rw [ne_eq, Item.firstMisplaced_statement, ← x.firstMisplaced_statement offset row, hb]
      exact Option.some_ne_none b
    obtain ⟨c, hc⟩ := Option.ne_none_iff_exists'.mp unsorted
    cases blanks _ ((mem_of_checkStatements h).mpr (.inr (.inr ⟨i, _, c, on, hx, hc, rfl⟩)))

include h blanks in
theorem edits_ne_nil_of_blank {v : Violation} (hv : v ∈ violations) : v.edits ≠ [] := by
  rw [(crowded_of_kind h hv (blanks v hv)).2]
  exact List.cons_ne_nil _ _

/-- Insertions of one text make a text longer by as often its length. -/
theorem Edit.length_foldr_of_insertions {newline : Text} {edits : List Edit} (text : Text)
    (insertions : ∀ e ∈ edits, e.span.stop = e.span.start ∧ e.text = newline) :
    (edits.foldr replaceIn text).length = text.length + edits.length * newline.length := by
  induction edits with
  | nil => simp
  | cons e rest ih =>
      obtain ⟨⟨hspan, htext⟩, hrest⟩ := List.forall_mem_cons.mp insertions
      have hlength := ih hrest
      rw [List.foldr_cons, replaceIn, hspan, htext]
      simp only [List.length_append, List.length_take, List.length_drop, List.length_cons,
        Nat.add_mul, hlength]
      omega

include h blanks in
theorem blank_mem_iff (i : Nat) :
    .blank i ∈ (mergedFixes text violations).map (fun f => f.1.fix) ↔
      reportedAt violations i = true := by
  rw [reportedAt, List.any_eq_true, List.mem_map]
  constructor
  · rintro ⟨f, hf, heq⟩
    exact ⟨f.1, (mem_mergedFixes.mp hf).1, by simpa using (Violation.fix_eq_blank.mp heq).1⟩
  · rintro ⟨v, hv, heq⟩
    obtain ⟨e, he⟩ := Option.ne_none_iff_exists'.mp
      (mt (merge_eq_none_iff text).mp (edits_ne_nil_of_blank h blanks hv))
    exact ⟨(v, e), mem_mergedFixes.mpr ⟨hv, he⟩,
      Violation.fix_eq_blank.mpr ⟨eq_of_beq heq, blanks v hv⟩⟩

variable (whole : text ++ tail = d.text) (ending : tail = [] ∨ tail = d.newline.text)

include h blanks whole ending in
theorem insertion_of_blank {f : Violation × Edit} (hf : f ∈ mergedFixes text violations) :
    f.2.span.stop = f.2.span.start ∧ f.2.text = d.newline.text := by
  obtain ⟨hv, he⟩ := mem_mergedFixes.mp hf
  have hedits := edits_of_mem d.located_self whole (Document.short_of_ending ending) h hv he
  rw [Violation.fix_eq_blank.mpr ⟨rfl, blanks f.1 hv⟩] at hedits
  generalize f.2 = e at hedits
  cases hedits with
  | blank split => exact ⟨rfl, rfl⟩

include h blanks whole ending in
/-- The pass puts an empty line in front of every statement that is reported. -/
theorem text_of_blanks (taken : takenFixes text violations = mergedFixes text violations)
    (pass : MaximalPass text violations (applyFixes text (violations.map (·.edits)))
      (mergedFixes text violations) []) :
    (applyFixes text (violations.map (·.edits))).text ++ tail =
      (d.spaced (reportedAt violations)).text := by
  have ordered : passFixes violations = violations :=
    passFixes_of_ordered fun v hv => by simp [blanks v hv]
  obtain ⟨out, tail', sweep, htail, hrender⟩ :=
    exists_sweep Item.source d.located_self whole ending h
  rw [carriedOut, ordered, taken] at sweep
  rw [ordered] at hrender
  have only : ∀ fix ∈ (mergedFixes text violations).map (fun f => f.1.fix),
      ∃ i, fix = .blank i := by
    intro fix hfix
    obtain ⟨f, hf, rfl⟩ := List.mem_map.mp hfix
    exact ⟨_, Violation.fix_eq_blank.mpr ⟨rfl, blanks f.1 (mem_mergedFixes.mp hf).1⟩⟩
  have hout := sweep.map_chunk_of_blanks only d.nodup_pieces
  simp only [blank_mem_iff h blanks, Bool.decide_eq_true] at hout
  -- Every fix adds one line break, so the end of the text lacks what it lacked before.
  have hlength := Edit.length_foldr_of_insertions text
    (List.forall_mem_map.mpr fun f => insertion_of_blank h blanks whole ending)
  have hsize := sweep.size_of_blanks d.newline.text only
  rw [← pass.spliced, List.length_map] at hlength
  rw [← length_add_length (Document.whole_pieces whole), size, ← hrender, List.length_append,
    hlength, List.length_map] at hsize
  have hends : tail'.length = tail.length := by omega
  obtain rfl : tail' = tail := by
    rcases htail with rfl | rfl
    · rfl
    · exact (List.eq_nil_of_length_eq_zero hends.symm).symm
  rw [hrender, Piece.render, hout]
  rfl

end Spaced

/-- Bindings that are listed in the order of the text start behind the first one. -/
theorem Statement.lt_start_of_first {s : Statement}
    (first : ∀ b ∈ s.bindings.head?, s.span.start < b.span.start)
    (listed : s.bindings.Pairwise fun a b => a.span.start ≤ b.span.start) :
    ∀ b ∈ s.bindings, s.span.start < b.span.start := by
  intro b hb
  cases hs : s.bindings with
  | nil => simp [hs] at hb
  | cons a rest =>
      rw [hs] at first listed hb
      have ha := first a rfl
      rcases List.mem_cons.mp hb with rfl | hb
      · exact ha
      · exact ha.trans_le ((List.pairwise_cons.mp listed).1 b hb)

/-- The pass puts an empty line in front of each statement that is reported, which starts a group,
and changes nothing else; then there is nothing to report. -/
structure Mended (d : Document) (policy : Policy) (tail : Text) (violations : List Violation)
    (outcome : Outcome) : Prop where
  starts : ∀ v ∈ violations, v.kind = .missingBlankLine ∧
    Placed.startsGroup (policy.placed d.statements) v.index = true
  applied : outcome.applied = violations.length
  spaced : outcome.text ++ tail = (d.spaced (reportedAt violations)).text
  clean : checkStatements policy d.newline.text (d.spaced (reportedAt violations)).statements =
    .ok []
  surveyed : ∀ collect : Collector,
    collect outcome.text = some (d.spaced (reportedAt violations)).collection →
    survey collect policy outcome.text = .ok ((d.spaced (reportedAt violations)).collection, [])

/-- Where no statement is out of order, one pass over a document applies every fix. Where all names
are in order as well, nothing is left to do after it. The bindings of each statement are listed in
the order of the text and start behind it. -/
theorem ordered_pass_mends_all (d : Document) (policy : Policy) (text tail : Text)
    (whole : text ++ tail = d.text) (ending : tail = [] ∨ tail = d.newline.text)
    (first : ∀ s ∈ d.statements, ∀ b ∈ s.bindings.head?, s.span.start < b.span.start)
    (listed : ∀ s ∈ d.statements, s.bindings.Pairwise fun a b => a.span.start ≤ b.span.start) :
    (∀ compile data path, Policy.ofValue compile data path = .ok policy →
      ∃ violations, checkStatements policy d.newline.text d.statements = .ok violations) ∧
    ∀ violations, checkStatements policy d.newline.text d.statements = .ok violations →
      (∀ v ∈ violations, v.kind ≠ .wrongOrder) →
      (applyFixes text (violations.map (·.edits))).skipped = 0 ∧
      (applyFixes text (violations.map (·.edits))).applied =
        violations.countP (fun v => decide (v.edits ≠ [])) ∧
      (∃ applied, MaximalPass text violations (applyFixes text (violations.map (·.edits)))
        applied []) ∧
      ((∀ v ∈ violations, v.kind ≠ .wrongMemberOrder) →
        Mended d policy tail violations (applyFixes text (violations.map (·.edits)))) := by
  refine ⟨?_, ?_⟩
  · intro compile data path h
    exact ⟨_, checkStatements_of_resolved (Policy.resolved_of_ofValue h) _ _⟩
  · intro violations h ordered
    have short := Document.short_of_ending ending
    have behind : ∀ x ∈ d.items, policy.ignoreMembersSort = false → x.Unsorted → x.lead ≠ [] := by
      intro x hx _ unsorted
      apply d.located_self.lead_ne_nil _ hx unsorted.entries_ne_nil
      exact fun s hs => Statement.lt_start_of_first (first s hs) (listed s hs)
    have pass := maximalPass_of_ordered d.located_self whole short h behind ordered
    have applied : (applyFixes text (violations.map (·.edits))).applied =
        violations.countP (fun v => decide (v.edits ≠ [])) := by
      rw [pass.appliedCount, ← length_offered text, ← pass.offered.length_eq, List.append_nil]
    refine ⟨pass.skippedCount, applied, ⟨_, pass⟩, ?_⟩
    intro sorted
    have blanks : ∀ v ∈ violations, v.kind = .missingBlankLine := by
      intro v hv
      cases hkind : v.kind with
      | wrongOrder => exact absurd hkind (ordered v hv)
      | missingBlankLine => rfl
      | wrongMemberOrder => exact absurd hkind (sorted v hv)
    have clean := checkStatements_spaced h blanks
    refine ⟨?_, ?_, ?_, clean, ?_⟩
    · intro v hv
      exact ⟨blanks v hv, (crowded_of_kind h hv (blanks v hv)).1.starts⟩
    · rw [applied, List.countP_eq_length]
      intro v hv
      exact decide_eq_true (edits_ne_nil_of_blank h blanks hv)
    · exact text_of_blanks h blanks whole ending
        (takenFixes_of_ordered d.located_self whole short h behind ordered) pass
    · intro collect reads
      rw [survey, reads]
      simp only [Document.collection]
      rw [show (d.spaced (reportedAt violations)).newline = d.newline from rfl, clean]

/-- A group starts right below another one, with a statement whose names are not sorted. -/
def Document.unspaced : Document where
  newline := .lf
  chunks :=
    [.item ⟨"os", "import ".toList, none, [⟨"os", "os".toList, []⟩]⟩,
      .item ⟨"q", "from q import ".toList, none, [⟨"d", ['d'], [',', ' ']⟩, ⟨"c", ['c'], []⟩]⟩]

/-- The same with one name, and another statement of the group below. -/
def Document.parted : Document where
  newline := .lf
  chunks :=
    [.item ⟨"os", "import ".toList, none, [⟨"os", "os".toList, []⟩]⟩,
      .item ⟨"q", "from q import ".toList, none, [⟨"c", ['c'], []⟩]⟩, .line ['#'],
      .item ⟨"r", "import ".toList, none, [⟨"r", ['r'], []⟩]⟩]

/-- The first text lacks its last line break. The second document is read line by line. -/
theorem ordered_pass_mends_all_parted :
    (∃ violations, checkStatements .systemFirst ['\n'] Document.unspaced.statements =
        .ok violations ∧
      violations.map (fun v => (v.kind, v.index)) =
        [(.missingBlankLine, 1), (.wrongMemberOrder, 1)] ∧
      ∃ applied, MaximalPass "import os\nfrom q import d, c".toList violations
        ⟨"import os\n\nfrom q import c, d".toList, 2, 0⟩ applied []) ∧
    ∃ violations, checkStatements .systemFirst ['\n'] Document.parted.statements =
        .ok violations ∧
      Mended .parted .systemFirst [] violations
        ⟨"import os\n\nfrom q import c\n#\nimport r\n".toList, 1, 0⟩ ∧
      (survey (lineCollector Document.parted.items) .systemFirst
        "import os\n\nfrom q import c\n#\nimport r\n".toList).map (·.2) = .ok [] := by
  refine ⟨?_, ?_⟩
  · obtain ⟨violations, h, found⟩ := exists_checked_systemFirst ['\n']
      Document.unspaced.statements
      (fun violations => (violations.map (fun v => (v.kind, v.index)),
        applyFixes "import os\nfrom q import d, c".toList (violations.map (·.edits))))
      (show _ = ([(.missingBlankLine, 1), (.wrongMemberOrder, 1)],
        ⟨"import os\n\nfrom q import c, d".toList, 2, 0⟩) by cbv)
    have pass := (ordered_pass_mends_all .unspaced .systemFirst
      "import os\nfrom q import d, c".toList ['\n'] (by decide) (.inr rfl) (by decide)
      (by decide)).2 violations h
    obtain ⟨reports, outcome⟩ := Prod.mk.inj found
    have ordered : ∀ p ∈ violations.map (fun v => (v.kind, v.index)), p.1 ≠ .wrongOrder := by
      rw [reports]
      decide
    rw [List.forall_mem_map] at ordered
    obtain ⟨applied, pass⟩ := (pass ordered).2.2.1
    exact ⟨violations, h, reports, applied, outcome ▸ pass⟩
  · obtain ⟨violations, h, found⟩ := exists_checked_systemFirst ['\n'] Document.parted.statements
      (fun violations => (violations.map (fun v => (v.kind, v.index)),
        applyFixes Document.parted.text (violations.map (·.edits))))
      (show _ = ([(.missingBlankLine, 1)],
        ⟨"import os\n\nfrom q import c\n#\nimport r\n".toList, 1, 0⟩) by cbv)
    have pass := (ordered_pass_mends_all .parted .systemFirst Document.parted.text []
      (List.append_nil _) (.inl rfl) (by decide) (by decide)).2 violations h
    obtain ⟨reports, outcome⟩ := Prod.mk.inj found
    have ordered : ∀ p ∈ violations.map (fun v => (v.kind, v.index)), p.1 ≠ .wrongOrder := by
      rw [reports]
      decide
    have sorted : ∀ p ∈ violations.map (fun v => (v.kind, v.index)), p.1 ≠ .wrongMemberOrder := by
      rw [reports]
      decide
    rw [List.forall_mem_map] at ordered sorted
    have mended := (pass ordered).2.2.2 sorted
    rw [outcome] at mended
    have starts : reportedAt violations = fun n => 1 == n := by
      funext n
      simpa [reportedAt, List.any_map, Function.comp_def] using
        congrArg (fun l : List (Kind × Nat) => l.any fun p => p.2 == n) reports
    have reads : lineCollector Document.parted.items
        "import os\n\nfrom q import c\n#\nimport r\n".toList =
          some (Document.parted.spaced (reportedAt violations)).collection := by
      refine (congrArg _ ((List.append_nil _).symm.trans mended.spaced)).trans ?_
      apply lineCollector_text rfl
      rw [starts]
      decide
    exact ⟨violations, h, mended, congrArg (Except.map (·.2)) (mended.surveyed _ reads)⟩

end ImportOrder
