import ImportOrder.Proofs.LetterImports
import ImportOrder.Proofs.ReportDirection
import ImportOrder.Proofs.Ties

/-!
The first move of a pass. A move goes in front of the smallest larger key, wherever that stands, so
it may take a statement past a smaller one. The first one in the text does not: a statement on its
way with a smaller key than the one it goes in front of would have to move as well, to the same
place or further up. So that move only mends pairs that are out of order. All this is about the
moves on offer; it holds of those that are carried out if no sorting of names starts where a
statement starts, since that would keep the moves to its place from being carried out.
-/

namespace ImportOrder

/-! ### Pairs out of order -/

section Inversions

variable {K : Type} [LinearOrder K] {passed : List K} {k : K}

/-- How many pairs of a list are out of order. -/
def inversions : List K → Nat
  | [] => 0
  | k :: rest => rest.countP (fun m => decide (m < k)) + inversions rest

theorem inversions_pass (back : List K) (above : ∀ m ∈ passed, k < m) :
    inversions (k :: (passed ++ back)) + passed.length = inversions (passed ++ k :: back) := by
  induction passed with
  | nil => rfl
  | cons m passed ih =>
      obtain ⟨hm, above⟩ := List.forall_mem_cons.mp above
      have hpassed := ih above
      -- The two are one more pair out of order while `m` stands first.
      have hcount : (passed ++ k :: back).countP (fun n => decide (n < m)) =
          (passed ++ back).countP (fun n => decide (n < m)) + 1 := by
        rw [List.perm_middle.countP_eq, List.countP_cons_of_pos (by simpa using hm)]
      have hnone : (m :: (passed ++ back)).countP (fun n => decide (n < k)) =
          (passed ++ back).countP fun n => decide (n < k) :=
        List.countP_cons_of_neg (by simpa using hm.le)
      simp only [List.cons_append, inversions, List.length_cons, hcount, hnone] at hpassed ⊢
      omega

theorem inversions_move_up (front back : List K) (above : ∀ m ∈ passed, k < m) :
    inversions (front ++ k :: (passed ++ back)) + passed.length =
      inversions (front ++ (passed ++ k :: back)) := by
  induction front with
  | nil => exact inversions_pass back above
  | cons m front ih =>
      have hperm : (front ++ k :: (passed ++ back)).Perm (front ++ (passed ++ k :: back)) :=
        List.perm_middle.symm.append_left front
      simp only [List.cons_append, inversions, hperm.countP_eq]
      omega

theorem inversions_moved_lt {α : Type} {key : α → K} {l : List α} {i j : Nat} {x : α} (hji : j < i)
    (hx : l[i]? = some x)
    (above : ∀ n y, j ≤ n → n < i → l[n]? = some y → key x < key y) :
    inversions ((moved l i j).map key) < inversions (l.map key) := by
  obtain ⟨front, passed, back, rfl, rfl, rfl, hmoved⟩ := exists_passed hji.le hx
  have habove : ∀ m ∈ passed.map key, key x < m := by
    intro m hm
    obtain ⟨y, hy, rfl⟩ := List.mem_map.mp hm
    obtain ⟨n, hn⟩ := List.getElem?_of_mem hy
    have hlt := (List.getElem?_eq_some_iff.mp hn).1
    have hy : (front ++ (passed ++ x :: back))[front.length + n]? = some y := by
      rw [List.getElem?_append_right (Nat.le_add_right _ _), Nat.add_sub_cancel_left,
        List.getElem?_append_left hlt, hn]
    exact above (front.length + n) y (by omega) (by omega) hy
  have hcount := inversions_move_up (front.map key) (back.map key) habove
  simp only [hmoved, List.map_append, List.map_cons, List.length_map] at hcount ⊢
  omega

end Inversions

/-! ### What stands on the way -/

namespace Placed

variable {policy : Policy} {items : List Placed} {i j : Nat} {b : Placed}

/-- If nothing in front of `i` is to move further up than `j`, or to `j` itself, no key between the
two is smaller than the one at `j`. -/
theorem key_le_of_leading (on : policy.ignoreInGroupSort = false)
    (pure : ∀ a ∈ items, ∀ c ∈ items, a.placement.group = c.placement.group →
      (a.placement.sub.isSome ↔ c.placement.sub.isSome))
    (leading : ∀ l < i, ∀ t, Wants policy items l t → j < t) (hb : items[j]? = some b) (l : Nat)
    (hjl : j ≤ l) (hli : l < i) (c : Placed) (hc : items[l]? = some c) :
    b.key policy ≤ c.key policy := by
  induction l using Nat.strong_induction_on generalizing c with
  | _ l ih =>
      rcases hjl.eq_or_lt with rfl | hjl
      · rw [Option.some_injective _ (hb.symm.trans hc)]
      · by_contra hlt
        obtain ⟨k, wants, hk⟩ := exists_wants hjl hc hb on (pure c (List.mem_of_getElem? hc))
          (not_le.mp hlt)
        have hjk := leading l hli k wants
        have hkl := wants.before
        -- The target of a smaller key between the two would be a smaller key between them.
        obtain ⟨z, hz⟩ : ∃ z, items[k]? = some z :=
          ⟨_, List.getElem?_eq_getElem (hkl.trans (List.getElem?_eq_some_iff.mp hc).1)⟩
        have hless := hk.resolve_left hjk.not_ge z hz
        exact (ih k hkl hjk.le (hkl.trans hli) z hz).not_gt hless

end Placed

/-! ### The first move of a pass -/

theorem Violation.exists_move {v : Violation} (h : v.kind = .wrongOrder) :
    ∃ j, v.fix = .move j v.index := by
  unfold kind at h
  unfold fix
  split at h <;> simp_all

theorem Fix.Edits.stop_lt_start {newline text : Text} {row : List Piece} {i j k : Nat} {e f : Edit}
    (broken : 0 < newline.length) (led : ∀ x, (k, x) ∈ Piece.items row → x.lead ≠ [])
    (h : (Fix.sort k).Edits newline text row e) (h' : (Fix.move j i).Edits newline text row f)
    (hle : e.span.start ≤ f.span.start) : e.span.stop < f.span.start := by
  cases h with
  | @sort pre _ x post names split written =>
      cases h' with
      | @move pre' _ y mid _ z post' split' =>
          have hlead := List.length_pos_of_ne_nil (led x (by simp [split, Piece.items]))
          have hstop := x.stop_le
          simp only at hle ⊢
          obtain ⟨skip, rfl, hskip⟩ := Piece.exists_skip newline (split.symm.trans split') (by
            simp only [Piece.size_append, Piece.size_cons]
            omega)
          cases skip with
          | nil =>
              simp only [List.append_nil] at hle
              omega
          | cons p more =>
              obtain ⟨rfl, -⟩ := List.cons.inj hskip
              simp only [Piece.size_append, Piece.size_cons, Piece.chunk, Chunk.body] at hle ⊢
              omega

section Taken

variable {d : Document} {policy : Policy} {statements : List Statement} {text tail : Text}
variable {violations : List Violation} {f : Violation × Edit} {v : Violation} {e : Edit}
variable {r s : Statement} {i j l t : Nat}
variable (located : d.Located statements)
variable (h : checkStatements policy d.newline.text statements = .ok violations)
variable (written : d.Written text tail)
variable (behind : ∀ x ∈ d.items, policy.ignoreMembersSort = false → x.Unsorted → x.lead ≠ [])

include located h behind in
theorem lead_ne_nil_of_edits (hv : v ∈ violations) (he : Edit.merge text v.edits = some e) {k : Nat}
    (hfix : v.fix = .sort k) (x : Item) (hx : (k, x) ∈ Piece.items d.pieces) : x.lead ≠ [] := by
  obtain ⟨rfl, hkind⟩ := Violation.fix_eq_sort.mp hfix
  have hitem := Document.mem_items_pieces.mp hx
  have hedits : v.edits ≠ [] := by
    intro hnil
    rw [hnil, (merge_eq_none_iff text).mpr rfl] at he
    cases he
  obtain ⟨sorts, unsorted⟩ := unsorted_of_edits located h hv hkind hedits hitem
  exact behind x (List.mem_of_getElem? hitem) sorts unsorted

include located h written behind in
theorem exists_taken_le (hf : f ∈ mergedFixes text (passFixes violations))
    (hkind : f.1.kind = .wrongOrder) :
    ∃ g ∈ takenFixes text (passFixes violations),
      g.1.kind = .wrongOrder ∧ g.2.le f.2 = true := by
  rcases mem_takenFixes_or_reached hf with taken | ⟨g, taken, hle, hreach⟩
  · exact ⟨f, taken, hkind, Edit.le_iff.mpr (.inr ⟨rfl, le_rfl⟩)⟩
  · refine ⟨g, taken, ?_, hle⟩
    obtain ⟨hv, he⟩ := mem_mergedFixes.mp hf
    obtain ⟨hw, he'⟩ := mem_mergedFixes.mp (mem_mergedFixes_of_taken taken)
    have hmove := edits_of_mem located written.whole written.short h (mem_of_mem_passFixes hv) he
    have hfix := edits_of_mem located written.whole written.short h (mem_of_mem_passFixes hw) he'
    cases hkind' : g.1.kind with
    | wrongOrder => rfl
    | missingBlankLine =>
        exact absurd hkind' (kind_ne_of_mem_passFixes hw (mem_of_mem_passFixes hv) hkind)
    | wrongMemberOrder =>
        obtain ⟨j, hj⟩ := Violation.exists_move hkind
        rw [hj] at hmove
        have hsort : g.1.fix = .sort g.1.index := Violation.fix_eq_sort.mpr ⟨rfl, hkind'⟩
        have led := lead_ne_nil_of_edits located h behind (mem_of_mem_passFixes hw) he' hsort
        rw [hsort] at hfix
        have hstart : g.2.span.start ≤ f.2.span.start := by
          rcases Edit.le_iff.mp hle with hlt | ⟨heq, -⟩
          · exact hlt.le
          · exact heq.le
        have := hfix.stop_lt_start d.newline.length_pos led hmove hstart
        omega

include located h written behind in
theorem start_le_of_first_move
    (first : (takenFixes text (passFixes violations)).find? (·.1.kind == .wrongOrder) = some (v, e))
    (hf : f ∈ mergedFixes text (passFixes violations)) (hkind : f.1.kind = .wrongOrder) :
    e.span.start ≤ f.2.span.start := by
  obtain ⟨g, taken, hkind', hle⟩ := exists_taken_le located h written behind hf hkind
  obtain ⟨-, before, after, split, others⟩ := List.find?_eq_some_iff_append.mp first
  have sorted : (takenFixes text (passFixes violations)).Pairwise fun a b => a.2.le b.2 = true :=
    (mergedFixes_sorted _ _).sublist (Edit.selectBy_sublist _ _ _)
  rw [split] at sorted taken
  have hahead : e.span.start ≤ g.2.span.start := by
    rcases List.mem_append.mp taken with hbefore | hg
    · have := others g hbefore
      simp [hkind'] at this
    · rcases List.mem_cons.mp hg with rfl | hafter
      · exact le_rfl
      · have hnext := (List.pairwise_cons.mp (List.pairwise_append.mp sorted).2.1).1 g hafter
        simp only [Edit.le_iff] at hnext
        omega
  rw [Edit.le_iff] at hle
  omega

include located h written behind in
theorem exists_first_move (hv : v ∈ violations) (hkind : v.kind = .wrongOrder) :
    ∃ w e, (takenFixes text (passFixes violations)).find? (·.1.kind == .wrongOrder) =
      some (w, e) := by
  rcases (mem_of_checkStatements h).mp hv with ⟨i, j, s, r, wants, hs, hr, rfl⟩ |
    ⟨i, s, -, -, rfl⟩ | ⟨i, s, b, -, -, -, rfl⟩
  · obtain ⟨f, hf, hkind', -⟩ := exists_mergedFix text located h wants hs hr
    obtain ⟨g, taken, hg, -⟩ := exists_taken_le located h written behind hf hkind'
    obtain ⟨p, hp⟩ := Option.isSome_iff_exists.mp (List.find?_isSome
      (p := fun f : Violation × Edit => f.1.kind == .wrongOrder).mpr ⟨g, taken, by simp [hg]⟩)
    exact ⟨p.1, p.2, hp⟩
  · cases hkind
  · cases hkind

include located h written behind in
/-- Whatever stands in front of the statement that is moved first is to move less far up. -/
theorem lt_of_first_move
    (first : (takenFixes text (passFixes violations)).find? (·.1.kind == .wrongOrder) = some (v, e))
    (hfix : v.fix = .move j i) (hs : statements[i]? = some s)
    (hr : statements[j]? = some r) (hstart : e.span.start = r.span.start) (hli : l < i)
    (wants : Placed.Wants policy (policy.placed statements) l t) : j < t := by
  have hlt := wants.before
  obtain ⟨s', hs'⟩ : ∃ s', statements[l]? = some s' :=
    ⟨_, List.getElem?_eq_getElem (hli.trans (List.getElem?_eq_some_iff.mp hs).1)⟩
  obtain ⟨r', hr'⟩ : ∃ r', statements[t]? = some r' :=
    ⟨_, List.getElem?_eq_getElem (hlt.trans (List.getElem?_eq_some_iff.mp hs').1)⟩
  by_contra hjt
  rcases (not_lt.mp hjt).eq_or_lt with rfl | htj
  · -- To the same place the nearer one would move.
    refine move_notMem_carriedOut located written h wants hli ?_
    exact List.mem_map.mpr ⟨(v, e), List.mem_of_find?_eq_some first, hfix⟩
  · obtain ⟨f, hf, hkind, hspan⟩ := exists_mergedFix text located h wants hs' hr'
    have hle := start_le_of_first_move located h written behind first hf hkind
    simp only [hspan, hstart] at hle
    have hbefore := located.stop_le_start htj hr hr'
    have hordered := located.start_le_stop hr'
    have hpos := d.newline.length_pos
    omega

end Taken

/-- The first move among the fixes that a pass carries out, in the order of the text, is that of the
statement `a` to the place of `b`. It takes `a` only past such as have to stand below it. -/
structure LeadingMove (policy : Policy) (statements : List Statement) (text : Text)
    (violations : List Violation) (v : Violation) (e : Edit) (j : Nat) (a b : Placed) : Prop where
  spliced : (applyFixes text ((passFixes violations).map (·.edits))).text =
    Edit.splice text 0 ((takenFixes text (passFixes violations)).map (·.2))
  first : (takenFixes text (passFixes violations)).find? (·.1.kind == .wrongOrder) = some (v, e)
  offender : (policy.placed statements)[v.index]? = some a
  statement : v.statement = a.statement
  place : v.place = some j
  reference : v.reference = some b.statement
  named : (policy.placed statements)[j]? = some b
  before : j < v.index
  passed : ∀ l c, j ≤ l → l < v.index → (policy.placed statements)[l]? = some c →
    b.key policy ≤ c.key policy ∧ a.key policy < c.key policy
  fewer : inversions ((policy.placed (moved statements v.index j)).map (·.key policy)) <
    inversions ((policy.placed statements).map (·.key policy))

theorem Policy.placed_moved (policy : Policy) (statements : List Statement) (i j : Nat) :
    policy.placed (moved statements i j) = moved (policy.placed statements) i j :=
  map_moved _ statements i j

/-- Where something is out of order, a pass over a document moves a statement, and the first move
only mends the order. Names that are to be sorted stand behind the start of their statement. -/
theorem leading_move_improves (compile : Regex.Compiler) (data : Value) (path : Option String)
    (policy : Policy) (built : Policy.ofValue compile data path = .ok policy)
    (on : policy.ignoreInGroupSort = false)
    (free : ∀ g ∈ policy.groups, g.1 ≠ Settings.everythingElse) (d : Document)
    (statements : List Statement) (text tail : Text) (located : d.Located statements)
    (written : d.Written text tail)
    (behind : ∀ x ∈ d.items, policy.ignoreMembersSort = false → x.Unsorted → x.lead ≠ []) :
    ∃ violations, checkStatements policy d.newline.text statements = .ok violations ∧
      ((∃ v ∈ violations, v.kind = .wrongOrder) →
        ∃ v e j a b, LeadingMove policy statements text violations v e j a b) := by
  have resolved := Policy.resolved_of_ofValue built
  have h := checkStatements_of_resolved resolved d.newline.text statements
  refine ⟨_, h, ?_⟩
  rintro ⟨w, hw, hkind⟩
  obtain ⟨v, e, first⟩ := exists_first_move located h written behind hw hkind
  obtain ⟨hv, he⟩ := mem_mergedFixes.mp (mem_mergedFixes_of_taken (List.mem_of_find?_eq_some first))
  rcases (mem_of_checkStatements h).mp (mem_of_mem_passFixes hv) with
    ⟨i, j, s, r, wants, hs, hr, rfl⟩ | ⟨i, s, -, -, rfl⟩ | ⟨i, s, b, -, -, -, rfl⟩
  · obtain ⟨text', hmerge⟩ := located.merge_move text wants.before hr hs
    obtain rfl := Option.some_injective _ (hmerge.symm.trans he)
    have ha := (Policy.getElem?_placed (p := policy)).mpr ⟨s, hs, rfl⟩
    have hb := (Policy.getElem?_placed (p := policy)).mpr ⟨r, hr, rfl⟩
    have passed : ∀ l c, j ≤ l → l < i → (policy.placed statements)[l]? = some c →
        Placed.key policy ⟨r, policy.place r.source⟩ ≤ c.key policy ∧
          Placed.key policy ⟨s, policy.place s.source⟩ < c.key policy := by
      intro l c hjl hli hc
      have hle := Placed.key_le_of_leading on (resolved.pure_placed free statements)
        (fun l hli t => lt_of_first_move located h written behind first rfl hs hr rfl hli)
        hb l hjl hli c hc
      exact ⟨hle, (wants.key_lt ha hb).trans_le hle⟩
    refine ⟨_, _, j, _, _, {
      spliced := applyFixes_text _ _
      first := first
      offender := ha
      statement := rfl
      place := rfl
      reference := rfl
      named := hb
      before := wants.before
      passed := passed
      fewer := ?_ }⟩
    rw [policy.placed_moved]
    exact inversions_moved_lt wants.before ha fun l c hjl hli hc => (passed l c hjl hli hc).2
  · have := List.find?_some first
    cases this
  · have := List.find?_some first
    cases this

/-- Names `d` and `b` behind the given text, and below them five modules of which `a`, `c` and `h`
stand below others they belong above. -/
def Document.crossing (lead : Text) : Document where
  newline := .lf
  chunks :=
    .item ⟨"d", lead, none, [⟨"d", ['d'], [',', ' ']⟩, ⟨"b", ['b'], []⟩]⟩ ::
      (Document.letters "aekch".toList).chunks

/-- Of the fixes on offer the first move and the last one are carried out. The last one takes `h`
past `c`, which belongs above it; the first one takes `a` past `d` alone. -/
theorem leading_move_improves_crossing :
    ∃ violations, checkStatements .systemFirst ['\n']
        (Document.crossing "from d import ".toList).statements = .ok violations ∧
      violations.map (fun v => (v.kind, v.index, v.place)) =
        [(.wrongMemberOrder, 0, none), (.wrongOrder, 1, some 0), (.wrongOrder, 4, some 0),
          (.wrongOrder, 5, some 3)] ∧
      (takenFixes (Document.crossing "from d import ".toList).text (passFixes violations)).map
        (fun f => (f.1.index, f.1.place)) = [(1, some 0), (5, some 3)] ∧
      ∃ v e j a b, LeadingMove .systemFirst (Document.crossing "from d import ".toList).statements
        (Document.crossing "from d import ".toList).text violations v e j a b := by
  obtain ⟨violations, checked, found⟩ := exists_checked_systemFirst ['\n']
    (Document.crossing "from d import ".toList).statements
    (fun violations => (violations.map (fun v => (v.kind, v.index, v.place)),
      (takenFixes (Document.crossing "from d import ".toList).text (passFixes violations)).map
        fun f => (f.1.index, f.1.place)))
    (show _ = ([(.wrongMemberOrder, 0, none), (.wrongOrder, 1, some 0), (.wrongOrder, 4, some 0),
      (.wrongOrder, 5, some 3)], [(1, some 0), (5, some 3)]) by cbv)
  obtain ⟨violations', checked', leads⟩ := leading_move_improves Regex.compile _ none .systemFirst
    (Policy.ofValue_systemFirst _) rfl (by decide) (.crossing "from d import ".toList) _ _ [] rfl
    (Document.written_self _) (by decide)
  obtain rfl := Except.ok.inj (checked.symm.trans checked')
  obtain ⟨reports, taken⟩ := Prod.mk.inj found
  have reported : (Kind.wrongOrder, 1, some 0) ∈
      violations.map fun v => (v.kind, v.index, v.place) := by
    rw [reports]
    exact List.mem_cons_of_mem _ List.mem_cons_self
  obtain ⟨v, hv, heq⟩ := List.mem_map.mp reported
  exact ⟨violations, checked, reports, taken, leads ⟨v, hv, congrArg Prod.fst heq⟩⟩

/-- Names at the very start of their statement are sorted in place of the moves to it. The first
move that is carried out then takes `h` past `c`, and as many pairs stay out of order. -/
theorem first_move_passes_smaller :
    ∃ violations, checkStatements .systemFirst ['\n'] (Document.crossing []).statements =
        .ok violations ∧
      (takenFixes (Document.crossing []).text (passFixes violations)).map
        (fun f => (f.1.kind, f.1.index, f.1.place)) =
        [(.wrongMemberOrder, 0, none), (.wrongOrder, 5, some 3)] ∧
      inversions ((Policy.systemFirst.placed (moved (Document.crossing []).statements 5 3)).map
        (·.key .systemFirst)) =
        inversions ((Policy.systemFirst.placed (Document.crossing []).statements).map
          (·.key .systemFirst)) ∧
      ¬ ∃ v e j a b, LeadingMove .systemFirst (Document.crossing []).statements
        (Document.crossing []).text violations v e j a b := by
  obtain ⟨violations, checked, taken⟩ := exists_checked_systemFirst ['\n']
    (Document.crossing []).statements
    (fun violations => (takenFixes (Document.crossing []).text (passFixes violations)).map
        fun f => (f.1.kind, f.1.index, f.1.place))
    (show _ = [(.wrongMemberOrder, 0, none), (.wrongOrder, 5, some 3)] by cbv)
  have same : inversions ((Policy.systemFirst.placed
        (moved (Document.crossing []).statements 5 3)).map (·.key .systemFirst)) =
      inversions ((Policy.systemFirst.placed (Document.crossing []).statements).map
        (·.key .systemFirst)) := by
    simp only [Policy.placed, Policy.place_systemFirst]
    decide
  refine ⟨violations, checked, taken, same, ?_⟩
  rintro ⟨v, e, j, a, b, leads⟩
  have first : some (Kind.wrongOrder, 5, some 3) = some (v.kind, v.index, v.place) := by
    have hfind := List.find?_map (p := fun f : Kind × Nat × Option Nat => f.1 == .wrongOrder)
      (f := fun f : Violation × Edit => (f.1.kind, f.1.index, f.1.place))
      (l := takenFixes (Document.crossing []).text (passFixes violations))
    rw [taken] at hfind
    exact hfind.trans (congrArg (Option.map _) leads.first)
  have hindex : 5 = v.index := congrArg (·.2.1) (Option.some.inj first)
  have hplace : some 3 = some j := (congrArg (·.2.2) (Option.some.inj first)).trans leads.place
  have fewer := leads.fewer
  rw [← hindex, ← Option.some.inj hplace, same] at fewer
  exact fewer.false

end ImportOrder
