import ImportOrder.Proofs.Splice

/-!
Edits carried out one at a time. From the last to the first, each edit finds in its place what it
was planned for, since the edits before it changed only the text behind. Merging the edits of one fix
and splicing the fixes of a pass into the text do the same in one go.
-/

namespace ImportOrder

/-- No character is in both spans; an empty one may stand at either end of the other. -/
def Span.Apart (a b : Span) : Prop := a.stop ≤ b.start ∨ b.stop ≤ a.start

theorem Span.Apart.symm {a b : Span} (h : a.Apart b) : b.Apart a := Or.symm h

instance (a b : Span) : Decidable (a.Apart b) :=
  inferInstanceAs (Decidable (a.stop ≤ b.start ∨ b.stop ≤ a.start))

namespace Edit

def replaceIn (e : Edit) (text : Text) : Text :=
  text.take e.span.start ++ e.text ++ text.drop e.span.stop

/-- An edit that starts in the text or at its end; it may reach further. -/
structure Planned (text : Text) (e : Edit) : Prop where
  inside : e.span.start ≤ text.length
  ordered : e.span.start ≤ e.span.stop

instance (text : Text) (e : Edit) : Decidable (e.Planned text) :=
  decidable_of_iff (e.span.start ≤ text.length ∧ e.span.start ≤ e.span.stop)
    ⟨fun h => ⟨h.1, h.2⟩, fun h => ⟨h.inside, h.ordered⟩⟩

/-! ### From the last to the first -/

/-- In front of `lo` the text stays as it is, behind it the edits are spliced in. -/
theorem foldr_replaceIn {text : Text} {edits : List Edit} {lo : Nat}
    (planned : ∀ e ∈ edits, e.Planned text)
    (apart : edits.Pairwise fun a b => a.span.stop ≤ b.span.start)
    (ahead : ∀ e ∈ edits, lo ≤ e.span.start) :
    edits.foldr replaceIn text = text.take lo ++ splice text lo edits := by
  induction edits generalizing lo with
  | nil => exact (List.take_append_drop lo text).symm
  | cons e rest ih =>
      obtain ⟨inside, ordered⟩ := planned e List.mem_cons_self
      obtain ⟨hnext, apart'⟩ := List.pairwise_cons.mp apart
      have hrest := ih (fun a ha => planned a (List.mem_cons_of_mem e ha)) apart' hnext
      have htake : (rest.foldr replaceIn text).take e.span.start = text.take e.span.start := by
        rw [hrest, List.take_append_of_le_length (by simp [inside, ordered]), List.take_take,
          Nat.min_eq_left ordered]
      have hdrop : (rest.foldr replaceIn text).drop e.span.stop = splice text e.span.stop rest := by
        cases rest with
        | nil => rfl
        | cons a more =>
            -- The next edit starts in the text, so this one ends there.
            have hstop : e.span.stop ≤ text.length :=
              (hnext a List.mem_cons_self).trans (planned a (by simp)).inside
            rw [hrest, List.drop_left' (List.length_take_of_le hstop)]
      rw [List.foldr_cons, replaceIn, htake, hdrop, splice,
        ← Text.take_append_cut (ahead e List.mem_cons_self)]
      simp only [List.append_assoc]

theorem splice_eq_foldr {text : Text} {edits : List Edit} (planned : ∀ e ∈ edits, e.Planned text)
    (apart : edits.Pairwise fun a b => a.span.stop ≤ b.span.start) :
    splice text 0 edits = edits.foldr replaceIn text := by
  rw [foldr_replaceIn planned apart fun _ _ => Nat.zero_le _]
  rfl

/-! ### Merging -/

theorem le_foldl_stop (edits : List Edit) (n : Nat) :
    n ≤ edits.foldl (fun n e => max n e.span.stop) n := by
  induction edits generalizing n with
  | nil => exact le_rfl
  | cons e rest ih => exact (le_max_left n e.span.stop).trans (ih _)

/-- What is stitched together ends where the furthest edit does. -/
theorem stitch_append_drop {text : Text} {edits : List Edit} {cursor : Nat}
    (ordered : ∀ e ∈ edits, e.span.start ≤ e.span.stop)
    (apart : edits.Pairwise fun a b => a.span.stop ≤ b.span.start)
    (ahead : ∀ e ∈ edits, cursor ≤ e.span.start) :
    stitch text cursor edits ++ text.drop (edits.foldl (fun n e => max n e.span.stop) cursor) =
      splice text cursor edits := by
  induction edits generalizing cursor with
  | nil => rfl
  | cons e rest ih =>
      obtain ⟨hnext, apart'⟩ := List.pairwise_cons.mp apart
      have hstop : max cursor e.span.stop = e.span.stop :=
        max_eq_right ((ahead e List.mem_cons_self).trans (ordered e List.mem_cons_self))
      have hrest := ih (fun a ha => ordered a (List.mem_cons_of_mem e ha)) apart' hnext
      rw [stitch, List.foldl_cons, hstop, splice, List.append_assoc, hrest]

theorem mem_sort {edits : List Edit} {e : Edit} : e ∈ sort edits ↔ e ∈ edits := List.mem_mergeSort

theorem sort_sorted (edits : List Edit) : (sort edits).Pairwise fun a b => a.le b = true := by
  apply List.pairwise_mergeSort
  · intro a b c
    exact le_trans
  · exact le_total

/-- In order, edits that share no character follow each other. -/
theorem pairwise_sort {edits : List Edit} (ordered : ∀ e ∈ edits, e.span.start ≤ e.span.stop)
    (apart : edits.Pairwise fun a b => a.span.Apart b.span) :
    (sort edits).Pairwise fun a b => a.span.stop ≤ b.span.start := by
  have apart' : (sort edits).Pairwise fun a b => a.span.Apart b.span :=
    ((List.mergeSort_perm edits le).pairwise_iff fun h => h.symm).mpr apart
  refine ((sort_sorted edits).and apart').imp_of_mem ?_
  intro a b ha hb h
  have hle := le_iff.mp h.1
  have := ordered a (mem_sort.mp ha)
  have := ordered b (mem_sort.mp hb)
  rcases h.2 with h | h <;> omega

theorem merge_inside {text : Text} {edits : List Edit} {m : Edit}
    (planned : ∀ e ∈ edits, e.Planned text) (h : merge text edits = some m) :
    m.span.start ≤ m.span.stop ∧ m.span.stop ≤ text.length := by
  unfold merge at h
  split at h
  · cases h
  · next first rest hsort =>
      cases h
      obtain ⟨inside, ordered⟩ := planned first (mem_sort.mp (hsort ▸ List.mem_cons_self))
      have hreach : first.span.stop ≤ reach (first :: rest) := by
        rw [reach, List.foldl_cons, Nat.zero_max]
        exact le_foldl_stop rest _
      exact ⟨le_min (ordered.trans hreach) inside, min_le_right _ _⟩

/-- Where its edits share no character, the merged edit splices them into the text. -/
theorem replaceIn_merge {text : Text} {edits : List Edit} {m : Edit}
    (planned : ∀ e ∈ edits, e.Planned text)
    (apart : edits.Pairwise fun a b => a.span.Apart b.span) (h : merge text edits = some m) :
    m.replaceIn text = splice text 0 (sort edits) := by
  have ordered : ∀ e ∈ sort edits, e.span.start ≤ e.span.stop :=
    fun e he => (planned e (mem_sort.mp he)).ordered
  have follow := pairwise_sort (fun e he => (planned e he).ordered) apart
  unfold merge at h
  generalize sort edits = sorted at h ordered follow
  cases sorted with
  | nil => cases h
  | cons first rest =>
      cases h
      have hfirst := ordered first List.mem_cons_self
      have ahead : ∀ e ∈ first :: rest, first.span.start ≤ e.span.start := by
        rw [List.forall_mem_cons]
        refine ⟨le_rfl, fun e he => ?_⟩
        exact hfirst.trans ((List.pairwise_cons.mp follow).1 e he)
      have hreach : reach (first :: rest) =
          (first :: rest).foldl (fun n e => max n e.span.stop) first.span.start := by
        rw [reach, List.foldl_cons, List.foldl_cons, Nat.zero_max, max_eq_right hfirst]
      have hskip : splice text 0 (first :: rest) =
          text.cut 0 first.span.start ++ splice text first.span.start (first :: rest) :=
        splice_skip (Nat.zero_le _) (by simp)
      rw [replaceIn, ← List.drop_eq_drop_min, hreach, List.append_assoc,
        stitch_append_drop ordered follow ahead, hskip]
      rfl

end Edit

/-- Merging edits that share no character gives one edit inside the text. It does what the edits do
one at a time from the last to the first, in the order of their spans and, where two insertions stand
at the same place, in the order they were given. -/
theorem merged_edit_does_all (text : Text) (edits : List Edit) (nonempty : edits ≠ [])
    (planned : ∀ e ∈ edits, e.Planned text)
    (apart : edits.Pairwise fun a b => a.span.Apart b.span) :
    ∃ m, Edit.merge text edits = some m ∧
      m.span.start ≤ m.span.stop ∧ m.span.stop ≤ text.length ∧
      m.replaceIn text =
        (edits.mergeSort fun a b => a.span.le b.span).foldr Edit.replaceIn text := by
  obtain ⟨m, hm⟩ := Option.ne_none_iff_exists'.mp (mt (merge_eq_none_iff text).mp nonempty)
  obtain ⟨ordered, inside⟩ := Edit.merge_inside planned hm
  refine ⟨m, hm, ordered, inside, ?_⟩
  rw [Edit.replaceIn_merge planned apart hm]
  exact Edit.splice_eq_foldr (fun e he => planned e (Edit.mem_sort.mp he))
    (Edit.pairwise_sort (fun e he => (planned e he).ordered) apart)

/-- Two insertions at one place, a replacement between insertions, and a deletion that reaches past
the end of a text of ten characters, behind another insertion. -/
def Edit.touching : List Edit :=
  [⟨⟨7, 12⟩, []⟩, ⟨⟨2, 2⟩, ['x']⟩, ⟨⟨4, 4⟩, ['z']⟩, ⟨⟨2, 4⟩, ['a', 'b']⟩, ⟨⟨2, 2⟩, ['y']⟩,
    ⟨⟨7, 7⟩, ['q']⟩]

theorem merged_edit_does_all_touching :
    (∀ e ∈ Edit.touching, e.Planned "0123456789".toList) ∧
      (Edit.touching.Pairwise fun a b => a.span.Apart b.span) ∧
      ∃ m, Edit.merge "0123456789".toList Edit.touching = some m ∧
        m = ⟨⟨2, 10⟩, "xyabz456q".toList⟩ ∧
        m.replaceIn "0123456789".toList =
          (Edit.touching.mergeSort fun a b => a.span.le b.span).foldr Edit.replaceIn
            "0123456789".toList := by
  have planned : ∀ e ∈ Edit.touching, e.Planned "0123456789".toList := by decide
  have apart : Edit.touching.Pairwise fun a b => a.span.Apart b.span := by decide
  obtain ⟨m, hm, -, -, same⟩ := merged_edit_does_all "0123456789".toList Edit.touching (by decide)
    planned apart
  have merged : Edit.merge "0123456789".toList Edit.touching =
      some ⟨⟨2, 10⟩, "xyabz456q".toList⟩ := by cbv
  exact ⟨planned, apart, m, hm, Option.some_injective _ (hm.symm.trans merged), same⟩

/-! ### The fixes of a pass -/

namespace Edit

/-- Is a place in none of the spans that edits replace? -/
def clear (edits : List Edit) (n : Nat) : Bool :=
  edits.all fun e => decide (n < e.span.start) || decide (e.span.stop ≤ n)

/-- The characters of a text that are in none of the spans that edits replace. -/
def outside (text : Text) (edits : List Edit) : Text :=
  (text.zipIdx.filter fun p => clear edits p.2).map Prod.fst

/-- Splicing keeps the characters behind `cursor` that are in no span. -/
theorem outside_sublist_splice {text : Text} {edits : List Edit} {cursor : Nat}
    (inside : ∀ e ∈ edits, e.span.start ≤ e.span.stop ∧ e.span.stop ≤ text.length)
    (apart : edits.Pairwise fun a b => a.span.stop ≤ b.span.start)
    (ahead : ∀ e ∈ edits, cursor ≤ e.span.start) :
    ((((text.drop cursor).zipIdx cursor).filter fun p => clear edits p.2).map Prod.fst).Sublist
      (splice text cursor edits) := by
  induction edits generalizing cursor with
  | nil => simp [splice, clear]
  | cons e rest ih =>
      obtain ⟨hle, hlen⟩ := inside e List.mem_cons_self
      obtain ⟨hnext, apart'⟩ := List.pairwise_cons.mp apart
      have hstart := ahead e List.mem_cons_self
      have hgap : cursor + (text.cut cursor e.span.start).length = e.span.start := by
        simp only [Text.cut, List.length_take, List.length_drop]
        omega
      have hspan : e.span.start + (text.cut e.span.start e.span.stop).length = e.span.stop := by
        simp only [Text.cut, List.length_take, List.length_drop]
        omega
      rw [← Text.cut_append_drop hstart, ← Text.cut_append_drop hle, List.zipIdx_append, hgap,
        List.zipIdx_append, hspan, List.filter_append, List.filter_append, List.map_append,
        List.map_append, splice, List.append_assoc]
      have hbefore : ((((text.cut cursor e.span.start).zipIdx cursor).filter fun p =>
          clear (e :: rest) p.2).map Prod.fst).Sublist (text.cut cursor e.span.start) := by
        conv_rhs => rw [← List.zipIdx_map_fst cursor (text.cut cursor e.span.start)]
        exact List.filter_sublist.map Prod.fst
      have hreplaced : ((text.cut e.span.start e.span.stop).zipIdx e.span.start).filter
          (fun p => clear (e :: rest) p.2) = [] := by
        rw [List.filter_eq_nil_iff]
        intro p hp
        have := List.mem_zipIdx hp
        simp only [clear, List.all_cons, Bool.and_eq_true, Bool.or_eq_true, decide_eq_true_eq]
        omega
      have hbehind : ((text.drop e.span.stop).zipIdx e.span.stop).filter
          (fun p => clear (e :: rest) p.2) =
          ((text.drop e.span.stop).zipIdx e.span.stop).filter fun p => clear rest p.2 := by
        apply List.filter_congr
        intro p hp
        have := (List.mem_zipIdx hp).1
        simp [clear, this]
      rw [hreplaced, hbehind]
      refine hbefore.append ((List.nil_sublist _).append ?_)
      exact ih (fun a ha => inside a (List.mem_cons_of_mem e ha)) apart' hnext

end Edit

/-- What comes of a pass that is offered `violations`: the fixes in `applied` are carried out, those
in `skipped` are left for another pass. -/
structure MaximalPass (text : Text) (violations : List Violation) (outcome : Outcome)
    (applied skipped : List (Violation × Edit)) : Prop where
  /-- Each violation that has edits is there once, with its merged edit. -/
  offered : (applied ++ skipped).Perm
    (violations.filterMap fun v => (Edit.merge text v.edits).map (v, ·))
  appliedCount : outcome.applied = applied.length
  skippedCount : outcome.skipped = skipped.length
  inside : ∀ f ∈ applied, f.2.span.start ≤ f.2.span.stop ∧ f.2.span.stop ≤ text.length
  apart : applied.Pairwise fun f g => f.2.span.stop < g.2.span.start
  spliced : outcome.text = (applied.map (·.2)).foldr Edit.replaceIn text
  kept : (Edit.outside text (applied.map (·.2))).Sublist outcome.text
  /-- What is skipped starts inside a span that is replaced, or at its end. -/
  reached : ∀ f ∈ skipped, ∃ g ∈ applied,
    g.2.span.start ≤ f.2.span.start ∧ f.2.span.start ≤ g.2.span.stop

section Passes

variable {text : Text} {violations : List Violation}

theorem length_offered (text : Text) (violations : List Violation) :
    (violations.filterMap fun v => (Edit.merge text v.edits).map (v, ·)).length =
      violations.countP fun v => decide (v.edits ≠ []) := by
  rw [List.length_filterMap_eq_countP]
  apply List.countP_congr
  intro v _
  rw [Option.isSome_map, Option.isSome_iff_ne_none, ne_eq, merge_eq_none_iff, decide_eq_true_eq]

theorem applyFixes_skipped (text : Text) (violations : List Violation) :
    (applyFixes text (violations.map (·.edits))).skipped =
      (Edit.passedOver (·.2) none (mergedFixes text violations)).length := by
  have htaken := applyFixes_applied text violations
  have hlength := congrArg List.length (map_mergedFixes text violations)
  have hperm := (Edit.selectBy_append_passedOver_perm (fun f : Violation × Edit => f.2) none
    (mergedFixes text violations)).length_eq
  rw [List.length_append] at hperm
  rw [List.length_map] at hlength
  simp only [applyFixes, ← hlength] at htaken ⊢
  rw [htaken, takenFixes]
  omega

theorem maximalPass (inside : ∀ f ∈ mergedFixes text violations,
      f.2.span.start ≤ f.2.span.stop ∧ f.2.span.stop ≤ text.length) :
    MaximalPass text violations (applyFixes text (violations.map (·.edits)))
      (takenFixes text violations) (Edit.passedOver (·.2) none (mergedFixes text violations)) := by
  have inside : ∀ f ∈ takenFixes text violations,
      f.2.span.start ≤ f.2.span.stop ∧ f.2.span.stop ≤ text.length :=
    fun f hf => inside f (mem_mergedFixes_of_taken hf)
  have apart : (takenFixes text violations).Pairwise
      fun f g => f.2.span.stop < g.2.span.start :=
    Edit.pairwise_of_isChain _ (fun f hf => (inside f hf).1) (Edit.isChain_selectBy_none _ _)
  have follow : ((takenFixes text violations).map (·.2)).Pairwise
      fun a b => a.span.stop ≤ b.span.start :=
    List.pairwise_map.mpr (apart.imp Nat.le_of_lt)
  have inside' : ∀ e ∈ (takenFixes text violations).map (·.2),
      e.span.start ≤ e.span.stop ∧ e.span.stop ≤ text.length :=
    List.forall_mem_map.mpr inside
  refine ⟨?_, applyFixes_applied _ _, applyFixes_skipped _ _, inside, apart, ?_, ?_, ?_⟩
  · exact (Edit.selectBy_append_passedOver_perm _ _ _).trans (List.mergeSort_perm _ _)
  · rw [applyFixes_text]
    refine Edit.splice_eq_foldr (fun e he => ?_) follow
    obtain ⟨hle, hlen⟩ := inside' e he
    exact ⟨hle.trans hlen, hle⟩
  · rw [applyFixes_text]
    exact Edit.outside_sublist_splice inside' follow fun _ _ => Nat.zero_le _
  · intro f hf
    rcases Edit.reached_of_passedOver _ (mergedFixes_sorted text violations) hf with
      ⟨_, ⟨⟩, -⟩ | ⟨g, taken, hle, hreach⟩
    refine ⟨g, taken, ?_, hreach⟩
    rw [Edit.le_iff] at hle
    omega

end Passes

/-- A pass over any text carries out as many of the fixes as do not get in each other's way. -/
theorem pass_is_maximal (text : Text) (violations : List Violation)
    (planned : ∀ v ∈ violations, ∀ e ∈ v.edits, e.Planned text) :
    (applyFixes text (violations.map (·.edits))).applied +
        (applyFixes text (violations.map (·.edits))).skipped =
      violations.countP (fun v => decide (v.edits ≠ [])) ∧
    ((∃ v ∈ violations, v.edits ≠ []) →
      0 < (applyFixes text (violations.map (·.edits))).applied) ∧
    ∃ applied skipped, MaximalPass text violations
      (applyFixes text (violations.map (·.edits))) applied skipped := by
  have pass : MaximalPass text violations _ _ _ := maximalPass fun f hf => by
    obtain ⟨hv, he⟩ := mem_mergedFixes.mp hf
    exact Edit.merge_inside (planned f.1 hv) he
  refine ⟨?_, ?_, _, _, pass⟩
  · rw [pass.appliedCount, pass.skippedCount, ← List.length_append, pass.offered.length_eq,
      length_offered]
  · rintro ⟨v, hv, hedits⟩
    obtain ⟨e, he⟩ := Option.ne_none_iff_exists'.mp (mt (merge_eq_none_iff text).mp hedits)
    rw [pass.appliedCount, List.length_pos_iff, ne_eq, takenFixes_eq_nil_iff]
    exact List.ne_nil_of_mem ((mem_mergedFixes (f := (v, e))).mpr ⟨hv, he⟩)

/-- Some edits as the fix of a violation of an empty statement. -/
def Violation.carrying (edits : List Edit) : Violation :=
  { index := 0
    statement := ⟨"", [], [], ⟨1, 0⟩, ⟨1, 0⟩, ⟨0, 0⟩⟩
    fault := .missingBlankLine
    edits }

/-- Of five fixes the one merged from two edits leaves no room for the one inside it and for the
insertion at its end; one violation has no edits. -/
def Violation.crowded : List Violation :=
  [[⟨⟨7, 9⟩, ['z']⟩], [⟨⟨3, 3⟩, ['y']⟩], [], [⟨⟨2, 3⟩, []⟩, ⟨⟨0, 0⟩, ['x']⟩], [⟨⟨1, 2⟩, ['w']⟩],
    [⟨⟨4, 4⟩, ['v']⟩]].map carrying

theorem pass_is_maximal_crowded :
    (∀ v ∈ Violation.crowded, ∀ e ∈ v.edits, e.Planned "abcdefgh".toList) ∧
      ∃ applied skipped, MaximalPass "abcdefgh".toList Violation.crowded
        ⟨"xabdvefgz".toList, 3, 2⟩ applied skipped := by
  have planned : ∀ v ∈ Violation.crowded, ∀ e ∈ v.edits, e.Planned "abcdefgh".toList := by decide
  obtain ⟨-, -, applied, skipped, pass⟩ := pass_is_maximal _ _ planned
  have outcome : applyFixes "abcdefgh".toList (Violation.crowded.map (·.edits)) =
      ⟨"xabdvefgz".toList, 3, 2⟩ := by cbv
  exact ⟨planned, applied, skipped, outcome ▸ pass⟩

end ImportOrder
