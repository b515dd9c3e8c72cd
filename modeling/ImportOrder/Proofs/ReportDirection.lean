import ImportOrder.Proofs.PerStatement
import ImportOrder.Proofs.StrictChecks

/-!
Where wrong-order reports point. A report names a statement further up whose combined key is larger,
whichever of the three scans made it, so moving the reported statement in front of the one it names
makes the sequence of keys smaller. The scans never make the same report twice: the first one points
out of the group, the second one out of the sub-pattern, and the third one into it.
-/

namespace ImportOrder

/-! ### Moving one element up -/

section Moving

variable {α : Type} {l : List α} {i j : Nat} {x y : α}

/-- The list with its element at `i` directly before the one at `j`. -/
def moved (l : List α) (i j : Nat) : List α :=
  l[i]?.elim l fun x => l.take j ++ x :: (l.eraseIdx i).drop j

theorem map_moved (f : α → β) (l : List α) (i j : Nat) :
    (moved l i j).map f = moved (l.map f) i j := by
  rw [moved, moved, List.getElem?_map]
  cases l[i]? with
  | none => rfl
  | some x => simp [List.map_take, List.map_drop, List.eraseIdx_map]

theorem moved_append (front passed back : List α) (x : α) :
    moved (front ++ (passed ++ x :: back)) (front.length + passed.length) front.length =
      front ++ x :: (passed ++ back) := by
  have hx : (front ++ (passed ++ x :: back))[front.length + passed.length]? = some x := by simp
  have herase : (front ++ (passed ++ x :: back)).eraseIdx (front.length + passed.length) =
      front ++ (passed ++ back) := by
    rw [List.eraseIdx_append_of_length_le (Nat.le_add_right _ _), Nat.add_sub_cancel_left,
      List.eraseIdx_append_of_length_le (le_refl _), Nat.sub_self]
    rfl
  rw [moved, hx, Option.elim_some, herase, List.take_left, List.drop_left]

/-- What an element passes on its way up. -/
theorem exists_passed (hji : j ≤ i) (hx : l[i]? = some x) :
    ∃ front passed back, l = front ++ (passed ++ x :: back) ∧ front.length = j ∧
      front.length + passed.length = i ∧ moved l i j = front ++ x :: (passed ++ back) := by
  obtain ⟨hi, rfl⟩ := List.getElem?_eq_some_iff.mp hx
  have hsplit : l = l.take j ++ ((l.drop j).take (i - j) ++ l[i] :: l.drop (i + 1)) := by
    rw [← List.drop_eq_getElem_cons hi, ← Nat.add_sub_cancel' hji, ← List.drop_drop,
      Nat.add_sub_cancel_left, List.take_append_drop, List.take_append_drop]
  have hfront : (l.take j).length = j := by
    rw [List.length_take]
    omega
  have hpassed : (l.take j).length + ((l.drop j).take (i - j)).length = i := by
    rw [hfront, List.length_take, List.length_drop]
    omega
  refine ⟨_, _, _, hsplit, hfront, hpassed, ?_⟩
  have hmoved := moved_append (l.take j) ((l.drop j).take (i - j)) (l.drop (i + 1)) l[i]
  rwa [← hsplit, hpassed, hfront] at hmoved

/-- In front of a larger key, an element makes the list of keys smaller. -/
theorem map_moved_lt {K : Type} [LinearOrder K] {key : α → K} (hji : j < i) (hx : l[i]? = some x)
    (hy : l[j]? = some y) (hlt : key x < key y) : (moved l i j).map key < l.map key := by
  obtain ⟨front, passed, back, rfl, rfl, rfl, hmoved⟩ := exists_passed hji.le hx
  rw [hmoved]
  cases passed with
  | nil => simp at hji
  | cons z passed =>
      obtain rfl : z = y := by simpa using hy
      simp only [List.map_append, List.map_cons]
      exact List.append_left_lt (List.Lex.rel hlt)

end Moving

/-! ### No report twice -/

/-- What holds between elements of different tags, and among those of each tag, holds throughout. -/
theorem pairwise_of_filter {α : Type} {R : α → α → Prop} {tag : α → Nat} {l : List α}
    (apart : ∀ a b, tag a ≠ tag b → R a b)
    (h : ∀ k, (l.filter fun a => decide (tag a = k)).Pairwise R) : l.Pairwise R := by
  rw [List.pairwise_iff_forall_sublist]
  intro a b hab
  by_cases htag : tag a = tag b
  · have hpair := hab.filter fun c => decide (tag c = tag b)
    simp only [List.filter_cons, htag, decide_true, if_true, List.filter_nil] at hpair
    exact List.pairwise_iff_forall_sublist.mp (h _) hpair
  · exact apart a b htag

/-- Two reports of a wrong order are about different statements or name different ones. -/
def Violation.Differs (v w : Violation) : Prop :=
  v.kind = .wrongOrder → w.kind = .wrongOrder → (v.index, v.place) ≠ (w.index, w.place)

theorem Violation.Differs.symm {v w : Violation} (h : v.Differs w) : w.Differs v :=
  fun hw hv heq => h hv hw heq.symm

theorem Violation.differs_of_rank_ne {v w : Violation} (h : v.rank ≠ w.rank) : v.Differs w := by
  have hrank : ∀ {v : Violation}, v.kind = .wrongOrder → v.rank = 2 * v.index := by
    intro v hv
    unfold kind at hv
    unfold rank binding
    split at hv <;> simp_all
  intro hv hw heq
  rw [hrank hv, hrank hw] at h
  exact h (congrArg (2 * ·) (Prod.mk.inj heq).1)

namespace Placed

section Reports

variable {policy : Policy} {items : List Placed} {i j : Nat} {v w : Violation}

theorem place_of_wrongOrder (h : wrongOrder items i j = some v) : v.place = some j := by
  obtain ⟨a, b, -, -, rfl⟩ := wrongOrder_eq_some_iff.mp h
  rfl

theorem place_of_groupReport (h : v ∈ groupReport items i) :
    ∃ j, v.place = some j ∧ groupAt items j ≠ groupAt items i := by
  obtain ⟨j, target, hv⟩ := Option.bind_eq_some_iff.mp h
  exact ⟨j, place_of_wrongOrder hv, (target?_eq_some_iff.mp target).above.ne'⟩

theorem place_of_subReport (h : v ∈ subReport policy items i) :
    ∃ j, v.place = some j ∧ groupAt items j = groupAt items i ∧ (subAt items i).isSome ∧
      subAt items j ≠ subAt items i := by
  obtain ⟨⟨-, defined⟩, h⟩ := Option.ite_none_right_eq_some.mp h
  obtain ⟨j, target, hv⟩ := Option.bind_eq_some_iff.mp h
  have target := target?_eq_some_iff.mp target
  refine ⟨j, place_of_wrongOrder hv, target.admissible.1, defined, fun same => ?_⟩
  have above := target.above
  simp only [same] at above
  exact above.false

theorem place_of_nameReport (h : v ∈ nameReport policy items i) :
    ∃ j, v.place = some j ∧ groupAt items j = groupAt items i ∧
      (subAt items i = none ∨ subAt items j = subAt items i) := by
  obtain ⟨j, target, hv⟩ := Option.bind_eq_some_iff.mp (Option.ite_none_right_eq_some.mp h).2
  exact ⟨j, place_of_wrongOrder hv, (target?_eq_some_iff.mp target).admissible⟩

theorem kind_of_blankReport (h : v ∈ blankReport policy items i) : v.kind = .missingBlankLine := by
  rw [← blankLine_eq, Option.mem_def, blankLine_eq_some_iff] at h
  obtain ⟨-, a, -, rfl⟩ := h
  rfl

theorem kind_of_memberReport (h : v ∈ memberReport policy items i) :
    v.kind = .wrongMemberOrder := by
  obtain ⟨a, -, h⟩ := Option.bind_eq_some_iff.mp h
  obtain ⟨b, -, rfl⟩ := Option.map_eq_some_iff.mp (Option.ite_none_left_eq_some.mp h).2
  rfl

/-- The three scans name three different statements. -/
theorem reportsAt_differ (policy : Policy) (items : List Placed) (i : Nat) :
    (reportsAt policy items i).Pairwise Violation.Differs := by
  have single : ∀ o : Option Violation, o.toList.Pairwise Violation.Differs := by
    intro o
    cases o <;> simp
  have hblank : ∀ v ∈ blankReport policy items i, v.kind ≠ .wrongOrder := by
    intro v hv
    simp [kind_of_blankReport hv]
  have hmember : ∀ v ∈ memberReport policy items i, v.kind ≠ .wrongOrder := by
    intro v hv
    simp [kind_of_memberReport hv]
  have hne : ∀ {v w : Violation} {j k : Nat}, v.place = some j → w.place = some k → j ≠ k →
      v.Differs w := by
    intro v w j k hv hw hjk _ _ heq
    have hplace := (Prod.mk.inj heq).2
    rw [hv, hw] at hplace
    exact hjk (Option.some_injective _ hplace)
  simp only [reportsAt, startReports, List.pairwise_append, List.mem_append, Option.mem_toList]
  refine ⟨⟨⟨⟨single _, single _, ?_⟩, single _, ?_⟩, single _, ?_⟩, single _, ?_⟩
  · intro v _ w hw _ hkind
    exact absurd hkind (hblank w hw)
  · rintro v (hv | hv) w hw
    · obtain ⟨j, hj, hgroup⟩ := place_of_groupReport hv
      obtain ⟨k, hk, hgroup', -⟩ := place_of_subReport hw
      exact hne hj hk fun heq => hgroup (heq ▸ hgroup')
    · exact fun hkind => absurd hkind (hblank v hv)
  · rintro v ((hv | hv) | hv) w hw
    · obtain ⟨j, hj, hgroup⟩ := place_of_groupReport hv
      obtain ⟨k, hk, hgroup', -⟩ := place_of_nameReport hw
      exact hne hj hk fun heq => hgroup (heq ▸ hgroup')
    · exact fun hkind => absurd hkind (hblank v hv)
    · obtain ⟨j, hj, -, defined, hsub⟩ := place_of_subReport hv
      obtain ⟨k, hk, -, hsub'⟩ := place_of_nameReport hw
      refine hne hj hk fun heq => ?_
      rcases hsub' with hnone | hsame
      · simp [hnone] at defined
      · exact hsub (heq ▸ hsame)
  · intro v _ w hw _ hkind
    exact absurd hkind (hmember w hw)

/-- What holds among the reports of each statement, and between those of different ones, holds
among all. -/
theorem checkOrder_pairwise {R : Violation → Violation → Prop} (symm : ∀ {v w}, R v w → R w v)
    (apart : ∀ v w, v.rank ≠ w.rank → R v w)
    (h : ∀ i, (reportsAt policy items i).Pairwise R) : (checkOrder policy items).Pairwise R := by
  have hunsorted : (unsorted policy items).Pairwise R := by
    refine pairwise_of_filter apart fun r => ?_
    rcases Nat.lt_or_ge (r / 2) items.length with hlt | hge
    · rw [filter_unsorted hlt]
      exact (h (r / 2)).filter _
    · have hnone : (unsorted policy items).filter (fun v => decide (v.rank = r)) = [] := by
        rw [List.filter_eq_nil_iff]
        intro v hv hrank
        have := (unsorted_reported hv).index_lt
        rw [index_eq_of_rank hrank] at this
        omega
      rw [hnone]
      exact .nil
  exact ((List.mergeSort_perm _ _).pairwise_iff symm).mpr hunsorted

theorem checkOrder_differ (policy : Policy) (items : List Placed) :
    (checkOrder policy items).Pairwise Violation.Differs :=
  checkOrder_pairwise (fun h => h.symm) (fun _ _ => Violation.differs_of_rank_ne)
    (reportsAt_differ policy items)

end Reports

end Placed

/-! ### Every report points back and up -/

/-- The report is about a statement that has a smaller key than the one it names further up, and
would make the sequence of keys smaller in front of that one. -/
structure PointsUp (policy : Policy) (statements : List Statement) (v : Violation) (j : Nat)
    (r : Statement) : Prop where
  offender : statements[v.index]? = some v.statement
  place : v.place = some j
  reference : v.reference = some r
  named : statements[j]? = some r
  before : j < v.index
  above : policy.combinedKey v.statement < policy.combinedKey r
  smaller : (moved statements v.index j).map policy.combinedKey <
    statements.map policy.combinedKey

theorem exists_pointsUp {policy : Policy} {newline : Text} {statements : List Statement}
    {violations : List Violation} {v : Violation}
    (h : checkStatements policy newline statements = .ok violations) (hv : v ∈ violations)
    (hkind : v.kind = .wrongOrder) : ∃ j r, PointsUp policy statements v j r := by
  rcases (mem_of_checkStatements h).mp hv with ⟨i, j, s, r, wants, hs, hr, rfl⟩ |
    ⟨i, s, -, -, rfl⟩ | ⟨i, s, b, -, -, -, rfl⟩
  · have less := Policy.combinedKey_lt_of_key_lt (wants.key_lt
      (Policy.getElem?_placed.mpr ⟨s, hs, rfl⟩) (Policy.getElem?_placed.mpr ⟨r, hr, rfl⟩))
    exact ⟨j, r, hs, rfl, rfl, hr, wants.before, less, map_moved_lt wants.before hs hr less⟩
  · cases hkind
  · cases hkind

/-- Every wrong-order report points back and up, whichever checks are switched off, and no two of
them are about the same statement and name the same one. -/
theorem wrong_order_points_up (compile : Regex.Compiler) (data : Value) (path : Option String)
    (policy : Policy) (built : Policy.ofValue compile data path = .ok policy) (newline : Text)
    (statements : List Statement) :
    ∃ violations, checkStatements policy newline statements = .ok violations ∧
      (∀ v ∈ violations, v.kind = .wrongOrder → ∃ j r, PointsUp policy statements v j r) ∧
      ((violations.filter (·.kind == .wrongOrder)).map fun v => (v.index, v.place)).Nodup := by
  have checked := checkStatements_of_resolved (Policy.resolved_of_ofValue built) newline statements
  refine ⟨_, checked, fun v => exists_pointsUp checked, ?_⟩
  rw [List.Nodup, List.pairwise_map, List.pairwise_filter, List.pairwise_map]
  refine (Placed.checkOrder_differ policy (policy.placed statements)).imp ?_
  intro v w differs hv hw
  exact differs (eq_of_beq hv) (eq_of_beq hw)

/-- One slot with and without sub-patterns behind another one: the third statement is reported by two
scans, and the last one, which has no sub-pattern, against one that has. -/
theorem wrong_order_points_up_mixedSlot :
    ∃ violations, checkStatements .mixedSlot ['\n']
        [.single "ca" true 1, .single "a" true 2, .single "b" true 3, .single "B" true 4] =
          .ok violations ∧
      violations.map (fun v => (v.index, v.place)) =
        [(1, some 0), (2, some 0), (2, some 1), (3, some 0), (3, some 1)] ∧
      (∀ v ∈ violations, v.kind = .wrongOrder → ∃ j r, PointsUp .mixedSlot
        [.single "ca" true 1, .single "a" true 2, .single "b" true 3, .single "B" true 4] v j r) ∧
      ((violations.filter (·.kind == .wrongOrder)).map fun v => (v.index, v.place)).Nodup := by
  have found : (checkStatements .mixedSlot ['\n']
      [.single "ca" true 1, .single "a" true 2, .single "b" true 3, .single "B" true 4]).map
        (·.map fun v => (v.index, v.place)) =
          .ok [(1, some 0), (2, some 0), (2, some 1), (3, some 0), (3, some 1)] := by cbv
  obtain ⟨violations, checked, up, once⟩ := wrong_order_points_up Regex.compile
    .mixedSlot none .mixedSlot Policy.ofValue_mixedSlot ['\n']
    [.single "ca" true 1, .single "a" true 2, .single "b" true 3, .single "B" true 4]
  rw [checked] at found
  exact ⟨violations, checked, Except.ok.inj found, up, once⟩

end ImportOrder
