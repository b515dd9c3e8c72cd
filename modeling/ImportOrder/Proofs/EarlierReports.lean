import ImportOrder.Proofs.CleanOrder
import ImportOrder.Proofs.PerStatement
import ImportOrder.Proofs.TokenPositions

/-!
What comes later changes nothing. Every check of a statement looks at the statements in front of it,
so the reports of the first statements are the same whatever follows them. Further groups may come in
between the buckets, and sorting mixes the reports again; but leaving out the reports of the later
statements gives back the buckets as they were, and it does not matter if they are left out before
sorting or after it.
-/

namespace ImportOrder

theorem target?_congr {L : Type} [LinearOrder L] {key key' : Nat → L} {ok ok' : Nat → Prop}
    [DecidablePred ok] [DecidablePred ok'] {i : Nat} (hkey : ∀ n ≤ i, key n = key' n)
    (hok : ∀ n < i, ok n ↔ ok' n) : target? key ok i = target? key' ok' i := by
  ext j
  rw [target?_eq_some_iff, target?_eq_some_iff]
  constructor
  · intro h
    exact h.congr (hkey i le_rfl) (fun n hn _ => hkey n hn.le) hok
  · intro h
    exact h.congr (hkey i le_rfl).symm (fun n hn _ => (hkey n hn.le).symm)
      fun n hn => (hok n hn).symm

theorem filter_flatMap_eq {α β : Type} {p : β → Bool} {q : α → Bool} {f g : α → List β}
    {l : List α} (kept : ∀ a ∈ l, q a = true → (f a).filter p = g a)
    (dropped : ∀ a ∈ l, q a = false → (f a).filter p = []) :
    (l.flatMap f).filter p = (l.filter q).flatMap g := by
  induction l with
  | nil => rfl
  | cons a rest ih =>
      have hrest := ih (fun b hb => kept b (List.mem_cons_of_mem a hb))
        fun b hb => dropped b (List.mem_cons_of_mem a hb)
      rw [List.flatMap_cons, List.filter_append, hrest]
      cases hq : q a with
      | true => rw [kept a List.mem_cons_self hq, List.filter_cons_of_pos hq, List.flatMap_cons]
      | false =>
          rw [dropped a List.mem_cons_self hq, List.filter_cons_of_neg (by simp [hq]),
            List.nil_append]

theorem Position.le_eq (a b : Position) : a.le b = decide (a.place ≤ b.place) := by
  rw [Bool.eq_iff_iff, decide_eq_true_eq, place_le_iff, le]
  simp

namespace Placed

/-! ### One statement -/

section Statements

variable {policy : Policy} {items : List Placed} (more : List Placed) {i j n : Nat}

theorem groupAt_append (h : n < items.length) : groupAt (items ++ more) n = groupAt items n := by
  rw [groupAt, groupAt, List.getElem?_append_left h]

theorem subAt_append (h : n < items.length) : subAt (items ++ more) n = subAt items n := by
  rw [subAt, subAt, List.getElem?_append_left h]

theorem nameAt_append (h : n < items.length) : nameAt (items ++ more) n = nameAt items n := by
  rw [nameAt, nameAt, List.getElem?_append_left h]

/-- A scan that compares the same keys makes the same report. -/
theorem scan_append {L : Type} [LinearOrder L] {key key' : Nat → L} {ok ok' : Nat → Prop}
    [DecidablePred ok] [DecidablePred ok'] (hi : i < items.length)
    (hkey : ∀ n < items.length, key n = key' n) (hok : ∀ n < items.length, ok n ↔ ok' n) :
    (target? key ok i).bind (wrongOrder (items ++ more) i) =
      (target? key' ok' i).bind (wrongOrder items i) := by
  rw [target?_congr (fun n hn => hkey n (hn.trans_lt hi)) fun n hn => hok n (hn.trans hi)]
  apply Option.bind_congr
  intro j hj
  have hj : j < items.length := (target?_eq_some_iff.mp hj).before.trans hi
  rw [wrongOrder, wrongOrder, List.getElem?_append_left hi, List.getElem?_append_left hj]

theorem groupReport_append (hi : i < items.length) :
    groupReport (items ++ more) i = groupReport items i :=
  scan_append more hi (fun _ => groupAt_append more) fun _ _ => Iff.rfl

theorem blankReport_append (hi : i < items.length) :
    blankReport policy (items ++ more) i = blankReport policy items i := by
  have hstarts : (∀ l < i, groupAt (items ++ more) l ≠ groupAt (items ++ more) i) ↔
      ∀ l < i, groupAt items l ≠ groupAt items i := by
    refine forall₂_congr fun l hl => ?_
    rw [groupAt_append more hi, groupAt_append more (hl.trans hi)]
  simp only [blankReport, hstarts, List.getElem?_append_left hi,
    List.getElem?_append_left (show i - 1 < items.length by omega)]

theorem subReport_append (hi : i < items.length) :
    subReport policy (items ++ more) i = subReport policy items i := by
  rw [subReport, subReport, subAt_append more hi]
  refine if_congr Iff.rfl (scan_append more hi ?_ ?_) rfl
  · intro n hn
    rw [subAt_append more hn]
  · intro n hn
    rw [groupAt_append more hn, groupAt_append more hi, subAt_append more hn]

theorem nameReport_append (hi : i < items.length) :
    nameReport policy (items ++ more) i = nameReport policy items i := by
  rw [nameReport, nameReport, nameAt_append more hi]
  refine if_congr Iff.rfl (scan_append more hi ?_ ?_) rfl
  · intro n hn
    rw [nameAt_append more hn]
  · intro n hn
    rw [groupAt_append more hn, groupAt_append more hi, subAt_append more hn, subAt_append more hi]

theorem memberReport_append (hi : i < items.length) :
    memberReport policy (items ++ more) i = memberReport policy items i := by
  rw [memberReport, memberReport, List.getElem?_append_left hi]

end Statements

/-! ### All statements -/

section Sequences

variable {policy : Policy} {items : List Placed} (more : List Placed)

/-- Reports by statement, without those of the later statements. -/
theorem filter_reports {f g : Nat → List Violation} {n : Nat}
    (index : ∀ m, ∀ v ∈ f m, v.rank / 2 = m) (same : ∀ m < n, f m = g m) (l : List Nat) :
    (l.flatMap f).filter (fun v => decide (v.index < n)) =
      (l.filter fun m => decide (m < n)).flatMap g := by
  refine filter_flatMap_eq ?_ ?_
  · intro m _ hm
    rw [← same m (of_decide_eq_true hm), List.filter_eq_self]
    intro v hv
    rwa [← v.rank_div_two, index m v hv]
  · intro m _ hm
    rw [List.filter_eq_nil_iff]
    intro v hv
    rw [← v.rank_div_two, index m v hv, hm]
    exact Bool.false_ne_true

theorem filter_checkGroups_append :
    (checkGroups policy (items ++ more)).filter (fun v => decide (v.index < items.length)) =
      checkGroups policy items := by
  have hrange : (List.range (items ++ more).length).filter (fun m => decide (m < items.length)) =
      List.range items.length := by
    refine (List.pairwise_lt_range.filter _).eq_of_mem_iff List.pairwise_lt_range fun m => ?_
    simp only [List.mem_filter, List.mem_range, List.length_append, decide_eq_true_eq]
    omega
  simp only [checkGroups, crossGroup_eq, blankLine_eq]
  rw [filter_reports ?_ ?_, hrange]
  · intro m v hv
    rcases List.mem_append.mp hv with h | h
    · rw [(groupReport_reported (Option.mem_toList.mp h)).2]
      omega
    · rw [(blankReport_reported (Option.mem_toList.mp h)).2]
      omega
  · intro m hm
    rw [groupReport_append more hm, blankReport_append more hm]

theorem filter_membersOf_append (g : Nat) :
    (membersOf (items ++ more) g).filter (fun m => decide (m < items.length)) =
      membersOf items g := by
  refine ((bucket_increasing _ _).filter _).eq_of_mem_iff (bucket_increasing _ _) fun m => ?_
  rw [List.mem_filter, decide_eq_true_eq, mem_membersOf, mem_membersOf, List.length_append]
  constructor
  · rintro ⟨⟨-, hgroup⟩, hm⟩
    exact ⟨hm, groupAt_append more hm ▸ hgroup⟩
  · rintro ⟨hm, hgroup⟩
    exact ⟨⟨by omega, (groupAt_append more hm).trans hgroup⟩, hm⟩

theorem filter_checkBucket_append (g : Nat) :
    (checkBucket policy (items ++ more) (membersOf (items ++ more) g)).filter
        (fun v => decide (v.index < items.length)) =
      checkBucket policy items (membersOf items g) := by
  have part : ∀ {report report' : Nat → Option Violation},
      (∀ m, ∀ v ∈ report m, v.rank / 2 = m) → (∀ m < items.length, report m = report' m) →
      ((membersOf (items ++ more) g).filterMap report).filter
          (fun v => decide (v.index < items.length)) =
        (membersOf items g).filterMap report' := by
    intro report report' index same
    have kept := filter_reports (g := fun m => (report' m).toList)
      (fun m v hv => index m v (Option.mem_toList.mp hv))
      (fun m hm => by rw [same m hm]) (membersOf (items ++ more) g)
    rwa [filter_membersOf_append, ← List.filterMap_eq_flatMap_toList,
      ← List.filterMap_eq_flatMap_toList] at kept
  rw [checkBucket_eq, checkBucket_eq, List.filter_append, List.filter_append,
    part subReport_rank fun m => subReport_append more,
    part memberReport_rank fun m => memberReport_append more,
    part nameReport_rank fun m => nameReport_append more]

theorem checkBucket_eq_nil {g : Nat} (h : g ∉ items.map (·.placement.group)) :
    checkBucket policy items (membersOf items g) = [] := by
  have hnil : membersOf items g = [] := by
    rw [List.eq_nil_iff_forall_not_mem]
    intro m hm
    exact h (List.mem_of_getElem? (mem_bucket.mp hm))
  rw [checkBucket_eq, hnil]
  rfl

/-- The buckets of the first statements are those of all statements, without the later ones. -/
theorem filter_buckets_append :
    ((partition (fun a b => decide (a ≤ b)) ((items ++ more).map (·.placement.group))).flatMap
        (checkBucket policy (items ++ more))).filter (fun v => decide (v.index < items.length)) =
      (partition (fun a b => decide (a ≤ b)) (items.map (·.placement.group))).flatMap
        (checkBucket policy items) := by
  have hkeys : (bucketKeys ((items ++ more).map (·.placement.group))).filter
        (fun g => decide (g ∈ items.map (·.placement.group))) =
      bucketKeys (items.map (·.placement.group)) := by
    refine ((bucketKeys_increasing _).filter _).eq_of_mem_iff (bucketKeys_increasing _) fun g => ?_
    rw [List.mem_filter, decide_eq_true_eq, mem_bucketKeys, mem_bucketKeys, List.map_append,
      List.mem_append]
    exact ⟨And.right, fun h => ⟨.inl h, h⟩⟩
  rw [partition_eq, partition_eq, List.flatMap_map, List.flatMap_map, ← hkeys]
  refine filter_flatMap_eq ?_ ?_
  · intro g _ _
    exact filter_checkBucket_append more g
  · intro g _ hg
    exact (filter_checkBucket_append more g).trans (checkBucket_eq_nil (of_decide_eq_false hg))

theorem filter_checkOrder_append :
    (checkOrder policy (items ++ more)).filter (fun v => decide (v.index < items.length)) =
      checkOrder policy items := by
  simp only [checkOrder, Position.le_eq]
  rw [← mergeSort_filter (fun v : Violation => v.position.place), List.filter_append,
    filter_checkGroups_append, filter_buckets_append]

end Sequences

end Placed

/-- Whatever follows some statements, the violations reported of them are the same: the same ones in
the same order, against the same statements and with the same edits. -/
theorem later_statements_change_nothing (policy : Policy) (newline : Text)
    (first later : List Statement) :
    (∀ compile data path, Policy.ofValue compile data path = .ok policy →
      ∃ violations, checkStatements policy newline (first ++ later) = .ok violations) ∧
    ∀ violations, checkStatements policy newline (first ++ later) = .ok violations →
      checkStatements policy newline first =
        .ok (violations.filter fun v => decide (v.index < first.length)) := by
  refine ⟨?_, ?_⟩
  · intro compile data path built
    exact ⟨_, checkStatements_of_resolved (Policy.resolved_of_ofValue built) _ _⟩
  · intro violations h
    have hle := group_le_of_checkStatements h
    have hplaced : policy.placed (first ++ later) = policy.placed first ++ policy.placed later :=
      List.map_append
    have hlength : (policy.placed first).length = first.length := List.length_map _
    rw [eq_of_checkStatements h, hplaced, List.filter_map,
      checkStatements_of_le newline fun s hs => hle s (List.mem_append_left later hs),
      ← Placed.filter_checkOrder_append (policy.placed later), hlength]
    rfl

/-- A later statement that is said to stand above the others comes first in the report, and is
reported twice. -/
theorem later_statements_change_nothing_toolsFirst :
    ∃ violations, checkStatements .toolsFirst ['\n']
        ([.single "c" true 5, .single "a" true 9] ++ [.single "b" true 1]) = .ok violations ∧
      violations.map (fun v => (v.index, v.place)) = [(2, some 0), (2, some 1), (1, some 0)] ∧
      checkStatements .toolsFirst ['\n'] [.single "c" true 5, .single "a" true 9] =
        .ok (violations.filter fun v => decide (v.index < 2)) := by
  have found : (checkStatements .toolsFirst ['\n']
      ([.single "c" true 5, .single "a" true 9] ++ [.single "b" true 1])).map
        (·.map fun v => (v.index, v.place)) = .ok [(2, some 0), (2, some 1), (1, some 0)] := by cbv
  obtain ⟨returns, keeps⟩ := later_statements_change_nothing .toolsFirst ['\n']
    [.single "c" true 5, .single "a" true 9] [.single "b" true 1]
  obtain ⟨violations, checked⟩ := returns Regex.compile _ none (Policy.ofValue_toolsFirst _)
  rw [checked] at found
  exact ⟨violations, checked, Except.ok.inj found, keeps violations checked⟩

end ImportOrder
