import ImportOrder.Proofs.Reports

/-!
The order checks statement by statement. They run over the whole sequence, then over the buckets of
the groups, and sort what they report by position; `reportsAt` says what is reported of one
statement without scans, buckets or sorting. Where statements follow each other, and each name that
is reported stands inside its own statement, the checks give the reports of the statements one after
another.
-/

namespace ImportOrder

/-! ### Targets, computed from their description -/

section Target

variable {L : Type} [LinearOrder L] {key : Nat → L} {ok : Nat → Prop} {i j k : Nat}

instance [DecidablePred ok] : Decidable (IsTarget key ok i j) :=
  decidable_of_iff (j < i ∧ ok j ∧ key i < key j ∧
      (∀ l < i, ok l → key i < key l → key j ≤ key l) ∧
      ∀ l < j, ok l → key i < key l → key j < key l)
    ⟨fun ⟨h, h', h'', h₃, h₄⟩ => ⟨h, h', h'', h₃, h₄⟩,
      fun h => ⟨h.before, h.admissible, h.above, h.least, h.earliest⟩⟩

/-- The earliest position before `i` with the least admissible key above that of `i`. -/
def target? (key : Nat → L) (ok : Nat → Prop) [DecidablePred ok] (i : Nat) : Option Nat :=
  (List.range i).find? fun j => IsTarget key ok i j

theorem target?_eq_some_iff [DecidablePred ok] :
    target? key ok i = some j ↔ IsTarget key ok i j := by
  constructor
  · intro h
    simpa using List.find?_some h
  · intro h
    cases hfind : target? key ok i with
    | none =>
        have := List.find?_eq_none.mp hfind j (List.mem_range.mpr h.before)
        simp [h] at this
    | some k =>
        have hk : IsTarget key ok i k := by simpa using List.find?_some hfind
        rw [hk.unique h]

end Target

namespace Placed

/-! ### What is reported of one statement -/

/-- A statement of an earlier group stands behind one of a later group. -/
def groupReport (items : List Placed) (i : Nat) : Option Violation :=
  (target? (groupAt items) (fun _ => True) i).bind (wrongOrder items i)

/-- A group starts without a line between it and the statement before it. -/
def blankReport (policy : Policy) (items : List Placed) (i : Nat) : Option Violation := do
  let item ← items[i]?
  let previous ← items[i - 1]?
  if policy.emptyLines = true ∧ 0 < i ∧ (∀ l < i, groupAt items l ≠ groupAt items i) ∧
      ((previous.statement.stop.line : Int) - item.statement.start.line).natAbs ≤ 1 then
    return { index := i, statement := item.statement, fault := .missingBlankLine }
  else none

/-- Among the statements of the group that a sub-pattern places, one of a later sub-pattern comes
first. -/
def subReport (policy : Policy) (items : List Placed) (i : Nat) : Option Violation :=
  if policy.ignoreInGroupSort = false ∧ (subAt items i).isSome then
    (target? (fun n => (subAt items n).getD 0)
      (fun n => groupAt items n = groupAt items i ∧ (subAt items n).isSome) i).bind
        (wrongOrder items i)
  else none

/-- Among the statements of the group, and of the sub-pattern if there is one, a later name comes
first. -/
def nameReport (policy : Policy) (items : List Placed) (i : Nat) : Option Violation :=
  if policy.ignoreAlphabeticalSort = false ∧ (nameAt items i).isSome then
    (target? (fun n => nameKey (nameAt items n))
      (fun n => groupAt items n = groupAt items i ∧
        (subAt items i = none ∨ subAt items n = subAt items i)) i).bind (wrongOrder items i)
  else none

def memberReport (policy : Policy) (items : List Placed) (i : Nat) : Option Violation :=
  items[i]?.bind fun item => checkMembers policy i item.statement

/-- What is reported at the start of one statement. -/
def startReports (policy : Policy) (items : List Placed) (i : Nat) : List Violation :=
  (groupReport items i).toList ++ (blankReport policy items i).toList ++
    (subReport policy items i).toList ++ (nameReport policy items i).toList

/-- Everything that is reported of one statement. -/
def reportsAt (policy : Policy) (items : List Placed) (i : Nat) : List Violation :=
  startReports policy items i ++ (memberReport policy items i).toList

/-! ### The checks by statement -/

section Checks

variable {policy : Policy} {items : List Placed} {g i : Nat}

theorem crossGroup_eq : crossGroup items i = groupReport items i := by
  ext v
  simp only [crossGroup_eq_some_iff, groupReport, Option.bind_eq_some_iff, target?_eq_some_iff]

theorem startsGroup_eq_true_iff {a : Placed} (ha : items[i]? = some a) :
    startsGroup items i = true ↔ ∀ l < i, groupAt items l ≠ groupAt items i := by
  have hlen := (List.getElem?_eq_some_iff.mp ha).1
  have hi : groupAt items i = a.placement.group := by simp [groupAt, ha]
  simp only [startsGroup, ha, Bool.not_eq_true', List.any_eq_false, beq_iff_eq, hi]
  constructor
  · intro h l hl
    have hl' := List.getElem?_eq_getElem (hl.trans hlen)
    have : groupAt items l = items[l].placement.group := by simp [groupAt, hl']
    rw [this]
    exact h _ (List.mem_take_iff_getElem.mpr ⟨l, by omega, rfl⟩)
  · intro h b hb
    obtain ⟨l, hl, rfl⟩ := List.mem_take_iff_getElem.mp hb
    have hl' : l < i := by omega
    simpa [groupAt, hl'.trans hlen] using h l hl'

theorem lineBetween_eq_false_iff (s t : Statement) :
    lineBetween s t = false ↔ ((s.stop.line : Int) - t.start.line).natAbs ≤ 1 := by
  simp only [lineBetween, Bool.or_eq_false_iff, decide_eq_false_iff_not]
  omega

theorem blankLine_eq : blankLine policy items i = blankReport policy items i := by
  cases ha : items[i]? with
  | none => simp [blankLine, blankReport, ha]
  | some a =>
      cases hb : items[i - 1]? with
      | none => simp [blankLine, blankReport, ha, hb]
      | some b =>
          ext v
          rw [blankLine_eq_some_iff]
          simp only [blankReport, ha, hb, Option.bind_eq_bind, Option.bind_some,
            Option.ite_none_right_eq_some, ← startsGroup_eq_true_iff ha,
            ← lineBetween_eq_false_iff, Option.some.injEq, exists_eq_left']
          constructor
          · rintro ⟨⟨on, starts, positive, b', a', hb', ha', touching⟩, rfl⟩
            cases ha.symm.trans ha'
            cases hb.symm.trans hb'
            exact ⟨⟨on, positive, starts, touching⟩, rfl⟩
          · rintro ⟨⟨on, positive, starts, touching⟩, hv⟩
            exact ⟨⟨on, starts, positive, b, a, hb, ha, touching⟩,
              (Option.some_injective _ hv).symm⟩

/-- A check that goes through a bucket by position goes through its members. -/
theorem filterMap_range_eq {α β : Type} {l : List α} {f : Nat → Option β} {h : α → Option β}
    (same : ∀ (p : Nat) (a : α), l[p]? = some a → f p = h a) :
    (List.range l.length).filterMap f = l.filterMap h := by
  have hrange : List.range l.length = l.zipIdx.map Prod.snd := by
    rw [List.zipIdx_map_snd, List.range_eq_range']
  have hfst : l.filterMap h = l.zipIdx.filterMap (h ∘ Prod.fst) := by
    rw [← List.filterMap_map, List.zipIdx_map_fst]
  rw [hrange, hfst, List.filterMap_map]
  apply List.filterMap_congr
  intro x hx
  exact same x.2 x.1 (List.mem_zipIdx_iff_getElem?.mp hx)

theorem groupAt_of_mem {p : Nat} (hp : (membersOf items g)[p]? = some i) : groupAt items i = g :=
  (mem_membersOf.mp (List.mem_of_getElem? hp)).2

theorem checkSubOrder_eq : checkSubOrder policy items (membersOf items g) =
    (membersOf items g).filterMap (subReport policy items) := by
  by_cases hon : policy.ignoreInGroupSort = true
  · simp [checkSubOrder, subReport, hon]
  · simp only [checkSubOrder, hon, Bool.false_eq_true, if_false, List.length_map, length_pick]
    refine filterMap_range_eq fun p i hp => ?_
    ext v
    rw [Option.ite_none_right_eq_some, subScan_eq_some_iff hp, pick_sub, hp, Option.bind_some]
    simp [subReport, hon, Option.bind_eq_some_iff, target?_eq_some_iff, groupAt_of_mem hp]

theorem checkAlphabetical_eq : checkAlphabetical policy items (membersOf items g) =
    (membersOf items g).filterMap (nameReport policy items) := by
  by_cases hon : policy.ignoreAlphabeticalSort = true
  · simp [checkAlphabetical, nameReport, hon]
  · simp only [checkAlphabetical, hon, Bool.false_eq_true, if_false, length_pick]
    refine filterMap_range_eq fun p i hp => ?_
    ext v
    rw [Option.ite_none_right_eq_some, nameScan_eq_some_iff hp, pick_name, hp, Option.bind_some]
    simp [nameReport, hon, Option.bind_eq_some_iff, target?_eq_some_iff, groupAt_of_mem hp]

end Checks

end Placed

/-! ### The order of the reports -/

def Position.Before (a b : Position) : Prop :=
  a.line < b.line ∨ a.line = b.line ∧ a.column < b.column

instance (a b : Position) : Decidable (a.Before b) := inferInstanceAs (Decidable (_ ∨ _))

theorem Position.Before.trans {a b c : Position} (h : a.Before b) (h' : b.Before c) :
    a.Before c := by
  unfold Before at *
  omega

theorem Position.le_eq_true_of_before {a b : Position} (h : a.Before b) :
    a.le b = true ∧ b.le a = false := by
  unfold Before at h
  simp only [le, Bool.or_eq_true, Bool.or_eq_false_iff, Bool.and_eq_true, Bool.and_eq_false_iff,
    decide_eq_true_eq, decide_eq_false_iff_not, beq_iff_eq, beq_eq_false_iff_ne]
  omega

theorem Position.le_self (a : Position) : a.le a = true := by simp [le]

/-- Reports by statement, and of one statement that of its names last. -/
def Violation.rank (v : Violation) : Nat := 2 * v.index + v.binding.isSome.toNat

theorem Violation.rank_div_two (v : Violation) : v.rank / 2 = v.index := by
  have := Bool.toNat_le v.binding.isSome
  rw [rank]
  omega

namespace Placed

/-- Statements follow each other, and a name that is out of order stands behind the start of its
own statement and in front of the next one. -/
structure Ascending (items : List Placed) : Prop where
  starts : items.Pairwise fun a b => a.statement.start.Before b.statement.start
  after : ∀ a ∈ items, ∀ b ∈ a.statement.firstMisplaced,
    a.statement.start.Before (a.statement.positionOf b.span.start)
  before : ∀ (i : Nat) (a c : Placed), items[i]? = some a → items[i + 1]? = some c →
    ∀ b ∈ a.statement.firstMisplaced,
      (a.statement.positionOf b.span.start).Before c.statement.start

/-- A report of a statement, or of its first name out of order. -/
def Reported (items : List Placed) (v : Violation) : Prop :=
  ∃ a, items[v.index]? = some a ∧ v.statement = a.statement ∧
    ∀ b ∈ v.binding, b ∈ a.statement.firstMisplaced

section Ranks

variable {items : List Placed} {v w : Violation}

theorem Ascending.before_of_index_lt (h : Ascending items) (hv : Reported items v)
    (hw : Reported items w) (lt : v.index < w.index) : v.position.Before w.position := by
  obtain ⟨a, ha, hstatement, hbinding⟩ := hv
  obtain ⟨c, hc, hstatement', hbinding'⟩ := hw
  have starts : ∀ {i j : Nat} {x y : Placed}, i < j → items[i]? = some x → items[j]? = some y →
      x.statement.start.Before y.statement.start := by
    intro i j x y hij hx hy
    obtain ⟨hi, rfl⟩ := List.getElem?_eq_some_iff.mp hx
    obtain ⟨hj, rfl⟩ := List.getElem?_eq_some_iff.mp hy
    exact List.pairwise_iff_getElem.mp h.starts i j hi hj hij
  -- The first report stands in front of the other statement, the second at or behind its start.
  have front : v.position.Before c.statement.start := by
    unfold Violation.position
    rw [hstatement]
    cases hb : v.binding with
    | none => exact starts lt ha hc
    | some b =>
        obtain ⟨next, hnext⟩ : ∃ next, items[v.index + 1]? = some next := by
          have := (List.getElem?_eq_some_iff.mp hc).1
          exact ⟨_, List.getElem?_eq_getElem (by omega)⟩
        have inside := h.before v.index a next ha hnext b (hbinding b hb)
        rcases Nat.lt_or_ge (v.index + 1) w.index with hlt | hge
        · exact inside.trans (starts hlt hnext hc)
        · obtain rfl : next = c := by
            have : v.index + 1 = w.index := by omega
            rw [this] at hnext
            exact Option.some_injective _ (hnext.symm.trans hc)
          exact inside
  unfold Violation.position at front ⊢
  rw [hstatement']
  cases hb : w.binding with
  | none => exact front
  | some b => exact front.trans (h.after c (List.mem_of_getElem? hc) b (hbinding' b hb))

theorem Ascending.before_of_rank_lt (h : Ascending items) (hv : Reported items v)
    (hw : Reported items w) (lt : v.rank < w.rank) : v.position.Before w.position := by
  rcases Nat.lt_or_ge v.index w.index with hlt | hge
  · exact h.before_of_index_lt hv hw hlt
  · -- Of one statement, only the report of a name comes after another one.
    have hle := Bool.toNat_le w.binding.isSome
    obtain ⟨hindex, hnone, hsome⟩ : v.index = w.index ∧ v.binding.isSome.toNat = 0 ∧
        w.binding.isSome.toNat = 1 := by
      unfold Violation.rank at lt
      omega
    obtain ⟨a, ha, hstatement, -⟩ := hv
    obtain ⟨c, hc, hstatement', hbinding⟩ := hw
    rw [← hindex, ha] at hc
    cases hc
    cases hb : w.binding with
    | none => simp [hb] at hsome
    | some b =>
        have hb' : v.binding = none := by simpa using hnone
        simp only [Violation.position, hb, hb', hstatement, hstatement']
        exact h.after a (List.mem_of_getElem? ha) b (hbinding b hb)

theorem position_eq_of_rank_eq (hv : Reported items v) (hw : Reported items w)
    (eq : v.rank = w.rank) : v.position = w.position := by
  have hle := Bool.toNat_le v.binding.isSome
  have hle' := Bool.toNat_le w.binding.isSome
  obtain ⟨hindex, hbool⟩ : v.index = w.index ∧
      v.binding.isSome.toNat = w.binding.isSome.toNat := by
    unfold Violation.rank at eq
    omega
  obtain ⟨a, ha, hstatement, hbinding⟩ := hv
  obtain ⟨c, hc, hstatement', hbinding'⟩ := hw
  rw [← hindex, ha] at hc
  cases hc
  have hsame : v.binding = w.binding := by
    cases hb : v.binding with
    | none =>
        cases hb' : w.binding with
        | none => rfl
        | some b' => simp [hb, hb'] at hbool
    | some b =>
        cases hb' : w.binding with
        | none => simp [hb, hb'] at hbool
        | some b' => exact (hbinding b hb).symm.trans (hbinding' b' hb')
  simp only [Violation.position, hstatement, hstatement', hsame]

/-- Among the reports of a sequence the order of positions is that of ranks. -/
theorem Ascending.position_le_eq (h : Ascending items) (hv : Reported items v)
    (hw : Reported items w) : v.position.le w.position = decide (v.rank ≤ w.rank) := by
  rcases lt_trichotomy v.rank w.rank with hlt | heq | hlt
  · rw [decide_eq_true hlt.le]
    exact (Position.le_eq_true_of_before (h.before_of_rank_lt hv hw hlt)).1
  · rw [decide_eq_true heq.le, position_eq_of_rank_eq hv hw heq]
    exact Position.le_self _
  · rw [decide_eq_false (not_le.mpr hlt)]
    exact (Position.le_eq_true_of_before (h.before_of_rank_lt hw hv hlt)).2

end Ranks

/-! ### Ranks of the reports -/

section Reports

variable {policy : Policy} {items : List Placed} {g i j : Nat} {v : Violation}

theorem wrongOrder_reported (h : wrongOrder items i j = some v) :
    Reported items v ∧ v.rank = 2 * i := by
  obtain ⟨a, b, ha, -, rfl⟩ := wrongOrder_eq_some_iff.mp h
  exact ⟨⟨a, ha, rfl, by simp [Violation.binding]⟩, rfl⟩

theorem groupReport_reported (h : v ∈ groupReport items i) :
    Reported items v ∧ v.rank = 2 * i := by
  obtain ⟨j, -, hv⟩ := Option.bind_eq_some_iff.mp h
  exact wrongOrder_reported hv

theorem blankReport_reported (h : v ∈ blankReport policy items i) :
    Reported items v ∧ v.rank = 2 * i := by
  rw [← blankLine_eq, Option.mem_def, blankLine_eq_some_iff] at h
  obtain ⟨-, a, ha, rfl⟩ := h
  exact ⟨⟨a, ha, rfl, by simp [Violation.binding]⟩, rfl⟩

theorem subReport_reported (h : v ∈ subReport policy items i) :
    Reported items v ∧ v.rank = 2 * i := by
  obtain ⟨j, -, hv⟩ := Option.bind_eq_some_iff.mp (Option.ite_none_right_eq_some.mp h).2
  exact wrongOrder_reported hv

theorem nameReport_reported (h : v ∈ nameReport policy items i) :
    Reported items v ∧ v.rank = 2 * i := by
  obtain ⟨j, -, hv⟩ := Option.bind_eq_some_iff.mp (Option.ite_none_right_eq_some.mp h).2
  exact wrongOrder_reported hv

theorem memberReport_reported (h : v ∈ memberReport policy items i) :
    Reported items v ∧ v.rank = 2 * i + 1 := by
  obtain ⟨a, ha, hv⟩ := Option.bind_eq_some_iff.mp h
  obtain ⟨b, hb, rfl⟩ := Option.map_eq_some_iff.mp (Option.ite_none_left_eq_some.mp hv).2
  exact ⟨⟨a, ha, rfl, by simp [Violation.binding, hb]⟩, rfl⟩

theorem startReports_reported (h : v ∈ startReports policy items i) :
    Reported items v ∧ v.rank = 2 * i := by
  simp only [startReports, List.mem_append, Option.mem_toList] at h
  rcases h with ((h | h) | h) | h
  · exact groupReport_reported h
  · exact blankReport_reported h
  · exact subReport_reported h
  · exact nameReport_reported h

theorem reportsAt_reported (h : v ∈ reportsAt policy items i) :
    Reported items v ∧ (v.rank = 2 * i ∨ v.rank = 2 * i + 1) := by
  rcases List.mem_append.mp h with h | h
  · exact (startReports_reported h).imp_right .inl
  · exact (memberReport_reported (Option.mem_toList.mp h)).imp_right .inr

theorem reportsAt_sorted (policy : Policy) (items : List Placed) (i : Nat) :
    (reportsAt policy items i).Pairwise fun v w => v.rank ≤ w.rank := by
  refine List.pairwise_append.mpr ⟨?_, ?_, ?_⟩
  · refine List.pairwise_of_forall_mem_list fun v hv w hw => ?_
    rw [(startReports_reported hv).2, (startReports_reported hw).2]
  · cases memberReport policy items i <;> simp
  · intro v hv w hw
    rw [(startReports_reported hv).2, (memberReport_reported (Option.mem_toList.mp hw)).2]
    exact Nat.le_succ _

end Reports

/-! ### Sorting by rank -/

section Sorting

variable {policy : Policy} {items : List Placed} {i r : Nat}

/-- What the checks find, before it is sorted. -/
def unsorted (policy : Policy) (items : List Placed) : List Violation :=
  checkGroups policy items ++
    (partition (fun a b => decide (a ≤ b)) (items.map (·.placement.group))).flatMap
      (checkBucket policy items)

theorem index_eq_of_rank {v : Violation} (h : decide (v.rank = r) = true) : v.index = r / 2 := by
  rw [← v.rank_div_two, of_decide_eq_true h]

theorem filter_checkGroups (hi : r / 2 < items.length) :
    (checkGroups policy items).filter (fun v => decide (v.rank = r)) =
      ((groupReport items (r / 2)).toList ++ (blankReport policy items (r / 2)).toList).filter
        fun v => decide (v.rank = r) := by
  simp only [checkGroups, crossGroup_eq, blankLine_eq]
  rw [filter_flatMap_of_tag (fun v => index_eq_of_rank) List.nodup_range ?_,
    if_pos (List.mem_range.mpr hi)]
  intro m _ v hv
  rw [← v.rank_div_two]
  rcases List.mem_append.mp hv with h | h
  · rw [(groupReport_reported (Option.mem_toList.mp h)).2]
    omega
  · rw [(blankReport_reported (Option.mem_toList.mp h)).2]
    omega

/-- The part of a check over the members of a bucket that is about one of them. -/
theorem filter_members {report : Nat → Option Violation}
    (ranked : ∀ m, ∀ v ∈ report m, v.rank / 2 = m) (hi : r / 2 < items.length) :
    ((membersOf items (groupAt items (r / 2))).filterMap report).filter
        (fun v => decide (v.rank = r)) =
      (report (r / 2)).toList.filter fun v => decide (v.rank = r) := by
  have nodup : (membersOf items (groupAt items (r / 2))).Nodup :=
    (bucket_increasing _ _).imp Nat.ne_of_lt
  rw [List.filterMap_eq_flatMap_toList,
    filter_flatMap_of_tag (fun v => index_eq_of_rank) nodup ?_,
    if_pos (mem_membersOf.mpr ⟨hi, rfl⟩)]
  intro m _ v hv
  rw [← v.rank_div_two]
  exact ranked m v (Option.mem_toList.mp hv)

theorem checkBucket_eq (g : Nat) : checkBucket policy items (membersOf items g) =
    (membersOf items g).filterMap (subReport policy items) ++
      (membersOf items g).filterMap (memberReport policy items) ++
      (membersOf items g).filterMap (nameReport policy items) := by
  rw [checkBucket, checkSubOrder_eq, checkAlphabetical_eq]
  rfl

theorem subReport_rank (m : Nat) (v : Violation) (h : v ∈ subReport policy items m) :
    v.rank / 2 = m := by
  rw [(subReport_reported h).2]
  omega

theorem nameReport_rank (m : Nat) (v : Violation) (h : v ∈ nameReport policy items m) :
    v.rank / 2 = m := by
  rw [(nameReport_reported h).2]
  omega

theorem memberReport_rank (m : Nat) (v : Violation) (h : v ∈ memberReport policy items m) :
    v.rank / 2 = m := by
  rw [(memberReport_reported h).2]
  omega

theorem groupAt_of_mem_checkBucket {g : Nat} {v : Violation}
    (h : v ∈ checkBucket policy items (membersOf items g)) : groupAt items v.index = g := by
  simp only [checkBucket_eq, List.mem_append, List.mem_filterMap] at h
  obtain ⟨m, hm, hindex⟩ : ∃ m ∈ membersOf items g, v.rank / 2 = m := by
    rcases h with (⟨m, hm, hv⟩ | ⟨m, hm, hv⟩) | ⟨m, hm, hv⟩
    · exact ⟨m, hm, subReport_rank m v hv⟩
    · exact ⟨m, hm, memberReport_rank m v hv⟩
    · exact ⟨m, hm, nameReport_rank m v hv⟩
  rw [← v.rank_div_two, hindex]
  exact (mem_membersOf.mp hm).2

/-- Of one statement only the bucket of its group reports. -/
theorem filter_buckets (hi : r / 2 < items.length) :
    ((partition (fun a b => decide (a ≤ b)) (items.map (·.placement.group))).flatMap
        (checkBucket policy items)).filter (fun v => decide (v.rank = r)) =
      (checkBucket policy items (membersOf items (groupAt items (r / 2)))).filter
        fun v => decide (v.rank = r) := by
  have hmem : groupAt items (r / 2) ∈
      bucketKeys (items.map (·.placement.group)) := by
    rw [mem_bucketKeys, List.mem_map]
    exact ⟨items[r / 2], List.getElem_mem hi, by simp [groupAt, hi]⟩
  rw [partition_eq, List.flatMap_map]
  refine (filter_flatMap_of_tag (f := fun g => checkBucket policy items (membersOf items g))
    (fun v hv => ?_) ((bucketKeys_increasing _).imp ne_of_lt) fun g _ v hv =>
      groupAt_of_mem_checkBucket hv).trans (if_pos hmem)
  exact congrArg (groupAt items) (index_eq_of_rank hv)

theorem filter_toList_eq_nil {o : Option Violation} (h : ∀ v ∈ o, v.rank ≠ r) :
    o.toList.filter (fun v => decide (v.rank = r)) = [] := by
  rw [List.filter_eq_nil_iff]
  intro v hv
  simpa using h v (Option.mem_toList.mp hv)

/-- Each statement has the same reports of each rank before and after sorting. -/
theorem filter_unsorted (hi : r / 2 < items.length) :
    (unsorted policy items).filter (fun v => decide (v.rank = r)) =
      (reportsAt policy items (r / 2)).filter fun v => decide (v.rank = r) := by
  rw [unsorted, List.filter_append, filter_checkGroups hi, filter_buckets hi, checkBucket_eq]
  simp only [reportsAt, startReports, List.filter_append, filter_members subReport_rank hi,
    filter_members memberReport_rank hi, filter_members nameReport_rank hi]
  -- The report of a name is the only one of its rank.
  rcases Nat.mod_two_eq_zero_or_one r with even | odd
  · rw [filter_toList_eq_nil fun v (hv : v ∈ memberReport policy items (r / 2)) => by
      rw [(memberReport_reported hv).2]
      omega]
    simp
  · rw [filter_toList_eq_nil fun v (hv : v ∈ nameReport policy items (r / 2)) => by
      rw [(nameReport_reported hv).2]
      omega]
    simp

theorem unsorted_reported {v : Violation} (h : v ∈ unsorted policy items) : Reported items v := by
  have hmem : v ∈ checkOrder policy items := List.mem_mergeSort.mpr h
  rcases mem_checkOrder.mp hmem with ⟨i, j, -, hv⟩ | ⟨i, hv⟩ | ⟨i, a, ha, hv⟩
  · exact (wrongOrder_reported hv).1
  · rw [blankLine_eq] at hv
    exact (blankReport_reported hv).1
  · exact (memberReport_reported (Option.bind_eq_some_iff.mpr ⟨a, ha, hv⟩)).1

theorem Reported.index_lt {v : Violation} (h : Reported items v) : v.index < items.length := by
  obtain ⟨a, ha, -⟩ := h
  exact (List.getElem?_eq_some_iff.mp ha).1

end Sorting

/-- The checks report of each statement what its description says, statement by statement. -/
theorem checkOrder_eq_reports (policy : Policy) (items : List Placed)
    (ascending : Ascending items) :
    checkOrder policy items = (List.range items.length).flatMap (reportsAt policy items) := by
  have byRank : checkOrder policy items =
      (unsorted policy items).mergeSort fun v w => decide (v.rank ≤ w.rank) := by
    have := List.map_mergeSort (f := id) (l := unsorted policy items)
      (r := fun v w => v.position.le w.position) (s := fun v w => decide (v.rank ≤ w.rank))
      fun v hv w hw => ascending.position_le_eq (unsorted_reported hv) (unsorted_reported hw)
    rwa [List.map_id, List.map_id] at this
  rw [byRank]
  refine mergeSort_eq_of_filter Violation.rank ?_ fun r => ?_
  · refine List.pairwise_flatMap.mpr ⟨fun i _ => reportsAt_sorted policy items i, ?_⟩
    refine List.pairwise_lt_range.imp fun {i j} hij v hv w hw => ?_
    have := (reportsAt_reported hv).2
    have := (reportsAt_reported hw).2
    omega
  · have tagged : ∀ i ∈ List.range items.length, ∀ v ∈ reportsAt policy items i, v.index = i := by
      intro i _ v hv
      have := (reportsAt_reported hv).2
      rw [← v.rank_div_two]
      omega
    rw [filter_flatMap_of_tag (fun v => index_eq_of_rank) List.nodup_range tagged]
    split
    · next hi => exact filter_unsorted (List.mem_range.mp hi)
    · next hi =>
        rw [List.filter_eq_nil_iff]
        intro v hv hrank
        have := (unsorted_reported hv).index_lt
        rw [index_eq_of_rank hrank] at this
        exact hi (List.mem_range.mpr this)

/-- A statement on one line that binds some names of one letter. -/
def letters (line : Nat) (names : List String) (placement : Placement) : Placed :=
  { statement :=
      { source := ""
        text := "import ".toList ++ names.flatMap String.toList
        bindings := names.zipIdx 7 |>.map fun (name, n) => ⟨name, name.toList, ⟨n, n + 1⟩, false⟩
        start := ⟨line, 0⟩
        stop := ⟨line, 7 + names.length⟩
        span := ⟨0, 7 + names.length⟩ }
    placement }

/-- A group behind a later one, with its sub-patterns and the names of a statement out of order. -/
def tangled : List Placed :=
  [letters 1 ["c"] ⟨1, none⟩, letters 2 ["d"] ⟨0, some 1⟩, letters 3 ["x", "b", "a"] ⟨0, some 0⟩]

theorem ascending_tangled : Ascending tangled := by
  have first : (letters 1 ["c"] ⟨1, none⟩).statement.firstMisplaced = none := by cbv
  have second : (letters 2 ["d"] ⟨0, some 1⟩).statement.firstMisplaced = none := by cbv
  have third : (letters 3 ["x", "b", "a"] ⟨0, some 0⟩).statement.firstMisplaced =
      some ⟨"x", ['x'], ⟨7, 8⟩, false⟩ := by cbv
  refine ⟨by decide, ?_, ?_⟩
  · simp only [tangled, List.forall_mem_cons, first, second, third]
    simp [letters, Statement.positionOf, Position.Before]
  · rintro (_ | _ | _ | i) a c ha hc b hb
    · cases ha
      simp [first] at hb
    · cases ha
      simp [second] at hb
    · cases hc
    · cases hc

theorem checkOrder_eq_reports_tangled :
    Ascending tangled ∧
      checkOrder { order := [], patterns := [], groups := [], emptyLines := true } tangled =
        (List.range 3).flatMap (reportsAt
          { order := [], patterns := [], groups := [], emptyLines := true } tangled) ∧
      ((List.range 3).flatMap (reportsAt
        { order := [], patterns := [], groups := [], emptyLines := true } tangled)).map
          (fun v => (v.index, v.kind)) =
        [(1, .wrongOrder), (1, .missingBlankLine), (2, .wrongOrder), (2, .wrongOrder),
          (2, .wrongMemberOrder)] :=
  ⟨ascending_tangled, checkOrder_eq_reports _ tangled ascending_tangled, by cbv⟩

end Placed
end ImportOrder
