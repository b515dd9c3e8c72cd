import ImportOrder.Proofs.Buckets
import ImportOrder.Proofs.Targets

/-!
Which violations a sequence of placed statements has, by position and without the buckets in which
the checks work: `Wants` for the wrong-order reports, and one characterization for each other kind.
-/

namespace ImportOrder
namespace Placed

def groupAt (items : List Placed) (n : Nat) : Nat := (items[n]?.map (·.placement.group)).getD 0

def subAt (items : List Placed) (n : Nat) : Option Int := items[n]?.bind (·.placement.sub)

def nameAt (items : List Placed) (n : Nat) : Option String := items[n]?.bind (·.statement.firstName)

/-- First names in order, a missing one last. -/
def nameKey : Option String → WithTop String
  | some name => name
  | none => ⊤

theorem nameLess_eq (a b : Option String) : nameLess a b = decide (nameKey a < nameKey b) := by
  cases a <;> cases b <;> simp [nameLess, nameKey]

/-- Statement `i` is reported as belonging in front of statement `j`. -/
inductive Wants (policy : Policy) (items : List Placed) (i j : Nat) : Prop where
  | group (target : IsTarget (groupAt items) (fun _ => True) i j)
  | sub (on : policy.ignoreInGroupSort = false) (defined : (subAt items i).isSome)
      (target : IsTarget (fun n => (subAt items n).getD 0)
        (fun n => groupAt items n = groupAt items i ∧ (subAt items n).isSome) i j)
  | name (on : policy.ignoreAlphabeticalSort = false) (named : (nameAt items i).isSome)
      (target : IsTarget (fun n => nameKey (nameAt items n))
        (fun n => groupAt items n = groupAt items i ∧
          (subAt items i = none ∨ subAt items n = subAt items i)) i j)

theorem Wants.before {policy : Policy} {items : List Placed} {i j : Nat}
    (h : Wants policy items i j) : j < i := by
  cases h with
  | group target | sub _ _ target | name _ _ target => exact target.before

/-! ### Groups -/

theorem wrongOrder_eq_some_iff {items : List Placed} {i j : Nat} {v : Violation} :
    wrongOrder items i j = some v ↔
      ∃ a b, items[i]? = some a ∧ items[j]? = some b ∧
        v = { index := i, statement := a.statement, fault := .wrongOrder j b.statement } := by
  cases hi : items[i]? <;> cases hj : items[j]? <;> simp [wrongOrder, hi, hj, eq_comm]

theorem crossGroup_eq_some_iff {items : List Placed} {i : Nat} {v : Violation} :
    crossGroup items i = some v ↔
      ∃ j, IsTarget (groupAt items) (fun _ => True) i j ∧ wrongOrder items i j = some v := by
  have hkey : ∀ n k, (items.map (·.placement.group))[n]? = some k → id k = groupAt items n := by
    intro n k h
    rw [List.getElem?_map] at h
    simp [groupAt, h]
  simp only [crossGroup, Option.bind_eq_some_iff,
    backwardTarget_eq_some_iff (fun a b => decide (a < b)) id (fun _ _ => rfl) hkey]
  constructor
  · rintro ⟨j, ⟨-, target⟩, hv⟩
    exact ⟨j, by simpa using target, hv⟩
  · rintro ⟨j, target, hv⟩
    obtain ⟨a, b, hi, -⟩ := wrongOrder_eq_some_iff.mp hv
    have hlen := (List.getElem?_eq_some_iff.mp hi).1
    exact ⟨j, ⟨by simpa using hlen, by simpa using target⟩, hv⟩

/-- Statement `i` starts its group directly below the statement before it. -/
structure Crowded (policy : Policy) (items : List Placed) (i : Nat) : Prop where
  on : policy.emptyLines = true
  starts : startsGroup items i = true
  positive : 0 < i
  touching : ∃ a b, items[i - 1]? = some a ∧ items[i]? = some b ∧
    lineBetween a.statement b.statement = false

theorem blankLine_eq_some_iff {policy : Policy} {items : List Placed} {i : Nat} {v : Violation} :
    blankLine policy items i = some v ↔
      Crowded policy items i ∧
        ∃ a, items[i]? = some a ∧
          v = { index := i, statement := a.statement, fault := .missingBlankLine } := by
  constructor
  · intro h
    simp [blankLine, Option.bind_eq_some_iff] at h
    obtain ⟨⟨⟨on, starts⟩, positive⟩, b, hb, a, ha, touching, rfl⟩ := h
    exact ⟨⟨on, starts, positive, a, b, ha, hb, touching⟩, b, hb, rfl⟩
  · rintro ⟨⟨on, starts, positive, a, b, ha, hb, touching⟩, c, hc, rfl⟩
    obtain rfl : b = c := Option.some_injective _ (hb.symm.trans hc)
    simp [blankLine, on, starts, positive, ha, hb, touching]

theorem mem_checkGroups {policy : Policy} {items : List Placed} {v : Violation} :
    v ∈ checkGroups policy items ↔
      ∃ i, crossGroup items i = some v ∨ blankLine policy items i = some v := by
  simp only [checkGroups, List.mem_flatMap, List.mem_append, Option.mem_toList, List.mem_range]
  constructor
  · rintro ⟨i, -, h⟩
    exact ⟨i, h⟩
  · rintro ⟨i, h⟩
    refine ⟨i, ?_, h⟩
    rcases h with h | h
    · obtain ⟨j, -, hv⟩ := crossGroup_eq_some_iff.mp h
      obtain ⟨a, b, hi, -⟩ := wrongOrder_eq_some_iff.mp hv
      exact (List.getElem?_eq_some_iff.mp hi).1
    · obtain ⟨-, a, hi, -⟩ := blankLine_eq_some_iff.mp h
      exact (List.getElem?_eq_some_iff.mp hi).1

/-! ### Inside a group -/

section Bucket

variable {policy : Policy} {items : List Placed} {g : Nat} {v : Violation}

abbrev membersOf (items : List Placed) (g : Nat) : List Nat :=
  bucket (items.map (·.placement.group)) g

theorem mem_membersOf {n : Nat} :
    n ∈ membersOf items g ↔ n < items.length ∧ groupAt items n = g := by
  rw [mem_bucket, List.getElem?_map]
  by_cases h : n < items.length <;> simp [groupAt, h]

theorem getElem?_pick (n : Nat) :
    (pick items (membersOf items g))[n]? = (membersOf items g)[n]?.bind (items[·]?) := by
  have inside : ∀ m ∈ membersOf items g, ∃ a, items[m]? = some a := by
    intro m hm
    exact ⟨_, List.getElem?_eq_getElem (mem_membersOf.mp hm).1⟩
  generalize membersOf items g = members at inside
  induction members generalizing n with
  | nil => simp [pick]
  | cons m rest ih =>
      obtain ⟨a, ha⟩ := inside m List.mem_cons_self
      have hrest := fun n => ih n fun k hk => inside k (List.mem_cons_of_mem m hk)
      cases n with
      | zero => simp [pick, ha]
      | succ n => simpa [pick, ha] using hrest n

theorem length_pick : (pick items (membersOf items g)).length = (membersOf items g).length := by
  apply Nat.le_antisymm
  · exact List.length_filterMap_le _ _
  · by_contra h
    rw [Nat.not_le] at h
    have hnone := List.getElem?_eq_none_iff.mpr (Nat.le_refl (pick items (membersOf items g)).length)
    rw [getElem?_pick, List.getElem?_eq_getElem h, Option.bind_some] at hnone
    have := (mem_membersOf.mp (List.getElem_mem h)).1
    simp [List.getElem?_eq_getElem this] at hnone

theorem against_eq_some_iff {members : List Nat} {p t : Nat} :
    against items members p t = some v ↔
      ∃ i j, members[p]? = some i ∧ members[t]? = some j ∧ wrongOrder items i j = some v := by
  simp only [against, Option.bind_eq_bind, Option.bind_eq_some_iff]
  constructor
  · rintro ⟨i, hi, j, hj, hv⟩
    exact ⟨i, j, hi, hj, hv⟩
  · rintro ⟨i, j, hi, hj, hv⟩
    exact ⟨i, hi, j, hj, hv⟩

theorem getD_members {n m : Nat} (h : (membersOf items g)[n]? = some m) :
    (membersOf items g).getD n 0 = m := by
  simp [List.getD, h]

theorem pick_sub (n : Nat) :
    (((pick items (membersOf items g)).map (·.placement.sub))[n]?).join =
      (membersOf items g)[n]?.bind (subAt items) := by
  rw [List.getElem?_map, getElem?_pick]
  cases hn : (membersOf items g)[n]? with
  | none => simp
  | some m => cases hm : items[m]? <;> simp [subAt, hm]

theorem pick_name (n : Nat) :
    (((pick items (membersOf items g)).map (·.statement.firstName))[n]?).join =
      (membersOf items g)[n]?.bind (nameAt items) := by
  rw [List.getElem?_map, getElem?_pick]
  cases hn : (membersOf items g)[n]? with
  | none => simp
  | some m => cases hm : items[m]? <;> simp [nameAt, hm]

theorem mem_members_of_wrongOrder {i j : Nat} (h : wrongOrder items i j = some v)
    (hi : groupAt items i = g) (hj : groupAt items j = g) :
    ∃ p t : Nat, (membersOf items g)[p]? = some i ∧ (membersOf items g)[t]? = some j := by
  obtain ⟨a, b, ha, hb, -⟩ := wrongOrder_eq_some_iff.mp h
  have hilen := (List.getElem?_eq_some_iff.mp ha).1
  have hjlen := (List.getElem?_eq_some_iff.mp hb).1
  obtain ⟨p, hp⟩ := List.mem_iff_getElem?.mp (mem_membersOf.mpr ⟨hilen, hi⟩)
  obtain ⟨t, ht⟩ := List.mem_iff_getElem?.mp (mem_membersOf.mpr ⟨hjlen, hj⟩)
  exact ⟨p, t, hp, ht⟩

/-- A scan over a bucket finds the target among the statements of the group. -/
theorem backwardTarget_members {L κ : Type} [LinearOrder L] (less : κ → κ → Bool) (f : κ → L)
    (hless : ∀ a b, less a b = decide (f a < f b)) {keys : List κ} {key : Nat → L}
    {ok : Nat → Prop} {eligible : Nat → Bool} {p t i j : Nat}
    (hlen : keys.length = (membersOf items g).length)
    (hkey : ∀ n k, keys[n]? = some k → f k = key ((membersOf items g).getD n 0))
    (hok : ∀ n m : Nat, (membersOf items g)[n]? = some m → (eligible n = true ↔ ok m))
    (hp : (membersOf items g)[p]? = some i) (ht : (membersOf items g)[t]? = some j) :
    backwardTarget less keys eligible p = some t ↔
      IsTarget key (fun n => groupAt items n = g ∧ ok n) i j := by
  have hplen : p < (membersOf items g).length := (List.getElem?_eq_some_iff.mp hp).1
  have hi : i < items.length := (mem_membersOf.mp (List.mem_of_getElem? hp)).1
  have inBucket : IsTarget (fun n => key ((membersOf items g).getD n 0))
      (fun n => n < (membersOf items g).length ∧ ok ((membersOf items g).getD n 0)) p t ↔
        IsTarget key (fun n => n ∈ membersOf items g ∧ ok n) i j :=
    isTarget_members (bucket_increasing _ _) hp ht
  have heligible : ∀ n < p, (eligible n = true ↔
      n < (membersOf items g).length ∧ ok ((membersOf items g).getD n 0)) := by
    intro n hn
    have hn' := List.getElem?_eq_getElem (hn.trans hplen)
    rw [hok n _ hn', getD_members hn']
    exact (and_iff_right (hn.trans hplen)).symm
  have hgroup : ∀ n < i, (n ∈ membersOf items g ∧ ok n ↔ groupAt items n = g ∧ ok n) := by
    intro n hn
    rw [mem_membersOf]
    exact and_congr_left fun _ => and_iff_right (hn.trans hi)
  rw [backwardTarget_eq_some_iff less f hless hkey, hlen, and_iff_right hplen]
  constructor
  · intro target
    have moved := target.congr rfl (fun _ _ _ => rfl) heligible
    exact (inBucket.mp moved).congr rfl (fun _ _ _ => rfl) hgroup
  · intro target
    have moved := target.congr rfl (fun _ _ _ => rfl) fun n hn => (hgroup n hn).symm
    exact (inBucket.mpr moved).congr rfl (fun _ _ _ => rfl) fun n hn => (heligible n hn).symm

/-- What a scan over a bucket reports of the member at one position. -/
theorem scan_eq_some_iff {L κ : Type} [LinearOrder L] (less : κ → κ → Bool) (f : κ → L)
    (hless : ∀ a b, less a b = decide (f a < f b)) {keys : List κ} {key : Nat → L}
    {ok : Nat → Prop} {eligible : Nat → Bool} {p i : Nat}
    (hlen : keys.length = (membersOf items g).length)
    (hkey : ∀ n k, keys[n]? = some k → f k = key ((membersOf items g).getD n 0))
    (hok : ∀ n m : Nat, (membersOf items g)[n]? = some m → (eligible n = true ↔ ok m))
    (hp : (membersOf items g)[p]? = some i) :
    (backwardTarget less keys eligible p).bind (against items (membersOf items g) p) = some v ↔
      ∃ j, IsTarget key (fun n => groupAt items n = g ∧ ok n) i j ∧ wrongOrder items i j = some v := by
  simp only [Option.bind_eq_some_iff, against_eq_some_iff]
  constructor
  · rintro ⟨t, target, i', j, hi, hj, hv⟩
    obtain rfl := Option.some_injective _ (hp.symm.trans hi)
    exact ⟨j, (backwardTarget_members less f hless hlen hkey hok hp hj).mp target, hv⟩
  · rintro ⟨j, target, hv⟩
    have hgroup := (mem_membersOf.mp (List.mem_of_getElem? hp)).2
    obtain ⟨-, t, -, ht⟩ := mem_members_of_wrongOrder hv hgroup target.admissible.1
    exact ⟨t, (backwardTarget_members less f hless hlen hkey hok hp ht).mpr target, i, j, hp, ht, hv⟩

theorem subScan_eq_some_iff {p i : Nat} (hp : (membersOf items g)[p]? = some i) :
    (backwardTarget (fun a b => decide (a < b))
        (((pick items (membersOf items g)).map (·.placement.sub)).map (·.getD 0))
        (fun n => (((pick items (membersOf items g)).map (·.placement.sub))[n]?.join).isSome) p).bind
          (against items (membersOf items g) p) = some v ↔
      ∃ j, IsTarget (fun n => (subAt items n).getD 0)
        (fun n => groupAt items n = g ∧ (subAt items n).isSome) i j ∧
          wrongOrder items i j = some v := by
  refine scan_eq_some_iff _ id (fun _ _ => rfl) (by simp [length_pick]) ?_ ?_ hp
  · intro n k h
    rw [List.getElem?_map, List.getElem?_map, getElem?_pick] at h
    obtain ⟨sub, hsub, rfl⟩ := Option.map_eq_some_iff.mp h
    obtain ⟨a, ha, rfl⟩ := Option.map_eq_some_iff.mp hsub
    obtain ⟨m, hm, ha⟩ := Option.bind_eq_some_iff.mp ha
    rw [getD_members hm]
    simp [subAt, ha]
  · intro n m hm
    rw [pick_sub, hm, Option.bind_some]

theorem nameScan_eq_some_iff {p i : Nat} (hp : (membersOf items g)[p]? = some i) :
    (backwardTarget nameLess ((pick items (membersOf items g)).map (·.statement.firstName))
        (fun n => ((pick items (membersOf items g)).map (·.placement.sub))[p]?.join.isNone ||
          ((pick items (membersOf items g)).map (·.placement.sub))[n]?.join ==
            ((pick items (membersOf items g)).map (·.placement.sub))[p]?.join) p).bind
          (against items (membersOf items g) p) = some v ↔
      ∃ j, IsTarget (fun n => nameKey (nameAt items n))
        (fun n => groupAt items n = g ∧
          (subAt items i = none ∨ subAt items n = subAt items i)) i j ∧
          wrongOrder items i j = some v := by
  refine scan_eq_some_iff _ nameKey nameLess_eq (by simp [length_pick]) ?_ ?_ hp
  · intro n k h
    rw [List.getElem?_map, getElem?_pick] at h
    obtain ⟨a, ha, rfl⟩ := Option.map_eq_some_iff.mp h
    obtain ⟨m, hm, ha⟩ := Option.bind_eq_some_iff.mp ha
    rw [getD_members hm]
    simp [nameAt, ha]
  · intro n m hm
    rw [pick_sub, pick_sub, hp, hm, Option.bind_some, Option.bind_some]
    simp

theorem mem_checkSubOrder :
    v ∈ checkSubOrder policy items (membersOf items g) ↔
      policy.ignoreInGroupSort = false ∧
        ∃ i j, groupAt items i = g ∧ (subAt items i).isSome ∧
          IsTarget (fun n => (subAt items n).getD 0)
            (fun n => groupAt items n = g ∧ (subAt items n).isSome) i j ∧
          wrongOrder items i j = some v := by
  unfold checkSubOrder
  by_cases hon : policy.ignoreInGroupSort = true
  · simp [hon]
  · simp only [hon, Bool.false_eq_true, if_false, List.mem_filterMap, List.mem_range,
      Option.ite_none_right_eq_some]
    constructor
    · rintro ⟨p, hp, hsub, hv⟩
      have hi := List.getElem?_eq_getElem (show p < (membersOf items g).length by
        simpa [length_pick] using hp)
      obtain ⟨j, target, hv⟩ := (subScan_eq_some_iff hi).mp hv
      rw [pick_sub, hi, Option.bind_some] at hsub
      exact ⟨trivial, _, j, (mem_membersOf.mp (List.mem_of_getElem? hi)).2, hsub, target, hv⟩
    · rintro ⟨-, i, j, hgroup, hsub, target, hv⟩
      obtain ⟨p, -, hp, -⟩ := mem_members_of_wrongOrder hv hgroup target.admissible.1
      have hplen := (List.getElem?_eq_some_iff.mp hp).1
      refine ⟨p, by simpa [length_pick] using hplen, ?_, (subScan_eq_some_iff hp).mpr ⟨j, target, hv⟩⟩
      rwa [pick_sub, hp, Option.bind_some]

theorem mem_checkAlphabetical :
    v ∈ checkAlphabetical policy items (membersOf items g) ↔
      policy.ignoreAlphabeticalSort = false ∧
        ∃ i j, groupAt items i = g ∧ (nameAt items i).isSome ∧
          IsTarget (fun n => nameKey (nameAt items n))
            (fun n => groupAt items n = g ∧
              (subAt items i = none ∨ subAt items n = subAt items i)) i j ∧
          wrongOrder items i j = some v := by
  unfold checkAlphabetical
  by_cases hon : policy.ignoreAlphabeticalSort = true
  · simp [hon]
  · simp only [hon, Bool.false_eq_true, if_false, List.mem_filterMap, List.mem_range,
      Option.ite_none_right_eq_some]
    constructor
    · rintro ⟨p, hp, hname, hv⟩
      have hi := List.getElem?_eq_getElem (show p < (membersOf items g).length by
        simpa [length_pick] using hp)
      obtain ⟨j, target, hv⟩ := (nameScan_eq_some_iff hi).mp hv
      rw [pick_name, hi, Option.bind_some] at hname
      exact ⟨trivial, _, j, (mem_membersOf.mp (List.mem_of_getElem? hi)).2, hname, target, hv⟩
    · rintro ⟨-, i, j, hgroup, hname, target, hv⟩
      obtain ⟨p, -, hp, -⟩ := mem_members_of_wrongOrder hv hgroup target.admissible.1
      have hplen := (List.getElem?_eq_some_iff.mp hp).1
      refine ⟨p, by simpa [length_pick] using hplen, ?_,
        (nameScan_eq_some_iff hp).mpr ⟨j, target, hv⟩⟩
      rwa [pick_name, hp, Option.bind_some]

theorem mem_checkBucket :
    v ∈ checkBucket policy items (membersOf items g) ↔
      v ∈ checkSubOrder policy items (membersOf items g) ∨
        (∃ i a, items[i]? = some a ∧ a.placement.group = g ∧
          checkMembers policy i a.statement = some v) ∨
        v ∈ checkAlphabetical policy items (membersOf items g) := by
  simp only [checkBucket, List.mem_append, List.mem_filterMap, Option.bind_eq_some_iff, or_assoc]
  refine or_congr_right (or_congr_left ?_)
  constructor
  · rintro ⟨i, hi, a, ha, hv⟩
    have hgroup := (mem_membersOf.mp hi).2
    exact ⟨i, a, ha, by simpa [groupAt, ha] using hgroup, hv⟩
  · rintro ⟨i, a, ha, hgroup, hv⟩
    have hlen := (List.getElem?_eq_some_iff.mp ha).1
    exact ⟨i, mem_membersOf.mpr ⟨hlen, by simpa [groupAt, ha] using hgroup⟩, a, ha, hv⟩

end Bucket

theorem mem_checkOrder {policy : Policy} {items : List Placed} {v : Violation} :
    v ∈ checkOrder policy items ↔
      (∃ i j, Wants policy items i j ∧ wrongOrder items i j = some v) ∨
      (∃ i, blankLine policy items i = some v) ∨
      ∃ i a, items[i]? = some a ∧ checkMembers policy i a.statement = some v := by
  have hgroup : ∀ {i : Nat} {a : Placed}, items[i]? = some a →
      a.placement.group ∈ items.map (·.placement.group) := by
    intro i a ha
    exact List.mem_map_of_mem (List.mem_of_getElem? ha)
  simp only [checkOrder, List.mem_mergeSort, List.mem_append, mem_checkGroups, List.mem_flatMap,
    mem_partition]
  constructor
  · rintro (⟨i, hv | hv⟩ | ⟨-, ⟨g, -, rfl⟩, hv⟩)
    · obtain ⟨j, target, hv⟩ := crossGroup_eq_some_iff.mp hv
      exact .inl ⟨i, j, .group target, hv⟩
    · exact .inr (.inl ⟨i, hv⟩)
    · rcases mem_checkBucket.mp hv with hv | ⟨i, a, ha, -, hv⟩ | hv
      · obtain ⟨on, i, j, rfl, defined, target, hv⟩ := mem_checkSubOrder.mp hv
        exact .inl ⟨i, j, .sub on defined target, hv⟩
      · exact .inr (.inr ⟨i, a, ha, hv⟩)
      · obtain ⟨on, i, j, rfl, named, target, hv⟩ := mem_checkAlphabetical.mp hv
        exact .inl ⟨i, j, .name on named target, hv⟩
  · rintro (⟨i, j, wants, hv⟩ | ⟨i, hv⟩ | ⟨i, a, ha, hv⟩)
    · obtain ⟨a, b, ha, -⟩ := wrongOrder_eq_some_iff.mp hv
      have hi : groupAt items i = a.placement.group := by simp [groupAt, ha]
      cases wants with
      | group target => exact .inl ⟨i, .inl (crossGroup_eq_some_iff.mpr ⟨j, target, hv⟩)⟩
      | sub on defined target =>
          refine .inr ⟨_, ⟨_, hgroup ha, rfl⟩, mem_checkBucket.mpr (.inl ?_)⟩
          exact mem_checkSubOrder.mpr ⟨on, i, j, hi, defined, hi ▸ target, hv⟩
      | name on named target =>
          refine .inr ⟨_, ⟨_, hgroup ha, rfl⟩, mem_checkBucket.mpr (.inr (.inr ?_))⟩
          exact mem_checkAlphabetical.mpr ⟨on, i, j, hi, named, hi ▸ target, hv⟩
    · exact .inl ⟨i, .inr hv⟩
    · exact .inr ⟨_, ⟨_, hgroup ha, rfl⟩, mem_checkBucket.mpr (.inr (.inl ⟨i, a, ha, rfl, hv⟩))⟩

end Placed
end ImportOrder
