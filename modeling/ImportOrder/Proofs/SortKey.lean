import ImportOrder.Proofs.Placements

/-!
The key by which statements end up sorted: the slot, the sub-pattern, and the first name unless names
do not count. Every wrong-order report points at a larger key; where slots do not mix placements with
and without a sub-pattern, a sequence without such reports is sorted.
-/

namespace ImportOrder

/-- Slot, sub-pattern (a missing one first) and first name (a missing one last). -/
abbrev SortKey : Type := Nat ×ₗ WithBot Int ×ₗ WithTop String

def subKey : Option Int → WithBot Int
  | some sub => sub
  | none => ⊥

def Policy.sortKey (policy : Policy) (placement : Placement) (name : Option String) : SortKey :=
  toLex (placement.group, toLex (subKey placement.sub,
    if policy.ignoreAlphabeticalSort then ⊤ else Placed.nameKey name))

theorem subKey_injective : Function.Injective subKey := by
  rintro (_ | a) (_ | b) h <;> simp_all [subKey]

theorem Placed.nameKey_injective : Function.Injective Placed.nameKey := by
  rintro (_ | a) (_ | b) h <;> simp_all [Placed.nameKey]

namespace Placed

variable {policy : Policy} {items : List Placed} {i j l : Nat} {a b c : Placed}

def key (policy : Policy) (x : Placed) : SortKey :=
  policy.sortKey x.placement x.statement.firstName

theorem key_lt_iff :
    a.key policy < b.key policy ↔
      a.placement.group < b.placement.group ∨ a.placement.group = b.placement.group ∧
        (subKey a.placement.sub < subKey b.placement.sub ∨
          a.placement.sub = b.placement.sub ∧ policy.ignoreAlphabeticalSort = false ∧
            nameKey a.statement.firstName < nameKey b.statement.firstName) := by
  rw [key, key, Policy.sortKey, Policy.sortKey, Prod.Lex.toLex_lt_toLex, Prod.Lex.toLex_lt_toLex,
    subKey_injective.eq_iff]
  cases policy.ignoreAlphabeticalSort <;> simp

theorem key_eq_iff :
    a.key policy = b.key policy ↔
      a.placement = b.placement ∧ (policy.ignoreAlphabeticalSort = true ∨
        a.statement.firstName = b.statement.firstName) := by
  obtain ⟨s, g, u⟩ := a
  obtain ⟨t, h, w⟩ := b
  rw [key, key, Policy.sortKey, Policy.sortKey, toLex_inj, Prod.mk.injEq, toLex_inj, Prod.mk.injEq,
    subKey_injective.eq_iff, Placement.mk.injEq]
  cases policy.ignoreAlphabeticalSort <;> simp [nameKey_injective.eq_iff, and_assoc]

theorem groupAt_of_getElem? (h : items[i]? = some a) : groupAt items i = a.placement.group := by
  simp [groupAt, h]

theorem subAt_of_getElem? (h : items[i]? = some a) : subAt items i = a.placement.sub := by
  simp [subAt, h]

theorem nameAt_of_getElem? (h : items[i]? = some a) : nameAt items i = a.statement.firstName := by
  simp [nameAt, h]

/-- A report always points at a larger key. -/
theorem Wants.key_lt (h : Wants policy items i j) (ha : items[i]? = some a)
    (hb : items[j]? = some b) : a.key policy < b.key policy := by
  rw [key_lt_iff]
  cases h with
  | group target =>
      have := target.above
      rw [groupAt_of_getElem? ha, groupAt_of_getElem? hb] at this
      exact .inl this
  | sub _ defined target =>
      have hgroup := target.admissible.1
      have habove := target.above
      have hdefined := target.admissible.2
      simp only [groupAt_of_getElem? ha, groupAt_of_getElem? hb] at hgroup
      simp only [subAt_of_getElem? ha, subAt_of_getElem? hb] at defined habove hdefined
      obtain ⟨u, hu⟩ := Option.isSome_iff_exists.mp defined
      obtain ⟨w, hw⟩ := Option.isSome_iff_exists.mp hdefined
      rw [hu, hw] at habove ⊢
      exact .inr ⟨hgroup.symm, .inl (by simpa [subKey] using habove)⟩
  | name on _ target =>
      have hgroup := target.admissible.1
      have habove := target.above
      have hsub := target.admissible.2
      simp only [groupAt_of_getElem? ha, groupAt_of_getElem? hb] at hgroup
      simp only [nameAt_of_getElem? ha, nameAt_of_getElem? hb] at habove
      simp only [subAt_of_getElem? ha, subAt_of_getElem? hb] at hsub
      refine .inr ⟨hgroup.symm, ?_⟩
      rcases hsub with hnone | hsame
      · cases hb' : b.placement.sub with
        | none => exact .inr ⟨hnone, on, habove⟩
        | some w => exact .inl (by simp [hnone, subKey])
      · exact .inr ⟨hsame.symm, on, habove⟩

/-- A statement between the target and a statement of the same key has the same target. -/
theorem Wants.of_same_key (h : Wants policy items i j) (hjl : j < l) (hli : l ≤ i)
    (ha : items[i]? = some a) (hc : items[l]? = some c) (same : c.key policy = a.key policy) :
    Wants policy items l j := by
  obtain ⟨hplace, hname⟩ := key_eq_iff.mp same
  have hgroup : groupAt items l = groupAt items i := by
    rw [groupAt_of_getElem? ha, groupAt_of_getElem? hc, hplace]
  have hsub : subAt items l = subAt items i := by
    rw [subAt_of_getElem? ha, subAt_of_getElem? hc, hplace]
  cases h with
  | group target => exact .group (target.of_same_key hjl hli hgroup)
  | sub on defined target =>
      refine .sub on (hsub ▸ defined) ?_
      rw [hgroup]
      exact target.of_same_key hjl hli (by simp only [hsub])
  | name on named target =>
      have hname : nameAt items l = nameAt items i := by
        rw [nameAt_of_getElem? ha, nameAt_of_getElem? hc]
        exact hname.resolve_left (by simp [on])
      refine .name on (hname ▸ named) ?_
      rw [hgroup, hsub]
      exact target.of_same_key hjl hli (by simp only [hname])

/-! Below a statement `b` of a larger key stands `a`. Whichever part of the key is larger, the check
of that part reports `a`, and it names a statement that comes no later than `b` or has a smaller
key. -/

section Below

variable (hji : j < i) (ha : items[i]? = some a) (hb : items[j]? = some b)
include hji ha hb

theorem exists_wants_of_group (hgroup : a.placement.group < b.placement.group) :
    ∃ k, Wants policy items i k ∧
      (k ≤ j ∨ ∀ c, items[k]? = some c → c.key policy < b.key policy) := by
  have above : groupAt items i < groupAt items j := by
    rwa [groupAt_of_getElem? ha, groupAt_of_getElem? hb]
  obtain ⟨k, target⟩ := IsTarget.exists_of_above _ (fun _ => True) hji trivial above
  refine ⟨k, .group target, (target.le_or_lt trivial above).imp_right fun less c hc => ?_⟩
  rw [groupAt_of_getElem? hc, groupAt_of_getElem? hb] at less
  exact key_lt_iff.mpr (.inl less)

theorem exists_wants_of_sub (on : policy.ignoreInGroupSort = false)
    (hgroup : a.placement.group = b.placement.group) {u w : Int} (hu : a.placement.sub = some u)
    (hw : b.placement.sub = some w) (huw : u < w) :
    ∃ k, Wants policy items i k ∧
      (k ≤ j ∨ ∀ c, items[k]? = some c → c.key policy < b.key policy) := by
  have above : (subAt items i).getD 0 < (subAt items j).getD 0 := by
    simpa [subAt_of_getElem? ha, subAt_of_getElem? hb, hu, hw] using huw
  have hok : groupAt items j = groupAt items i ∧ (subAt items j).isSome := by
    rw [groupAt_of_getElem? ha, groupAt_of_getElem? hb, subAt_of_getElem? hb, hw]
    exact ⟨hgroup.symm, rfl⟩
  obtain ⟨k, target⟩ := IsTarget.exists_of_above (fun n => (subAt items n).getD 0)
    (fun n => groupAt items n = groupAt items i ∧ (subAt items n).isSome) hji hok above
  refine ⟨k, .sub on ?_ target, (target.le_or_lt hok above).imp_right fun less c hc => ?_⟩
  · rw [subAt_of_getElem? ha, hu]
    rfl
  · obtain ⟨hgroup', hdefined⟩ := target.admissible
    rw [subAt_of_getElem? hc] at hdefined
    obtain ⟨t, ht⟩ := Option.isSome_iff_exists.mp hdefined
    rw [groupAt_of_getElem? hc, groupAt_of_getElem? ha] at hgroup'
    refine key_lt_iff.mpr (.inr ⟨hgroup'.trans hgroup, .inl ?_⟩)
    simpa [subAt_of_getElem? hc, subAt_of_getElem? hb, ht, hw, subKey] using less

theorem exists_wants_of_name (on : policy.ignoreAlphabeticalSort = false)
    (pure : ∀ c ∈ items, a.placement.group = c.placement.group →
      (a.placement.sub.isSome ↔ c.placement.sub.isSome))
    (hgroup : a.placement.group = b.placement.group) (hsub : a.placement.sub = b.placement.sub)
    (hname : nameKey a.statement.firstName < nameKey b.statement.firstName) :
    ∃ k, Wants policy items i k ∧
      (k ≤ j ∨ ∀ c, items[k]? = some c → c.key policy < b.key policy) := by
  have above : nameKey (nameAt items i) < nameKey (nameAt items j) := by
    rwa [nameAt_of_getElem? ha, nameAt_of_getElem? hb]
  have hok : groupAt items j = groupAt items i ∧
      (subAt items i = none ∨ subAt items j = subAt items i) := by
    rw [groupAt_of_getElem? ha, groupAt_of_getElem? hb, subAt_of_getElem? ha,
      subAt_of_getElem? hb]
    exact ⟨hgroup.symm, .inr hsub.symm⟩
  obtain ⟨k, target⟩ := IsTarget.exists_of_above (fun n => nameKey (nameAt items n))
    (fun n => groupAt items n = groupAt items i ∧
      (subAt items i = none ∨ subAt items n = subAt items i)) hji hok above
  refine ⟨k, .name on ?_ target, (target.le_or_lt hok above).imp_right fun less c hc => ?_⟩
  · cases hn : nameAt items i with
    | none => simp [hn, nameKey] at above
    | some name => rfl
  · obtain ⟨hgroup', hsub'⟩ := target.admissible
    rw [groupAt_of_getElem? hc, groupAt_of_getElem? ha] at hgroup'
    rw [nameAt_of_getElem? hc, nameAt_of_getElem? hb] at less
    -- A target with a sub-pattern for a statement without one is what `pure` excludes.
    have hsame : c.placement.sub = a.placement.sub := by
      rw [subAt_of_getElem? hc, subAt_of_getElem? ha] at hsub'
      rcases hsub' with hnone | hsame
      · simpa [hnone] using pure c (List.mem_of_getElem? hc) hgroup'.symm
      · exact hsame
    exact key_lt_iff.mpr (.inr ⟨hgroup'.trans hgroup, .inr ⟨hsame.trans hsub, on, less⟩⟩)

/-- Where a slot has sub-patterns for all or none of its statements, a statement that stands below
one with a larger key is reported. The report names one that comes no later or has a smaller key. -/
theorem exists_wants (on : policy.ignoreInGroupSort = false)
    (pure : ∀ c ∈ items, a.placement.group = c.placement.group →
      (a.placement.sub.isSome ↔ c.placement.sub.isSome))
    (hlt : a.key policy < b.key policy) :
    ∃ k, Wants policy items i k ∧
      (k ≤ j ∨ ∀ c, items[k]? = some c → c.key policy < b.key policy) := by
  rcases key_lt_iff.mp hlt with hgroup | ⟨hgroup, hsub | ⟨hsub, halpha, hname⟩⟩
  · exact exists_wants_of_group hji ha hb hgroup
  · have pure' := pure b (List.mem_of_getElem? hb) hgroup
    cases hu : a.placement.sub with
    | none =>
        have hw : b.placement.sub = none := by
          simpa [hu] using pure'
        simp [hu, hw] at hsub
    | some u =>
        obtain ⟨w, hw⟩ := Option.isSome_iff_exists.mp (pure'.mp (by simp [hu]))
        exact exists_wants_of_sub hji ha hb on hgroup hu hw
          (by simpa [hu, hw, subKey] using hsub)
  · exact exists_wants_of_name hji ha hb halpha pure hgroup hsub hname

end Below

/-- Where a slot has sub-patterns for all or none of its statements, a sequence in which nothing
is reported is sorted. -/
theorem sorted_of_forall_not_wants (on : policy.ignoreInGroupSort = false)
    (pure : ∀ a ∈ items, ∀ b ∈ items, a.placement.group = b.placement.group →
      (a.placement.sub.isSome ↔ b.placement.sub.isSome))
    (clean : ∀ i j, i < items.length → ¬ Wants policy items i j) :
    items.Pairwise fun a b => a.key policy ≤ b.key policy := by
  rw [List.pairwise_iff_getElem]
  intro j i hj hi hji
  by_contra hlt
  obtain ⟨k, wants, -⟩ := exists_wants hji (List.getElem?_eq_getElem hi)
    (List.getElem?_eq_getElem hj) on (pure _ (List.getElem_mem hi)) (not_le.mp hlt)
  exact clean i k hi wants

end Placed

theorem Policy.Resolved.pure_placed {policy : Policy} (resolved : policy.Resolved)
    (free : ∀ g ∈ policy.groups, g.1 ≠ Settings.everythingElse) (statements : List Statement) :
    ∀ a ∈ policy.placed statements, ∀ b ∈ policy.placed statements,
      a.placement.group = b.placement.group →
      (a.placement.sub.isSome ↔ b.placement.sub.isSome) := by
  intro a ha b hb hgroup
  obtain ⟨s, -, rfl⟩ := List.mem_map.mp ha
  obtain ⟨t, -, rfl⟩ := List.mem_map.mp hb
  rw [resolved.sub_isSome_iff free, resolved.sub_isSome_iff free, hgroup]

/-- Where no wrong order is reported the statements are sorted, unless a group has the name of the
everything-else token. -/
theorem placed_sorted_of_ordered {policy : Policy} {newline : Text} {statements : List Statement}
    {violations : List Violation} (resolved : policy.Resolved)
    (on : policy.ignoreInGroupSort = false)
    (free : ∀ g ∈ policy.groups, g.1 ≠ Settings.everythingElse)
    (h : checkStatements policy newline statements = .ok violations)
    (ordered : ∀ v ∈ violations, v.kind ≠ .wrongOrder) :
    (policy.placed statements).Pairwise fun a b => a.key policy ≤ b.key policy := by
  have clean : ∀ i j, i < (policy.placed statements).length →
      ¬ Placed.Wants policy (policy.placed statements) i j := by
    intro i j hi wants
    rw [Policy.placed, List.length_map] at hi
    refine ordered _ ((mem_of_checkStatements h).mpr (.inl ⟨i, j, _, _, wants,
      List.getElem?_eq_getElem hi, List.getElem?_eq_getElem (wants.before.trans hi), rfl⟩)) rfl
  exact Placed.sorted_of_forall_not_wants on (resolved.pure_placed free statements) clean

end ImportOrder
