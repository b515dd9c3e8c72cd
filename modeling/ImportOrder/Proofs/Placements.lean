import ImportOrder.Proofs.Reports

/-!
Policies that were built from a value, and what checking under them relies on. Each pattern is the
reading of its token, so every slot is one of the policy's, and inside one slot either all placements
name a sub-pattern or none does. Checking under such a policy always gives a list of violations.
-/

namespace ImportOrder

/-! ### Reading the patterns of a policy -/

theorem bind_eq_ok_iff {ε α β : Type} {x : Except ε α} {f : α → Except ε β} {b : β} :
    (x >>= f) = .ok b ↔ ∃ a, x = .ok a ∧ f a = .ok b := by
  cases x <;> simp [bind, Except.bind]

def failureOf {ε α : Type} : Except ε α → Option ε
  | .ok _ => none
  | .error e => some e

theorem failureOf_eq_some {ε α : Type} {x : Except ε α} {e : ε} :
    failureOf x = some e ↔ x = .error e := by
  cases x <;> simp [failureOf]

theorem forall₂_of_mapM_eq_ok {ε α β : Type} {f : α → Except ε β} {xs : List α} {ys : List β}
    (h : xs.mapM f = .ok ys) : List.Forall₂ (fun x y => f x = .ok y) xs ys := by
  induction xs generalizing ys with
  | nil =>
      rw [List.mapM_nil] at h
      cases h
      exact .nil
  | cons x rest ih =>
      rw [List.mapM_cons] at h
      obtain ⟨y, hy, h⟩ := bind_eq_ok_iff.mp h
      obtain ⟨more, hmore, h⟩ := bind_eq_ok_iff.mp h
      cases h
      exact .cons hy (ih hmore)

private theorem map_fst_eq_of_forall₂ {α β γ : Type} {xs : List (α × β)} {ys : List (α × γ)}
    (h : List.Forall₂ (fun x y => y.1 = x.1) xs ys) : ys.map (·.1) = xs.map (·.1) := by
  induction h with
  | nil => rfl
  | cons hx _ ih => rw [List.map_cons, List.map_cons, hx, ih]

theorem Pattern.eq_of_parse_eq_group {compile : Regex.Compiler} {names : List String}
    {token name : String} (h : parse compile names token = .ok (.group name)) :
    name = token ∧ token ∈ names := by
  unfold parse at h
  split at h
  · split at h <;> cases h
  · split at h
    · next hname =>
        cases h
        exact ⟨rfl, List.contains_iff_mem.mp hname⟩
    · cases h

namespace Policy

variable {compile : Regex.Compiler}

/-- The patterns of the policy are its tokens, read with its own groups. -/
def ResolvedBy (compile : Regex.Compiler) (p : Policy) : Prop :=
  List.Forall₂
    (fun token pattern => Pattern.parse compile (p.groups.map (·.1)) token = .ok pattern)
    p.order p.patterns

/-- What checking relies on is the same for every compiler. -/
def Resolved (p : Policy) : Prop := ∃ compile, p.ResolvedBy compile

theorem resolvedBy_of_resolve {entries : List (Value × Value)} {p : Policy}
    (h : resolve compile entries = .ok p) : p.ResolvedBy compile := by
  rw [resolve] at h
  obtain ⟨groups, hgroups, h⟩ := bind_eq_ok_iff.mp h
  obtain ⟨patterns, hpatterns, h⟩ := bind_eq_ok_iff.mp h
  cases h
  have names : groups.map (·.1) = (groupTokens entries).map (·.1) := by
    have same : List.Forall₂ (fun token group => group.1 = token.1) (groupTokens entries) groups :=
      (forall₂_of_mapM_eq_ok hgroups).imp fun token group hx => by
        obtain ⟨subs, -, hx⟩ := bind_eq_ok_iff.mp hx
        cases hx
        rfl
    exact map_fst_eq_of_forall₂ same
  rw [ResolvedBy, names]
  exact forall₂_of_mapM_eq_ok hpatterns

theorem exists_resolve_of_ofValue {data : Value} {path : Option String} {p : Policy}
    (h : ofValue compile data path = .ok p) :
    ∃ entries, data = .map entries ∧ problems data = [] ∧ resolve compile entries = .ok p := by
  unfold ofValue at h
  split at h
  · next entries hproblems =>
      cases hr : resolve compile entries with
      | error e =>
          rw [hr] at h
          cases h
      | ok q =>
          rw [hr] at h
          cases h
          exact ⟨entries, rfl, hproblems, hr⟩
  · cases h

theorem resolved_of_ofValue {data : Value} {path : Option String} {p : Policy}
    (h : ofValue compile data path = .ok p) : p.Resolved := by
  obtain ⟨entries, -, -, hr⟩ := exists_resolve_of_ofValue h
  exact ⟨compile, resolvedBy_of_resolve hr⟩

variable {p : Policy}

/-- The placement by the first of some patterns, in slots from `slot` on, that claims a module. -/
def claimedFrom (p : Policy) (source : String) : Nat → List Pattern → Option Placement
  | _, [] => none
  | slot, pattern :: rest =>
      match p.claim source pattern with
      | some sub => some ⟨slot, sub.map Int.ofNat⟩
      | none => claimedFrom p source (slot + 1) rest

theorem findSome?_eq_claimedFrom (source : String) (patterns : List Pattern) (slot : Nat) :
    (patterns.zipIdx slot).findSome? (fun x =>
      (p.claim source x.1).map fun sub => (⟨x.2, sub.map Int.ofNat⟩ : Placement)) =
        p.claimedFrom source slot patterns := by
  induction patterns generalizing slot with
  | nil => rfl
  | cons pattern rest ih =>
      rw [List.zipIdx_cons, List.findSome?_cons, claimedFrom, ih]
      cases p.claim source pattern <;> rfl

theorem place_eq (source : String) :
    p.place source = (p.claimedFrom source 0 p.patterns).getD ⟨p.everythingElse, none⟩ := by
  rw [← findSome?_eq_claimedFrom]
  rfl

/-- The placements of one slot are all by a sub-pattern or all without. -/
theorem place_cases (source : String) :
    (∃ pattern sub, p.patterns[(p.place source).group]? = some pattern ∧
      p.claim source pattern = some sub ∧ (p.place source).sub = sub.map Int.ofNat) ∨
      p.place source = ⟨p.everythingElse, none⟩ := by
  unfold place
  generalize h : List.findSome? _ p.patterns.zipIdx = found
  cases found with
  | none => exact .inr rfl
  | some found =>
      obtain ⟨⟨pattern, slot⟩, hmem, hclaim⟩ := List.exists_of_findSome?_eq_some h
      obtain ⟨sub, hsub, rfl⟩ := Option.map_eq_some_iff.mp hclaim
      rw [List.mem_zipIdx_iff_getElem?] at hmem
      exact .inl ⟨pattern, sub, hmem, hsub, rfl⟩

theorem Resolved.length_eq (h : p.Resolved) : p.order.length = p.patterns.length := by
  obtain ⟨compile, h⟩ := h
  exact List.Forall₂.length_eq h

theorem Resolved.exists_parse (h : p.Resolved) {slot : Nat} {pattern : Pattern}
    (hslot : p.patterns[slot]? = some pattern) :
    ∃ compile token, p.order[slot]? = some token ∧
      Pattern.parse compile (p.groups.map (·.1)) token = .ok pattern := by
  obtain ⟨hlen, rfl⟩ := List.getElem?_eq_some_iff.mp hslot
  have horder : slot < p.order.length := h.length_eq ▸ hlen
  obtain ⟨compile, h⟩ := h
  exact ⟨compile, _, List.getElem?_eq_getElem horder, List.Forall₂.get h horder hlen⟩

theorem Resolved.place_group_le (h : p.Resolved) (source : String) :
    (p.place source).group ≤ p.order.length := by
  rcases place_cases source with ⟨pattern, sub, hp, -⟩ | hp
  · have := (List.getElem?_eq_some_iff.mp hp).1
    rw [h.length_eq]
    exact this.le
  · rw [hp]
    exact List.idxOf_le_length

def IsGroupSlot (p : Policy) (slot : Nat) : Prop := ∃ name, p.patterns[slot]? = some (.group name)

theorem claim_isSome_iff {source : String} {pattern : Pattern} {sub : Option Nat}
    (h : p.claim source pattern = some sub) : sub.isSome ↔ ∃ name, pattern = .group name := by
  cases pattern with
  | group name =>
      obtain ⟨n, -, rfl⟩ := Option.map_eq_some_iff.mp h
      simp
  | literal value | regex token found =>
      simp only [claim, Option.ite_none_right_eq_some] at h
      simp [← Option.some_injective _ h.2]

/-- Without a group of that name the everything-else slot belongs to no group. -/
theorem Resolved.not_isGroupSlot_everythingElse (h : p.Resolved)
    (free : ∀ g ∈ p.groups, g.1 ≠ Settings.everythingElse) : ¬ p.IsGroupSlot p.everythingElse := by
  rintro ⟨name, hslot⟩
  obtain ⟨compile, token, htoken, hparse⟩ := h.exists_parse hslot
  obtain ⟨rfl, hmem⟩ := Pattern.eq_of_parse_eq_group hparse
  obtain ⟨hlen, heq⟩ := List.getElem?_eq_some_iff.mp htoken
  obtain ⟨g, hg, hname⟩ := List.mem_map.mp hmem
  exact free g hg (hname.trans (heq.symm.trans (List.getElem_idxOf hlen)))

theorem Resolved.sub_isSome_iff (h : p.Resolved)
    (free : ∀ g ∈ p.groups, g.1 ≠ Settings.everythingElse) (source : String) :
    (p.place source).sub.isSome ↔ p.IsGroupSlot (p.place source).group := by
  rcases place_cases source with ⟨pattern, sub, hp, hclaim, hsub⟩ | hp
  · rw [hsub, Option.isSome_map, claim_isSome_iff hclaim, IsGroupSlot, hp]
    simp only [Option.some.injEq]
  · rw [hp]
    simpa using h.not_isGroupSlot_everythingElse free

end Policy

/-! ### Checking -/

/-- Statements with the places that a policy gives them. -/
def Policy.placed (p : Policy) (statements : List Statement) : List Placed :=
  statements.map fun s => ⟨s, p.place s.source⟩

theorem group_le_of_verifyGroups {limit index : Nat} {placements found : List Placement}
    (h : verifyGroups limit index (placements.map fun p => (Value.int p.group, p.sub)) = .ok found) :
    ∀ p ∈ placements, p.group ≤ limit := by
  induction placements generalizing index found with
  | nil => simp
  | cons p rest ih =>
      rw [List.map_cons, verifyGroups] at h
      split at h
      · next slot hslot =>
          have hle : p.group ≤ limit := by
            simp only [slot?, Option.ite_none_right_eq_some] at hslot
            simpa using hslot.1
          cases hr : verifyGroups limit (index + 1)
              (rest.map fun p => (Value.int p.group, p.sub)) with
          | error e =>
              rw [hr] at h
              cases h
          | ok more => exact List.forall_mem_cons.mpr ⟨hle, ih hr⟩
      · cases h

theorem verifyGroups_of_le {limit index : Nat} {placements : List Placement}
    (h : ∀ p ∈ placements, p.group ≤ limit) :
    verifyGroups limit index (placements.map fun p => (Value.int p.group, p.sub)) =
      .ok placements := by
  induction placements generalizing index with
  | nil => rfl
  | cons p rest ih =>
      have hp : p.group ≤ limit := h p List.mem_cons_self
      have hslot : slot? limit (.int p.group) = some p.group := by simp [slot?, hp]
      rw [List.map_cons, verifyGroups, hslot]
      simp only [ih fun q hq => h q (List.mem_cons_of_mem p hq)]
      rfl

theorem zip_placeAll (p : Policy) (statements : List Statement) :
    ((statements.zip (p.placeAll statements)).map fun x => (⟨x.1, x.2⟩ : Placed)) =
      p.placed statements := by
  induction statements with
  | nil => rfl
  | cons s rest ih => simpa [Policy.placeAll, Policy.placed] using ih

/-- Checking succeeds where every placement is in a slot of the policy. -/
theorem checkStatements_of_le {policy : Policy} {statements : List Statement} (newline : Text)
    (h : ∀ s ∈ statements, (policy.place s.source).group ≤ policy.order.length) :
    checkStatements policy newline statements =
      .ok ((Placed.checkOrder policy (policy.placed statements)).map (·.withPlan newline)) := by
  cases statements with
  | nil => simp [checkStatements, Policy.placed, Placed.checkOrder, Placed.checkGroups, partition,
      BucketTable.ofKeys]
  | cons s rest =>
      have hle : ∀ q ∈ policy.placeAll (s :: rest), q.group ≤ policy.order.length := by
        intro q hq
        obtain ⟨t, ht, rfl⟩ := List.mem_map.mp hq
        exact h t ht
      have hlen : (policy.placeAll (s :: rest)).length = (s :: rest).length := by
        simp [Policy.placeAll]
      rw [checkStatements]
      simp only [List.isEmpty_cons, Bool.false_eq_true, if_false, verify, List.length_map, hlen,
        beq_self_eq_true, if_true, verifyGroups_of_le hle, Except.map]
      rw [zip_placeAll]

theorem checkStatements_of_resolved {policy : Policy} (h : policy.Resolved) (newline : Text)
    (statements : List Statement) :
    checkStatements policy newline statements =
      .ok ((Placed.checkOrder policy (policy.placed statements)).map (·.withPlan newline)) :=
  checkStatements_of_le newline fun s _ => h.place_group_le s.source

theorem group_le_of_checkStatements {policy : Policy} {newline : Text}
    {statements : List Statement} {violations : List Violation}
    (h : checkStatements policy newline statements = .ok violations) :
    ∀ s ∈ statements, (policy.place s.source).group ≤ policy.order.length := by
  unfold checkStatements at h
  split at h
  · next empty =>
      rw [List.isEmpty_iff.mp empty]
      simp
  · simp only [verify] at h
    split at h
    · cases hv : verifyGroups policy.order.length 0
          ((policy.placeAll statements).map fun p => (Value.int p.group, p.sub)) with
      | error e =>
          rw [hv] at h
          cases h
      | ok found =>
          intro s hs
          exact group_le_of_verifyGroups hv _ (List.mem_map_of_mem hs)
    · cases h

/-- The violations found are those of the placed statements, with their edits. -/
theorem eq_of_checkStatements {policy : Policy} {newline : Text} {statements : List Statement}
    {violations : List Violation} (h : checkStatements policy newline statements = .ok violations) :
    violations =
      (Placed.checkOrder policy (policy.placed statements)).map (·.withPlan newline) := by
  rw [checkStatements_of_le newline (group_le_of_checkStatements h)] at h
  exact (Except.ok.inj h).symm

theorem Policy.getElem?_placed {p : Policy} {statements : List Statement} {i : Nat} {a : Placed} :
    (p.placed statements)[i]? = some a ↔
      ∃ s, statements[i]? = some s ∧ a = ⟨s, p.place s.source⟩ := by
  rw [placed, List.getElem?_map, Option.map_eq_some_iff]
  exact exists_congr fun s => and_congr_right fun _ => eq_comm

/-- The violations of a sequence of statements, with the edits that mend them. -/
theorem mem_of_checkStatements {policy : Policy} {newline : Text} {statements : List Statement}
    {violations : List Violation} (h : checkStatements policy newline statements = .ok violations)
    {v : Violation} :
    v ∈ violations ↔
      (∃ i j s r, Placed.Wants policy (policy.placed statements) i j ∧ statements[i]? = some s ∧
        statements[j]? = some r ∧
        v = ⟨i, s, .wrongOrder j r, Edit.planMove s r.span.start newline⟩) ∨
      (∃ i s, Placed.Crowded policy (policy.placed statements) i ∧ statements[i]? = some s ∧
        v = ⟨i, s, .missingBlankLine, Edit.planBlankLine s newline⟩) ∨
      ∃ i s b, policy.ignoreMembersSort = false ∧ statements[i]? = some s ∧
        s.firstMisplaced = some b ∧ v = ⟨i, s, .wrongMemberOrder b, Edit.planMembers s⟩ := by
  rw [eq_of_checkStatements h]
  simp only [List.mem_map, Placed.mem_checkOrder, Placed.wrongOrder_eq_some_iff,
    Placed.blankLine_eq_some_iff, Policy.getElem?_placed]
  constructor
  · rintro ⟨w, ⟨i, j, wants, -, -, ⟨s, hs, rfl⟩, ⟨r, hr, rfl⟩, rfl⟩ | ⟨i, crowded, -, ⟨s, hs, rfl⟩, rfl⟩ |
      ⟨i, -, ⟨s, hs, rfl⟩, hw⟩, rfl⟩
    · exact .inl ⟨i, j, s, r, wants, hs, hr, rfl⟩
    · exact .inr (.inl ⟨i, s, crowded, hs, rfl⟩)
    · simp only [Placed.checkMembers, Option.ite_none_left_eq_some, Option.map_eq_some_iff] at hw
      obtain ⟨on, b, hb, rfl⟩ := hw
      exact .inr (.inr ⟨i, s, b, by simpa using on, hs, hb, rfl⟩)
  · rintro (⟨i, j, s, r, wants, hs, hr, rfl⟩ | ⟨i, s, crowded, hs, rfl⟩ | ⟨i, s, b, on, hs, hb, rfl⟩)
    · exact ⟨_, .inl ⟨i, j, wants, _, _, ⟨s, hs, rfl⟩, ⟨r, hr, rfl⟩, rfl⟩, rfl⟩
    · exact ⟨_, .inr (.inl ⟨i, crowded, _, ⟨s, hs, rfl⟩, rfl⟩), rfl⟩
    · refine ⟨{ index := i, statement := s, fault := .wrongMemberOrder b },
        .inr (.inr ⟨i, _, ⟨s, hs, rfl⟩, ?_⟩), rfl⟩
      simp [Placed.checkMembers, on, hb]

/-- A missing empty line is reported of a crowded statement, with an edit. -/
theorem crowded_of_kind {policy : Policy} {newline : Text} {statements : List Statement}
    {violations : List Violation} (h : checkStatements policy newline statements = .ok violations)
    {v : Violation} (hv : v ∈ violations) (hkind : v.kind = .missingBlankLine) :
    Placed.Crowded policy (policy.placed statements) v.index ∧
      v.edits = Edit.planBlankLine v.statement newline := by
  rcases (mem_of_checkStatements h).mp hv with ⟨i, j, s, r, -, -, -, rfl⟩ |
    ⟨i, s, crowded, -, rfl⟩ | ⟨i, s, b, -, -, -, rfl⟩
  · cases hkind
  · exact ⟨crowded, rfl⟩
  · cases hkind

end ImportOrder
