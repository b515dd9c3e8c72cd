import ImportOrder.Proofs.SortKey

/-!
Clean means sorted. A statement has one combined key under a policy: its slot, its sub-pattern, its
first name. A sequence that does not decrease in it has no wrong-order report, whichever checks are
switched off. With all checks on, and without a group that takes the name of the everything-else
token, no report means that the sequence does not decrease.
-/

namespace ImportOrder

/-- Slot, sub-pattern (a missing one first) and first name (a missing one last). -/
def Policy.combinedKey (policy : Policy) (s : Statement) : SortKey :=
  toLex ((policy.place s.source).group,
    toLex (subKey (policy.place s.source).sub, Placed.nameKey s.firstName))

section Keys

variable {policy : Policy} {s t : Statement}

theorem Policy.key_placed_eq (on : policy.ignoreAlphabeticalSort = false) :
    Placed.key policy ⟨s, policy.place s.source⟩ = policy.combinedKey s := by
  simp [Placed.key, sortKey, combinedKey, on]

/-- Where the key that checking goes by is less, the combined key is less, also if names do not
count in the first one. -/
theorem Policy.combinedKey_lt_of_key_lt
    (h : Placed.key policy ⟨s, policy.place s.source⟩ <
      Placed.key policy ⟨t, policy.place t.source⟩) :
    policy.combinedKey s < policy.combinedKey t := by
  rw [combinedKey, combinedKey, Prod.Lex.toLex_lt_toLex, Prod.Lex.toLex_lt_toLex,
    subKey_injective.eq_iff]
  rcases Placed.key_lt_iff.mp h with hgroup | ⟨hgroup, hsub | ⟨hsub, -, hname⟩⟩
  · exact .inl hgroup
  · exact .inr ⟨hgroup, .inl hsub⟩
  · exact .inr ⟨hgroup, .inr ⟨hsub, hname⟩⟩

end Keys

section Sequences

variable {policy : Policy} {newline : Text} {statements : List Statement}
variable {violations : List Violation}

theorem ordered_of_sorted (h : checkStatements policy newline statements = .ok violations)
    (sorted : statements.Pairwise fun s t => policy.combinedKey s ≤ policy.combinedKey t)
    {v : Violation} (hv : v ∈ violations) : v.kind ≠ .wrongOrder := by
  rcases (mem_of_checkStatements h).mp hv with ⟨i, j, s, r, wants, hs, hr, rfl⟩ |
    ⟨i, s, -, -, rfl⟩ | ⟨i, s, b, -, -, -, rfl⟩
  · -- The report points at a larger key in front of its own.
    have less := wants.key_lt (Policy.getElem?_placed.mpr ⟨s, hs, rfl⟩)
      (Policy.getElem?_placed.mpr ⟨r, hr, rfl⟩)
    obtain ⟨hi, rfl⟩ := List.getElem?_eq_some_iff.mp hs
    obtain ⟨hj, rfl⟩ := List.getElem?_eq_some_iff.mp hr
    have notLess := List.pairwise_iff_getElem.mp sorted j i hj hi wants.before
    exact absurd (Policy.combinedKey_lt_of_key_lt less) (not_lt.mpr notLess)
  · simp [Violation.kind]
  · simp [Violation.kind]

theorem sorted_of_ordered (resolved : policy.Resolved) (on : policy.ignoreInGroupSort = false)
    (on' : policy.ignoreAlphabeticalSort = false)
    (free : ∀ g ∈ policy.groups, g.1 ≠ Settings.everythingElse)
    (h : checkStatements policy newline statements = .ok violations)
    (ordered : ∀ v ∈ violations, v.kind ≠ .wrongOrder) :
    statements.Pairwise fun s t => policy.combinedKey s ≤ policy.combinedKey t := by
  have sorted := placed_sorted_of_ordered resolved on free h ordered
  rw [Policy.placed, List.pairwise_map] at sorted
  simpa only [Policy.key_placed_eq on'] using sorted

end Sequences

/-- Under a policy that was built from a value, wrong order is reported exactly where the combined
key decreases somewhere. -/
theorem clean_iff_sorted (compile : Regex.Compiler) (data : Value) (path : Option String)
    (policy : Policy) (built : Policy.ofValue compile data path = .ok policy) (newline : Text)
    (statements : List Statement) :
    ∃ violations, checkStatements policy newline statements = .ok violations ∧
      (statements.Pairwise (fun s t => policy.combinedKey s ≤ policy.combinedKey t) →
        ∀ v ∈ violations, v.kind ≠ .wrongOrder) ∧
      (policy.ignoreInGroupSort = false → policy.ignoreAlphabeticalSort = false →
        (∀ g ∈ policy.groups, g.1 ≠ Settings.everythingElse) →
        (∀ v ∈ violations, v.kind ≠ .wrongOrder) →
        statements.Pairwise fun s t => policy.combinedKey s ≤ policy.combinedKey t) := by
  have resolved := Policy.resolved_of_ofValue built
  have checked := checkStatements_of_resolved resolved newline statements
  refine ⟨_, checked, ?_, ?_⟩
  · intro sorted v hv
    exact ordered_of_sorted checked sorted hv
  · intro on on' free ordered
    exact sorted_of_ordered resolved on on' free checked ordered

/-- A group for the modules `b` and `a`, in this order, and then all others. -/
def Value.toolsFirstEntries : List (Value × Value) :=
  [(.str Settings.order, .list [.str "tools", .str Settings.everythingElse]),
    (.str Settings.groups, .map [(.str "tools", .list [.str "b", .str "a"])])]

def Policy.toolsFirst : Policy :=
  { order := ["tools", Settings.everythingElse]
    patterns := [.group "tools", .literal Settings.everythingElse]
    groups := [("tools", [.literal "b", .literal "a"])] }

theorem Policy.ofValue_toolsFirst (compile : Regex.Compiler) :
    ofValue compile (.map Value.toolsFirstEntries) none = .ok .toolsFirst := rfl

/-- A statement that imports one module, and one that binds no name. -/
def Statement.single (name : String) (binds : Bool) (line : Nat) : Statement :=
  { source := name
    text := name.toList
    bindings := if binds then [⟨name, name.toList, ⟨0, name.length⟩, false⟩] else []
    start := ⟨line, 0⟩
    stop := ⟨line, name.length⟩
    span := ⟨0, name.length⟩ }

/-- Sub-patterns come before names, and a statement without names comes last. -/
theorem clean_iff_sorted_toolsFirst :
    ∃ violations, checkStatements .toolsFirst ['\n']
        [.single "b" true 1, .single "a" true 2, .single "z" true 3, .single "c" false 4] =
          .ok violations ∧
      ∀ v ∈ violations, v.kind ≠ .wrongOrder := by
  obtain ⟨violations, checked, clean, -⟩ := clean_iff_sorted Regex.compile _ none
    .toolsFirst (Policy.ofValue_toolsFirst _) ['\n']
    [.single "b" true 1, .single "a" true 2, .single "z" true 3, .single "c" false 4]
  exact ⟨violations, checked, clean (by decide)⟩

end ImportOrder
