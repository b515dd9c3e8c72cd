import ImportOrder.Proofs.Sorting
import ImportOrder.Proofs.Termination
import ImportOrder.Proofs.Ties

/-!
Fixing sorts the statements of a document, and stably. No pass moves a statement past one that it
ties with, so the statements of each key keep their order. Where the passes end nothing is out of
order.
-/

namespace ImportOrder

/-- If statements of one key tie, those of each key stay in their order. -/
theorem Sweep.filter_key {K : Type} [LinearOrder K] {key : Item → K} {reread : Item → String}
    {row out : List Piece} {fixes : List Fix} {tie : Nat → Nat → Prop}
    (h : Sweep reread row fixes out)
    (increasing : ((Piece.items row).map Prod.fst).Pairwise (· < ·))
    (keep : ∀ k, .sort k ∉ fixes) (ties : KeepsTies tie fixes)
    (same : ∀ p ∈ Piece.items row, ∀ q ∈ Piece.items row, key p.2 = key q.2 → tie p.1 q.1) (k : K) :
    (Piece.items out).filter (fun p => decide (key p.2 = k)) =
      (Piece.items row).filter fun p => decide (key p.2 = k) := by
  have perm := h.items_perm_of_not_sort (increasing.imp ne_of_lt) keep
  have hout := (List.pairwise_map.mp (h.pairwise_ties increasing ties)).filter
    fun p => decide (key p.2 = k)
  refine List.Perm.eq_of_pairwise (fun p q _ _ hpq hqp => absurd hpq hqp.asymm) ?_
    ((List.pairwise_map.mp increasing).filter _) (perm.filter _)
  refine hout.imp_of_mem fun {p q} hp hq hlt => hlt ?_
  obtain ⟨hp, hkey⟩ := List.mem_filter.mp hp
  obtain ⟨hq, hkey'⟩ := List.mem_filter.mp hq
  exact same p (perm.mem_iff.mp hp) q (perm.mem_iff.mp hq)
    ((of_decide_eq_true hkey).trans (of_decide_eq_true hkey').symm)

theorem Document.tied_of_key {policy : Policy} {d : Document} :
    ∀ p ∈ Piece.items d.pieces, ∀ q ∈ Piece.items d.pieces, p.2.key policy = q.2.key policy →
      ∃ a c : Placed, (policy.placed d.statements)[p.1]? = some a ∧
        (policy.placed d.statements)[q.1]? = some c ∧ c.key policy = a.key policy := by
  intro p hp q hq hkey
  obtain ⟨a, ha, hax, -⟩ := getElem?_placed policy (mem_items_pieces.mp hp)
  obtain ⟨c, hc, hcx, -⟩ := getElem?_placed policy (mem_items_pieces.mp hq)
  exact ⟨a, c, ha, hc, by rw [hax, hcx, hkey]⟩

/-! ### Where the passes end -/

section Runs

variable {collect : Collector} {policy : Policy} {d : Document}

/-- Where nothing is out of order the statements are sorted. -/
theorem Document.sorted_of_ordered {violations : List Violation} (resolved : policy.Resolved)
    (on : policy.ignoreInGroupSort = false)
    (free : ∀ g ∈ policy.groups, g.1 ≠ Settings.everythingElse)
    (h : checkStatements policy d.newline.text d.statements = .ok violations)
    (ordered : ∀ v ∈ violations, v.kind ≠ .wrongOrder) :
    d.items.Pairwise fun x y => x.key policy ≤ y.key policy := by
  have sorted := placed_sorted_of_ordered resolved on free h ordered
  rw [Policy.placed, List.pairwise_map] at sorted
  have keys : (d.statements.map fun s => policy.sortKey (policy.place s.source) s.firstName).Pairwise
      (· ≤ ·) := List.pairwise_map.mpr sorted
  rwa [d.keys_eq policy, List.pairwise_map] at keys

/-- A text of a document that differs from `d` in the order of its statements, but not among those
of one key. -/
def Tied (collect : Collector) (policy : Policy) (d : Document) (text : Text) : Prop :=
  ∃ e : Document, e.text = text ∧ e.ReadBy collect Rearranged ∧ e.items.Perm d.items ∧
    ∀ k, e.items.filter (fun x => decide (x.key policy = k)) =
      d.items.filter fun x => decide (x.key policy = k)

theorem Tied.advances {text next : Text} (resolved : policy.Resolved)
    (members : policy.ignoreMembersSort = true ∨ ∀ x ∈ d.items, x.InOrder)
    (tied : Tied collect policy d text) (h : Advances collect policy text next) :
    Tied collect policy d next ∧
      textEffort collect policy next < textEffort collect policy text := by
  obtain ⟨e, rfl, reads, perm, ties⟩ := tied
  have settled : ∀ x ∈ e.items, policy.ignoreMembersSort = false → ¬ x.Unsorted := by
    rintro x hx on ⟨unsorted, -⟩
    rcases members with off | inOrder
    · simp [off] at on
    · exact unsorted (inOrder x (perm.mem_iff.mp hx))
  obtain ⟨violations, out, hcheck, some, sweep, rfl, reads'⟩ :=
    reads.advances resolved settled h
  have keep : ∀ k, .sort k ∉ carriedOut e.text violations := by
    intro k hk
    obtain ⟨⟨_, x⟩, hx, rfl⟩ := List.mem_map.mp (sweep.index_mem hk)
    have hitem := Document.mem_items_pieces.mp hx
    obtain ⟨on, unsorted⟩ := unsorted_of_sort hcheck hk hitem
    exact settled x (List.mem_of_getElem? hitem) on unsorted
  refine ⟨⟨_, rfl, reads', ?_, ?_⟩, ?_⟩
  · rw [e.items_withChunks]
    exact ((sweep.items_perm_of_not_sort e.nodup_pieces keep).map _).trans (e.items_eq ▸ perm)
  · intro k
    have hfilter := sweep.filter_key e.increasing_pieces keep
      (keepsTies_carriedOut e.located_self e.written_self hcheck) Document.tied_of_key k
    rw [← ties k, e.items_withChunks, e.items_eq, List.filter_map, List.filter_map]
    exact congrArg (List.map Prod.snd) hfilter
  · rw [textEffort, textEffort, reads.self, reads'.self]
    exact effort_lt hcheck sweep some

end Runs

/-- Fixing a document whose names are in order, or need not be, ends with its statements sorted by
their keys, those with equal keys in the order they had. -/
theorem fixing_sorts_stably (collect : Collector) (compile : Regex.Compiler) (data : Value)
    (path : Option String) (policy : Policy) (built : Policy.ofValue compile data path = .ok policy)
    (on : policy.ignoreInGroupSort = false)
    (free : ∀ g ∈ policy.groups, g.1 ≠ Settings.everythingElse) (d : Document)
    (members : policy.ignoreMembersSort = true ∨ ∀ x ∈ d.items, x.InOrder)
    (reads : d.ReadBy collect Rearranged) :
    ∃ limit, ∃ final : Document,
      (∀ more ≥ limit, (passes collect policy more d.text).2 = .ok final.text) ∧
      (∀ next, ¬ Advances collect policy final.text next) ∧
      collect final.text = some final.collection ∧
      final.items = d.items.mergeSort fun x y => decide (x.key policy ≤ y.key policy) := by
  have resolved := Policy.resolved_of_ofValue built
  have tied : Tied collect policy d d.text := ⟨d, rfl, reads, .refl _, fun _ => rfl⟩
  have settle : ∀ text, Tied collect policy d text → (∀ next, ¬ Advances collect policy text next) →
      ∀ more, (passes collect policy more text).2 = .ok text := by
    rintro _ ⟨e, rfl, reads, -⟩ stuck more
    obtain ⟨violations, -, hsurvey, settled⟩ := exists_settled resolved reads.self stuck
    exact passes_of_settled hsurvey settled more
  obtain ⟨limit, _, -, ⟨final, rfl, reads', -, ties⟩, stuck, hpasses⟩ :=
    exists_stuck (fun _ _ tied => tied.advances resolved members) settle tied
  refine ⟨limit, final, hpasses, stuck, reads'.self, ?_⟩
  obtain ⟨violations, hcheck, -, settled⟩ := exists_settled resolved reads'.self stuck
  have sorted := final.sorted_of_ordered resolved on free hcheck fun v hv hkind => by
    have := (settled_violations hcheck settled hv).1
    rw [hkind] at this
    cases this
  apply eq_of_pairwise_of_filter (Item.key policy) sorted (pairwise_mergeSort_key _ d.items)
  intro k
  rw [filter_mergeSort, ties k]

/-- `import z` and `import a` around a comment line and two statements that import from `os`. -/
def Document.mixed : Document where
  newline := .lf
  chunks :=
    [.item ⟨"z", "import ".toList, none, [⟨"z", ['z'], []⟩]⟩,
      .line ['#'],
      .item ⟨"os", "from os import ".toList, none, [⟨"path", "path".toList, []⟩]⟩,
      .item ⟨"os", "from os import (".toList, none, [⟨"path", "path".toList, [')']⟩]⟩,
      .item ⟨"a", "import ".toList, none, [⟨"a", ['a'], []⟩]⟩]

theorem fixing_sorts_stably_mixed :
    Document.mixed.ReadBy (lineCollector Document.mixed.items) Rearranged ∧
      ∃ limit, ∃ final : Document,
        (∀ more ≥ limit, (passes (lineCollector Document.mixed.items) .systemFirst more
          Document.mixed.text).2 = .ok final.text) ∧
        lineCollector Document.mixed.items final.text = some final.collection ∧
        final.items = Document.mixed.items.mergeSort
          fun x y => decide (x.key .systemFirst ≤ y.key .systemFirst) := by
  have reads : Document.mixed.ReadBy (lineCollector Document.mixed.items) Rearranged :=
    readBy_lineCollector rfl (by decide) (fun _ _ => False.elim) (by decide)
  obtain ⟨limit, final, ends, -, collected, sorted⟩ := fixing_sorts_stably _ Regex.compile _
    none .systemFirst (Policy.ofValue_systemFirst _) rfl (by decide) .mixed (.inr (by decide)) reads
  exact ⟨reads, limit, final, ends, collected, sorted⟩

end ImportOrder
