import ImportOrder.Proofs.Pass
import ImportOrder.Proofs.SortKey

/-!
Passes over a uniform document one after another. Each turns the document into another one, by
changes a collector has to follow: statements move up, empty lines come in, names are sorted. That
it finds the statements of a document so changed at their new places is all that is assumed of it.
-/

namespace ImportOrder

open Relation (ReflTransGen TransGen)

/-- Are the names out of order, without a comment between them? -/
def Item.Unsorted (x : Item) : Prop := ¬ x.InOrder ∧ '#' ∉ x.text.cut x.lead.length x.stop

instance (x : Item) : Decidable x.Unsorted := inferInstanceAs (Decidable (_ ∧ _))

theorem Item.Unsorted.entries_ne_nil {x : Item} (h : x.Unsorted) : x.entries ≠ [] := by
  intro hnil
  apply h.1
  simp [Item.inOrder_iff, hnil]

/-- One change that fixing makes to the chunks of a document. Names are sorted only in statements
that `sortable` admits; their module is then what `reread` says. -/
inductive Reworked (sortable : Item → Prop) (reread : Item → String) :
    List Chunk → List Chunk → Prop where
  | move (front : List Chunk) (y : Item) (mid : List Chunk) (x : Item) (back : List Chunk) :
      Reworked sortable reread (front ++ Chunk.item y :: (mid ++ Chunk.item x :: back))
        (front ++ Chunk.item x :: Chunk.item y :: (mid ++ back))
  | blank (front : List Chunk) (x : Item) (back : List Chunk) :
      Reworked sortable reread (front ++ Chunk.item x :: back)
        (front ++ Chunk.line [] :: Chunk.item x :: back)
  | sort (front : List Chunk) (x : Item) (back : List Chunk) (h : sortable x) :
      Reworked sortable reread (front ++ Chunk.item x :: back)
        (front ++ Chunk.item (x.sorted (reread x)) :: back)

/-- Whole statements moved up, or empty lines put in front of them. -/
abbrev Rearranged : List Chunk → List Chunk → Prop := Reworked (fun _ => False) Item.source

namespace Document

def withChunks (d : Document) (chunks : List Chunk) : Document := { d with chunks }

/-- However often the document is changed, the collector finds its statements where they then are. -/
def ReadBy (collect : Collector) (change : List Chunk → List Chunk → Prop) (d : Document) : Prop :=
  ∀ chunks, ReflTransGen change d.chunks chunks →
    collect (d.withChunks chunks).text = some (d.withChunks chunks).collection

theorem ReadBy.self {collect : Collector} {change : List Chunk → List Chunk → Prop} {d : Document}
    (h : d.ReadBy collect change) : collect d.text = some d.collection :=
  h d.chunks .refl

theorem ReadBy.withChunks {collect : Collector} {change : List Chunk → List Chunk → Prop}
    {d : Document} (h : d.ReadBy collect change) {chunks : List Chunk}
    (hc : ReflTransGen change d.chunks chunks) : (d.withChunks chunks).ReadBy collect change :=
  fun _ hmore => h _ (hc.trans hmore)

end Document

namespace Reworked

variable {sortable : Item → Prop} {reread : Item → String} {a b : List Chunk}

theorem append_left (pre : List Chunk) (h : Reworked sortable reread a b) :
    Reworked sortable reread (pre ++ a) (pre ++ b) := by
  cases h with
  | move front y mid x back => simpa using move (pre ++ front) y mid x back
  | blank front x back => simpa using blank (pre ++ front) x back
  | sort front x back h => simpa using sort (pre ++ front) x back h

theorem star_append_left (pre : List Chunk) (h : ReflTransGen (Reworked sortable reread) a b) :
    ReflTransGen (Reworked sortable reread) (pre ++ a) (pre ++ b) :=
  h.lift (pre ++ ·) fun _ _ => append_left pre

end Reworked

/-- A sweep changes a row step by step, if the statements it sorts may be sorted. -/
theorem Sweep.reworked {sortable : Item → Prop} {reread : Item → String} {row out : List Piece}
    {fixes : List Fix} (h : Sweep reread row fixes out)
    (admitted : ∀ i x, .sort i ∈ fixes → (i, x) ∈ Piece.items row → sortable x) :
    ReflTransGen (Reworked sortable reread) (row.map Piece.chunk) (out.map Piece.chunk) := by
  induction h with
  | done rest => exact .refl
  | @move front j y mid i x back out fixes next ih =>
      have hnext := ih fun k z hk hz => admitted k z (List.mem_cons_of_mem _ hk) (by
        simp [Piece.items, hz])
      simp only [List.map_append, List.map_cons, Piece.chunk]
      refine .head (Reworked.move _ y _ x _) ?_
      simpa using Reworked.star_append_left
        (front.map Piece.chunk ++ Chunk.item x :: Chunk.item y :: mid.map Piece.chunk) hnext
  | @blank front i x x' back out fixes next ih =>
      have hnext := ih fun k z hk hz => admitted k z (List.mem_cons_of_mem _ hk) (by
        rw [Piece.items_append]
        exact List.mem_append_right _ hz)
      simp only [List.map_append, List.map_cons, Piece.chunk] at hnext ⊢
      exact .tail (Reworked.star_append_left _ hnext) (Reworked.blank _ x' _)
  | @sort front i x back out fixes next ih =>
      have hx : sortable x := admitted i x List.mem_cons_self (by simp [Piece.items])
      have hnext := ih fun k z hk hz => admitted k z (List.mem_cons_of_mem _ hk) (by
        simp [Piece.items, hz])
      simp only [List.map_append, List.map_cons, Piece.chunk]
      refine .head (Reworked.sort _ x _ hx) ?_
      simpa using Reworked.star_append_left
        (front.map Piece.chunk ++ [Chunk.item (x.sorted (reread x))]) hnext

/-! ### One pass -/

/-- A pass that applies a fix leads from one text to another. -/
def Advances (collect : Collector) (policy : Policy) (text next : Text) : Prop :=
  ∃ pass, onePass collect policy text = .ok (some pass) ∧ pass.outcome.applied ≠ 0 ∧
    pass.outcome.text = next

section Texts

variable {collect : Collector} {policy : Policy} {text : Text} {found : Collection}
variable {violations : List Violation}

@[simp] theorem carriedOut_nil (text : Text) : carriedOut text [] = [] := by
  simp [carriedOut, takenFixes, mergedFixes, passFixes, Edit.selectBy]

theorem applied_eq_length (text : Text) (violations : List Violation) :
    (applyFixes text ((passFixes violations).map (·.edits))).applied =
      (carriedOut text violations).length := by
  rw [applyFixes_applied, carriedOut, List.length_map]

theorem onePass_of_survey (h : survey collect policy text = .ok (found, violations)) :
    onePass collect policy text =
      .ok (if violations.isEmpty then none
        else some ⟨(passFixes violations).length,
          applyFixes text ((passFixes violations).map (·.edits))⟩) := by
  rw [onePass, h]
  rfl

/-- A pass changes the text exactly if it carries out a fix. -/
theorem advances_iff (h : survey collect policy text = .ok (found, violations)) {next : Text} :
    Advances collect policy text next ↔ carriedOut text violations ≠ [] ∧
      (applyFixes text ((passFixes violations).map (·.edits))).text = next := by
  rw [Advances, onePass_of_survey h, ne_eq, ← List.length_eq_zero_iff, ← applied_eq_length]
  cases violations with
  | nil => simp [applied_eq_length]
  | cons v rest => simp

theorem exists_passes_of_settled (h : survey collect policy text = .ok (found, violations))
    (settled : carriedOut text violations = []) (limit : Nat) :
    ∃ idle, passes collect policy limit text = (idle, .ok text) ∧ appliedIn idle = 0 := by
  cases limit with
  | zero => exact ⟨[], rfl, rfl⟩
  | succ limit =>
      have hzero : (applyFixes text ((passFixes violations).map (·.edits))).applied = 0 := by
        rw [applied_eq_length, settled, List.length_nil]
      rw [passes, onePass_of_survey h]
      cases violations <;> simp [hzero, appliedIn]

theorem passes_of_settled (h : survey collect policy text = .ok (found, violations))
    (settled : carriedOut text violations = []) (limit : Nat) :
    (passes collect policy limit text).2 = .ok text := by
  obtain ⟨idle, heq, -⟩ := exists_passes_of_settled h settled limit
  rw [heq]

theorem passes_of_advances {next : Text} (h : Advances collect policy text next) (limit : Nat) :
    (passes collect policy (limit + 1) text).2 = (passes collect policy limit next).2 := by
  obtain ⟨pass, hpass, happlied, rfl⟩ := h
  rw [passes, hpass]
  simp [happlied]

theorem carriedOut_eq_nil_iff :
    carriedOut text violations = [] ↔ ∀ v ∈ passFixes violations, v.edits = [] := by
  rw [carriedOut, List.map_eq_nil_iff, takenFixes_eq_nil_iff, List.eq_nil_iff_forall_not_mem]
  constructor
  · intro h v hv
    rw [← merge_eq_none_iff text, Option.eq_none_iff_forall_ne_some]
    intro e he
    exact h (v, e) (mem_mergedFixes.mpr ⟨hv, he⟩)
  · intro h f hf
    obtain ⟨hv, he⟩ := mem_mergedFixes.mp hf
    rw [(merge_eq_none_iff text).mpr (h f.1 hv)] at he
    cases he

/-- What is still reported where a pass carries out nothing. -/
theorem settled_violations {newline : Text} {statements : List Statement}
    (h : checkStatements policy newline statements = .ok violations)
    (settled : carriedOut text violations = []) {v : Violation} (hv : v ∈ violations) :
    v.kind = .wrongMemberOrder ∧ v.edits = [] := by
  rw [carriedOut_eq_nil_iff] at settled
  have ordered : ∀ w ∈ violations, w.kind ≠ .wrongOrder := by
    intro w hw hkind
    have hedits : w.edits = [] := settled w (mem_passFixes hw (by simp [hkind]))
    rcases (mem_of_checkStatements h).mp hw with ⟨i, j, s, r, -, -, -, rfl⟩ |
      ⟨i, s, -, -, rfl⟩ | ⟨i, s, b, -, -, -, rfl⟩
    · cases hedits
    · cases hkind
    · cases hkind
  have hedits : v.edits = [] := by
    apply settled
    rwa [passFixes_of_ordered ordered]
  rcases (mem_of_checkStatements h).mp hv with ⟨i, j, s, r, -, -, -, rfl⟩ |
    ⟨i, s, -, -, rfl⟩ | ⟨i, s, b, -, -, -, rfl⟩
  · cases hedits
  · cases hedits
  · exact ⟨rfl, hedits⟩

/-- A move that is carried out is one that the order asks for. -/
theorem wants_of_move {newline : Text} {statements : List Statement} {i j : Nat}
    (h : checkStatements policy newline statements = .ok violations)
    (hf : .move j i ∈ carriedOut text violations) :
    Placed.Wants policy (policy.placed statements) i j := by
  obtain ⟨v, hv, hfix, -⟩ := mem_carriedOut hf
  rcases (mem_of_checkStatements h).mp (mem_of_mem_passFixes hv) with
    ⟨k, l, s, r, wants, -, -, rfl⟩ | ⟨k, s, -, -, rfl⟩ | ⟨k, s, b, -, -, -, rfl⟩
  · cases hfix
    exact wants
  · cases hfix
  · cases hfix

end Texts

section Documents

variable {collect : Collector} {policy : Policy} {d : Document} {violations : List Violation}

theorem Document.located_self (d : Document) : d.Located d.statements := rfl

theorem exists_survey (resolved : policy.Resolved) (reads : collect d.text = some d.collection) :
    ∃ violations, checkStatements policy d.newline.text d.statements = .ok violations ∧
      survey collect policy d.text = .ok (d.collection, violations) := by
  refine ⟨_, checkStatements_of_resolved resolved _ _, ?_⟩
  simp only [survey, reads, Document.collection, checkStatements_of_resolved resolved]

/-- A pass over a document makes another document of it. -/
theorem exists_next (reread : Item → String)
    (h : checkStatements policy d.newline.text d.statements = .ok violations) :
    ∃ out, Sweep reread d.pieces (carriedOut d.text violations) out ∧
      (applyFixes d.text ((passFixes violations).map (·.edits))).text =
        (d.withChunks (out.map Piece.chunk)).text := by
  obtain ⟨out, tail, sweep, htail, hrender⟩ :=
    exists_sweep reread d.located_self (List.append_nil _) (.inl rfl) h
  obtain rfl : tail = [] := by simpa using htail
  exact ⟨out, sweep, (List.append_nil _).symm.trans hrender⟩

/-! ### The fixes of a pass over a document -/

theorem Document.mem_items_pieces {i : Nat} {x : Item} :
    (i, x) ∈ Piece.items d.pieces ↔ d.items[i]? = some x := by
  rw [d.items_pieces, List.mem_map]
  constructor
  · rintro ⟨⟨z, k⟩, hmem, heq⟩
    cases heq
    exact List.mem_zipIdx_iff_getElem?.mp hmem
  · intro h
    exact ⟨(x, i), List.mem_zipIdx_iff_getElem?.mpr h, rfl⟩

variable {i : Nat} {x : Item}

/-- Empty lines come in only where nothing is out of order. -/
theorem crowded_of_blank (h : checkStatements policy d.newline.text d.statements = .ok violations)
    (hf : .blank i ∈ carriedOut d.text violations) :
    Placed.Crowded policy (policy.placed d.statements) i ∧
      ∀ j k, .move j k ∉ carriedOut d.text violations := by
  obtain ⟨v, hv, hfix, -⟩ := mem_carriedOut hf
  obtain ⟨rfl, hkind⟩ := Violation.fix_eq_blank.mp hfix
  refine ⟨(crowded_of_kind h (mem_of_mem_passFixes hv) hkind).1, ?_⟩
  intro j k hmove
  obtain ⟨w, hw, hfix', -⟩ := mem_carriedOut hmove
  have ordered : w.kind ≠ .wrongOrder := fun hwrong =>
    kind_ne_of_mem_passFixes hv (mem_of_mem_passFixes hw) hwrong hkind
  exact Violation.fix_ne_move ordered j k hfix'

theorem Document.Located.exists_statement {statements : List Statement}
    (located : d.Located statements) (hx : d.items[i]? = some x) :
    ∃ s offset row, statements[i]? = some s ∧ s.unplaced = (x.statement offset row).unplaced := by
  obtain ⟨offset, row, hs⟩ := d.statement_of_item hx
  have heq := congrArg (·[i]?) located
  simp only [List.getElem?_map, hs, Option.map_some, Option.map_eq_some_iff] at heq
  obtain ⟨s, hs, same⟩ := heq
  exact ⟨s, offset, row, hs, same⟩

/-- Only names that are out of order, without a comment between them, are sorted. -/
theorem unsorted_of_edits {statements : List Statement} {v : Violation}
    (located : d.Located statements)
    (h : checkStatements policy d.newline.text statements = .ok violations) (hv : v ∈ violations)
    (hkind : v.kind = .wrongMemberOrder) (hedits : v.edits ≠ [])
    (hx : d.items[v.index]? = some x) : policy.ignoreMembersSort = false ∧ x.Unsorted := by
  rcases (mem_of_checkStatements h).mp hv with
    ⟨k, l, s, r, -, -, -, rfl⟩ | ⟨k, s, -, -, rfl⟩ | ⟨k, s, b, on, hs, hb, rfl⟩
  · cases hkind
  · cases hkind
  · obtain ⟨t, offset, row, ht, same⟩ := located.exists_statement hx
    obtain rfl := Option.some_injective _ (hs.symm.trans ht)
    have hfirst : s.firstMisplaced = (x.statement offset row).firstMisplaced :=
      (congrArg Statement.firstMisplaced same :)
    have hplan : Edit.planMembers s = Edit.planMembers (x.statement offset row) :=
      (congrArg Edit.planMembers same :)
    refine ⟨on, ?_, ?_⟩
    · rw [← x.firstMisplaced_statement offset row, ← hfirst, hb]
      simp
    · obtain ⟨e, he⟩ := List.exists_mem_of_ne_nil _ hedits
      exact (x.planMembers_statement offset row e (hplan ▸ he)).2.1

theorem unsorted_of_sort (h : checkStatements policy d.newline.text d.statements = .ok violations)
    (hf : .sort i ∈ carriedOut d.text violations) (hx : d.items[i]? = some x) :
    policy.ignoreMembersSort = false ∧ x.Unsorted := by
  obtain ⟨v, hv, hfix, hedits⟩ := mem_carriedOut hf
  obtain ⟨rfl, hkind⟩ := Violation.fix_eq_sort.mp hfix
  exact unsorted_of_edits d.located_self h (mem_of_mem_passFixes hv) hkind hedits hx

/-- A pass that applies a fix leads to the text of another document, which is read as well. -/
theorem Document.ReadBy.advances {sortable : Item → Prop} {reread : Item → String} {next : Text}
    (resolved : policy.Resolved) (reads : d.ReadBy collect (Reworked sortable reread))
    (admits : ∀ x ∈ d.items, policy.ignoreMembersSort = false → x.Unsorted → sortable x)
    (h : Advances collect policy d.text next) :
    ∃ violations out, checkStatements policy d.newline.text d.statements = .ok violations ∧
      carriedOut d.text violations ≠ [] ∧ Sweep reread d.pieces (carriedOut d.text violations) out ∧
      (d.withChunks (out.map Piece.chunk)).text = next ∧
      (d.withChunks (out.map Piece.chunk)).ReadBy collect (Reworked sortable reread) := by
  obtain ⟨violations, hcheck, hsurvey⟩ := exists_survey resolved reads.self
  obtain ⟨some, rfl⟩ := (advances_iff hsurvey).mp h
  obtain ⟨out, sweep, htext⟩ := exists_next reread hcheck
  refine ⟨violations, out, hcheck, some, sweep, htext.symm, reads.withChunks ?_⟩
  have reworked : Relation.ReflTransGen (Reworked sortable reread) (d.pieces.map Piece.chunk)
      (out.map Piece.chunk) := by
    refine sweep.reworked fun i x hf hx => ?_
    have hitem := Document.mem_items_pieces.mp hx
    obtain ⟨on, unsorted⟩ := unsorted_of_sort hcheck hf hitem
    exact admits x (List.mem_of_getElem? hitem) on unsorted
  rwa [Document.pieces, Chunk.map_chunk_number] at reworked

theorem exists_settled (resolved : policy.Resolved) (reads : collect d.text = some d.collection)
    (stuck : ∀ next, ¬ Advances collect policy d.text next) :
    ∃ violations, checkStatements policy d.newline.text d.statements = .ok violations ∧
      survey collect policy d.text = .ok (d.collection, violations) ∧
      carriedOut d.text violations = [] := by
  obtain ⟨violations, hcheck, hsurvey⟩ := exists_survey resolved reads
  refine ⟨violations, hcheck, hsurvey, ?_⟩
  by_contra some
  exact stuck _ ((advances_iff hsurvey).mpr ⟨some, rfl⟩)

end Documents

/-! ### Keys of statements -/

def Item.key (policy : Policy) (x : Item) : SortKey :=
  policy.sortKey (policy.place x.source) x.firstName

namespace Document

variable {policy : Policy} {d : Document} {i j : Nat} {x y : Item}

theorem getElem?_placed (policy : Policy) (hx : d.items[i]? = some x) :
    ∃ a : Placed, (policy.placed d.statements)[i]? = some a ∧ a.key policy = x.key policy ∧
      a.placement = policy.place x.source := by
  obtain ⟨offset, row, hs⟩ := d.statement_of_item hx
  refine ⟨_, Policy.getElem?_placed.mpr ⟨_, hs, rfl⟩, ?_, rfl⟩
  rw [Placed.key, Item.key, Item.firstName_statement]
  rfl

theorem key_lt_of_wants (h : Placed.Wants policy (policy.placed d.statements) i j)
    (hx : d.items[i]? = some x) (hy : d.items[j]? = some y) : x.key policy < y.key policy := by
  obtain ⟨a, ha, hax, -⟩ := getElem?_placed policy hx
  obtain ⟨b, hb, hby, -⟩ := getElem?_placed policy hy
  rw [← hax, ← hby]
  exact h.key_lt ha hb

end Document

end ImportOrder
