import ImportOrder.Proofs.Rearrangement

/-!
What one pass of fixing keeps of a uniform document. The fixes of a pass are those of a sweep over
the document's pieces, so no line is touched, every statement is still there once, and an empty line
stands only where one was asked for.
-/

namespace ImportOrder

/-! ### What a sweep keeps -/

namespace Sweep

variable {reread : Item → String} {row out : List Piece} {fixes : List Fix}

theorem lines_eq (h : Sweep reread row fixes out) : Piece.lines out = Piece.lines row := by
  induction h with
  | done rest => rfl
  | move front j y mid i x next ih => simp [Piece.lines, ih]
  | blank front i x x' next ih => simpa [Piece.lines] using ih
  | sort front i x next ih => simp [Piece.lines, ih]

/-- A statement after some fixes: with sorted names if that was one of them. -/
def mend (reread : Item → String) (fixes : List Fix) (p : Nat × Item) : Nat × Item :=
  (p.1, if .sort p.1 ∈ fixes then p.2.sorted (reread p.2) else p.2)

theorem index_mem (h : Sweep reread row fixes out) {fix : Fix} (hf : fix ∈ fixes) :
    fix.index ∈ (Piece.items row).map Prod.fst := by
  induction h with
  | done rest => simp at hf
  | move front j y mid i x next ih =>
      simp only [Piece.items_append, Piece.items, List.map_append, List.map_cons, List.mem_append,
        List.mem_cons]
      rcases List.mem_cons.mp hf with rfl | hf
      · exact .inr (.inr (.inr (.inl rfl)))
      · exact .inr (.inr (.inr (.inr (ih hf))))
  | blank front i x x' next ih =>
      rw [Piece.items_append, List.map_append]
      apply List.mem_append_right
      rcases List.mem_cons.mp hf with rfl | hf
      · exact List.mem_cons_self
      · exact ih hf
  | sort front i x next ih =>
      rw [Piece.items_append, List.map_append]
      apply List.mem_append_right
      rcases List.mem_cons.mp hf with rfl | hf
      · exact List.mem_cons_self
      · exact List.mem_cons_of_mem _ (ih hf)

theorem map_mend_of_disjoint {passed rest : List (Nat × Item)}
    (nodup : ((passed ++ rest).map Prod.fst).Nodup)
    (behind : ∀ k, .sort k ∈ fixes → k ∈ rest.map Prod.fst) :
    passed.map (mend reread fixes) = passed := by
  rw [List.map_append, List.nodup_append] at nodup
  conv_rhs => rw [← List.map_id passed]
  apply List.map_congr_left
  intro p hp
  have hfree : .sort p.1 ∉ fixes := fun hk =>
    nodup.2.2 _ (List.mem_map_of_mem hp) _ (behind _ hk) rfl
  simp [mend, hfree]

/-- Every statement is kept, once, with its names sorted or as it was. -/
theorem items_perm (h : Sweep reread row fixes out)
    (nodup : ((Piece.items row).map Prod.fst).Nodup) :
    (Piece.items out).Perm ((Piece.items row).map (mend reread fixes)) := by
  induction h with
  | done rest =>
      have hnil : ((Piece.items rest ++ []).map Prod.fst).Nodup := by simpa using nodup
      rw [map_mend_of_disjoint hnil (by simp)]
  | @move front j y mid i x back out fixes next ih =>
      -- The passed statements are in another order; of them none is sorted.
      have hrow : Piece.items (front ++ .item j y :: (mid ++ .item i x :: back)) =
          (Piece.items front ++ (j, y) :: (Piece.items mid ++ [(i, x)])) ++ Piece.items back := by
        simp [Piece.items]
      rw [hrow] at nodup ⊢
      have hmend : mend reread (.move j i :: fixes) = mend reread fixes := by
        funext p
        simp [mend]
      have hback : ((Piece.items back).map Prod.fst).Nodup :=
        nodup.sublist ((List.sublist_append_right _ _).map _)
      rw [hmend, List.map_append, map_mend_of_disjoint nodup fun k hk => next.index_mem hk]
      refine List.Perm.trans ?_ ((ih hback).append_left _)
      have swap : ((j, y) :: Piece.items mid ++ (i, x) :: Piece.items out).Perm
          ((i, x) :: ((j, y) :: Piece.items mid ++ Piece.items out)) := List.perm_middle
      simpa [Piece.items] using swap.symm.append_left (Piece.items front)
  | @blank front i x x' back out fixes next ih =>
      rw [Piece.items_append] at nodup ⊢
      have hmend : mend reread (.blank i :: fixes) = mend reread fixes := by
        funext p
        simp [mend]
      have hback := nodup.sublist ((List.sublist_append_right _ _).map _)
      rw [hmend, Piece.items_append, List.map_append,
        map_mend_of_disjoint nodup fun k hk => next.index_mem hk]
      exact (ih hback).append_left _
  | @sort front i x back out fixes next ih =>
      rw [Piece.items_append] at nodup ⊢
      have hcons := nodup.sublist ((List.sublist_append_right _ _).map _)
      obtain ⟨hfree, hback⟩ := List.nodup_cons.mp hcons
      have behind : ∀ k, .sort k ∈ (.sort i :: fixes : List Fix) →
          k ∈ (Piece.items (.item i x :: back)).map Prod.fst := by
        intro k hk
        rcases List.mem_cons.mp hk with heq | hk
        · cases heq
          exact List.mem_cons_self
        · exact List.mem_cons_of_mem _ (next.index_mem hk)
      have hmend : (Piece.items back).map (mend reread (.sort i :: fixes)) =
          (Piece.items back).map (mend reread fixes) := by
        apply List.map_congr_left
        intro p hp
        have hne : p.1 ≠ i := fun heq => hfree (List.mem_map.mpr ⟨p, hp, heq⟩)
        simp [mend, hne]
      have hitem : mend reread (.sort i :: fixes) (i, x) = (i, x.sorted (reread x)) := by
        simp [mend]
      rw [Piece.items_append, List.map_append, map_mend_of_disjoint nodup behind]
      refine List.Perm.append_left _ ?_
      simp only [Piece.items, List.map_cons, hitem, hmend]
      exact (ih hback).cons _

theorem exists_of_append_blank {passed rest front back : List Piece} {i : Nat}
    (plain : .blank i ∉ passed) (h : passed ++ rest = front ++ .blank i :: back) :
    ∃ front', rest = front' ++ .blank i :: back := by
  rcases List.append_eq_append_iff.mp h with ⟨more, -, hrest⟩ | ⟨more, rfl, hblank⟩
  · exact ⟨more, hrest⟩
  · cases more with
    | nil => exact ⟨[], by simpa using hblank.symm⟩
    | cons p more =>
        obtain ⟨rfl, -⟩ := List.cons.inj hblank
        exact absurd (by simp) plain

/-- A new line stands directly in front of the statement that was to get one. -/
theorem blank_followed (h : Sweep reread row fixes out) (plain : ∀ k, .blank k ∉ row)
    {front back : List Piece} {i : Nat} (hout : out = front ++ .blank i :: back) :
    .blank i ∈ fixes ∧ ∃ x rest, back = .item i x :: rest := by
  induction h generalizing front with
  | done rest => exact absurd (by simp [hout]) (plain i)
  | @move front' j y mid k x back' out fixes next ih =>
      have hpassed : .blank i ∉ front' ++ .item k x :: .item j y :: mid := by
        have := plain i
        simp_all
      obtain ⟨more, hmore⟩ := exists_of_append_blank hpassed (by simpa using hout)
      obtain ⟨hfix, hback⟩ := ih (fun l hl => plain l (by simp [hl])) hmore
      exact ⟨List.mem_cons_of_mem _ hfix, hback⟩
  | @blank front' k x x' back' out fixes next ih =>
      have hpassed : .blank i ∉ front' := fun hmem => plain i (List.mem_append_left _ hmem)
      obtain ⟨more, hmore⟩ := exists_of_append_blank hpassed hout
      cases more with
      | nil =>
          cases hmore
          exact ⟨List.mem_cons_self, x', out, rfl⟩
      | cons p more =>
          obtain ⟨-, hmore⟩ := List.cons.inj hmore
          obtain ⟨hfix, hback⟩ := ih (fun l hl => plain l (List.mem_append_right _ hl)) hmore
          exact ⟨List.mem_cons_of_mem _ hfix, hback⟩
  | @sort front' k x back' out fixes next ih =>
      have hpassed : .blank i ∉ front' ++ [.item k (x.sorted (reread x))] := by
        have := plain i
        simp_all
      obtain ⟨more, hmore⟩ := exists_of_append_blank hpassed (by simpa using hout)
      obtain ⟨hfix, hback⟩ := ih (fun l hl => plain l (by simp [hl])) hmore
      exact ⟨List.mem_cons_of_mem _ hfix, hback⟩

end Sweep

/-! ### The fixes of a pass -/

/-- The statement without the lines it is on. -/
def Statement.unplaced (s : Statement) : Statement := { s with start := ⟨0, 0⟩, stop := ⟨0, 0⟩ }

/-- Statements with the texts and ranges of the document's; on which lines they are is left open. -/
def Document.Located (d : Document) (statements : List Statement) : Prop :=
  statements.map Statement.unplaced = d.statements.map Statement.unplaced

section Fixes

variable {d : Document} {policy : Policy} {statements : List Statement} {text tail : Text}
variable {violations : List Violation} {v : Violation} {e : Edit}

/-- What fixes depend on is given by where the statement's chunk lies. -/
theorem Document.Located.at_split (located : d.Located statements) {front back : List Chunk}
    {x : Item} {i : Nat} {s : Statement} (split : d.chunks = front ++ .item x :: back)
    (hi : (front.filterMap Chunk.item?).length = i) (h : statements[i]? = some s) :
    s.text = x.text ∧
      s.span = ⟨Piece.size d.newline.text (Chunk.number 0 front),
        Piece.size d.newline.text (Chunk.number 0 front) + x.text.length⟩ ∧
      ∃ row, Edit.planMembers s = Edit.planMembers
        (x.statement (Piece.size d.newline.text (Chunk.number 0 front)) row) := by
  subst hi
  have heq := congrArg (·[(front.filterMap Chunk.item?).length]?) located
  simp only [List.getElem?_map, h] at heq
  rw [Document.statements, split, Chunk.getElem?_statements, Nat.zero_add] at heq
  have hs := Option.some_injective _ heq
  have htext := congrArg Statement.text hs
  have hspan := congrArg Statement.span hs
  have hplan := congrArg Edit.planMembers hs
  rw [Chunk.size_number]
  exact ⟨htext, hspan, 1 + Chunk.lineCount front, hplan⟩

theorem Document.Located.exists_split (located : d.Located statements) {i : Nat} {s : Statement}
    (h : statements[i]? = some s) :
    ∃ front x back, d.chunks = front ++ .item x :: back ∧
      (front.filterMap Chunk.item?).length = i := by
  apply Chunk.exists_split
  have hlen := congrArg List.length located
  simp only [List.length_map, Document.statements, Chunk.length_statements] at hlen
  exact hlen ▸ (List.getElem?_eq_some_iff.mp h).1

theorem Chunk.number_of_split {front back : List Chunk} {x : Item} {i : Nat}
    (hi : (front.filterMap Chunk.item?).length = i) :
    Chunk.number 0 (front ++ .item x :: back) =
      Chunk.number 0 front ++ .item i x :: Chunk.number (i + 1) back := by
  rw [Chunk.number_append, Nat.zero_add, Chunk.number, hi]

theorem Document.short_of_ending (ending : tail = [] ∨ tail = d.newline.text) :
    tail.length ≤ d.newline.text.length := by
  rcases ending with rfl | rfl <;> simp

theorem Document.whole_pieces (whole : text ++ tail = d.text) :
    text ++ tail = Piece.render d.newline.text d.pieces := by
  rw [whole, Document.pieces, Chunk.render_number, Document.text]

theorem edits_of_mem (located : d.Located statements) (whole : text ++ tail = d.text)
    (short : tail.length ≤ d.newline.text.length)
    (h : checkStatements policy d.newline.text statements = .ok violations) (hv : v ∈ violations)
    (he : Edit.merge text v.edits = some e) :
    v.fix.Edits d.newline.text text d.pieces e := by
  have whole' := Document.whole_pieces whole
  rcases (mem_of_checkStatements h).mp hv with ⟨i, j, s, r, wants, hs, hr, rfl⟩ |
    ⟨i, s, -, hs, rfl⟩ | ⟨i, s, b, -, hs, -, rfl⟩
  · obtain ⟨front, x, back, split, hi⟩ := located.exists_split hs
    obtain ⟨pre, y, mid, rfl, hj⟩ := Chunk.exists_split (hi ▸ wants.before)
    obtain ⟨htext, hspan, -⟩ := located.at_split split hi hs
    obtain ⟨-, hplace, -⟩ := located.at_split (split.trans (List.append_assoc _ _ _)) hj hr
    have hrow : d.pieces = Chunk.number 0 pre ++
        .item j y :: (Chunk.number (j + 1) mid ++ .item i x :: Chunk.number (i + 1) back) := by
      rw [Document.pieces, split, Chunk.number_of_split hi, Chunk.number_of_split hj,
        List.append_assoc, List.cons_append]
    have hstop : Piece.size d.newline.text _ = _ := Piece.size_concat_item
      (Chunk.number 0 pre ++ .item j y :: Chunk.number (j + 1) mid) i x
    rw [List.append_assoc, List.cons_append] at hstop
    rw [Chunk.number_of_split hj] at hspan
    rw [Edit.merge_planMove (by simp [hspan, hplace]) (by simp [hspan]), hspan, hplace, htext,
      ← hstop] at he
    cases he
    exact .move hrow
  · obtain ⟨front, x, back, split, hi⟩ := located.exists_split hs
    obtain ⟨-, hspan, -⟩ := located.at_split split hi hs
    have hrow := (congrArg (Chunk.number 0) split).trans (Chunk.number_of_split hi)
    have hlen := size_add_le whole' short hrow
    rw [Edit.merge_planBlankLine (by simp only [hspan]; omega), hspan] at he
    cases he
    exact .blank hrow
  · obtain ⟨front, x, back, split, hi⟩ := located.exists_split hs
    obtain ⟨-, -, row, hplan⟩ := located.at_split split hi hs
    have hrow := (congrArg (Chunk.number 0) split).trans (Chunk.number_of_split hi)
    have hlen := size_add_le whole' short hrow
    have hstop := x.stop_le
    simp only [hplan] at he
    obtain ⟨f, hf⟩ := List.exists_mem_of_ne_nil (Edit.planMembers
        (x.statement (Piece.size d.newline.text (Chunk.number 0 front)) row)) (by
      rintro hnil
      simp [hnil, Edit.merge, Edit.sort] at he)
    obtain ⟨heq, -, hspan, hwritten⟩ := x.planMembers_statement _ _ f hf
    rw [heq, Edit.merge_singleton (by rw [hspan]; simp only; omega)] at he
    obtain rfl : f = e := Option.some_injective _ he
    obtain ⟨span, names⟩ := f
    cases hspan
    exact .sort hrow hwritten

/-- The fixes that a pass carries out when it finds these violations. -/
def carriedOut (text : Text) (violations : List Violation) : List Fix :=
  (takenFixes text (passFixes violations)).map (·.1.fix)

theorem mem_carriedOut {fix : Fix} (h : fix ∈ carriedOut text violations) :
    ∃ v ∈ passFixes violations, v.fix = fix ∧ v.edits ≠ [] := by
  obtain ⟨f, hf, rfl⟩ := List.mem_map.mp h
  obtain ⟨hv, he⟩ := mem_mergedFixes.mp (mem_mergedFixes_of_taken hf)
  refine ⟨f.1, hv, rfl, ?_⟩
  rintro hnil
  simp [hnil, Edit.merge, Edit.sort] at he

/-- A pass over the text of a document is a sweep over its pieces. -/
theorem exists_sweep (reread : Item → String) (located : d.Located statements)
    (whole : text ++ tail = d.text) (ending : tail = [] ∨ tail = d.newline.text)
    (h : checkStatements policy d.newline.text statements = .ok violations) :
    ∃ out tail', Sweep reread d.pieces (carriedOut text violations) out ∧
      (tail' = tail ∨ tail' = []) ∧
      (applyFixes text ((passFixes violations).map (·.edits))).text ++ tail' =
        Piece.render d.newline.text out := by
  have short := Document.short_of_ending ending
  have whole' := Document.whole_pieces whole
  let taken := (takenFixes text (passFixes violations)).map fun f => (f.1.fix, f.2)
  have edits : ∀ f ∈ taken, f.1.Edits d.newline.text text d.pieces f.2 := by
    intro f hf
    obtain ⟨g, hg, rfl⟩ := List.mem_map.mp hf
    obtain ⟨hv, he⟩ := mem_mergedFixes.mp (mem_mergedFixes_of_taken hg)
    exact edits_of_mem located whole short h (mem_of_mem_passFixes hv) he
  have chain : taken.IsChain fun a b => a.2.span.stop < b.2.span.start := by
    rw [List.isChain_map]
    exact Edit.isChain_selectBy_none _ _
  have swept : Swept reread d.newline.text text tail d.pieces (Piece.size d.newline.text [])
      taken :=
    swept_of_edits whole' short d.newline.length_pos (List.nil_append _).symm (Nat.zero_le _) edits
      chain fun _ _ => Nat.zero_le _
  obtain ⟨out, tail', sweep, htail, hrender, -⟩ := swept
  refine ⟨out, tail', ?_, htail, ?_⟩
  · simpa [taken, carriedOut, Function.comp_def] using sweep
  · rw [applyFixes_text]
    simpa [taken, Function.comp_def] using hrender

end Fixes

/-! ### What a pass keeps -/

/-- What a pass that finds `violations` in a document's text makes of it: the rendering of `out`.
The end of the text, before and after, may lack its line break. -/
structure KeepsChunks (d : Document) (text tail : Text) (violations : List Violation)
    (out : List Piece) (tail' : Text) : Prop where
  rendered : (applyFixes text ((passFixes violations).map (·.edits))).text ++ tail' =
    Piece.render d.newline.text out
  ending : tail' = tail ∨ tail' = []
  /-- All other lines are there, in their order. -/
  lines : Piece.lines out = d.lines
  /-- Every statement is there once, with sorted names if that was a fix that was applied. -/
  items : (Piece.items out).Perm (d.items.zipIdx.map fun (x, i) =>
    (i, if ∃ f ∈ takenFixes text (passFixes violations),
        f.1.index = i ∧ f.1.kind = .wrongMemberOrder then x.sorted x.source else x))
  /-- A new line stands directly in front of a statement to which that fix was applied. -/
  blanks : ∀ front i back, out = front ++ .blank i :: back →
    (∃ f ∈ takenFixes text (passFixes violations),
      f.1.index = i ∧ f.1.kind = .missingBlankLine) ∧ ∃ x rest, back = .item i x :: rest

theorem Violation.fix_eq_sort {v : Violation} {i : Nat} :
    v.fix = .sort i ↔ v.index = i ∧ v.kind = .wrongMemberOrder := by
  unfold fix kind
  cases v.fault <;> simp

theorem Violation.fix_eq_blank {v : Violation} {i : Nat} :
    v.fix = .blank i ↔ v.index = i ∧ v.kind = .missingBlankLine := by
  unfold fix kind
  cases v.fault <;> simp

theorem Violation.fix_ne_move {v : Violation} (h : v.kind ≠ .wrongOrder) (j i : Nat) :
    v.fix ≠ .move j i := by
  unfold kind at h
  unfold fix
  split at h <;> simp_all

theorem Document.items_pieces (d : Document) :
    Piece.items d.pieces = d.items.zipIdx.map Prod.swap := Chunk.items_number 0 d.chunks

theorem Document.nodup_pieces (d : Document) : ((Piece.items d.pieces).map Prod.fst).Nodup := by
  have hfst : Prod.fst ∘ Prod.swap = (Prod.snd : Item × Nat → Nat) := rfl
  rw [items_pieces, List.map_map, hfst, List.zipIdx_map_snd]
  exact List.nodup_range'

/-- A pass over a uniform document rearranges its chunks, whatever the policy. -/
theorem pass_keeps_chunks (d : Document) (policy : Policy) (statements : List Statement)
    (text tail : Text) (located : d.Located statements) (whole : text ++ tail = d.text)
    (ending : tail = [] ∨ tail = d.newline.text) :
    (∀ compile data path, Policy.ofValue compile data path = .ok policy →
      ∃ violations, checkStatements policy d.newline.text statements = .ok violations) ∧
    ∀ violations, checkStatements policy d.newline.text statements = .ok violations →
      (applyFixes text ((passFixes violations).map (·.edits))).applied =
        (takenFixes text (passFixes violations)).length ∧
      ∃ out tail', KeepsChunks d text tail violations out tail' := by
  refine ⟨?_, ?_⟩
  · intro compile data path h
    exact ⟨_, checkStatements_of_resolved (Policy.resolved_of_ofValue h) _ _⟩
  · intro violations h
    refine ⟨applyFixes_applied _ _, ?_⟩
    obtain ⟨out, tail', sweep, htail, hrender⟩ := exists_sweep (·.source) located whole ending h
    refine ⟨out, tail', hrender, htail, ?_, ?_, ?_⟩
    · rw [sweep.lines_eq]
      exact Chunk.lines_number 0 _
    · have hperm := sweep.items_perm d.nodup_pieces
      rw [d.items_pieces, List.map_map] at hperm
      refine hperm.trans (List.Perm.of_eq (List.map_congr_left ?_))
      intro p _
      refine Prod.ext rfl (if_congr ?_ rfl rfl)
      rw [carriedOut, List.mem_map]
      exact exists_congr fun f => and_congr_right fun _ => Violation.fix_eq_sort
    · intro front i back hout
      obtain ⟨hfix, hback⟩ := sweep.blank_followed (fun k => Chunk.blank_notMem_number 0 k _) hout
      obtain ⟨f, hf, heq⟩ := List.mem_map.mp hfix
      exact ⟨⟨f, hf, Violation.fix_eq_blank.mp heq⟩, hback⟩

/-- Modules named `os` come first, and an empty line parts them from the others. -/
def Policy.systemFirst : Policy :=
  { order := ["os", Settings.everythingElse]
    patterns := [.literal "os", .literal Settings.everythingElse]
    groups := []
    emptyLines := true }

def Value.systemFirst : Value :=
  .map [(.str Settings.order, .list [.str "os", .str Settings.everythingElse]),
    (.str Settings.emptyLines, .bool true)]

theorem Policy.ofValue_systemFirst (compile : Regex.Compiler) :
    ofValue compile .systemFirst none = .ok .systemFirst := rfl

theorem Policy.resolved_systemFirst : systemFirst.Resolved :=
  resolved_of_ofValue (ofValue_systemFirst Regex.compile)

theorem Policy.place_systemFirst (source : String) :
    systemFirst.place source = ⟨if source = "os" then 0 else 1, none⟩ := by
  by_cases h : source = "os"
  · rw [h]
    decide
  · have hos : Pattern.accepts source (.literal "os") = false := by
      simpa [Pattern.accepts] using Ne.symm h
    have hpatterns : systemFirst.patterns = [.literal "os", .literal Settings.everythingElse] := rfl
    have helse : systemFirst.everythingElse = 1 := by decide
    have hplace : systemFirst.place source =
        (if Pattern.accepts source (.literal Settings.everythingElse) then some ⟨1, none⟩
          else none).getD ⟨1, none⟩ := by
      simp [place, claim, hpatterns, helse, hos]
    rw [hplace, if_neg h]
    split <;> rfl

/-- A check under the policy, seen through `view`, with the places of the statements filled in. -/
theorem exists_checked_systemFirst {β : Type} (newline : Text) (statements : List Statement)
    (view : List Violation → β) {shown : β}
    (h : view ((Placed.checkOrder .systemFirst (statements.map fun s =>
      ⟨s, ⟨if s.source = "os" then 0 else 1, none⟩⟩)).map (·.withPlan newline)) = shown) :
    ∃ violations, checkStatements .systemFirst newline statements = .ok violations ∧
      view violations = shown := by
  refine ⟨_, checkStatements_of_resolved Policy.resolved_systemFirst newline statements, ?_⟩
  rw [← h, Policy.placed]
  simp only [Policy.place_systemFirst]

/-- A line, then two statements in the wrong order, one of them with unsorted names. -/
def Document.unsorted : Document where
  newline := .crlf
  chunks :=
    [.line ['#'],
      .item ⟨"q", "from q import ".toList, none, [⟨"d", ['d'], [',', ' ']⟩, ⟨"c", ['c'], []⟩]⟩,
      .item ⟨"os", "import ".toList, none, [⟨"os", "os".toList, []⟩]⟩]

/-- The same without the last line break. -/
theorem pass_keeps_chunks_unended :
    "#\r\nfrom q import d, c\r\nimport os".toList ++ ['\r', '\n'] = Document.unsorted.text ∧
      ∃ violations, checkStatements .systemFirst ['\r', '\n'] Document.unsorted.statements =
          .ok violations ∧
        ∃ out tail', KeepsChunks .unsorted "#\r\nfrom q import d, c\r\nimport os".toList
          ['\r', '\n'] violations out tail' := by
  have whole : "#\r\nfrom q import d, c\r\nimport os".toList ++ ['\r', '\n'] =
      Document.unsorted.text := by decide
  obtain ⟨returns, keeps⟩ := pass_keeps_chunks .unsorted .systemFirst Document.unsorted.statements
    _ _ rfl whole (.inr rfl)
  obtain ⟨violations, h⟩ := returns Regex.compile _ none (Policy.ofValue_systemFirst _)
  exact ⟨whole, violations, h, (keeps violations h).2⟩

end ImportOrder
