import ImportOrder.Proofs.Passes

/-!
Ties in one pass. Of the statements that are to move to one place only the nearest is moved there,
since its edit is the shortest; and a statement between that place and one with the same key is to
move there as well. So nothing is moved past a statement that it ties with, and whatever else a pass
does, such statements stay in their order.
-/

namespace ImportOrder

/-! ### Sweeps that move no statement past one it ties with -/

/-- No fix moves a statement past one that it ties with. -/
def KeepsTies (tie : Nat → Nat → Prop) (fixes : List Fix) : Prop :=
  ∀ j i, .move j i ∈ fixes → ∀ l, j ≤ l → l < i → ¬ tie i l

section Rows

variable {tie : Nat → Nat → Prop}

theorem KeepsTies.of_cons {fix : Fix} {fixes : List Fix} (h : KeepsTies tie (fix :: fixes)) :
    KeepsTies tie fixes :=
  fun j i hf => h j i (List.mem_cons_of_mem fix hf)

theorem pairwise_move_up {α : Type} {R : α → α → Prop} {front passed back : List α} {x : α}
    (h : (front ++ (passed ++ x :: back)).Pairwise R) (hpast : ∀ y ∈ passed, R x y) :
    (front ++ x :: (passed ++ back)).Pairwise R := by
  obtain ⟨hfront, hrest, hahead⟩ := List.pairwise_append.mp h
  obtain ⟨hpassed, hcons, hbefore⟩ := List.pairwise_append.mp hrest
  obtain ⟨hx, hback⟩ := List.pairwise_cons.mp hcons
  have hbelow : (passed ++ back).Pairwise R := List.pairwise_append.mpr
    ⟨hpassed, hback, fun y hy z hz => hbefore y hy z (List.mem_cons_of_mem x hz)⟩
  refine List.pairwise_append.mpr ⟨hfront, List.pairwise_cons.mpr ⟨?_, hbelow⟩, ?_⟩
  · intro y hy
    rcases List.mem_append.mp hy with hy | hy
    · exact hpast y hy
    · exact hx y hy
  · intro y hy z hz
    exact hahead y hy z (List.perm_middle.mem_iff.mpr hz)

/-- Numbers that are in order stay so if those behind them are rearranged without breaking a tie. -/
theorem pairwise_append_of_perm {front back out : List Nat}
    (increasing : (front ++ back).Pairwise (· < ·)) (perm : out.Perm back)
    (h : out.Pairwise fun a b => tie a b → a < b) :
    (front ++ out).Pairwise fun a b => tie a b → a < b := by
  obtain ⟨hfront, -, hahead⟩ := List.pairwise_append.mp increasing
  refine List.pairwise_append.mpr ⟨hfront.imp fun hlt => Function.const _ hlt, h, ?_⟩
  intro a ha b hb _
  exact hahead a ha b (perm.mem_iff.mp hb)

variable {reread : Item → String} {row out : List Piece} {fixes : List Fix}

theorem Sweep.numbers_perm (h : Sweep reread row fixes out)
    (nodup : ((Piece.items row).map Prod.fst).Nodup) :
    ((Piece.items out).map Prod.fst).Perm ((Piece.items row).map Prod.fst) := by
  have hperm := (h.items_perm nodup).map Prod.fst
  rwa [List.map_map] at hperm

/-- Statements that tie stay in the order of their numbers. -/
theorem Sweep.pairwise_ties (h : Sweep reread row fixes out)
    (increasing : ((Piece.items row).map Prod.fst).Pairwise (· < ·)) (ties : KeepsTies tie fixes) :
    ((Piece.items out).map Prod.fst).Pairwise fun a b => tie a b → a < b := by
  induction h with
  | done rest => exact increasing.imp fun hlt => Function.const _ hlt
  | @move front j y mid i x back out fixes next ih =>
      have hrow : (Piece.items (front ++ .item j y :: (mid ++ .item i x :: back))).map Prod.fst =
          ((Piece.items front).map Prod.fst ++ (j :: (Piece.items mid).map Prod.fst ++ [i])) ++
            (Piece.items back).map Prod.fst := by
        simp [Piece.items]
      have hout : (Piece.items (front ++ .item i x :: .item j y :: (mid ++ out))).map Prod.fst =
          (Piece.items front).map Prod.fst ++ i :: (j :: (Piece.items mid).map Prod.fst ++
            (Piece.items out).map Prod.fst) := by
        simp [Piece.items]
      rw [hrow] at increasing
      obtain ⟨hahead, hback, -⟩ := List.pairwise_append.mp increasing
      obtain ⟨hpassed, -, hbefore⟩ := List.pairwise_append.mp (List.pairwise_append.mp hahead).2.1
      have hkept := pairwise_append_of_perm increasing (next.numbers_perm (hback.imp ne_of_lt))
        (ih hback ties.of_cons)
      rw [hout]
      refine pairwise_move_up (by simpa using hkept) fun l hl htie => ?_
      -- Whatever the statement passes lies between its new place and its old one.
      have hjl : j ≤ l := by
        rcases List.mem_cons.mp hl with rfl | hl
        · exact le_rfl
        · exact ((List.pairwise_cons.mp hpassed).1 l hl).le
      exact absurd htie (ties j i List.mem_cons_self l hjl (hbefore l hl i (by simp)))
  | @blank front i x x' back out fixes next ih =>
      rw [Piece.items_append, List.map_append] at increasing
      have hback := (List.pairwise_append.mp increasing).2.1
      have hkept := pairwise_append_of_perm increasing (next.numbers_perm (hback.imp ne_of_lt))
        (ih hback ties.of_cons)
      rwa [Piece.items_append, List.map_append]
  | @sort front i x back out fixes next ih =>
      have hrow : (Piece.items (front ++ .item i x :: back)).map Prod.fst =
          ((Piece.items front).map Prod.fst ++ [i]) ++ (Piece.items back).map Prod.fst := by
        simp [Piece.items]
      rw [hrow] at increasing
      have hback := (List.pairwise_append.mp increasing).2.1
      have hkept := pairwise_append_of_perm increasing (next.numbers_perm (hback.imp ne_of_lt))
        (ih hback ties.of_cons)
      simpa [Piece.items] using hkept

end Rows

theorem Document.increasing_pieces (d : Document) :
    ((Piece.items d.pieces).map Prod.fst).Pairwise (· < ·) := by
  have hfst : Prod.fst ∘ Prod.swap = (Prod.snd : Item × Nat → Nat) := rfl
  rw [items_pieces, List.map_map, hfst, List.zipIdx_map_snd]
  exact List.pairwise_lt_range'

/-! ### Where the edits of moves lie -/

/-- The text of a document, or all of it but the last line break. A statement that ends the text
without one is not empty. -/
structure Document.Written (d : Document) (text tail : Text) : Prop where
  whole : text ++ tail = d.text
  ending : tail = [] ∨ tail = d.newline.text ∧ ∀ x ∈ d.items, x.text ≠ []

theorem Document.written_self (d : Document) : d.Written d.text [] := ⟨List.append_nil _, .inl rfl⟩

section Moves

variable {d : Document} {policy : Policy} {statements : List Statement} {text tail : Text}
variable {violations : List Violation} {s t r : Statement} {i j l : Nat}

theorem Document.Written.ending_cases (written : d.Written text tail) :
    tail = [] ∨ tail = d.newline.text :=
  written.ending.imp_right And.left

theorem Document.Written.short (written : d.Written text tail) :
    tail.length ≤ d.newline.text.length :=
  Document.short_of_ending written.ending_cases

theorem Document.Located.start_le_stop (located : d.Located statements)
    (hs : statements[i]? = some s) : s.span.start ≤ s.span.stop := by
  obtain ⟨front, x, back, split, hi⟩ := located.exists_split hs
  obtain ⟨-, hspan, -⟩ := located.at_split split hi hs
  simp [hspan]

theorem Document.Located.stop_le_start (located : d.Located statements) (hli : l < i)
    (hs : statements[i]? = some s) (ht : statements[l]? = some t) :
    t.span.stop + d.newline.text.length ≤ s.span.start := by
  obtain ⟨front, x, back, split, hi⟩ := located.exists_split hs
  obtain ⟨pre, z, mid, rfl, hl⟩ := Chunk.exists_split (hi ▸ hli)
  obtain ⟨-, hspan, -⟩ := located.at_split split hi hs
  obtain ⟨-, hspan', -⟩ := located.at_split (split.trans (List.append_assoc _ _ _)) hl ht
  rw [hspan, hspan', Chunk.size_number, Chunk.size_number, Chunk.render_append, Chunk.render_cons]
  simp only [Chunk.body, List.length_append]
  omega

theorem Document.Written.start_lt (written : d.Written text tail) (located : d.Located statements)
    (hs : statements[i]? = some s) : s.span.start < text.length := by
  obtain ⟨front, x, back, split, hi⟩ := located.exists_split hs
  obtain ⟨-, hspan, -⟩ := located.at_split split hi hs
  have hlen := congrArg List.length written.whole
  rw [Document.text, split, Chunk.render_append, Chunk.render_cons] at hlen
  simp only [Chunk.body, List.length_append] at hlen
  simp only [hspan, Chunk.size_number]
  have hpos := d.newline.length_pos
  rcases written.ending with rfl | ⟨rfl, filled⟩
  · simp only [List.length_nil] at hlen
    omega
  · have hx : x ∈ d.items := List.mem_filterMap.mpr ⟨.item x, by simp [split], rfl⟩
    have := List.length_pos_of_ne_nil (filled x hx)
    omega

theorem Document.Located.merge_move (located : d.Located statements) (text : Text) (hji : j < i)
    (hr : statements[j]? = some r) (hs : statements[i]? = some s) :
    ∃ moved, Edit.merge text (Edit.planMove s r.span.start d.newline.text) =
      some ⟨⟨r.span.start, min (s.span.stop + d.newline.text.length) text.length⟩, moved⟩ := by
  have hr' := located.start_le_stop hr
  have hbefore := located.stop_le_start hji hs hr
  exact ⟨_, Edit.merge_planMove (by omega) (located.start_le_stop hs)⟩

/-- Whatever is to move is on offer to a pass. -/
theorem exists_mergedFix (text : Text) (located : d.Located statements)
    (h : checkStatements policy d.newline.text statements = .ok violations)
    (wants : Placed.Wants policy (policy.placed statements) i j) (hs : statements[i]? = some s)
    (hr : statements[j]? = some r) :
    ∃ f ∈ mergedFixes text (passFixes violations), f.1.kind = .wrongOrder ∧
      f.2.span = ⟨r.span.start, min (s.span.stop + d.newline.text.length) text.length⟩ := by
  obtain ⟨moved, hmerge⟩ := located.merge_move text wants.before hr hs
  have hv := mem_passFixes ((mem_of_checkStatements h).mpr
    (.inl ⟨i, j, s, r, wants, hs, hr, rfl⟩)) (by simp [Violation.kind])
  exact ⟨_, (mem_mergedFixes (f := (_, _))).mpr ⟨hv, hmerge⟩, rfl, rfl⟩

theorem ordered_mergedFixes (located : d.Located statements) (written : d.Written text tail)
    (h : checkStatements policy d.newline.text statements = .ok violations) :
    ∀ f ∈ mergedFixes text (passFixes violations), f.2.span.start ≤ f.2.span.stop := by
  intro f hf
  obtain ⟨hv, he⟩ := mem_mergedFixes.mp hf
  exact (edits_of_mem located written.whole written.short h (mem_of_mem_passFixes hv)
    he).start_le_stop (Document.whole_pieces written.whole) written.short

/-- A move is not carried out if a statement nearer to its target is to move there. -/
theorem move_notMem_carriedOut (located : d.Located statements) (written : d.Written text tail)
    (h : checkStatements policy d.newline.text statements = .ok violations)
    (nearer : Placed.Wants policy (policy.placed statements) l j) (hli : l < i) :
    .move j i ∉ carriedOut text violations := by
  intro hf
  obtain ⟨⟨v, e⟩, taken, hfix⟩ := List.mem_map.mp hf
  obtain ⟨hv, he⟩ := mem_mergedFixes.mp (mem_mergedFixes_of_taken taken)
  rcases (mem_of_checkStatements h).mp (mem_of_mem_passFixes hv) with
    ⟨i', j', s, r, -, hs, hr, rfl⟩ | ⟨i', s, -, -, rfl⟩ | ⟨i', s, b, -, -, -, rfl⟩
  · cases hfix
    have hjl := nearer.before
    obtain ⟨t, ht⟩ : ∃ t, statements[l]? = some t :=
      ⟨_, List.getElem?_eq_getElem (hli.trans (List.getElem?_eq_some_iff.mp hs).1)⟩
    obtain ⟨moved, hmerge⟩ := located.merge_move text (hjl.trans hli) hr hs
    obtain rfl := Option.some_injective _ (hmerge.symm.trans he)
    -- The nearer statement's move starts at the same place and ends earlier.
    obtain ⟨f, shorter, -, hspan⟩ := exists_mergedFix text located h nearer ht hr
    have hbefore := located.stop_le_start hli hs ht
    have hstart := written.start_lt located hs
    have hstop := located.start_le_stop hs
    have hpos := d.newline.length_pos
    refine absurd taken ?_
    apply Edit.not_mem_selectBy_of_shorter _ (ordered_mergedFixes located written h)
      (mergedFixes_sorted _ _) shorter
    · simp only [hspan]
    · simp only [hspan]
      omega
  · cases hfix
  · cases hfix

/-- A statement of the same key that stands nearer to the target of a move is to move there too. -/
theorem keepsTies_carriedOut (located : d.Located statements) (written : d.Written text tail)
    (h : checkStatements policy d.newline.text statements = .ok violations) :
    KeepsTies (fun i l => ∃ a c : Placed, (policy.placed statements)[i]? = some a ∧
      (policy.placed statements)[l]? = some c ∧ c.key policy = a.key policy)
      (carriedOut text violations) := by
  rintro j i hf l hjl hli ⟨a, c, ha, hc, same⟩
  have wants := wants_of_move h hf
  rcases hjl.eq_or_lt with rfl | hjl
  · exact (wants.key_lt ha hc).ne same.symm
  · exact move_notMem_carriedOut located written h (wants.of_same_key hjl hli.le ha hc same) hli hf

end Moves

/-! ### What a pass keeps -/

/-- Two statements of one slot and sub-pattern, or of none, with the same first name. -/
structure Statement.Ties (policy : Policy) (s t : Statement) : Prop where
  group : (policy.place s.source).group = (policy.place t.source).group
  sub : (policy.place s.source).sub = (policy.place t.source).sub
  name : Placed.nameKey s.firstName = Placed.nameKey t.firstName

/-- What a pass that finds `violations` makes of a document's text: the rendering of `out`, in which
statements that tie stand in their order. -/
structure KeepsOrder (d : Document) (policy : Policy) (statements : List Statement)
    (text tail : Text) (violations : List Violation) (out : List Piece) (tail' : Text) : Prop where
  rendered : (applyFixes text ((passFixes violations).map (·.edits))).text ++ tail' =
    Piece.render d.newline.text out
  ending : tail' = tail ∨ tail' = []
  /-- Every statement is there once under its number, with sorted names or as it was. -/
  items : (Piece.items out).Perm
    ((Piece.items d.pieces).map (Sweep.mend Item.source (carriedOut text violations)))
  ties : (Piece.items out).Pairwise fun p q => ∀ s t, statements[p.1]? = some s →
    statements[q.1]? = some t → s.Ties policy t → p.1 < q.1

/-- A pass over a uniform document leaves statements that tie in their order, whatever the policy. -/
theorem pass_keeps_ties (d : Document) (policy : Policy) (statements : List Statement)
    (text tail : Text) (located : d.Located statements) (written : d.Written text tail) :
    (∀ compile data path, Policy.ofValue compile data path = .ok policy →
      ∃ violations, checkStatements policy d.newline.text statements = .ok violations) ∧
    ∀ violations, checkStatements policy d.newline.text statements = .ok violations →
      ∃ out tail', KeepsOrder d policy statements text tail violations out tail' := by
  refine ⟨?_, ?_⟩
  · intro compile data path h
    exact ⟨_, checkStatements_of_resolved (Policy.resolved_of_ofValue h) _ _⟩
  · intro violations h
    obtain ⟨out, tail', sweep, htail, hrender⟩ :=
      exists_sweep Item.source located written.whole written.ending_cases h
    refine ⟨out, tail', hrender, htail, sweep.items_perm d.nodup_pieces, ?_⟩
    have hkept := sweep.pairwise_ties d.increasing_pieces (keepsTies_carriedOut located written h)
    refine (List.pairwise_map.mp hkept).imp fun {p q} hlt s t hs ht ties => hlt ?_
    refine ⟨_, _, Policy.getElem?_placed.mpr ⟨s, hs, rfl⟩, Policy.getElem?_placed.mpr ⟨t, ht, rfl⟩,
      ?_⟩
    simp only [Placed.key, Policy.sortKey, ties.group, ties.sub, ties.name]

/-- Two statements that import the same name from `os`, below `import z`. -/
def Document.twins : Document where
  newline := .lf
  chunks :=
    [.item ⟨"z", "import ".toList, none, [⟨"z", ['z'], []⟩]⟩,
      .item ⟨"os", "from os import ".toList, none, [⟨"path", "path".toList, []⟩]⟩,
      .item ⟨"os", "from os import ".toList, none, [⟨"path", "path as p".toList, []⟩]⟩]

/-- Both are to move to the top, below which an empty line is missing; the text lacks its last line
break. -/
theorem pass_keeps_ties_twins :
    ∃ violations, checkStatements .systemFirst ['\n'] Document.twins.statements = .ok violations ∧
      violations.map (fun v => (v.index, v.place)) = [(1, some 0), (1, none), (2, some 0)] ∧
      (∃ s t, Document.twins.statements[1]? = some s ∧ Document.twins.statements[2]? = some t ∧
        s.Ties .systemFirst t) ∧
      ∃ out tail', KeepsOrder .twins .systemFirst Document.twins.statements
        "import z\nfrom os import path\nfrom os import path as p".toList ['\n'] violations out
        tail' := by
  obtain ⟨violations, h, found⟩ := exists_checked_systemFirst ['\n'] Document.twins.statements
    (·.map fun v => (v.index, v.place))
    (show _ = [(1, some 0), (1, none), (2, some 0)] by cbv)
  have keeps := (pass_keeps_ties .twins .systemFirst Document.twins.statements
    "import z\nfrom os import path\nfrom os import path as p".toList ['\n'] rfl
    ⟨by decide, .inr ⟨rfl, by decide⟩⟩).2 violations h
  exact ⟨violations, h, found, ⟨_, _, rfl, rfl, rfl, rfl, rfl⟩, keeps⟩

end ImportOrder
