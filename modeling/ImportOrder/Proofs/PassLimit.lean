import ImportOrder.Proofs.FixRun
import ImportOrder.Proofs.LetterImports
import ImportOrder.Proofs.OtherLines
import ImportOrder.Proofs.StableSort

/-!
How far a limited number of passes can get. A statement that stands in front of others it belongs
behind is passed by one of them in each pass: all of them are to move to its place, so their moves
overlap, and only the shortest is carried out. So a run may use up its passes and leave something
that one more pass would mend, and it leaves such a thing in no other way.
-/

namespace ImportOrder

/-! ### A statement that stands too far up -/

/-- In a list that is sorted but for one element, only that one stands wrongly before others. -/
theorem eq_length_of_not_rel {α : Type} {r : α → α → Prop} {front back : List α} {y a b : α}
    {i j : Nat} (sorted : (front ++ back).Pairwise r) (below : ∀ c ∈ front, r c y) (hji : j < i)
    (ha : (front ++ y :: back)[i]? = some a) (hb : (front ++ y :: back)[j]? = some b)
    (h : ¬ r b a) : j = front.length := by
  obtain ⟨i, rfl⟩ := Nat.exists_eq_add_one_of_ne_zero (Nat.ne_zero_of_lt hji)
  induction front generalizing i j with
  | nil =>
      cases j with
      | zero => rfl
      | succ j =>
          obtain ⟨hi, rfl⟩ := List.getElem?_eq_some_iff.mp ha
          obtain ⟨hj, rfl⟩ := List.getElem?_eq_some_iff.mp hb
          exact absurd (List.pairwise_iff_getElem.mp sorted j i _ _ (Nat.lt_of_succ_lt_succ hji)) h
  | cons c front ih =>
      obtain ⟨hc, sorted⟩ := List.pairwise_cons.mp sorted
      rw [List.cons_append, List.getElem?_cons_succ] at ha
      cases j with
      | zero =>
          obtain rfl : c = b := Option.some_injective _ hb
          rcases List.mem_append.mp (List.mem_of_getElem? ha) with hmem | hmem
          · exact absurd (hc a (List.mem_append_left back hmem)) h
          · rcases List.mem_cons.mp hmem with rfl | hmem
            · exact absurd (below c List.mem_cons_self) h
            · exact absurd (hc a (List.mem_append_right front hmem)) h
      | succ j =>
          have hlt := Nat.lt_of_succ_lt_succ hji
          obtain ⟨i, rfl⟩ := Nat.exists_eq_add_one_of_ne_zero (Nat.ne_zero_of_lt hlt)
          exact congrArg Nat.succ
            (ih sorted (fun d hd => below d (List.mem_cons_of_mem c hd)) hb i hlt ha)

/-- Of statements only the order matters, and the keys tell what it is. -/
structure Policy.OrderOnly (policy : Policy) : Prop where
  resolved : policy.Resolved
  grouped : policy.ignoreInGroupSort = false
  free : ∀ g ∈ policy.groups, g.1 ≠ Settings.everythingElse
  members : policy.ignoreMembersSort = true
  lines : policy.emptyLines = false

/-- The document is a row of statements, sorted but for one that belongs behind all others; the
statement directly below that one is `x`. -/
structure Document.Lags (policy : Policy) (d : Document) (low : List Item) (y x : Item)
    (high : List Item) : Prop where
  chunks : d.chunks = (low ++ y :: x :: high).map .item
  sorted : (low ++ x :: high).Pairwise fun a b => a.key policy < b.key policy
  largest : ∀ a ∈ low ++ x :: high, a.key policy < y.key policy

section Pass

variable {policy : Policy} {d : Document} {low high : List Item} {x y : Item}
variable {violations : List Violation} {i j : Nat}

theorem Document.Lags.items (h : d.Lags policy low y x high) : d.items = low ++ y :: x :: high := by
  rw [Document.items, h.chunks, List.filterMap_map]
  exact List.filterMap_some

theorem Document.Lags.place_eq (h : d.Lags policy low y x high)
    (wants : Placed.Wants policy (policy.placed d.statements) i j) (hi : i < d.items.length) :
    j = low.length := by
  obtain ⟨a, ha⟩ : ∃ a, d.items[i]? = some a := ⟨_, List.getElem?_eq_getElem hi⟩
  obtain ⟨b, hb⟩ : ∃ b, d.items[j]? = some b :=
    ⟨_, List.getElem?_eq_getElem (wants.before.trans hi)⟩
  have hlt := Document.key_lt_of_wants wants ha hb
  rw [h.items] at ha hb
  exact eq_length_of_not_rel h.sorted (fun c hc => h.largest c (List.mem_append_left _ hc))
    wants.before ha hb hlt.asymm

theorem Document.Lags.wants (order : policy.OrderOnly) (h : d.Lags policy low y x high) :
    Placed.Wants policy (policy.placed d.statements) (low.length + 1) low.length := by
  have hx : d.items[low.length + 1]? = some x := by simp [h.items]
  have hy : d.items[low.length]? = some y := by simp [h.items]
  obtain ⟨a, ha, hkey, -⟩ := Document.getElem?_placed policy hx
  obtain ⟨b, hb, hkey', -⟩ := Document.getElem?_placed policy hy
  have hlt : a.key policy < b.key policy := by
    rw [hkey, hkey']
    exact h.largest x (by simp)
  have pure := order.resolved.pure_placed order.free d.statements
  obtain ⟨k, wants, -⟩ := Placed.exists_wants (Nat.lt_succ_self _) ha hb order.grouped
    (pure a (List.mem_of_getElem? ha)) hlt
  rwa [h.place_eq wants (List.getElem?_eq_some_iff.mp hx).1] at wants

theorem Document.Lags.eq_move (order : policy.OrderOnly) (h : d.Lags policy low y x high)
    (hcheck : checkStatements policy d.newline.text d.statements = .ok violations) {fix : Fix}
    (hfix : fix ∈ carriedOut d.text violations) : fix = .move low.length (low.length + 1) := by
  obtain ⟨v, hv, rfl, -⟩ := mem_carriedOut hfix
  rcases (mem_of_checkStatements hcheck).mp (mem_of_mem_passFixes hv) with
    ⟨i, j, s, r, wants, hs, -, rfl⟩ | ⟨i, s, crowded, -, rfl⟩ | ⟨i, s, b, on, -, -, rfl⟩
  · obtain ⟨a, _, _, ha, -⟩ := d.item_of_statement hs
    obtain rfl := h.place_eq wants (List.getElem?_eq_some_iff.mp ha).1
    have hbelow := wants.before
    have hnear : ¬ low.length + 1 < i := fun hlt =>
      move_notMem_carriedOut d.located_self d.written_self hcheck (h.wants order) hlt hfix
    obtain rfl : i = low.length + 1 := by omega
    rfl
  · have := crowded.on
    simp [order.lines] at this
  · simp [order.members] at on

theorem Document.Lags.carriedOut_ne_nil (order : policy.OrderOnly) (h : d.Lags policy low y x high)
    (hcheck : checkStatements policy d.newline.text d.statements = .ok violations) :
    carriedOut d.text violations ≠ [] := by
  intro settled
  obtain ⟨_, _, hs⟩ := d.statement_of_item (i := low.length + 1) (x := x) (by simp [h.items])
  obtain ⟨_, _, hr⟩ := d.statement_of_item (i := low.length) (x := y) (by simp [h.items])
  have hv := (mem_of_checkStatements hcheck).mpr
    (.inl ⟨_, _, _, _, h.wants order, hs, hr, rfl⟩)
  cases (settled_violations hcheck settled hv).1

theorem Chunk.length_of_number_items {n : Nat} {items : List Item} {pre post : List Piece} {i : Nat}
    {z : Item} (h : number n (items.map .item) = pre ++ .item i z :: post) :
    i = n + pre.length := by
  induction items generalizing n pre with
  | nil => simp [number] at h
  | cons x items ih =>
      cases pre with
      | nil =>
          cases h
          rfl
      | cons p pre =>
          have := ih (List.cons.inj h).2
          rw [List.length_cons]
          omega

/-- Carrying out the one move swaps two statements. -/
theorem Sweep.swap {reread : Item → String} {row out : List Piece} {fixes : List Fix}
    (h : Sweep reread row fixes out)
    (hrow : Chunk.number 0 ((low ++ y :: x :: high).map .item) = row)
    (moves : ∀ fix ∈ fixes, fix = .move low.length (low.length + 1)) (some : fixes ≠ []) :
    out.map Piece.chunk = (low ++ x :: y :: high).map .item := by
  have hchunks := Chunk.map_chunk_number 0 ((low ++ y :: x :: high).map .item)
  rw [hrow] at hchunks
  cases h with
  | done => exact absurd rfl some
  | @move front j y' mid i x' back out fixes next =>
      cases moves _ List.mem_cons_self
      have hfront := Chunk.length_of_number_items hrow
      have hmid := Chunk.length_of_number_items
        (hrow.trans (List.append_assoc front (.item _ y' :: mid) _).symm)
      obtain rfl : mid = [] := by
        rw [← List.length_eq_zero_iff]
        simp only [List.length_append, List.length_cons] at hmid
        omega
      cases next with
      | done =>
          simp only [List.map_append, List.map_cons, Piece.chunk, List.nil_append]
            at hchunks ⊢
          obtain ⟨hlow, hrest⟩ := List.append_inj hchunks (by simpa using hfront.symm)
          simp only [List.cons.injEq] at hrest
          rw [hlow, hrest.1, hrest.2.1, hrest.2.2]
      | @move front' j i =>
          -- The place is above, so nothing further down moves there.
          cases moves _ (List.mem_cons_of_mem _ List.mem_cons_self)
          have hplace := Chunk.length_of_number_items (hrow.trans (List.append_assoc front
            (.item _ y' :: .item _ x' :: front') _).symm)
          simp only [List.length_append, List.length_cons] at hplace
          omega
      | blank => cases moves _ (List.mem_cons_of_mem _ List.mem_cons_self)
      | sort => cases moves _ (List.mem_cons_of_mem _ List.mem_cons_self)
  | blank => cases moves _ List.mem_cons_self
  | sort => cases moves _ List.mem_cons_self

theorem Document.Lags.advances {collect : Collector} (order : policy.OrderOnly)
    (h : d.Lags policy low y x high) (reads : collect d.text = some d.collection) :
    Advances collect policy d.text (d.withChunks ((low ++ x :: y :: high).map .item)).text := by
  obtain ⟨violations, hcheck, hsurvey⟩ := exists_survey order.resolved reads
  obtain ⟨out, sweep, htext⟩ := exists_next Item.source hcheck
  have some := h.carriedOut_ne_nil order hcheck
  have hout := sweep.swap (congrArg (Chunk.number 0) h.chunks).symm
    (fun fix hfix => h.eq_move order hcheck hfix) some
  rw [advances_iff hsurvey, htext, hout]
  exact ⟨some, rfl⟩

end Pass

/-! ### Runs -/

theorem Policy.place_oneGroup (source : String) : Policy.oneGroup.place source = ⟨0, none⟩ := by
  have h : Policy.oneGroup.place source =
      (if Pattern.accepts source (.literal Settings.everythingElse) then some ⟨0, none⟩
        else none).getD ⟨0, none⟩ := by
    simp [Policy.place, Policy.oneGroup, Policy.claim, Policy.everythingElse]
  rw [h]
  split <;> rfl

theorem Policy.orderOnly_oneGroup : Policy.oneGroup.OrderOnly :=
  ⟨Policy.resolved_oneGroup, rfl, by simp [oneGroup], rfl, rfl⟩

theorem Item.key_letter_lt {a b : Char} :
    (Item.letter a).key .oneGroup < (Item.letter b).key .oneGroup ↔ a < b := by
  have hkey (c : Char) : (Item.letter c).key .oneGroup =
      toLex (0, toLex (⊥, ((String.ofList [c] : String) : WithTop String))) := by
    rw [Item.key, Policy.sortKey, Policy.place_oneGroup]
    rfl
  have hname : String.ofList [a] < String.ofList [b] ↔ a < b := by
    rw [String.lt_iff_toList_lt, String.toList_ofList, String.toList_ofList, List.cons_lt_cons_iff]
    simp
  rw [hkey, hkey, Prod.Lex.toLex_lt_toLex, Prod.Lex.toLex_lt_toLex, ← hname]
  simp only [lt_self_iff_false, true_and, false_or, WithTop.coe_lt_coe]

section Runs

variable {low mid high : Text} {a z : Char}

theorem Document.lags_letters (sorted : (low ++ a :: high ++ [z]).Pairwise (· < ·)) :
    (letters (low ++ z :: a :: high)).Lags .oneGroup (low.map .letter) (.letter z) (.letter a)
      (high.map .letter) := by
  obtain ⟨hsorted, -, hlargest⟩ := List.pairwise_append.mp sorted
  refine ⟨by simp [letters, Function.comp_def], ?_, ?_⟩
  · rw [← List.map_cons, ← List.map_append, List.pairwise_map]
    exact hsorted.imp Item.key_letter_lt.mpr
  · rw [← List.map_cons, ← List.map_append, List.forall_mem_map]
    exact fun c hc => Item.key_letter_lt.mpr (hlargest c hc z List.mem_cons_self)

theorem collect_lagging (hnames : ∀ c ∈ low ++ high ++ [z], Code.IsName c) :
    Code.collect (Document.letters (low ++ z :: high)).text =
      some (Document.letters (low ++ z :: high)).collection :=
  Code.collect_letters fun c hc => hnames c
    ((List.perm_middle.trans (List.perm_append_singleton z _).symm).mem_iff.mp hc)

theorem advances_letters (sorted : (low ++ a :: high ++ [z]).Pairwise (· < ·))
    (hnames : ∀ c ∈ low ++ a :: high ++ [z], Code.IsName c) :
    Advances Code.collect .oneGroup (Document.letters (low ++ z :: a :: high)).text
      (Document.letters (low ++ a :: z :: high)).text := by
  have h := (Document.lags_letters sorted).advances Policy.orderOnly_oneGroup
    (collect_lagging hnames)
  simpa [Document.withChunks, Document.letters, Function.comp_def] using h

/-- After as many passes as there are letters in `mid`, the largest has come past them. -/
theorem passes_letters (low : Text) (sorted : (low ++ (mid ++ high) ++ [z]).Pairwise (· < ·))
    (hnames : ∀ c ∈ low ++ (mid ++ high) ++ [z], Code.IsName c) :
    (passes Code.collect .oneGroup mid.length
        (Document.letters (low ++ z :: (mid ++ high))).text).2 =
      .ok (Document.letters (low ++ mid ++ z :: high)).text := by
  induction mid generalizing low with
  | nil => simp [passes]
  | cons a mid ih =>
      have hrest := ih (low ++ [a]) (by simpa using sorted) (by simpa using hnames)
      rw [List.cons_append] at sorted hnames ⊢
      rw [List.length_cons, passes_of_advances (advances_letters sorted hnames)]
      simpa using hrest

/-- A run with no pass left for the last letter but one leaves the largest in front of it. -/
theorem fix_letters (hlength : mid.length = Settings.maxFixPasses)
    (sorted : (mid ++ a :: high ++ [z]).Pairwise (· < ·))
    (hnames : ∀ c ∈ mid ++ a :: high ++ [z], Code.IsName c) (file : String) :
    ∃ done r, fix Code.collect .oneGroup file (Document.letters (z :: (mid ++ a :: high))).text =
        (done, .ok r) ∧
      r.fixed = some (Document.letters (mid ++ z :: a :: high)).text ∧
      ∃ v ∈ r.violations, v.edits ≠ [] := by
  have hpasses := passes_letters [] sorted hnames
  rw [hlength] at hpasses
  obtain ⟨violations, -, hsurvey⟩ := exists_survey Policy.orderOnly_oneGroup.resolved
    (collect_lagging hnames)
  have hleft := (exists_edits_iff hsurvey).mpr ⟨_, advances_letters sorted hnames⟩
  exact ⟨_, _, fix_eq_ok_iff.mpr ⟨_, _, _, Prod.ext rfl hpasses, hsurvey, rfl⟩, rfl, hleft⟩

end Runs

/-- Something that can be mended is left exactly if every allowed pass applied a fix and one more
pass would apply another. -/
theorem fixable_left_iff (collect : Collector) (policy : Policy) (file : String) (text : Text)
    (done : List Pass) (r : Result) (h : fix collect policy file text = (done, .ok r)) :
    (∃ v ∈ r.violations, v.edits ≠ []) ↔
      done.length = Settings.maxFixPasses ∧ (∀ pass ∈ done, pass.outcome.applied ≠ 0) ∧
        ∃ final ∈ r.fixed, ∃ next, Advances collect policy final next := by
  obtain ⟨final, found, violations, hpasses, hsurvey, rfl⟩ := fix_eq_ok_iff.mp h
  simp only [Option.mem_def, Option.some.injEq, exists_eq_left', exists_edits_iff hsurvey]
  constructor
  · rintro ⟨next, busy⟩
    rcases full_or_settled hpasses with ⟨hlength, hall⟩ | ⟨found', violations', hsurvey', settled⟩
    · exact ⟨hlength, hall, next, busy⟩
    · exact absurd settled ((advances_iff hsurvey').mp busy).1
  · exact fun ⟨_, _, busy⟩ => busy

/-- As many letters as there are passes, in order. -/
def Text.passLetters : Text := "ABCDEFGHIJKLMNOPQRSTUVWXYZabcdefghijklmnopqrstuvwx".toList

theorem Text.sorted_passLetters :
    (Text.passLetters ++ ['y'] ++ ['z']).Pairwise (· < ·) := by decide

theorem Text.isName_passLetters :
    ∀ c ∈ Text.passLetters ++ ['y'] ++ ['z'], Code.IsName c := by
  have letters : (Text.passLetters ++ ['y'] ++ ['z']).all Char.isAlpha = true := by decide
  exact fun c hc => Code.isName_of_isAlpha (List.all_eq_true.mp letters c hc)

theorem fixable_left_iff_letters :
    ∃ done r, fix Code.collect .oneGroup "m.py"
        (Document.letters ('z' :: (Text.passLetters ++ ['y']))).text = (done, .ok r) ∧
      done.length = Settings.maxFixPasses ∧ (∀ pass ∈ done, pass.outcome.applied ≠ 0) ∧
      ∃ final ∈ r.fixed, ∃ next, Advances Code.collect .oneGroup final next := by
  obtain ⟨done, r, h, -, left⟩ := fix_letters rfl Text.sorted_passLetters
    Text.isName_passLetters "m.py"
  exact ⟨done, r, h, (fixable_left_iff _ _ _ _ _ _ h).mp left⟩

/-- So fixing does not mend everything that can be mended. -/
theorem fix_leaves_last_letter :
    Policy.ofValue Regex.compile .oneGroup none = .ok .oneGroup ∧
      ∃ done r, fix Code.collect .oneGroup "m.py"
          (Document.letters ('z' :: (Text.passLetters ++ ['y']))).text = (done, .ok r) ∧
        r.fixed = some (Document.letters (Text.passLetters ++ ['z', 'y'])).text ∧
        ∃ v ∈ r.violations, v.edits ≠ [] :=
  ⟨Policy.ofValue_oneGroup _,
    fix_letters rfl Text.sorted_passLetters Text.isName_passLetters "m.py"⟩

end ImportOrder
