import ImportOrder.Proofs.Placements
import ImportOrder.Proofs.StatementLines

/-!
What one pass of fixing keeps of a document with mixed line breaks. A move deletes, behind the
statement it takes away, as many characters as the document's line break has. If the line of the
statement ends with another one, that may leave a part of its line break, or it may take the first
character of the next line. Whether the next line survives depends on the two line breaks, on the
start of the next line, and on whether a carriage return comes right before the statement.
-/

namespace ImportOrder

namespace Text

def leadingBreak : Text → Text
  | '\r' :: '\n' :: _ => ['\r', '\n']
  | c :: _ => if isBreak c then [c] else []
  | [] => []

/-- Between text that ends in a carriage return, if `returned` holds, and `next`, a line with the
line break `own` is taken away together with as many characters as `newline` has. Are the lines of
`next` still there, its first line apart if that is `taken` already? -/
def Fits (newline own : Text) (returned : Bool) (next : Text) (taken : Bool) : Prop :=
  next = [] ∨ newline.length < own.length ∨
    newline.length = own.length ∧ ¬(returned = true ∧ next.head? = some '\n') ∨
    own.length < newline.length ∧
      (returned = false ∧ next.take 2 = ['\r', '\n'] ∨
        taken = true ∧ next.head?.any (!isBreak ·) = true)

instance (newline own next : Text) (returned taken : Bool) :
    Decidable (Fits newline own returned next taken) := inferInstanceAs (Decidable (_ ∨ _))

theorem linesFrom_of_apart {returned : Bool} {x : Text}
    (apart : ¬(returned = true ∧ x.head? = some '\n')) : linesFrom returned x = x.lines := by
  cases returned with
  | false => rfl
  | true =>
      apply linesFrom_of_head
      rintro rest rfl
      exact apart ⟨rfl, rfl⟩

theorem length_lines_cons {c : Char} (hc : isBreak c = true) (x : Text) :
    (lines (c :: x)).length = (linesFrom (c == '\r') x).length + 1 := by
  simp [lines, linesFrom, hc]

/-- Behind a carriage return the lines are the same, unless a line feed comes first. -/
theorem lines_sublist_linesFrom_iff {returned : Bool} {x : Text} :
    x.lines.Sublist (linesFrom returned x) ↔ ¬(returned = true ∧ x.head? = some '\n') := by
  constructor
  · rintro kept ⟨rfl, hhead⟩
    obtain ⟨rest, rfl⟩ := List.head?_eq_some_iff.mp hhead
    have := kept.length_le
    simp [lines, linesFrom, isBreak] at this
  · intro apart
    rw [linesFrom_of_apart apart]

theorem length_linesFrom_le (returned : Bool) (x : Text) :
    (linesFrom returned x).length ≤ x.lines.length := by
  by_cases apart : returned = true ∧ x.head? = some '\n'
  · obtain ⟨rest, rfl⟩ := List.head?_eq_some_iff.mp apart.2
    simp [lines, linesFrom, isBreak, apart.1]
  · rw [linesFrom_of_apart apart]

/-- A text that loses its first character loses a line or a part of one, unless the rest of a line
break is left. -/
theorem lines_cons_sublist_iff {returned : Bool} {c : Char} {x : Text} :
    (lines (c :: x)).Sublist (linesFrom returned x) ↔
      returned = false ∧ (c :: x).take 2 = ['\r', '\n'] := by
  constructor
  · intro kept
    have hbreak : isBreak c = true := by
      by_contra hbreak
      have hlength := kept.flatten.length_le
      rw [lines, flatten_linesFrom, flatten_linesFrom, List.filter_cons] at hlength
      rw [Bool.not_eq_true] at hbreak
      simp [hbreak] at hlength
    have hlength := kept.length_le
    rw [length_lines_cons hbreak] at hlength
    by_cases apart : (c == '\r') = true ∧ x.head? = some '\n'
    · obtain ⟨rest, rfl⟩ := List.head?_eq_some_iff.mp apart.2
      obtain rfl := eq_of_beq apart.1
      cases returned with
      | false => exact ⟨rfl, rfl⟩
      | true => simp at hlength
    · have hle := length_linesFrom_le returned x
      rw [linesFrom_of_apart apart] at hlength
      omega
  · rintro ⟨rfl, pair⟩
    cases x with
    | nil => simp at pair
    | cons d rest =>
        obtain ⟨rfl, hd⟩ := List.cons.inj pair
        obtain ⟨rfl, -⟩ := List.cons.inj hd
        simp [lines, linesFrom, isBreak]

/-- A line break fits, in front of a line that is not taken, exactly if the lines behind it are still
there when it is taken away. -/
theorem fits_iff {newline own next : Text} {returned : Bool}
    (hnewline : newline.length = 1 ∨ newline.length = 2)
    (hown : own = [] ∨ own = ['\n'] ∨ own = ['\r'] ∨ own = ['\r', '\n'])
    (final : own = [] → next = []) :
    Fits newline own returned next false ↔
      next.lines.Sublist (linesFrom returned ((own ++ next).drop newline.length)) := by
  have hlength : own.length ≤ 2 := by
    rcases hown with h | h | h | h <;> simp [h]
  rcases Nat.lt_trichotomy newline.length own.length with hlt | heq | hlt
  · -- A line feed of the break is left, which ends an empty line or completes a break.
    have hpair : own = ['\r', '\n'] := by
      rcases hown with h | h | h | h <;>
        simp only [h, List.length_cons, List.length_nil] at hlt
      · omega
      · omega
      · omega
      · exact h
    have hone : newline.length = 1 := by omega
    rw [hone, hpair]
    refine iff_of_true (.inr (.inl (by simp [hone]))) ?_
    cases returned <;> simp [linesFrom, lines, isBreak]
  · rw [heq, List.drop_left, lines_sublist_linesFrom_iff, Fits, heq]
    simp only [Nat.lt_irrefl, false_and, or_false, false_or, true_and, or_iff_right_iff_imp]
    rintro rfl ⟨-, h⟩
    cases h
  · cases next with
    | nil =>
        refine iff_of_true (.inl rfl) ?_
        rw [List.append_nil, List.drop_eq_nil_of_le hlt.le]
        exact List.Sublist.refl _
    | cons c x =>
        have hsingle : own.length = 1 := by
          have := List.length_pos_iff.mpr fun h => absurd (final h) (List.cons_ne_nil c x)
          omega
        have htwo : newline.length = 2 := by omega
        rw [htwo, List.drop_append, hsingle, List.drop_eq_nil_of_le (by omega)]
        simp only [Nat.reduceSub, List.nil_append, List.drop_succ_cons, List.drop_zero]
        rw [lines_cons_sublist_iff, Fits, htwo, hsingle]
        simp

end Text

namespace Line

variable {newline : Text} {last : Line} {back : List Line} {returned : Bool}

/-- The lines that are left behind a line that is taken away, as far as lines are found there. -/
structure Left (returned : Bool) (left : Text) (back rest : List Line) : Prop where
  render_eq : left = render rest
  proper : Proper rest
  free : (free back).Sublist (free rest)
  harmless : Harmless returned rest
  suffix : ∀ tail, tail <:+ back → (render tail).length < left.length → tail <:+ rest

theorem Left.of_cons {l l' : Line} {rest : List Line} {left : Text} (hleft : left = render (l' :: rest))
    (proper : Proper (l' :: rest)) (content : l.owned = false → l'.content = l.content)
    (owned : l'.owned = l.owned) (shorter : l'.text.length ≤ l.text.length)
    (harmless : returned = true → l'.text = ['\n'] → l'.owned = true) :
    Left returned left (l :: rest) (l' :: rest) := by
  refine ⟨hleft, proper, ?_, ?_, ?_⟩
  · rw [free_cons, free_cons, owned]
    cases howned : l.owned with
    | true => exact List.Sublist.refl _
    | false => simp [content howned]
  · rintro m ⟨⟩ hreturned hfeed
    exact harmless hreturned hfeed
  · intro tail htail hlength
    rcases List.suffix_cons_iff.mp htail with rfl | htail
    · simp only [hleft, render_cons, List.length_append] at hlength
      omega
    · exact htail.trans (List.suffix_cons _ _)

theorem Left.refl (proper : Proper back) (harmless : Harmless returned back) :
    Left returned (render back) back back :=
  ⟨rfl, proper, List.Sublist.refl _, harmless, fun _ htail _ => htail⟩

/-- A line feed is left of a longer line break. -/
theorem Left.feed (proper : Proper back) :
    Left returned ('\n' :: render back) back (⟨[], ['\n'], true⟩ :: back) := by
  refine ⟨rfl, .cons ⟨by simp, by simp⟩ (by simp) (by simp) proper, ?_, ?_, ?_⟩
  · rw [free_cons, if_pos rfl]
  · rintro m ⟨⟩ _ _
    rfl
  · intro tail htail _
    exact htail.trans (List.suffix_cons _ _)

theorem content_eq_nil_of_head {l : Line} {rest : Text} {c : Char} (sound : l.Sound)
    (hc : Text.isBreak c = true) (h : (l.text ++ rest).head? = some c) : l.content = [] := by
  cases hcontent : l.content with
  | nil => rfl
  | cons d content =>
      simp only [text, hcontent, List.cons_append, List.head?_cons, Option.some.injEq] at h
      have := sound.content d (by simp [hcontent])
      simp [h, hc] at this

/-- Of the next line only a carriage return is taken, which leaves it an empty line. -/
theorem Left.feed_of_pair (proper : Proper back) (pair : (render back).take 2 = ['\r', '\n']) :
    ∃ rest, Left false ((render back).drop 1) back rest := by
  cases proper with
  | nil => simp at pair
  | @cons l rest sound final apart next =>
      rw [render_cons] at pair ⊢
      have hhead : (l.text ++ render rest).head? = some '\r' := by
        cases h : l.text ++ render rest with
        | nil => simp [h] at pair
        | cons c more =>
            rw [h, List.take_succ_cons] at pair
            simp [(List.cons.inj pair).1]
      have hcontent := content_eq_nil_of_head sound rfl hhead
      have hending : l.ending = ['\r', '\n'] := by
        rcases sound.ending with h | h | h | h
        · simp [text, hcontent, h, final h] at hhead
        · simp [text, hcontent, h] at hhead
        · have := apart h
          cases hrest : render rest with
          | nil => simp [text, hcontent, h, hrest] at pair
          | cons c more => simp_all [text]
        · exact h
      refine ⟨⟨[], ['\n'], l.owned⟩ :: rest, Left.of_cons ?_ ?_ ?_ rfl ?_ ?_⟩
      · simp [text, hcontent, hending]
      · exact .cons ⟨by simp, by simp⟩ (by simp) (by simp) next
      · intro _
        exact hcontent.symm
      · simp [text, hending]
      · simp

/-- Of the next line the first character is taken, and it was a statement's. -/
theorem Left.bitten (proper : Proper back) (taken : back.head?.any (·.owned) = true)
    (plain : (render back).head?.any (!Text.isBreak ·) = true) :
    ∃ rest, Left returned ((render back).drop 1) back rest := by
  cases proper with
  | nil => simp at plain
  | @cons l rest sound final apart next =>
      have owned : l.owned = true := by simpa using taken
      cases hcontent : l.content with
      | nil =>
          rcases sound.ending with h | h | h | h
          · simp [text, hcontent, h, final h] at plain
          · simp [text, hcontent, h, Text.isBreak] at plain
          · simp [text, hcontent, h, Text.isBreak] at plain
          · simp [text, hcontent, h, Text.isBreak] at plain
      | cons c content =>
          refine ⟨{ l with content } :: rest, Left.of_cons ?_ ?_ ?_ rfl ?_ ?_⟩
          · simp [text, hcontent]
          · refine .cons ⟨?_, sound.ending⟩ final apart next
            intro d hd
            exact sound.content d (by simp [hcontent, show d ∈ content from hd])
          · simp [owned]
          · simp [text, hcontent]
          · exact fun _ _ => owned

theorem exists_left (hnewline : newline.length = 1 ∨ newline.length = 2)
    (proper : Proper (last :: back))
    (fits : Text.Fits newline last.ending returned (render back) (back.head?.any (·.owned))) :
    ∃ rest, Left returned ((last.ending ++ render back).drop newline.length) back rest := by
  cases proper with
  | cons sound final apart next =>
      rcases Nat.lt_trichotomy newline.length last.ending.length with hlt | heq | hlt
      · have hpair : last.ending = ['\r', '\n'] ∧ newline.length = 1 := by
          rcases sound.ending with h | h | h | h <;>
            simp only [h, List.length_cons, List.length_nil] at hlt
          · omega
          · omega
          · omega
          · exact ⟨h, by omega⟩
        rw [hpair.1, hpair.2]
        exact ⟨_, Left.feed next⟩
      · rw [heq, List.drop_left]
        refine ⟨back, Left.refl next ?_⟩
        intro l hl hreturned hfeed
        obtain ⟨rest, rfl⟩ := List.head?_eq_some_iff.mp hl
        rcases fits with h | h | ⟨-, h⟩ | ⟨h, -⟩
        · simp [hfeed] at h
        · omega
        · simp [hreturned, hfeed] at h
        · omega
      · -- The last line is followed by nothing, or one character more than its break is taken.
        by_cases hending : last.ending = []
        · have calm : Harmless returned [] := by simp [Harmless]
          exact ⟨[], by simpa [final hending, hending] using Left.refl .nil calm⟩
        have hsingle : last.ending.length = 1 ∧ newline.length = 2 := by
          rcases sound.ends hending with h | h | h <;>
            simp only [h, List.length_cons, List.length_nil] at hlt
          · exact ⟨by simp [h], by omega⟩
          · exact ⟨by simp [h], by omega⟩
          · omega
        have hleft : (last.ending ++ render back).drop newline.length = (render back).drop 1 := by
          rw [hsingle.2, List.drop_append, hsingle.1, List.drop_eq_nil_of_le (by omega)]
          rfl
        rw [hleft]
        rcases fits with h | h | ⟨h, -⟩ | ⟨-, ⟨rfl, pair⟩ | ⟨taken, plain⟩⟩
        · have hnone : (render back).drop 1 = render back := by simp [h]
          rw [hnone]
          refine ⟨back, Left.refl next ?_⟩
          intro l hl _ hfeed
          obtain ⟨rest, rfl⟩ := List.head?_eq_some_iff.mp hl
          simp [hfeed] at h
        · omega
        · omega
        · exact Left.feed_of_pair next pair
        · exact Left.bitten next taken plain

/-! ### Edits on lines -/

variable {t : Text}

/-- An edit at the start of some lines: a statement is moved there over the lines in front of it,
or an empty line is put there. -/
inductive Change (t newline : Text) : List Line → Edit → Prop
  | move {first last : Line} {mid block back : List Line} {e : Edit} (owned : first.owned = true)
      (moved : ∀ l ∈ block ++ [last], l.owned = true)
      (stop : t.drop e.span.stop = (last.ending ++ render back).drop newline.length)
      (written : e.text = render block ++ last.content ++ newline ++ render (first :: mid))
      (fits : Text.Fits newline last.ending (Text.returned false (render (first :: mid)))
        (render back) (back.head?.any (·.owned))) :
      Change t newline (first :: mid ++ (block ++ last :: back)) e
  | blank {first : Line} {rest : List Line} {e : Edit} (owned : first.owned = true)
      (stop : t.drop e.span.stop = render (first :: rest)) (written : e.text = newline) :
      Change t newline (first :: rest) e

/-- A change somewhere in lines that are the end of a text. -/
def ChangesIn (t newline : Text) (rest : List Line) (e : Edit) : Prop :=
  ∃ tail, tail <:+ rest ∧ t.drop e.span.start = render tail ∧ e.span.start ≤ t.length ∧
    Change t newline tail e

theorem length_render_le {tail rest : List Line} (h : tail <:+ rest) :
    (render tail).length ≤ (render rest).length := by
  obtain ⟨front, rfl⟩ := h
  simp

theorem suffix_of_length_lt {tail back rest : List Line} (h : tail <:+ rest) (h' : back <:+ rest)
    (shorter : (render tail).length < (render back).length) : tail <:+ back := by
  rcases List.suffix_or_suffix_of_suffix h h' with h | h
  · exact h
  · have := length_render_le h
    omega

theorem ChangesIn.later {rest rest' : List Line} {e : Edit} {n : Nat}
    (h : ChangesIn t newline rest e) (hn : n < e.span.start)
    (hrest : ∀ tail, tail <:+ rest → (render tail).length < (t.drop n).length → tail <:+ rest') :
    ChangesIn t newline rest' e := by
  obtain ⟨tail, htail, hstart, hle, change⟩ := h
  refine ⟨tail, hrest tail htail ?_, hstart, hle, change⟩
  rw [← hstart, List.length_drop, List.length_drop]
  omega

theorem harmless_of_owned {first : Line} {rest : List Line} (owned : first.owned = true) :
    Harmless returned (first :: rest) := by
  rintro l ⟨⟩ _ _
  exact owned

theorem Harmless.left {front tail : List Line} (h : Harmless returned (front ++ tail)) :
    Harmless returned front := by
  intro l hl
  apply h l
  rw [List.head?_append, Option.mem_def.mp hl]
  rfl

theorem closed_append_newline
    (hnewline : newline = ['\n'] ∨ newline = ['\r'] ∨ newline = ['\r', '\n']) (x : Text) :
    Text.Closed (x ++ newline) := by
  rcases hnewline with rfl | rfl | rfl <;> simp [Text.Closed, Text.isBreak]

/-- Free lines behind a closed text are found. -/
theorem Sublist.behind {x y : Text} {others : List Text} (closed : Text.Closed x) (before : Bool)
    (h : others.Sublist (Text.linesFrom (Text.returned before x) y)) :
    others.Sublist (Text.linesFrom before (x ++ y)) := by
  obtain ⟨ended, heq, -⟩ := Text.exists_linesFrom_append closed before y
  rw [heq]
  exact h.trans (List.sublist_append_right ended _)

/-- What comes before a text with characters does not matter for its end. -/
theorem returned_eq {x : Text} (h : x ≠ []) (before before' : Bool) :
    Text.returned before x = Text.returned before' x := by
  cases x with
  | nil => exact absurd rfl h
  | cons c x => rfl

theorem Proper.render_ne_nil {first : Line} {mid tail : List Line}
    (proper : Proper (first :: mid ++ tail)) (h : tail ≠ []) : render (first :: mid) ≠ [] := by
  cases proper with
  | cons sound final _ _ =>
      intro hnil
      simp only [render_cons, text, List.append_eq_nil_iff] at hnil
      exact h (List.append_eq_nil_iff.mp (final hnil.1.2)).2

section Splice

variable {edits : List Edit} {rest : List Line} {e : Edit} {before : Bool}

/-- The induction hypothesis for the edits behind an edit. -/
def Splices (t newline : Text) (edits : List Edit) (cursor : Nat) : Prop :=
  ∀ (rest : List Line) (before : Bool), t.drop cursor = render rest → Proper rest →
    Harmless before rest → (∀ e ∈ edits, ChangesIn t newline rest e) →
    (free rest).Sublist (Text.linesFrom before (Edit.splice t cursor edits))

theorem suffix_of_cons {l : Line} {back : List Line} {tail rest : List Line} (h : tail <:+ rest)
    (h' : l :: back <:+ rest) (shorter : (render tail).length < (render (l :: back)).length) :
    tail <:+ back := by
  rcases List.suffix_cons_iff.mp (suffix_of_length_lt h h' shorter) with rfl | h
  · omega
  · exact h

theorem Change.length_le {tail : List Line} (change : Change t newline tail e) :
    (t.drop e.span.stop).length ≤ (render tail).length := by
  cases change with
  | move owned moved stop written fits =>
      rw [stop]
      simp only [render_cons, render_append, List.length_append, List.length_drop, text]
      omega
  | blank owned stop written => rw [stop]

theorem Change.splices {tail : List Line} (change : Change t newline tail e)
    (hnewline : newline = ['\n'] ∨ newline = ['\r'] ∨ newline = ['\r', '\n'])
    (proper : Proper tail) (next : Splices t newline edits e.span.stop)
    (changes : ∀ e' ∈ edits, e.span.stop < e'.span.start ∧ ChangesIn t newline tail e') :
    (free tail).Sublist (Text.linesFrom before (e.text ++ Edit.splice t e.span.stop edits)) := by
  cases change with
  | @move first last mid block back _ owned moved stop written fits =>
      have hlength : newline.length = 1 ∨ newline.length = 2 := by
        rcases hnewline with rfl | rfl | rfl <;> simp
      have hlast : last :: back <:+ first :: mid ++ (block ++ last :: back) :=
        (List.suffix_append block _).trans (List.suffix_append _ _)
      obtain ⟨rest, left⟩ := exists_left hlength proper.right.right fits
      rw [← stop] at left
      have hfirst := proper.render_ne_nil (by simp)
      have hfree : free (first :: mid ++ (block ++ last :: back)) =
          free (first :: mid) ++ free back := by
        have hblock : block ++ last :: back = (block ++ [last]) ++ back := by simp
        rw [hblock, free_append, free_append, free_eq_nil moved, List.nil_append]
      have hbehind : (free rest).Sublist (Text.linesFrom
          (Text.returned false (render (first :: mid))) (Edit.splice t e.span.stop edits)) := by
        refine next rest _ left.render_eq left.proper left.harmless ?_
        intro e' he'
        obtain ⟨hstart, hchange⟩ := changes e' he'
        refine hchange.later hstart fun tail htail hshort => left.suffix tail ?_ hshort
        refine suffix_of_cons htail hlast (Nat.lt_of_lt_of_le hshort ?_)
        rw [stop]
        simp only [render_cons, List.length_append, List.length_drop, text]
        omega
      rw [written, hfree, List.append_assoc]
      refine Sublist.behind (closed_append_newline hnewline _) before ?_
      refine free_append_sublist proper (by simp) (harmless_of_owned owned) ?_
      rw [returned_eq hfirst _ false]
      exact left.free.trans hbehind
  | blank owned stop written =>
      rw [written]
      refine Sublist.behind (closed_append_newline hnewline []) before ?_
      refine next _ _ stop proper (harmless_of_owned owned) ?_
      exact fun e' he' => (changes e' he').2

theorem splices {cursor : Nat}
    (hnewline : newline = ['\n'] ∨ newline = ['\r'] ∨ newline = ['\r', '\n'])
    (apart : edits.Pairwise fun a b => a.span.stop < b.span.start)
    (start : ∀ e ∈ edits, cursor ≤ e.span.start) : Splices t newline edits cursor := by
  induction edits generalizing cursor with
  | nil =>
      intro rest before here proper harmless _
      rw [Edit.splice, here]
      exact free_sublist proper harmless
  | cons e edits ih =>
      intro rest before here proper harmless changes
      obtain ⟨apart, apart'⟩ := List.pairwise_cons.mp apart
      have next := ih apart' fun e' he' => (apart e' he').le
      obtain ⟨tail, ⟨front, rfl⟩, hstart, -, change⟩ := changes e List.mem_cons_self
      have hcut : t.cut cursor e.span.start = render front := by
        have hdrop := Text.cut_append_drop (t := t) (start e List.mem_cons_self)
        rw [here, hstart, render_append] at hdrop
        exact List.append_cancel_right hdrop
      have htail : tail ≠ [] := by cases change <;> simp
      rw [Edit.splice, hcut, List.append_assoc, free_append]
      refine free_append_sublist proper htail harmless.left ?_
      refine change.splices hnewline proper.right next ?_
      intro e' he'
      refine ⟨apart e' he', (changes e' (List.mem_cons_of_mem e he')).later (apart e' he') ?_⟩
      intro tail' htail' hshort
      exact suffix_of_length_lt htail' (List.suffix_append _ _)
        (Nat.lt_of_lt_of_le hshort change.length_le)

end Splice

end Line
end ImportOrder
