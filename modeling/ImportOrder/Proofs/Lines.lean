import Mathlib.Data.List.Infix
import ImportOrder.LineIndex
import ImportOrder.Proofs.ImportTokens

/-!
The lines of a text. Lines end at a line feed, at a carriage return, or at the two together, in any
mixture. A text is the concatenation of its lines with the breaks that end them, and these are the
lines that a line index finds. Reading the lines of a concatenation needs to know one thing of what
came before: whether a carriage return is the last thing read, as a line feed would then complete
its line break.
-/

namespace ImportOrder

namespace Text

/-- The lines of a text, without the breaks that end them, behind a carriage return if that was the
last thing read. A line break at the end has an empty line behind it. -/
def linesFrom (returned : Bool) : Text → List Text
  | [] => [[]]
  | c :: rest =>
      if returned && c == '\n' then linesFrom false rest
      else if isBreak c then [] :: linesFrom (c == '\r') rest
      else (linesFrom false rest).modifyHead (c :: ·)

def lines (t : Text) : List Text := linesFrom false t

/-- Is a carriage return the last thing read? -/
def returned (before : Bool) : Text → Bool
  | [] => before
  | c :: rest => returned (c == '\r') rest

theorem returned_append (before : Bool) (x y : Text) :
    returned before (x ++ y) = returned (returned before x) y := by
  induction x generalizing before with
  | nil => rfl
  | cons c x ih => exact ih _

/-- A text with nothing behind its last line break. -/
def Closed (x : Text) : Prop := ∀ c ∈ x.getLast?, isBreak c = true

/-- Lines that a closed text ends are there whatever follows it. -/
theorem exists_linesFrom_append {x : Text} (closed : Closed x) (before : Bool) (y : Text) :
    ∃ ended, linesFrom before (x ++ y) = ended ++ linesFrom (returned before x) y ∧
      (before = false → x ≠ [] → ended ≠ []) := by
  induction x generalizing before with
  | nil => exact ⟨[], rfl, fun _ h => absurd rfl h⟩
  | cons c x ih =>
      have closed' : Closed x := by
        intro d hd
        apply closed d
        rw [List.getLast?_cons, Option.mem_def.mp hd]
        rfl
      by_cases hfused : (before && c == '\n') = true
      · obtain ⟨hbefore, hc⟩ := Bool.and_eq_true_iff.mp hfused
        obtain ⟨ended, heq, -⟩ := ih closed' false
        refine ⟨ended, ?_, by simp [hbefore]⟩
        rw [List.cons_append, linesFrom, if_pos hfused, heq, returned, eq_of_beq hc]
        rfl
      by_cases hbreak : isBreak c = true
      · obtain ⟨ended, heq, -⟩ := ih closed' (c == '\r')
        refine ⟨[] :: ended, ?_, by simp⟩
        rw [List.cons_append, linesFrom, if_neg hfused, if_pos hbreak, heq]
        rfl
      · have hx : x ≠ [] := by
          rintro rfl
          exact hbreak (closed c rfl)
        have hreturn : (c == '\r') = false := by
          simp only [isBreak, Bool.or_eq_true, not_or] at hbreak
          simpa using hbreak.2
        obtain ⟨ended, heq, hended⟩ := ih closed' false
        obtain ⟨first, more, rfl⟩ := List.exists_cons_of_ne_nil (hended rfl hx)
        refine ⟨(c :: first) :: more, ?_, by simp⟩
        rw [List.cons_append, linesFrom, if_neg hfused, if_neg hbreak, heq, returned, hreturn]
        rfl

theorem linesFrom_ne_nil (returned : Bool) (x : Text) : linesFrom returned x ≠ [] := by
  induction x generalizing returned with
  | nil => simp [linesFrom]
  | cons c x ih =>
      by_cases hfused : (returned && c == '\n') = true
      · rw [linesFrom, if_pos hfused]
        exact ih false
      · by_cases hbreak : isBreak c = true
        · simp [linesFrom, hfused, hbreak]
        · rw [linesFrom, if_neg hfused, if_neg hbreak, Ne, List.modifyHead_eq_nil_iff]
          exact ih false

/-- The lines of a text hold its characters but the line breaks. -/
theorem flatten_linesFrom (returned : Bool) (x : Text) :
    (linesFrom returned x).flatten = x.filter (!isBreak ·) := by
  induction x generalizing returned with
  | nil => rfl
  | cons c x ih =>
      by_cases hfused : (returned && c == '\n') = true
      · have hbreak : isBreak c = true := by
          rw [eq_of_beq (Bool.and_eq_true_iff.mp hfused).2]
          rfl
        rw [linesFrom, if_pos hfused, ih false, List.filter_cons, hbreak]
        rfl
      by_cases hbreak : isBreak c = true
      · rw [linesFrom, if_neg hfused, if_pos hbreak, List.flatten_cons, ih, List.filter_cons,
          hbreak]
        rfl
      · obtain ⟨first, more, hlines⟩ := List.exists_cons_of_ne_nil (linesFrom_ne_nil false x)
        have hflat := ih false
        rw [hlines, List.flatten_cons] at hflat
        rw [linesFrom, if_neg hfused, if_neg hbreak, hlines, List.filter_cons, ← hflat]
        simp [hbreak]

end Text

structure Line where
  content : Text
  ending : Text
  /-- Does an import statement stand on the line? -/
  owned : Bool := false
deriving DecidableEq

namespace Line

def text (l : Line) : Text := l.content ++ l.ending

def render (lines : List Line) : Text := lines.flatMap text

@[simp] theorem render_nil : render [] = [] := rfl

@[simp] theorem render_cons (l : Line) (lines : List Line) :
    render (l :: lines) = l.text ++ render lines := List.flatMap_cons

@[simp] theorem render_append (lines more : List Line) :
    render (lines ++ more) = render lines ++ render more := List.flatMap_append

/-- The lines on which no import statement stands. -/
def free (lines : List Line) : List Text := (lines.filter (!·.owned)).map content

theorem free_append (lines more : List Line) : free (lines ++ more) = free lines ++ free more := by
  simp [free]

theorem free_eq_nil {lines : List Line} (h : ∀ l ∈ lines, l.owned = true) : free lines = [] := by
  simpa [free] using h

structure Sound (l : Line) : Prop where
  content : ∀ c ∈ l.content, Text.isBreak c = false
  ending : l.ending = [] ∨ l.ending = ['\n'] ∨ l.ending = ['\r'] ∨ l.ending = ['\r', '\n']

/-- Lines as a text has them: only the last may lack its break, and no two breaks look like one. -/
inductive Proper : List Line → Prop
  | nil : Proper []
  | cons {l : Line} {rest : List Line} (sound : l.Sound) (final : l.ending = [] → rest = [])
      (apart : l.ending = ['\r'] → (render rest).head? ≠ some '\n') (next : Proper rest) :
      Proper (l :: rest)

theorem Proper.right {front back : List Line} (h : Proper (front ++ back)) : Proper back := by
  induction front with
  | nil => exact h
  | cons l front ih =>
      cases h with
      | cons sound final apart next => exact ih next

theorem linesFrom_line {content ending : Text} (plain : ∀ c ∈ content, Text.isBreak c = false)
    (ends : ending = ['\n'] ∨ ending = ['\r'] ∨ ending = ['\r', '\n']) (before : Bool)
    (y : Text) :
    Text.linesFrom before (content ++ ending ++ y) =
      if before = true ∧ content ++ ending = ['\n'] then Text.linesFrom false y
      else content :: Text.linesFrom (ending == ['\r']) y := by
  induction content generalizing before with
  | nil =>
      rcases ends with rfl | rfl | rfl
      · cases before <;> simp [Text.linesFrom, Text.isBreak]
      · simp [Text.linesFrom, Text.isBreak]
      · simp [Text.linesFrom, Text.isBreak]
  | cons c content ih =>
      have hc : Text.isBreak c = false := plain c List.mem_cons_self
      have hfeed : (c == '\n') = false := by
        simp only [Text.isBreak, Bool.or_eq_false_iff] at hc
        exact hc.1
      have hrest := ih (fun d hd => plain d (List.mem_cons_of_mem c hd)) false
      simp only [Bool.false_eq_true, false_and, if_false] at hrest
      have hne : ¬(before = true ∧ c :: content ++ ending = ['\n']) := by
        rintro ⟨-, h⟩
        simp [(List.cons.inj h).1] at hfeed
      rw [if_neg hne, List.cons_append, List.cons_append, Text.linesFrom, hfeed, Bool.and_false, hc,
        hrest]
      rfl

theorem Sound.ends {l : Line} (sound : l.Sound) (ended : l.ending ≠ []) :
    l.ending = ['\n'] ∨ l.ending = ['\r'] ∨ l.ending = ['\r', '\n'] :=
  sound.ending.resolve_left ended

theorem Sound.returned {l : Line} (sound : l.Sound) (ended : l.ending ≠ []) (before : Bool) :
    Text.returned before l.text = (l.ending == ['\r']) := by
  rw [text, Text.returned_append]
  rcases sound.ends ended with h | h | h <;> rw [h] <;> rfl

/-- Behind a carriage return, a line that is only a line feed is lost; so it had better be owned. -/
def Harmless (before : Bool) (lines : List Line) : Prop :=
  ∀ l ∈ lines.head?, before = true → l.text = ['\n'] → l.owned = true

theorem Proper.harmless {l : Line} {rest more : List Line} (proper : Proper (l :: (rest ++ more))) :
    Harmless (l.ending == ['\r']) rest := by
  intro m hm hbefore hfeed
  cases proper with
  | cons sound final apart next =>
      obtain ⟨rest, rfl⟩ := List.head?_eq_some_iff.mp hm
      have := apart (eq_of_beq hbefore)
      simp [hfeed] at this

theorem free_cons (l : Line) (rest : List Line) :
    free (l :: rest) = if l.owned then free rest else l.content :: free rest := by
  cases h : l.owned <;> simp [free, h]

theorem free_cons_sublist {l : Line} {rest : List Line} {before : Bool} {y : Text}
    {others : List Text} (sound : l.Sound) (ended : l.ending ≠ [])
    (harmless : Harmless before (l :: rest))
    (next : others.Sublist (Text.linesFrom (l.ending == ['\r']) y)) :
    (free [l] ++ others).Sublist (Text.linesFrom before (l.text ++ y)) := by
  have hlines := linesFrom_line sound.content (sound.ends ended) before y
  rw [text, hlines, free_cons]
  by_cases lost : before = true ∧ l.content ++ l.ending = ['\n']
  · have hending : l.ending = ['\n'] := by
      rcases sound.ends ended with h | h | h
      · exact h
      · simp [h, List.append_eq_singleton_iff] at lost
      · simp [h, List.append_eq_singleton_iff] at lost
    rw [if_pos lost, harmless l rfl lost.1 lost.2, if_pos rfl]
    simpa [hending, free] using next
  · rw [if_neg lost]
    split
    · exact next.cons _
    · exact next.cons_cons _

/-- Of closed lines in front of a text those that are free are found, then those of the text. -/
theorem free_append_sublist {front back : List Line} {before : Bool} {y : Text}
    {others : List Text} (proper : Proper (front ++ back)) (hback : back ≠ [])
    (harmless : Harmless before front)
    (next : others.Sublist (Text.linesFrom (Text.returned before (render front)) y)) :
    (free front ++ others).Sublist (Text.linesFrom before (render front ++ y)) := by
  induction front generalizing before with
  | nil => exact next
  | cons l front ih =>
      have calm := Proper.harmless proper
      cases proper with
      | cons sound final apart proper' =>
          have ended : l.ending ≠ [] := fun h => hback (List.append_eq_nil_iff.mp (final h)).2
          have hfree : free (l :: front) = free [l] ++ free front := free_append [l] front
          rw [render_cons, Text.returned_append, sound.returned ended] at next
          rw [hfree, render_cons, List.append_assoc, List.append_assoc]
          exact free_cons_sublist sound ended harmless (ih proper' calm next)

theorem linesFrom_plain {content : Text} (plain : ∀ c ∈ content, Text.isBreak c = false)
    (before : Bool) : Text.linesFrom before content = [content] := by
  induction content generalizing before with
  | nil => rfl
  | cons c content ih =>
      have hc : Text.isBreak c = false := plain c List.mem_cons_self
      have hfeed : (c == '\n') = false := by
        simp only [Text.isBreak, Bool.or_eq_false_iff] at hc
        exact hc.1
      rw [Text.linesFrom, hfeed, Bool.and_false, hc, ih fun d hd => plain d (List.mem_cons_of_mem c hd)]
      rfl

theorem free_sublist {lines : List Line} {before : Bool} (proper : Proper lines)
    (harmless : Harmless before lines) :
    (free lines).Sublist (Text.linesFrom before (render lines)) := by
  induction proper generalizing before with
  | nil => exact List.nil_sublist _
  | @cons l rest sound final apart next ih =>
      by_cases hending : l.ending = []
      · rw [final hending, render_cons, render_nil, List.append_nil, text, hending, List.append_nil,
          linesFrom_plain sound.content, free_cons]
        split
        · exact List.nil_sublist _
        · exact List.Sublist.refl _
      · have whole : Proper (l :: (rest ++ [])) := by
          rw [List.append_nil]
          exact .cons sound final apart next
        have hfree : free (l :: rest) = free [l] ++ free rest := free_append [l] rest
        rw [hfree, render_cons]
        exact free_cons_sublist sound hending harmless (ih whole.harmless)

end Line

/-! ### The lines of a text with their breaks -/

namespace Text

variable (owned : Nat → Bool)

/-- The lines of a text from line `k` on, if statements stand on the lines for which `owned` holds. -/
def ruled (k : Nat) : Text → List Line
  | [] => [⟨[], [], owned k⟩]
  | '\r' :: '\n' :: rest => ⟨[], ['\r', '\n'], owned k⟩ :: ruled (k + 1) rest
  | c :: rest =>
      if isBreak c then ⟨[], [c], owned k⟩ :: ruled (k + 1) rest
      else (ruled k rest).modifyHead fun l => { l with content := c :: l.content }

theorem ruled_ne_nil (k : Nat) (t : Text) : ruled owned k t ≠ [] := by
  fun_induction ruled owned k t with
  | case1 | case2 | case3 => simp
  | case4 k c rest _ _ ih => simpa using ih

theorem render_ruled (k : Nat) (t : Text) : Line.render (ruled owned k t) = t := by
  fun_induction ruled owned k t with
  | case1 k => rfl
  | case2 k rest ih => simp [Line.text, ih]
  | case3 k c rest _ _ ih => simp [Line.text, ih]
  | case4 k c rest _ _ ih =>
      obtain ⟨l, lines, hl⟩ := List.exists_cons_of_ne_nil (ruled_ne_nil owned k rest)
      rw [hl] at ih ⊢
      exact congrArg (c :: ·) ih

theorem proper_ruled (k : Nat) (t : Text) : Line.Proper (ruled owned k t) := by
  fun_induction ruled owned k t with
  | case1 k => exact .cons ⟨by simp, .inl rfl⟩ (fun _ => rfl) (by simp) .nil
  | case2 k rest ih => exact .cons ⟨by simp, by simp⟩ (by simp) (by simp) ih
  | case3 k c rest hpair hbreak ih =>
      have hc : c = '\n' ∨ c = '\r' := by simpa [isBreak] using hbreak
      refine .cons ⟨by simp, by rcases hc with rfl | rfl <;> simp⟩ (by simp) ?_ ih
      intro hreturn hfeed
      rw [render_ruled] at hfeed
      obtain ⟨more, hmore⟩ := List.head?_eq_some_iff.mp hfeed
      exact hpair more (by simpa using hreturn) hmore
  | case4 k c rest _ hbreak ih =>
      obtain ⟨l, lines, hl⟩ := List.exists_cons_of_ne_nil (ruled_ne_nil owned k rest)
      rw [hl] at ih ⊢
      cases ih with
      | cons sound final apart next =>
          refine .cons ⟨?_, sound.ending⟩ final apart next
          intro d hd
          rcases List.mem_cons.mp hd with rfl | hd
          · simpa using hbreak
          · exact sound.content d hd

theorem linesFrom_of_head {t : Text} (h : ∀ rest, t ≠ '\n' :: rest) (before : Bool) :
    linesFrom before t = linesFrom false t := by
  cases t with
  | nil => rfl
  | cons c rest =>
      have hc : (c == '\n') = false := by
        simp only [beq_eq_false_iff_ne]
        rintro rfl
        exact h rest rfl
      simp [linesFrom, hc]

theorem lines_eq (k : Nat) (t : Text) : lines t = (ruled owned k t).map Line.content := by
  unfold lines
  fun_induction ruled owned k t with
  | case1 k => rfl
  | case2 k rest ih => simp [linesFrom, isBreak, ih]
  | case3 k c rest hpair hbreak ih =>
      have hnext : linesFrom (c == '\r') rest = linesFrom false rest := by
        by_cases hc : c = '\r'
        · exact linesFrom_of_head (fun more => hpair more hc) _
        · rw [beq_eq_false_iff_ne.mpr hc]
      simp [linesFrom, hbreak, hnext, ih]
  | case4 k c rest _ hbreak ih =>
      obtain ⟨l, lines, hl⟩ := List.exists_cons_of_ne_nil (ruled_ne_nil owned k rest)
      simp [linesFrom, hbreak, ih, hl]

/-! ### The lines of a line index -/

/-- The offsets at which lines start, the first of them at `offset`. -/
def startsOf (offset : Nat) : List Line → List Nat
  | [] => []
  | l :: rest => offset :: startsOf (offset + l.text.length) rest

theorem startsFrom_eq (offset k : Nat) (t : Text) :
    offset :: startsFrom offset t = startsOf offset (ruled owned k t) := by
  fun_induction ruled owned k t generalizing offset with
  | case1 k => rfl
  | case2 k rest ih => simp [startsFrom, startsOf, ih, Line.text]
  | case3 k c rest hpair hbreak ih =>
      rw [startsFrom]
      · simp [startsOf, ih, Line.text, hbreak]
      · exact hpair
  | case4 k c rest hpair hbreak ih =>
      obtain ⟨l, lines, hl⟩ := List.exists_cons_of_ne_nil (ruled_ne_nil owned k rest)
      have hstart := ih (offset + 1)
      rw [hl, startsOf] at hstart
      have hlength : offset + (c :: l.text).length = offset + 1 + l.text.length := by
        rw [List.length_cons]
        omega
      rw [startsFrom, if_neg hbreak, (List.cons.inj hstart).2, hl, List.modifyHead_cons, startsOf,
        ← hlength]
      · rfl
      · exact hpair

theorem startsOf_getElem? (offset : Nat) (front back : List Line) (hback : back ≠ []) :
    (startsOf offset (front ++ back))[front.length]? = some (offset + (Line.render front).length) := by
  induction front generalizing offset with
  | nil =>
      obtain ⟨l, rest, rfl⟩ := List.exists_cons_of_ne_nil hback
      rfl
  | cons l front ih => simp [startsOf, ih, Nat.add_assoc]

variable {owned} in
theorem lineStart_eq {t : Text} {front back : List Line} (h : ruled owned 1 t = front ++ back)
    (hback : back ≠ []) :
    (LineIndex.ofText t).lineStart (front.length + 1) = (Line.render front).length := by
  rw [LineIndex.lineStart, LineIndex.ofText, startsFrom_eq owned 0 1, h, Nat.add_sub_cancel,
    List.getD_eq_getElem?_getD, startsOf_getElem? 0 front back hback]
  simp

variable {owned} in
theorem lineEnd_eq {t : Text} {front back : List Line} {l : Line}
    (h : ruled owned 1 t = front ++ l :: back) :
    (LineIndex.ofText t).lineEnd (front.length + 1) =
      (Line.render front).length + l.content.length := by
  have htext : (LineIndex.ofText t).text = Line.render front ++ (l.text ++ Line.render back) := by
    rw [← Line.render_cons, ← Line.render_append, ← h, render_ruled]
    rfl
  have proper : Line.Proper (l :: back) := (h ▸ proper_ruled owned 1 t).right
  rw [LineIndex.lineEnd, lineStart_eq h (by simp), htext, List.drop_left, Line.text,
    List.append_assoc]
  cases proper with
  | cons sound final _ _ =>
      have hcontent : ∀ c ∈ l.content, (!isBreak c) = true := by simpa using sound.content
      have hending : (l.ending ++ Line.render back).takeWhile (!isBreak ·) = [] := by
        rcases sound.ending with hend | hend | hend | hend
        · simp [hend, final hend]
        · simp [hend, isBreak]
        · simp [hend, isBreak]
        · simp [hend, isBreak]
      rw [List.takeWhile_append_of_pos hcontent, hending, List.append_nil]

theorem unifyBreaks_of_break {c : Char} {rest : Text}
    (alone : ∀ more, c = '\r' → rest ≠ '\n' :: more) (hbreak : isBreak c = true) :
    unifyBreaks (c :: rest) = '\n' :: unifyBreaks rest := by
  have hc : c = '\n' ∨ c = '\r' := by simpa [isBreak] using hbreak
  rcases hc with rfl | rfl
  · rfl
  · rw [unifyBreaks]
    exact fun more => alone more rfl

theorem unifyBreaks_of_not_break {c : Char} {rest : Text} (hbreak : ¬ isBreak c = true) :
    unifyBreaks (c :: rest) = c :: unifyBreaks rest := by
  have hc : c ≠ '\n' ∧ c ≠ '\r' := by simpa [isBreak] using hbreak
  rw [unifyBreaks]
  · exact fun _ h => absurd h hc.2
  · exact hc.2

theorem length_ruled (k : Nat) (t : Text) :
    (ruled owned k t).length = 1 + (unifyBreaks t).count '\n' := by
  fun_induction ruled owned k t with
  | case1 k => rfl
  | case2 k rest ih =>
      rw [unifyBreaks, List.length_cons, ih, List.count_cons_self]
      omega
  | case3 k c rest hpair hbreak ih =>
      rw [unifyBreaks_of_break hpair hbreak, List.length_cons, ih, List.count_cons_self]
      omega
  | case4 k c rest hpair hbreak ih =>
      have hc : c ≠ '\n' := by
        rintro rfl
        exact hbreak rfl
      rw [unifyBreaks_of_not_break hbreak, List.length_modifyHead, ih, List.count_cons_of_ne hc]

end Text

end ImportOrder
