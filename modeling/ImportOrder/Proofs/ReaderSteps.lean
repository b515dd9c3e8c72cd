import Mathlib.Logic.Relation
import ImportOrder.Code.Reader

/-!
What a step of the reader can do. Whatever the brackets, strings and blocks that are open, a step
passes over characters or reads characters as a token, and a run is a sequence of such steps with
tokens added at its end for which no characters stand. What holds of the places of tokens follows
from this alone.
-/

namespace ImportOrder.Code

/-- Words and marks have characters. -/
def Lexeme.isSpelled : Lexeme → Bool
  | .word _ | .mark _ => true
  | _ => false

theorem markAt?_spelled {cs : Text} {m : String} (h : markAt? cs = some m) :
    cs.take m.length ≠ [] := by
  have hne : ∀ m ∈ marks, m.toList ≠ [] := by decide
  have hfront := List.find?_some h
  rw [← String.length_toList, ← List.prefix_iff_eq_take.mp (List.isPrefixOf_iff_prefix.mp hfront)]
  exact hne m (List.mem_of_find?_eq_some h)

namespace Reader

inductive Step (r r' : Reader) : Prop
  /-- Some characters are passed over, with some line continuations if they are a margin. -/
  | pass (k joins : Nat) (rest : r'.rest = r.rest.drop k)
      (position : r'.position = advance r.position (r.rest.take k))
      (joined : r'.joined = r.joined + joins) (feeds : joins ≤ (r.rest.take k).count '\n')
      (tokens : r'.tokens = r.tokens)
      (margin : joins = 0 ∧ r'.atMargin = r.atMargin ∨ r.atMargin = true)
  /-- Some characters are read as a token. -/
  | read (k : Nat) (lexeme : Lexeme) (rest : r'.rest = r.rest.drop k)
      (position : r'.position = advance r.position (r.rest.take k))
      (joined : r'.joined = r.joined)
      (tokens : r'.tokens = ⟨lexeme, r.position, r'.position, r.joined⟩ :: r.tokens)
      (newline : lexeme = .newline → '\n' ∈ r.rest.take k)
      (margin : lexeme ≠ .newline → r'.atMargin = false)
      (spelled : lexeme.isSpelled = true → r.rest.take k ≠ [])

def Steps : Reader → Reader → Prop := Relation.ReflTransGen Step

variable {r r' r'' : Reader}

/-- Brackets, strings and open blocks do not matter. -/
theorem Step.of_eq (h : Step r r') (rest : r''.rest = r'.rest)
    (position : r''.position = r'.position) (joined : r''.joined = r'.joined)
    (tokens : r''.tokens = r'.tokens) (margin : r''.atMargin = r'.atMargin) : Step r r'' := by
  cases h with
  | pass k joins hrest hposition hjoined feeds htokens hmargin =>
      exact .pass k joins (rest.trans hrest) (position.trans hposition) (joined.trans hjoined) feeds
        (tokens.trans htokens) (margin ▸ hmargin)
  | read k lexeme hrest hposition hjoined htokens newline hmargin spelled =>
      exact .read k lexeme (rest.trans hrest) (position.trans hposition) (joined.trans hjoined)
        (position ▸ tokens.trans htokens) newline (margin ▸ hmargin) spelled

theorem step_skip (r : Reader) (k : Nat) : Step r (r.skip k) :=
  .pass k 0 rfl rfl rfl (Nat.zero_le _) rfl (.inl ⟨rfl, rfl⟩)

theorem step_emit {lexeme : Lexeme} {k : Nat} (hne : lexeme ≠ .newline)
    (spelled : lexeme.isSpelled = true → r.rest.take k ≠ []) : Step r (r.emit lexeme k) :=
  .read k lexeme rfl rfl rfl rfl (absurd · hne) (fun _ => rfl) spelled

theorem step_note {lexeme : Lexeme} (hne : lexeme ≠ .newline) (hspelled : lexeme.isSpelled = false)
    (margin : r.atMargin = false) : Step r (r.note lexeme) :=
  .read 0 lexeme rfl rfl rfl rfl (absurd · hne) (fun _ => margin) (by simp [hspelled])

/-! ### The start of a line -/

theorem joins_of_cons {count joins count' joins' : Nat} {text : Text} (c : Char)
    (h : ∃ k, count' = count + 1 + k ∧ joins' ≤ joins + (text.take k).count '\n') :
    ∃ k, count' = count + k ∧ joins' ≤ joins + ((c :: text).take k).count '\n' := by
  obtain ⟨k, rfl, hjoins⟩ := h
  refine ⟨k + 1, by omega, ?_⟩
  rw [List.take_succ_cons, List.count_cons]
  omega

/-- A margin has no more continuations than line feeds. -/
theorem measure_joins {margin margin' : Margin} {fixed : Option Nat}
    {count joins count' joins' : Nat} {text : Text}
    (h : measure margin fixed count joins text = some (margin', count', joins')) :
    ∃ k, count' = count + k ∧ joins' ≤ joins + (text.take k).count '\n' := by
  fun_induction measure margin fixed count joins text with
  | case1 | case4 | case10 =>
      cases h
      exact ⟨0, rfl, by simp⟩
  | case2 | case9 => cases h
  | case3 =>
      cases h
      exact ⟨1, rfl, Nat.le_add_right _ _⟩
  | case5 _ _ _ _ c _ _ _ ih => exact joins_of_cons c (ih h)
  | case6 _ _ _ _ c _ _ _ _ ih => exact joins_of_cons c (ih h)
  | case7 _ _ _ _ c _ _ _ _ _ ih => exact joins_of_cons c (ih h)
  | case8 _ _ count joins c d rest _ _ _ _ hd fixed ih =>
      obtain ⟨k, rfl, hjoins⟩ := ih h
      have hfeed : d = '\n' := by
        simp only [Bool.and_eq_true, beq_iff_eq] at hd
        exact hd.1
      refine ⟨k + 2, by omega, ?_⟩
      rw [hfeed, List.take_succ_cons, List.take_succ_cons, List.count_cons, List.count_cons_self]
      omega

/-- Blocks that close are tokens, added one by one. -/
theorem exists_closeBlocks (margin : Margin) (margins : List Margin) (free : r.atMargin = false) :
    ∃ last, Steps r last ∧ closeBlocks margin margins r =
      { last with margins := (closeBlocks margin margins r).margins } := by
  induction margins generalizing r with
  | nil => exact ⟨r, .refl, rfl⟩
  | cons m outer ih =>
      rw [closeBlocks]
      split
      · obtain ⟨last, steps, hlast⟩ := ih (r := r.note .dedent) free
        exact ⟨last, .head (step_note (by decide) rfl free) steps, hlast⟩
      · exact ⟨r, .refl, rfl⟩

theorem step_margins (r : Reader) (margins : List Margin) : Step r { r with margins } :=
  .pass 0 0 rfl rfl rfl (Nat.zero_le _) rfl (.inl ⟨rfl, rfl⟩)

theorem steps_settle {margin : Margin} (free : r.atMargin = false)
    (hr : r.settle margin = some r') : Steps r r' := by
  unfold settle at hr
  simp only at hr
  split at hr
  · split at hr
    · cases hr
      exact .refl
    · cases hr
  · split at hr
    · split at hr
      · cases hr
        exact .single ((step_note (by decide) rfl free).of_eq rfl rfl rfl rfl rfl)
      · cases hr
    · split at hr
      · cases hr
        obtain ⟨last, steps, hlast⟩ := exists_closeBlocks margin r.margins free
        rw [hlast]
        exact .tail steps (step_margins _ _)
      · cases hr

theorem steps_enterLine (margin : r.atMargin = true) (hr : r.enterLine = some r') :
    Steps r r' := by
  unfold enterLine at hr
  split at hr
  · cases hr
  · next width count joins hmeasure =>
      obtain ⟨k, hcount, hjoins⟩ := measure_joins hmeasure
      rw [Nat.zero_add] at hcount hjoins
      subst hcount
      simp only at hr
      split at hr
      · cases hr
        exact .single (.pass count 0 rfl rfl rfl (Nat.zero_le _) rfl (.inr margin))
      · cases hr
        exact .tail (.single (step_skip r count)) (step_skip _ 1)
      · cases hr
        exact .tail (.single (step_skip r count)) (step_skip _ _)
      · refine .head ?_ (steps_settle ?_ hr)
        · exact .pass count joins rfl rfl rfl hjoins rfl (.inr margin)
        · rfl

/-! ### Inside a line -/

theorem take_ne_nil {cs : Text} {k : Nat} (hcs : cs ≠ []) (hk : k ≠ 0) : cs.take k ≠ [] := by
  simp [List.take_eq_nil_iff, hcs, hk]

theorem step_openBracket (c : Char) (hrest : r.rest ≠ []) : Step r (r.openBracket c) :=
  (step_emit (by simp) fun _ => take_ne_nil hrest Nat.one_ne_zero).of_eq rfl rfl rfl rfl rfl

theorem step_closeBracket {opening closing : Char} (hrest : r.rest ≠ [])
    (hr : r.closeBracket opening closing = some r') : Step r r' := by
  unfold closeBracket at hr
  split at hr
  · split at hr
    · cases hr
      exact (step_emit (by simp) fun _ => take_ne_nil hrest Nat.one_ne_zero).of_eq rfl rfl rfl rfl rfl
    · cases hr
  · cases hr

theorem step_readString {letters : Text} {quote : Char}
    (hr : r.readString letters quote = some r') : Step r r' := by
  unfold readString at hr
  simp only at hr
  split at hr
  · cases hr
    exact (step_emit (by decide) (by simp [Lexeme.isSpelled])).of_eq rfl rfl rfl rfl rfl
  · obtain ⟨k, -, rfl⟩ := Option.map_eq_some_iff.mp hr
    exact step_emit (by decide) (by simp [Lexeme.isSpelled])

theorem step_readWord (hr : r.readWord = some r') : Step r r' := by
  unfold readWord at hr
  simp only at hr
  split at hr
  · next hname =>
      cases hr
      refine step_emit (by simp) fun _ => ?_
      rw [← List.prefix_iff_eq_take.mp (List.takeWhile_prefix isWordChar)]
      intro hnil
      simp [hnil, Text.isIdentifier] at hname
  · cases hr

theorem step_readFormatted {f : Formatted} {outer : List Formatted}
    (hr : r.readFormatted f outer = some r') : Step r r' := by
  unfold readFormatted at hr
  split at hr
  · cases hr
  · cases hr
    exact step_emit (by decide) (by simp [Lexeme.isSpelled])
  · split at hr
    · next hrest =>
        cases hr
        exact (step_openBracket _ (by simp [hrest])).of_eq rfl rfl rfl rfl rfl
    · next hrest =>
        split at hr
        · obtain ⟨next, hnext, rfl⟩ := Option.map_eq_some_iff.mp hr
          exact (step_closeBracket (by simp [hrest]) hnext).of_eq rfl rfl rfl rfl rfl
        · cases hr
    · simp only at hr
      split at hr
      · cases hr
        exact (step_emit (by decide) (by simp [Lexeme.isSpelled])).of_eq rfl rfl rfl rfl rfl
      · cases hr

theorem step_plainMark (hr : readMark.plain r = some r') : Step r r' := by
  unfold readMark.plain at hr
  split at hr
  · next hrest =>
      cases hr
      exact step_openBracket _ (by simp [hrest])
  · next hrest =>
      cases hr
      exact step_openBracket _ (by simp [hrest])
  · next hrest =>
      cases hr
      exact step_openBracket _ (by simp [hrest])
  · next hrest => exact step_closeBracket (by simp [hrest]) hr
  · next hrest => exact step_closeBracket (by simp [hrest]) hr
  · next hrest => exact step_closeBracket (by simp [hrest]) hr
  · obtain ⟨m, hm, rfl⟩ := Option.map_eq_some_iff.mp hr
    exact step_emit (by simp) fun _ => markAt?_spelled hm

theorem step_readMark (hr : r.readMark = some r') : Step r r' := by
  unfold readMark at hr
  split at hr
  · next hrest _ =>
      split at hr
      · cases hr
        have hspelled : r.rest.take 1 ≠ [] := by simp [hrest]
        exact (step_emit (by simp) fun _ => hspelled).of_eq rfl rfl rfl rfl rfl
      · exact step_plainMark hr
  · next hrest _ =>
      obtain ⟨next, hnext, rfl⟩ := Option.map_eq_some_iff.mp hr
      have hclosed := step_closeBracket (by simp [hrest]) hnext
      split
      · exact hclosed.of_eq rfl rfl rfl rfl rfl
      · exact hclosed
  · exact step_plainMark hr

theorem step_readOn {c : Char} {rest : Text} (hrest : r.rest = c :: rest)
    (hr : r.readOn c rest = some r') : Step r r' := by
  unfold readOn at hr
  split at hr
  · cases hr
    exact step_skip r 1
  split at hr
  · cases hr
    exact step_skip r _
  split at hr
  · next hc =>
      obtain rfl : c = '\n' := by simpa using hc
      split at hr
      · cases hr
        exact .read 1 .newline rfl rfl rfl rfl (fun _ => by simp [hrest]) (absurd rfl ·)
          (by simp [Lexeme.isSpelled])
      · cases hr
        exact step_skip r 1
  split at hr
  · split at hr
    · cases hr
      exact step_skip r 2
    · cases hr
  split at hr
  · exact step_readString hr
  split at hr
  · obtain ⟨k, -, rfl⟩ := Option.map_eq_some_iff.mp hr
    exact step_emit (by decide) (by simp [Lexeme.isSpelled])
  split at hr
  · exact step_readWord hr
  · exact step_readMark hr

/-! ### A whole source -/

/-- Tokens at the end of what is read, for which no characters stand. -/
structure Silent (r : Reader) (t : Token) : Prop where
  start : t.start = r.position
  stop : t.stop = r.position
  joined : t.joined = r.joined
  unspelled : t.lexeme.isSpelled = false

theorem Silent.ne_word {t : Token} (h : r.Silent t) (w : String) : t.lexeme ≠ .word w := by
  intro hw
  have := h.unspelled
  simp [hw, Lexeme.isSpelled] at this

/-- A reader behind another with nothing but such tokens added. -/
def Closes (r r' : Reader) : Prop :=
  r'.position = r.position ∧ r'.joined = r.joined ∧
    ∃ added, r'.tokens = added ++ r.tokens ∧ ∀ t ∈ added, r.Silent t

theorem Closes.note (h : r.Closes r') {lexeme : Lexeme} (hspelled : lexeme.isSpelled = false) :
    r.Closes (r'.note lexeme) := by
  obtain ⟨position, joined, added, tokens, hadded⟩ := h
  refine ⟨position, joined, _ :: added, congrArg _ tokens, ?_⟩
  intro t ht
  rcases List.mem_cons.mp ht with rfl | ht
  · exact ⟨position, position, joined, hspelled⟩
  · exact hadded t ht

theorem Closes.dedents (h : r.Closes r') (margins : List Margin) :
    r.Closes (margins.foldl (fun r _ => r.note .dedent) r') := by
  induction margins generalizing r' with
  | nil => exact h
  | cons m margins ih => exact ih (h.note rfl)

theorem conclude_eq_some {ts : List Token} (hr : r.conclude = some ts) :
    ∃ added, ts = (added ++ r.tokens).reverse ∧ ∀ t ∈ added, r.Silent t := by
  unfold conclude at hr
  split at hr
  · cases hr
    have here : r.Closes r := ⟨rfl, rfl, [], rfl, by simp⟩
    have ended : r.Closes (if r.inStatement then r.note .newline else r) := by
      split
      · exact here.note rfl
      · exact here
    have closed := ended.dedents r.margins
    obtain ⟨-, -, added, tokens, hadded⟩ : r.Closes (Reader.note _ .finish) := closed.note rfl
    exact ⟨added, congrArg List.reverse tokens, hadded⟩
  · cases hr

/-- A run takes steps until the source is concluded. -/
theorem exists_steps_of_run {fuel : Nat} {ts : List Token} (hr : r.run fuel = some ts) :
    ∃ last, Steps r last ∧ last.conclude = some ts := by
  induction fuel generalizing r with
  | zero => cases hr
  | succ fuel ih =>
      have onward : ∀ {next : Reader}, Steps r next → next.run fuel = some ts →
          ∃ last, Steps r last ∧ last.conclude = some ts := by
        intro next steps hrun
        obtain ⟨last, more, hlast⟩ := ih hrun
        exact ⟨last, steps.trans more, hlast⟩
      rw [run] at hr
      split at hr
      · split at hr
        · obtain ⟨next, hnext, hr⟩ := Option.bind_eq_some_iff.mp hr
          exact onward (.single (step_readFormatted hnext)) hr
        · split at hr
          · next hrest =>
              obtain ⟨next, hnext, hr⟩ := Option.bind_eq_some_iff.mp hr
              exact onward (.single (step_readOn hrest hnext)) hr
          · cases hr
      · split at hr
        · exact ⟨r, .refl, hr⟩
        · next hrest =>
            split at hr
            · next margin =>
                obtain ⟨next, hnext, hr⟩ := Option.bind_eq_some_iff.mp hr
                exact onward (steps_enterLine margin hnext) hr
            · obtain ⟨next, hnext, hr⟩ := Option.bind_eq_some_iff.mp hr
              exact onward (.single (step_readOn hrest hnext)) hr

end Reader

end ImportOrder.Code
