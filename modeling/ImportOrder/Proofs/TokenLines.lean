import Mathlib.Data.List.Chain
import ImportOrder.Proofs.ReaderSteps

/-!
The lines on which the tokens of a source stand. Line continuations in the margins of statements are
left out of the count, so the count of a token depends on the margins before it. Counted that way no
token stands above one before it, the end of a line lies above every word behind it, and the tokens
of one line of statements share their margins.
-/

namespace ImportOrder.Code

namespace Token

def firstLine (t : Token) : Nat := t.start.line - t.joined

def lastLine (t : Token) : Nat := t.stop.line - t.joined

/-- A token on the first `n` lines. -/
structure Within (n : Nat) (t : Token) : Prop where
  joined_lt : t.joined < t.start.line
  start_le : t.start.line ≤ t.stop.line
  stop_le : t.stop.line ≤ n

def Follows (a b : Token) : Prop :=
  a.lastLine ≤ b.firstLine ∧
    (a.lexeme = .newline → ∀ w, b.lexeme = .word w → a.firstLine < b.firstLine)

/-- Two tokens in a row have the same margins before them unless a line ends there. -/
def SharesMargin (a b : Token) : Prop := a.lexeme ≠ .newline → b.joined = a.joined

/-- The tokens of a source of `n` lines. -/
structure Ordered (n : Nat) (ts : List Token) : Prop where
  within : ∀ t ∈ ts, t.Within n
  follows : ts.Pairwise Follows
  shares : ts.IsChain SharesMargin

theorem Ordered.right {n : Nat} {ts us : List Token} (h : Ordered n (ts ++ us)) : Ordered n us :=
  ⟨fun t ht => h.within t (List.mem_append_right ts ht), (List.pairwise_append.mp h.follows).2.1,
    h.shares.right_of_append⟩

end Token

theorem advance_line (p : Position) (cs : Text) : (advance p cs).line = p.line + cs.count '\n' := by
  unfold advance
  induction cs generalizing p with
  | nil => rfl
  | cons c cs ih =>
      rw [List.foldl_cons, ih, List.count_cons]
      by_cases hc : c = '\n'
      · simp only [hc, beq_self_eq_true, if_true]
        omega
      · simp [hc]

namespace Reader

/-- What holds while a source of `n` lines is read. -/
structure Ordered (n : Nat) (r : Reader) : Prop where
  total : r.position.line + r.rest.count '\n' = n
  joined_lt : r.joined < r.position.line
  within : ∀ t ∈ r.tokens, t.Within n
  passed : ∀ t ∈ r.tokens, t.lastLine ≤ r.position.line - r.joined ∧
    (t.lexeme = .newline → t.firstLine < r.position.line - r.joined)
  follows : r.tokens.Pairwise fun b a => a.Follows b
  shares : r.tokens.IsChain fun b a => a.SharesMargin b
  /-- Behind a token that ends no line there is no margin to come. -/
  last : ∀ t ∈ r.tokens.head?, t.lexeme ≠ .newline → t.joined = r.joined ∧ r.atMargin = false

variable {n : Nat} {r r' : Reader}

/-- Reading on, past `k` continuations in a margin if there is one. -/
theorem Ordered.pass (h : r.Ordered n) {k : Nat} (rest : r'.position.line + r'.rest.count '\n' = n)
    (position : r.position.line + k ≤ r'.position.line) (joined : r'.joined = r.joined + k)
    (tokens : r'.tokens = r.tokens) (margin : k = 0 ∧ r'.atMargin = r.atMargin ∨ r.atMargin = true) :
    r'.Ordered n := by
  have hjoined := h.joined_lt
  constructor
  · exact rest
  · omega
  · rw [tokens]
    exact h.within
  · intro t ht
    obtain ⟨hlast, hnewline⟩ := h.passed t (tokens ▸ ht)
    refine ⟨by omega, fun hl => ?_⟩
    have := hnewline hl
    omega
  · rw [tokens]
    exact h.follows
  · rw [tokens]
    exact h.shares
  · intro t ht hne
    obtain ⟨same, free⟩ := h.last t (tokens ▸ ht) hne
    rcases margin with ⟨rfl, hmargin⟩ | hmargin
    · exact ⟨same.trans joined.symm, hmargin.trans free⟩
    · simp [hmargin] at free

/-- Adding the token that reaches from one reader to the next. -/
theorem Ordered.add (h : r.Ordered n) {lexeme : Lexeme}
    (rest : r'.position.line + r'.rest.count '\n' = n)
    (position : r.position.line ≤ r'.position.line) (joined : r'.joined = r.joined)
    (tokens : r'.tokens = ⟨lexeme, r.position, r'.position, r.joined⟩ :: r.tokens)
    (newline : lexeme = .newline → r.position.line < r'.position.line)
    (margin : lexeme ≠ .newline → r'.atMargin = false) : r'.Ordered n := by
  have hjoined := h.joined_lt
  constructor
  · exact rest
  · omega
  · rw [tokens]
    intro t ht
    rcases List.mem_cons.mp ht with rfl | ht
    · exact ⟨hjoined, position, by simp only; omega⟩
    · exact h.within t ht
  · rw [tokens, joined]
    intro t ht
    rcases List.mem_cons.mp ht with rfl | ht
    · refine ⟨Nat.le_refl _, fun hl => ?_⟩
      have := newline hl
      simp only [Token.firstLine]
      omega
    · obtain ⟨hlast, hnewline⟩ := h.passed t ht
      refine ⟨by omega, fun hl => ?_⟩
      have := hnewline hl
      omega
  · rw [tokens, List.pairwise_cons]
    refine ⟨?_, h.follows⟩
    intro t ht
    obtain ⟨hlast, hnewline⟩ := h.passed t ht
    exact ⟨hlast, fun hl _ _ => hnewline hl⟩
  · rw [tokens, List.isChain_cons]
    refine ⟨?_, h.shares⟩
    intro t ht hne
    exact (h.last t ht hne).1.symm
  · rw [tokens, joined]
    rintro t ⟨⟩ hne
    exact ⟨rfl, margin hne⟩

theorem Ordered.step (h : r.Ordered n) (hstep : Step r r') : r'.Ordered n := by
  have count_rest : ∀ k, r.rest.count '\n' =
      (r.rest.take k).count '\n' + (r.rest.drop k).count '\n' := by
    intro k
    rw [← List.count_append, List.take_append_drop]
  have htotal := h.total
  cases hstep with
  | pass k joins rest position joined feeds tokens margin =>
      have hcount := count_rest k
      refine h.pass ?_ ?_ joined tokens margin
      · rw [position, rest, advance_line]
        omega
      · rw [position, advance_line]
        omega
  | read k lexeme rest position joined tokens newline margin spelled =>
      have hcount := count_rest k
      refine h.add ?_ ?_ joined tokens ?_ margin
      · rw [position, rest, advance_line]
        omega
      · rw [position, advance_line]
        omega
      · intro hl
        have := List.count_pos_iff.mpr (newline hl)
        rw [position, advance_line]
        omega

theorem Ordered.steps (h : r.Ordered n) (steps : Steps r r') : r'.Ordered n := by
  induction steps with
  | refl => exact h
  | tail _ hstep ih => exact ih.step hstep

theorem Ordered.append_silent (h : r.Ordered n) {added : List Token}
    (hadded : ∀ t ∈ added, r.Silent t) : Token.Ordered n (added ++ r.tokens).reverse := by
  have hjoined := h.joined_lt
  have htotal := h.total
  refine ⟨?_, ?_, ?_⟩
  · intro t ht
    rcases List.mem_append.mp (List.mem_reverse.mp ht) with ht | ht
    · have silent := hadded t ht
      refine ⟨?_, ?_, ?_⟩
      · rw [silent.start, silent.joined]
        exact hjoined
      · rw [silent.start, silent.stop]
      · rw [silent.stop]
        omega
    · exact h.within t ht
  · rw [List.pairwise_reverse, List.pairwise_append]
    refine ⟨?_, h.follows, ?_⟩
    · apply List.pairwise_of_forall_mem_list
      intro b hb a ha
      have silent := hadded b hb
      refine ⟨?_, fun _ w hw => absurd hw (silent.ne_word w)⟩
      rw [Token.lastLine, Token.firstLine, (hadded a ha).stop, (hadded a ha).joined, silent.start,
        silent.joined]
    · intro b hb a ha
      have silent := hadded b hb
      refine ⟨?_, fun _ w hw => absurd hw (silent.ne_word w)⟩
      rw [Token.firstLine, silent.start, silent.joined]
      exact (h.passed a ha).1
  · rw [List.isChain_reverse]
    apply List.IsChain.append
    · apply List.Pairwise.isChain
      apply List.pairwise_of_forall_mem_list
      intro b hb a ha _
      exact (hadded b hb).joined.trans (hadded a ha).joined.symm
    · exact h.shares
    · intro b hb a ha hne
      rw [(hadded b (List.mem_of_mem_getLast? hb)).joined]
      exact (h.last a ha hne).1.symm

theorem Ordered.run (h : r.Ordered n) {fuel : Nat} {ts : List Token} (hr : r.run fuel = some ts) :
    Token.Ordered n ts := by
  obtain ⟨last, steps, hlast⟩ := exists_steps_of_run hr
  obtain ⟨added, rfl, hadded⟩ := conclude_eq_some hlast
  exact (h.steps steps).append_silent hadded

end Reader

theorem tokens_ordered {source : Text} {ts : List Token} (h : tokens source = some ts) :
    Token.Ordered (1 + (Text.unifyBreaks source).count '\n') ts := by
  unfold tokens at h
  have start : Reader.Ordered (1 + (Text.unifyBreaks source).count '\n')
      { rest := Text.unifyBreaks source } := by
    refine ⟨rfl, Nat.zero_lt_one, ?_, ?_, .nil, .nil, ?_⟩ <;> simp
  simp only at h
  split at h
  · exact (start.step (Reader.step_skip _ 1)).run h
  · exact start.run h

end ImportOrder.Code
