import Mathlib.Data.Prod.Lex
import ImportOrder.Proofs.ReaderSteps

/-!
The positions at which the tokens of a source start and end. They are those after some first
characters of the source, no token starts before the one in front of it has ended, and a word or a
mark ends behind its start.
-/

namespace ImportOrder

namespace Position

/-- Positions compare as places in the document. -/
def place (p : Position) : Nat ×ₗ Nat := toLex (p.line, p.column)

theorem place_le_iff {p q : Position} :
    p.place ≤ q.place ↔ p.line < q.line ∨ p.line = q.line ∧ p.column ≤ q.column :=
  Prod.Lex.toLex_le_toLex

theorem place_lt_iff {p q : Position} :
    p.place < q.place ↔ p.line < q.line ∨ p.line = q.line ∧ p.column < q.column :=
  Prod.Lex.toLex_lt_toLex

end Position

namespace Code

theorem place_le_advance (p : Position) (cs : Text) : p.place ≤ (advance p cs).place := by
  induction cs generalizing p with
  | nil => exact le_refl _
  | cons c cs ih =>
      refine le_trans ?_ (ih _)
      rw [Position.place_le_iff]
      by_cases hc : c = '\n'
      · simp [hc]
      · simp [hc]

theorem place_lt_advance (p : Position) {cs : Text} (hcs : cs ≠ []) :
    p.place < (advance p cs).place := by
  cases cs with
  | nil => exact absurd rfl hcs
  | cons c cs =>
      refine lt_of_lt_of_le ?_ (place_le_advance _ cs)
      rw [Position.place_lt_iff]
      by_cases hc : c = '\n'
      · simp [hc]
      · simp [hc]

/-- The position after some first characters of a text. -/
def Reached (text : Text) (p : Position) : Prop := ∃ u, u <+: text ∧ p = advance ⟨1, 0⟩ u

namespace Token

structure Located (text : Text) (t : Token) : Prop where
  start : Reached text t.start
  stop : Reached text t.stop
  ordered : t.start.place ≤ t.stop.place
  spelled : t.lexeme.isSpelled = true → t.start.place < t.stop.place

/-- The tokens of a text, one behind the other. -/
structure Laid (text : Text) (ts : List Token) : Prop where
  located : ∀ t ∈ ts, t.Located text
  apart : ts.Pairwise fun a b => a.stop.place ≤ b.start.place

theorem Laid.sublist {text : Text} {ts us : List Token} (h : Laid text ts) (hsub : us.Sublist ts) :
    Laid text us :=
  ⟨fun t ht => h.located t (hsub.subset ht), h.apart.sublist hsub⟩

end Token

namespace Reader

/-- What holds while a text is read. -/
structure Laid (text : Text) (r : Reader) : Prop where
  passed : ∃ u, u ++ r.rest = text ∧ r.position = advance ⟨1, 0⟩ u
  located : ∀ t ∈ r.tokens, t.Located text
  before : ∀ t ∈ r.tokens, t.stop.place ≤ r.position.place
  apart : r.tokens.Pairwise fun b a => a.stop.place ≤ b.start.place

variable {text : Text} {r r' : Reader}

theorem Laid.reached (h : r.Laid text) : Reached text r.position := by
  obtain ⟨u, htext, hposition⟩ := h.passed
  exact ⟨u, ⟨r.rest, htext⟩, hposition⟩

theorem passed_drop (h : ∃ u, u ++ r.rest = text ∧ r.position = advance ⟨1, 0⟩ u) {k : Nat}
    (rest : r'.rest = r.rest.drop k) (position : r'.position = advance r.position (r.rest.take k)) :
    ∃ u, u ++ r'.rest = text ∧ r'.position = advance ⟨1, 0⟩ u := by
  obtain ⟨u, htext, hposition⟩ := h
  refine ⟨u ++ r.rest.take k, ?_, ?_⟩
  · rw [rest, List.append_assoc, List.take_append_drop, htext]
  · rw [position, hposition]
    exact List.foldl_append.symm

theorem Laid.step (h : r.Laid text) (hstep : Step r r') : r'.Laid text := by
  have hle : ∀ k, r.position.place ≤ (advance r.position (r.rest.take k)).place :=
    fun k => place_le_advance _ _
  cases hstep with
  | pass k joins rest position joined feeds tokens margin =>
      refine ⟨passed_drop h.passed rest position, ?_, ?_, ?_⟩
      · rw [tokens]
        exact h.located
      · rw [tokens, position]
        intro t ht
        exact le_trans (h.before t ht) (hle k)
      · rw [tokens]
        exact h.apart
  | read k lexeme rest position joined tokens newline margin spelled =>
      have passed := passed_drop h.passed rest position
      have reached : Reached text r'.position := by
        obtain ⟨u, htext, hposition⟩ := passed
        exact ⟨u, ⟨r'.rest, htext⟩, hposition⟩
      refine ⟨passed, ?_, ?_, ?_⟩
      · rw [tokens]
        intro t ht
        rcases List.mem_cons.mp ht with rfl | ht
        · refine ⟨h.reached, reached, ?_, fun hl => ?_⟩
          · exact position ▸ hle k
          · exact position ▸ place_lt_advance _ (spelled hl)
        · exact h.located t ht
      · rw [tokens, position]
        intro t ht
        rcases List.mem_cons.mp ht with rfl | ht
        · exact le_refl _
        · exact le_trans (h.before t ht) (hle k)
      · rw [tokens, List.pairwise_cons]
        exact ⟨h.before, h.apart⟩

theorem Laid.steps (h : r.Laid text) (steps : Steps r r') : r'.Laid text := by
  induction steps with
  | refl => exact h
  | tail _ hstep ih => exact ih.step hstep

theorem Laid.append_silent (h : r.Laid text) {added : List Token}
    (hadded : ∀ t ∈ added, r.Silent t) : Token.Laid text (added ++ r.tokens).reverse := by
  constructor
  · intro t ht
    rcases List.mem_append.mp (List.mem_reverse.mp ht) with ht | ht
    · obtain ⟨start, stop, -, unspelled⟩ := hadded t ht
      refine ⟨start ▸ h.reached, stop ▸ h.reached, ?_, by simp [unspelled]⟩
      rw [start, stop]
    · exact h.located t ht
  · rw [List.pairwise_reverse, List.pairwise_append]
    refine ⟨?_, h.apart, ?_⟩
    · apply List.pairwise_of_forall_mem_list
      intro b hb a ha
      rw [(hadded b hb).start, (hadded a ha).stop]
    · intro b hb a ha
      rw [(hadded b hb).start]
      exact h.before a ha

theorem Laid.run (h : r.Laid text) {fuel : Nat} {ts : List Token} (hr : r.run fuel = some ts) :
    Token.Laid text ts := by
  obtain ⟨last, steps, hlast⟩ := exists_steps_of_run hr
  obtain ⟨added, rfl, hadded⟩ := conclude_eq_some hlast
  exact (h.steps steps).append_silent hadded

end Reader

theorem tokens_laid {source : Text} {ts : List Token} (h : tokens source = some ts) :
    Token.Laid (Text.unifyBreaks source) ts := by
  unfold tokens at h
  have start : Reader.Laid (Text.unifyBreaks source) { rest := Text.unifyBreaks source } := by
    refine ⟨⟨[], rfl, rfl⟩, ?_, ?_, .nil⟩ <;> simp
  simp only at h
  split at h
  · exact (start.step (Reader.step_skip _ 1)).run h
  · exact start.run h

end Code

end ImportOrder
