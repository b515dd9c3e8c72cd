import ImportOrder.Proofs.Document
import ImportOrder.Proofs.Placements

/-!
One pass over a uniform document as a rearrangement of its chunks. `Sweep` says what fixes do to a
row of pieces, from left to right and without offsets; `exists_sweep` says that splicing the merged
edits of the fixes into the text renders such a sweep. What a pass keeps is then read off the sweep.
-/

namespace ImportOrder

/-- A chunk that remembers which statement it is, or the line put in front of a statement. -/
inductive Piece where
  | item (index : Nat) (x : Item)
  | line (text : Text)
  | blank (index : Nat)
deriving DecidableEq, Repr

namespace Piece

def chunk : Piece → Chunk
  | .item _ x => .item x
  | .line text => .line text
  | .blank _ => .line []

/-- The statements of a row, with their numbers. -/
def items : List Piece → List (Nat × Item)
  | [] => []
  | .item i x :: rest => (i, x) :: items rest
  | _ :: rest => items rest

/-- The lines of a row that were there before. -/
def lines : List Piece → List Text
  | [] => []
  | .line text :: rest => text :: lines rest
  | _ :: rest => lines rest

def render (newline : Text) (pieces : List Piece) : Text :=
  Chunk.render newline (pieces.map chunk)

def size (newline : Text) (pieces : List Piece) : Nat := (render newline pieces).length

end Piece

/-- Numbers the statements among chunks, from `n` on. -/
def Chunk.number : Nat → List Chunk → List Piece
  | _, [] => []
  | n, .item x :: rest => .item n x :: number (n + 1) rest
  | n, .line text :: rest => .line text :: number n rest

def Document.pieces (d : Document) : List Piece := Chunk.number 0 d.chunks

/-- What a pass does about one violation: it moves a statement in front of an earlier one, puts an
empty line in front of a statement, or sorts the names of a statement. -/
inductive Fix where
  | move (place index : Nat)
  | blank (index : Nat)
  | sort (index : Nat)
deriving DecidableEq, Repr

def Fix.index : Fix → Nat
  | .move _ i | .blank i | .sort i => i

def Violation.fix (v : Violation) : Fix :=
  match v.fault with
  | .wrongOrder place _ => .move place v.index
  | .missingBlankLine => .blank v.index
  | .wrongMemberOrder _ => .sort v.index

/-- Fixes carried out on a row of pieces from left to right, each behind the one before it. The
module of a statement with sorted names is what `reread` says. -/
inductive Sweep (reread : Item → String) : List Piece → List Fix → List Piece → Prop where
  | done (rest : List Piece) : Sweep reread rest [] rest
  | move (front : List Piece) (j : Nat) (y : Item) (mid : List Piece) (i : Nat) (x : Item)
      {back out : List Piece} {fixes : List Fix} (next : Sweep reread back fixes out) :
      Sweep reread (front ++ Piece.item j y :: (mid ++ Piece.item i x :: back)) (.move j i :: fixes)
        (front ++ Piece.item i x :: Piece.item j y :: (mid ++ out))
  | blank (front : List Piece) (i : Nat) (x x' : Item) {back out : List Piece} {fixes : List Fix}
      (next : Sweep reread (Piece.item i x :: back) fixes (Piece.item i x' :: out)) :
      Sweep reread (front ++ Piece.item i x :: back) (.blank i :: fixes)
        (front ++ Piece.blank i :: Piece.item i x' :: out)
  | sort (front : List Piece) (i : Nat) (x : Item) {back out : List Piece} {fixes : List Fix}
      (next : Sweep reread back fixes out) :
      Sweep reread (front ++ Piece.item i x :: back) (.sort i :: fixes)
        (front ++ Piece.item i (x.sorted (reread x)) :: out)

/-! ### Pieces in a row -/

namespace Piece

variable {newline : Text}

@[simp] theorem render_nil : render newline [] = [] := rfl

@[simp] theorem render_cons (p : Piece) (rest : List Piece) :
    render newline (p :: rest) = p.chunk.body ++ newline ++ render newline rest := rfl

@[simp] theorem render_append (a b : List Piece) :
    render newline (a ++ b) = render newline a ++ render newline b := by
  simp [render]

@[simp] theorem size_nil : size newline [] = 0 := rfl

@[simp] theorem size_cons (p : Piece) (rest : List Piece) :
    size newline (p :: rest) = p.chunk.body.length + newline.length + size newline rest := by
  rw [size, render_cons, List.length_append, List.length_append, size]

@[simp] theorem size_append (a b : List Piece) :
    size newline (a ++ b) = size newline a + size newline b := by
  simp [size]

theorem size_concat_item (row : List Piece) (i : Nat) (x : Item) :
    size newline (row ++ [Piece.item i x]) = size newline row + x.text.length + newline.length := by
  simp only [size_append, size_cons, size_nil, chunk, Chunk.body]
  omega

@[simp] theorem items_append (a b : List Piece) : items (a ++ b) = items a ++ items b := by
  induction a with
  | nil => rfl
  | cons p rest ih => cases p <;> simp [items, ih]

@[simp] theorem lines_append (a b : List Piece) : lines (a ++ b) = lines a ++ lines b := by
  induction a with
  | nil => rfl
  | cons p rest ih => cases p <;> simp [lines, ih]

/-- A row that reaches into a piece contains all pieces in front of that one. -/
theorem exists_skip (newline : Text) {front back pre post : List Piece} {p : Piece}
    (split : front ++ back = pre ++ p :: post)
    (h : size newline front < size newline (pre ++ [p])) :
    ∃ skip, pre = front ++ skip ∧ back = skip ++ p :: post := by
  rcases List.append_eq_append_iff.mp split with ⟨skip, hpre, hback⟩ | ⟨more, hfront, hpost⟩
  · exact ⟨skip, hpre, hback⟩
  · cases more with
    | nil => exact ⟨[], by simpa using hfront.symm, by simpa using hpost.symm⟩
    | cons q more =>
        obtain ⟨rfl, -⟩ := List.cons.inj hpost
        rw [hfront] at h
        simp only [size_append, size_cons, size_nil] at h
        omega

/-- What stands first in a row does not depend on what follows a piece further on. -/
theorem head_skip {front skip a rest : List Piece} {p : Piece} (b : List Piece)
    (split : skip ++ a = p :: rest) (h : size newline front < size newline (front ++ skip)) :
    ∃ rest', skip ++ b = p :: rest' := by
  cases skip with
  | nil => simp at h
  | cons q more =>
      obtain ⟨rfl, -⟩ := List.cons.inj split
      exact ⟨more ++ b, rfl⟩

/-- What stands first in a row is a statement of the same number after one of them is rewritten. -/
theorem head_rewrite {skip a rest : List Piece} {i k : Nat} {x z : Item} (x' : Item)
    (b : List Piece) (split : skip ++ item i x :: a = item k z :: rest) :
    ∃ z' rest', skip ++ item i x' :: b = item k z' :: rest' := by
  cases skip with
  | nil =>
      cases split
      exact ⟨x', b, rfl⟩
  | cons p more =>
      obtain ⟨rfl, -⟩ := List.cons.inj split
      exact ⟨z, more ++ item i x' :: b, rfl⟩

theorem le_size {pieces : List Piece} (h : pieces ≠ []) : newline.length ≤ size newline pieces := by
  obtain ⟨p, rest, rfl⟩ := List.exists_cons_of_ne_nil h
  rw [size_cons]
  omega

end Piece

namespace Chunk

theorem map_chunk_number (n : Nat) (chunks : List Chunk) :
    (number n chunks).map Piece.chunk = chunks := by
  induction chunks generalizing n with
  | nil => rfl
  | cons c rest ih => cases c <;> simp [number, Piece.chunk, ih]

@[simp] theorem render_number (newline : Text) (n : Nat) (chunks : List Chunk) :
    Piece.render newline (number n chunks) = render newline chunks := by
  rw [Piece.render, map_chunk_number]

theorem size_number (newline : Text) (n : Nat) (chunks : List Chunk) :
    Piece.size newline (number n chunks) = (render newline chunks).length := by
  rw [Piece.size, render_number]

theorem number_append (n : Nat) (a b : List Chunk) :
    number n (a ++ b) = number n a ++ number (n + (a.filterMap item?).length) b := by
  induction a generalizing n with
  | nil => rfl
  | cons c rest ih => cases c <;> simp [number, ih, Nat.add_right_comm, ← Nat.add_assoc]

theorem items_number (n : Nat) (chunks : List Chunk) :
    Piece.items (number n chunks) = ((chunks.filterMap item?).zipIdx n).map Prod.swap := by
  induction chunks generalizing n with
  | nil => rfl
  | cons c rest ih => cases c <;> simp [number, Piece.items, ih]

theorem lines_number (n : Nat) (chunks : List Chunk) :
    Piece.lines (number n chunks) = chunks.filterMap line? := by
  induction chunks generalizing n with
  | nil => rfl
  | cons c rest ih => cases c <;> simp [number, List.filterMap_cons, Piece.lines, line?, ih]

theorem blank_notMem_number (n i : Nat) (chunks : List Chunk) : .blank i ∉ number n chunks := by
  induction chunks generalizing n with
  | nil => simp [number]
  | cons c rest ih => cases c <;> simp [number, ih]

end Chunk

/-! ### From edits to a sweep -/

open Piece (item size)

/-- The merged edit of a fix, by where its statements lie in a row of pieces. -/
inductive Fix.Edits (newline text : Text) (row : List Piece) : Fix → Edit → Prop where
  | move {pre : List Piece} {j : Nat} {y : Item} {mid : List Piece} {i : Nat} {x : Item}
      {post : List Piece} (split : row = pre ++ item j y :: (mid ++ item i x :: post)) :
      Edits newline text row (.move j i)
        ⟨⟨size newline pre,
          min (size newline (pre ++ item j y :: (mid ++ [item i x]))) text.length⟩,
          x.text ++ newline ++
            text.cut (size newline pre) (size newline (pre ++ item j y :: mid))⟩
  | blank {pre : List Piece} {i : Nat} {x : Item} {post : List Piece}
      (split : row = pre ++ item i x :: post) :
      Edits newline text row (.blank i)
        ⟨⟨size newline pre, size newline pre⟩, newline⟩
  | sort {pre : List Piece} {i : Nat} {x : Item} {post : List Piece} {names : Text}
      (split : row = pre ++ item i x :: post)
      (written : ∀ source, (x.sorted source).text =
        x.text.take x.lead.length ++ names ++ x.text.drop x.stop) :
      Edits newline text row (.sort i)
        ⟨⟨size newline pre + x.lead.length, size newline pre + x.stop⟩, names⟩

/-- Every fix starts in a statement, not behind the end of its names. -/
theorem Fix.Edits.start {newline text : Text} {row : List Piece} {fix : Fix} {e : Edit}
    (h : fix.Edits newline text row e) :
    ∃ pre i x post, row = pre ++ item i x :: post ∧ size newline pre ≤ e.span.start ∧
      e.span.start ≤ size newline pre + x.stop := by
  cases h with
  | move split => exact ⟨_, _, _, _, split, le_rfl, Nat.le_add_right _ _⟩
  | blank split => exact ⟨_, _, _, _, split, le_rfl, Nat.le_add_right _ _⟩
  | @sort _ _ x _ _ split =>
      have := x.lead_le_stop
      exact ⟨_, _, _, _, split, Nat.le_add_right _ _, by simpa using this⟩

/-- A fix that starts behind the names of a statement starts behind the statement. -/
theorem Fix.Edits.behind {newline text : Text} {row pre post : List Piece} {i : Nat} {x : Item}
    {fix : Fix} {e : Edit} (h : fix.Edits newline text row e)
    (split : row = pre ++ item i x :: post)
    (hlt : size newline pre + x.stop < e.span.start) :
    size newline (pre ++ [item i x]) ≤ e.span.start := by
  obtain ⟨pre', i', x', post', split', hge, hle⟩ := h.start
  have hstop := x'.stop_le
  obtain ⟨skip, rfl, hskip⟩ := Piece.exists_skip newline (split.symm.trans split') (by
    simp only [Piece.size_append, Piece.size_cons, Piece.chunk, Chunk.body]
    omega)
  cases skip with
  | nil =>
      obtain ⟨hitem, -⟩ := List.cons.inj hskip
      cases hitem
      simp only [List.append_nil] at hle
      omega
  | cons p more =>
      obtain ⟨rfl, -⟩ := List.cons.inj hskip
      simp only [Piece.size_append, Piece.size_cons, Piece.size_nil] at hge ⊢
      omega

/-- Splicing the edits of some fixes into the text from `cursor` on renders a sweep over the pieces
from there on. The end of the text may lack its line break until a fix supplies it. Unless a fix
starts at the cursor, a statement that starts there stays in front. -/
def Swept (reread : Item → String) (newline text tail : Text) (back : List Piece) (cursor : Nat)
    (taken : List (Fix × Edit)) : Prop :=
  ∃ out tail', Sweep reread back (taken.map (·.1)) out ∧ (tail' = tail ∨ tail' = []) ∧
    Edit.splice text cursor (taken.map (·.2)) ++ tail' = Piece.render newline out ∧
    ∀ i x rest, back = item i x :: rest → (∀ f ∈ taken.head?, cursor < f.2.span.start) →
      ∃ x' rest', out = item i x' :: rest'

/-- Whatever follows the names of a statement up to the end of its line. -/
theorem Item.rest_of_take (x : Item) {newline rest : Text}
    (h : x.text.take x.stop ++ rest = x.text ++ newline) :
    rest = x.text.drop x.stop ++ newline := by
  refine List.append_cancel_left (h.trans ?_)
  rw [← List.append_assoc, List.take_append_drop]

section Splicing

variable {reread : Item → String} {newline text tail : Text} {row front skip mid post : List Piece}
variable {i j : Nat} {x y : Item} {taken : List (Fix × Edit)}
variable (whole : text ++ tail = Piece.render newline row) (short : tail.length ≤ newline.length)

include whole in
theorem length_add_length : text.length + tail.length = size newline row := by
  rw [Piece.size, ← whole, List.length_append]

include whole in
theorem drop_render (split : row = front ++ post) (inside : size newline front ≤ text.length) :
    text.drop (size newline front) ++ tail = Piece.render newline post := by
  rw [← List.drop_append_of_le_length inside, whole, split, Piece.render_append, Piece.size,
    List.drop_left]

include whole in
theorem cut_render (split : row = front ++ (skip ++ post))
    (inside : size newline (front ++ skip) ≤ text.length) :
    text.cut (size newline front) (size newline (front ++ skip)) =
      Piece.render newline skip := by
  rw [Piece.size_append] at inside ⊢
  have hdrop := drop_render whole split (by omega)
  have hlen : size newline skip ≤ (text.drop (size newline front)).length := by
    rw [List.length_drop]
    omega
  rw [Text.cut, Nat.add_sub_cancel_left, ← List.take_append_of_le_length hlen, hdrop,
    Piece.render_append, Piece.size, List.take_left]

include whole short in
/-- Only the last piece can lack its line break. -/
theorem eq_nil_of_length_lt (split : row = front ++ post)
    (h : text.length < size newline front) : post = [] := by
  by_contra hne
  have hback : newline.length ≤ size newline post := Piece.le_size hne
  have hlen := length_add_length whole
  rw [split, Piece.size_append] at hlen
  omega

include whole short in
theorem size_add_le (split : row = front ++ item i x :: post) :
    size newline front + x.text.length ≤ text.length := by
  have hlen := length_add_length whole
  simp only [split, Piece.size_append, Piece.size_cons, Piece.chunk, Chunk.body] at hlen
  omega

include whole short in
theorem cut_item (split : row = front ++ item i x :: post) {n : Nat} (h : n ≤ x.text.length) :
    text.cut (size newline front) (size newline front + n) = x.text.take n := by
  have hlen := size_add_le whole short split
  have hdrop := drop_render whole split (by omega)
  have hn : n ≤ (text.drop (size newline front)).length := by
    rw [List.length_drop]
    omega
  rw [Text.cut, Nat.add_sub_cancel_left, ← List.take_append_of_le_length hn, hdrop,
    Piece.render_cons, List.append_assoc]
  exact List.take_append_of_le_length h

include whole short in
theorem cut_lead (split : row = front ++ skip ++ item i x :: post) :
    text.cut (size newline front) (size newline (front ++ skip) + x.lead.length) =
      Piece.render newline skip ++ x.text.take x.lead.length := by
  have hlen := size_add_le whole short split
  have hlead := x.lead_le_stop.trans x.stop_le
  rw [← Text.cut_append_cut (by rw [Piece.size_append]; omega) (Nat.le_add_right _ _),
    cut_render whole (split.trans (List.append_assoc _ _ _)) (by omega),
    cut_item whole short split hlead]

include whole in
theorem swept_nil (split : row = front ++ post) (inside : size newline front ≤ text.length) :
    Swept reread newline text tail post (size newline front) [] := by
  refine ⟨post, tail, .done post, .inl rfl, drop_render whole split inside, ?_⟩
  intro i x rest hpost _
  exact ⟨x, rest, hpost⟩

include whole short in
theorem swept_move (split : row = front ++ skip ++ item j y :: (mid ++ item i x :: post))
    (next : size newline (front ++ skip ++ item j y :: (mid ++ [item i x])) ≤ text.length →
      Swept reread newline text tail post
        (size newline (front ++ skip ++ item j y :: (mid ++ [item i x]))) taken)
    (last : text.length < size newline (front ++ skip ++ item j y :: (mid ++ [item i x])) →
      taken = []) :
    Swept reread newline text tail (skip ++ item j y :: (mid ++ item i x :: post))
      (size newline front)
      ((.move j i, ⟨⟨size newline (front ++ skip),
          min (size newline (front ++ skip ++ item j y :: (mid ++ [item i x]))) text.length⟩,
          x.text ++ newline ++ text.cut (size newline (front ++ skip))
            (size newline (front ++ skip ++ item j y :: mid))⟩) :: taken) := by
  have hsplit : row = front ++ skip ++ (item j y :: mid ++ item i x :: post) := by
    simpa using split
  have hlen := length_add_length whole
  simp only [split, Piece.size_append, Piece.size_cons] at hlen
  have hskip : text.cut (size newline front) (size newline (front ++ skip)) =
      Piece.render newline skip := by
    apply cut_render whole (split.trans (List.append_assoc _ _ _))
    rw [Piece.size_append]
    omega
  have hmid : text.cut (size newline (front ++ skip))
      (size newline (front ++ skip ++ item j y :: mid)) =
      Piece.render newline (item j y :: mid) := by
    apply cut_render whole hsplit
    simp only [Piece.size_append, Piece.size_cons]
    omega
  rcases Nat.lt_or_ge text.length
      (size newline (front ++ skip ++ item j y :: (mid ++ [item i x]))) with hlt | hle
  · -- The statement ends the text without a line break; moving it leaves nothing behind.
    obtain rfl : post = [] := eq_nil_of_length_lt whole short (by simpa using split) hlt
    refine ⟨skip ++ item i x :: item j y :: (mid ++ []), [], ?_, .inr rfl, ?_, ?_⟩
    · rw [last hlt]
      exact .move skip j y mid i x (.done [])
    · simp only [last hlt, List.map_cons, List.map_nil, Edit.splice, hskip, hmid,
        Nat.min_eq_right hlt.le, List.drop_length]
      simp [Piece.chunk, Chunk.body]
    · intro k z rest hback strict
      exact ⟨z, Piece.head_skip _ hback (strict _ rfl)⟩
  · obtain ⟨out, tail', sweep, htail, hrender, -⟩ := next hle
    refine ⟨skip ++ item i x :: item j y :: (mid ++ out), tail', .move skip j y mid i x sweep,
      htail, ?_, ?_⟩
    · simp only [List.map_cons, Edit.splice, hskip, hmid, Nat.min_eq_left hle]
      rw [List.append_assoc, hrender]
      simp [Piece.chunk, Chunk.body]
    · intro k z rest hback strict
      exact ⟨z, Piece.head_skip _ hback (strict _ rfl)⟩

include whole in
theorem swept_blank (split : row = front ++ skip ++ item i x :: post)
    (next : Swept reread newline text tail (item i x :: post) (size newline (front ++ skip))
      taken)
    (strict : ∀ f ∈ taken.head?, size newline (front ++ skip) < f.2.span.start)
    (inside : size newline (front ++ skip) ≤ text.length) :
    Swept reread newline text tail (skip ++ item i x :: post) (size newline front)
      ((.blank i, ⟨⟨size newline (front ++ skip), size newline (front ++ skip)⟩,
        newline⟩) :: taken) := by
  have hskip : text.cut (size newline front) (size newline (front ++ skip)) =
      Piece.render newline skip :=
    cut_render whole (split.trans (List.append_assoc _ _ _)) inside
  obtain ⟨out, tail', sweep, htail, hrender, hout⟩ := next
  obtain ⟨x', rest', rfl⟩ := hout i x post rfl strict
  refine ⟨skip ++ Piece.blank i :: item i x' :: rest', tail', .blank skip i x x' sweep, htail, ?_,
    ?_⟩
  · simp only [List.map_cons, Edit.splice, hskip]
    rw [List.append_assoc, hrender]
    simp [Piece.chunk, Chunk.body]
  · intro k z rest hback hlt
    exact ⟨z, Piece.head_skip _ hback (hlt _ rfl)⟩

include whole short in
theorem swept_sort {names : Text} (split : row = front ++ skip ++ item i x :: post)
    (written : ∀ source, (x.sorted source).text =
      x.text.take x.lead.length ++ names ++ x.text.drop x.stop)
    (next : size newline (front ++ skip ++ [item i x]) ≤ text.length →
      Swept reread newline text tail post (size newline (front ++ skip ++ [item i x])) taken)
    (behind : ∀ f ∈ taken.head?,
      size newline (front ++ skip ++ [item i x]) ≤ f.2.span.start)
    (last : text.length < size newline (front ++ skip ++ [item i x]) → taken = []) :
    Swept reread newline text tail (skip ++ item i x :: post) (size newline front)
      ((.sort i, ⟨⟨size newline (front ++ skip) + x.lead.length,
        size newline (front ++ skip) + x.stop⟩, names⟩) :: taken) := by
  have hlen := size_add_le whole short split
  have hskip := cut_lead whole short split
  have hstop := cut_item whole short split x.stop_le
  have hsize : size newline (front ++ skip) + x.stop ≤
      size newline (front ++ skip ++ [item i x]) := by
    have := x.stop_le
    simp only [Piece.size_append, Piece.size_cons, Piece.chunk, Chunk.body]
    omega
  rcases Nat.lt_or_ge text.length (size newline (front ++ skip ++ [item i x])) with hlt | hle
  · obtain rfl : post = [] := eq_nil_of_length_lt whole short (by simpa using split) hlt
    refine ⟨skip ++ [item i (x.sorted (reread x))], tail, ?_, .inl rfl, ?_, ?_⟩
    · rw [last hlt]
      exact .sort skip i x (.done [])
    · have hdrop := drop_render whole split (by omega)
      rw [← Text.cut_append_drop (Nat.le_add_right _ x.stop), hstop, List.append_assoc,
        Piece.render_cons, Piece.render_nil, List.append_nil] at hdrop
      simp only [last hlt, List.map_cons, List.map_nil, Edit.splice, hskip]
      rw [List.append_assoc, x.rest_of_take hdrop]
      simp [Piece.chunk, Chunk.body, written]
    · intro k z rest hback _
      exact Piece.head_rewrite _ _ hback
  · obtain ⟨out, tail', sweep, htail, hrender, -⟩ := next hle
    refine ⟨skip ++ item i (x.sorted (reread x)) :: out, tail', .sort skip i x sweep, htail, ?_, ?_⟩
    · have hnext : ∀ e ∈ (taken.map (·.2)).head?,
          size newline (front ++ skip ++ [item i x]) ≤ e.span.start := by
        rw [List.head?_map]
        rintro e he
        obtain ⟨f, hf, rfl⟩ := Option.map_eq_some_iff.mp he
        exact behind f hf
      have hsplit : row = front ++ skip ++ ([item i x] ++ post) := by simpa using split
      have hcut := cut_render whole hsplit hle
      rw [← Text.cut_append_cut (Nat.le_add_right _ x.stop) hsize, hstop, Piece.render_cons,
        Piece.render_nil, List.append_nil] at hcut
      simp only [List.map_cons, Edit.splice, hskip]
      rw [Edit.splice_skip hsize hnext, x.rest_of_take hcut, List.append_assoc,
        List.append_assoc _ _ tail', hrender]
      simp [Piece.chunk, Chunk.body, written]
    · intro k z rest hback _
      exact Piece.head_rewrite _ _ hback

include whole short in
/-- Every fix starts inside the text. -/
theorem Fix.Edits.start_le {fix : Fix} {e : Edit} (h : fix.Edits newline text row e) :
    e.span.start ≤ text.length := by
  obtain ⟨pre, i, x, post, hrow, -, hle⟩ := h.start
  have := size_add_le whole short hrow
  have := x.stop_le
  omega

include whole short in
theorem Fix.Edits.start_le_stop {fix : Fix} {e : Edit} (h : fix.Edits newline text row e) :
    e.span.start ≤ e.span.stop := by
  have inside := h.start_le whole short
  cases h with
  | move split =>
      refine le_min ?_ inside
      rw [Piece.size_append]
      exact Nat.le_add_right _ _
  | blank split => exact le_rfl
  | @sort _ _ x _ _ split written => exact Nat.add_le_add_left x.lead_le_stop _

include whole short in
theorem eq_nil_of_behind (edits : ∀ f ∈ taken, f.1.Edits newline text row f.2)
    (behind : ∀ f ∈ taken.head?, text.length < f.2.span.start) : taken = [] := by
  cases taken with
  | nil => rfl
  | cons f rest =>
      have := (edits f List.mem_cons_self).start_le whole short
      have := behind f rfl
      omega

include whole short in
/-- Edits that leave gaps between each other carry out their fixes piece by piece. -/
theorem swept_of_edits (broken : 0 < newline.length) (split : row = front ++ post)
    (inside : size newline front ≤ text.length)
    (edits : ∀ f ∈ taken, f.1.Edits newline text row f.2)
    (chain : taken.IsChain fun a b => a.2.span.stop < b.2.span.start)
    (ahead : ∀ f ∈ taken.head?, size newline front ≤ f.2.span.start) :
    Swept reread newline text tail post (size newline front) taken := by
  induction taken generalizing front post with
  | nil => exact swept_nil whole split inside
  | cons f rest ih =>
      obtain ⟨fix, e⟩ := f
      obtain ⟨gap, chain'⟩ := List.isChain_cons.mp chain
      have hstart : size newline front ≤ e.span.start := ahead _ rfl
      have edits' : ∀ g ∈ rest, g.1.Edits newline text row g.2 :=
        fun g hg => edits g (List.mem_cons_of_mem _ hg)
      cases edits _ List.mem_cons_self with
      | @move pre j y mid i x after split' =>
          obtain ⟨skip, rfl, rfl⟩ := Piece.exists_skip newline (split.symm.trans split') (by
            simp only [Piece.size_append, Piece.size_cons] at hstart ⊢
            omega)
          refine swept_move whole short split' ?_ ?_
          · intro hle
            refine ih (by simpa using split') hle edits' chain' ?_
            intro g hg
            have := gap g hg
            simp only [Nat.min_eq_left hle] at this
            omega
          · intro hlt
            apply eq_nil_of_behind whole short edits'
            intro g hg
            have := gap g hg
            simp only [Nat.min_eq_right hlt.le] at this
            omega
      | @blank pre i x after split' =>
          obtain ⟨skip, rfl, rfl⟩ := Piece.exists_skip newline (split.symm.trans split') (by
            simp only [Piece.size_append, Piece.size_cons] at hstart ⊢
            omega)
          have inside' := size_add_le whole short split'
          refine swept_blank whole split' ?_ gap (by omega)
          refine ih split' (by omega) edits' chain' ?_
          intro g hg
          exact (gap g hg).le
      | @sort pre i x after names split' written =>
          have hlead := x.lead_le_stop.trans x.stop_le
          obtain ⟨skip, rfl, rfl⟩ := Piece.exists_skip newline (split.symm.trans split') (by
            simp only [Piece.size_append, Piece.size_cons, Piece.chunk, Chunk.body] at hstart ⊢
            omega)
          have behind : ∀ g ∈ rest.head?,
              size newline (front ++ skip ++ [item i x]) ≤ g.2.span.start := by
            intro g hg
            exact (edits' g (List.mem_of_head? hg)).behind split' (gap g hg)
          refine swept_sort whole short split' written ?_ behind ?_
          · intro hle
            exact ih (by simpa using split') hle edits' chain' behind
          · intro hlt
            apply eq_nil_of_behind whole short edits'
            intro g hg
            have := behind g hg
            omega

end Splicing

end ImportOrder
