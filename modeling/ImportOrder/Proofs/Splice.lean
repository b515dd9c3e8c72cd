import Mathlib
import ImportOrder.Check

/-!
One pass of edits over a text. The fixes that a pass carries out are named together with their
merged edits, so that later statements can say which violations were mended. Of the selection only
three facts are used: it starts with the first edit, it leaves a gap between two edits, and it never
takes an edit behind a shorter one that starts at the same place.
-/

namespace ImportOrder
namespace Text

theorem cut_append (a b c : Text) : (a ++ b ++ c).cut a.length (a.length + b.length) = b := by
  simp [cut, List.append_assoc]

theorem cut_of_le {t : Text} {lo hi : Nat} (h : hi ≤ lo) : t.cut lo hi = [] := by
  simp [cut, Nat.sub_eq_zero_of_le h]

theorem cut_append_drop {t : Text} {lo hi : Nat} (h : lo ≤ hi) :
    t.cut lo hi ++ t.drop hi = t.drop lo := by
  have hd : t.drop hi = (t.drop lo).drop (hi - lo) := by
    rw [List.drop_drop, Nat.add_sub_cancel' h]
  rw [hd, cut, List.take_append_drop]

theorem cut_append_cut {t : Text} {lo mid hi : Nat} (h : lo ≤ mid) (h' : mid ≤ hi) :
    t.cut lo mid ++ t.cut mid hi = t.cut lo hi := by
  have hd : t.drop mid = (t.drop lo).drop (mid - lo) := by
    rw [List.drop_drop, Nat.add_sub_cancel' h]
  have hs : hi - lo = (mid - lo) + (hi - mid) := by omega
  rw [cut, cut, cut, hd, hs, List.take_add]

theorem take_append_cut {t : Text} {lo hi : Nat} (h : lo ≤ hi) :
    t.take lo ++ t.cut lo hi = t.take hi := by
  have hcut := cut_append_cut (t := t) (Nat.zero_le lo) h
  simpa [cut] using hcut

end Text

namespace Edit

theorem le_iff {a b : Edit} :
    a.le b = true ↔ a.span.start < b.span.start ∨
      (a.span.start = b.span.start ∧ a.span.stop ≤ b.span.stop) := by
  simp [le, Span.le]

theorem le_trans {a b c : Edit} (h : a.le b = true) (h' : b.le c = true) : a.le c = true := by
  rw [le_iff] at *
  omega

theorem le_total (a b : Edit) : (a.le b || b.le a) = true := by
  rw [Bool.or_eq_true, le_iff, le_iff]
  omega

/-- Up to the next edit a text is copied. -/
theorem splice_skip {text : Text} {edits : List Edit} {lo mid : Nat} (h : lo ≤ mid)
    (hnext : ∀ e ∈ edits.head?, mid ≤ e.span.start) :
    splice text lo edits = text.cut lo mid ++ splice text mid edits := by
  cases edits with
  | nil => exact (Text.cut_append_drop h).symm
  | cons e rest =>
      have hmid : mid ≤ e.span.start := hnext e rfl
      simp only [splice, ← Text.cut_append_cut h hmid, List.append_assoc]

/-! ### Selection -/

section Selection

variable {α : Type} (edit : α → Edit)

/-- Like `select`, for things that come with an edit each. -/
def selectBy : Option Nat → List α → List α
  | _, [] => []
  | last, a :: rest =>
      if blocked last (edit a) then selectBy last rest
      else a :: selectBy (some (edit a).span.stop) rest

theorem map_selectBy (last : Option Nat) (l : List α) :
    (selectBy edit last l).map edit = select last (l.map edit) := by
  induction l generalizing last with
  | nil => rfl
  | cons a rest ih =>
      simp only [selectBy, select, List.map_cons]
      split
      · exact ih last
      · simp [ih]

theorem selectBy_sublist (last : Option Nat) (l : List α) : (selectBy edit last l).Sublist l := by
  induction l generalizing last with
  | nil => exact .slnil
  | cons a rest ih =>
      simp only [selectBy]
      split
      · exact (ih last).cons a
      · exact (ih _).cons_cons a

/-- Each edit taken starts behind the end of the one before it. -/
theorem isChain_selectBy (n : Nat) (l : List α) :
    (selectBy edit (some n) l).IsChain (fun a b => (edit a).span.stop < (edit b).span.start) ∧
      ∀ a ∈ (selectBy edit (some n) l).head?, n < (edit a).span.start := by
  induction l generalizing n with
  | nil => simp [selectBy]
  | cons a rest ih =>
      simp only [selectBy]
      split
      · exact ih n
      · next free =>
          have hn : n < (edit a).span.start := by simpa [blocked] using free
          obtain ⟨chain, head⟩ := ih (edit a).span.stop
          refine ⟨List.isChain_cons.mpr ⟨head, chain⟩, ?_⟩
          simpa using hn

theorem isChain_selectBy_none (l : List α) :
    (selectBy edit none l).IsChain (fun a b => (edit a).span.stop < (edit b).span.start) := by
  cases l with
  | nil => exact .nil
  | cons a rest =>
      obtain ⟨chain, head⟩ := isChain_selectBy edit (edit a).span.stop rest
      exact List.isChain_cons.mpr ⟨head, chain⟩

theorem pairwise_of_isChain {l : List α}
    (ordered : ∀ a ∈ l, (edit a).span.start ≤ (edit a).span.stop)
    (chain : l.IsChain fun a b => (edit a).span.stop < (edit b).span.start) :
    l.Pairwise fun a b => (edit a).span.stop < (edit b).span.start := by
  induction l with
  | nil => exact .nil
  | cons a rest ih =>
      obtain ⟨head, chain'⟩ := List.isChain_cons.mp chain
      have next := ih (fun b hb => ordered b (List.mem_cons_of_mem a hb)) chain'
      refine List.pairwise_cons.mpr ⟨?_, next⟩
      intro c hc
      cases rest with
      | nil => cases hc
      | cons b rest =>
          have hb := head b rfl
          rcases List.mem_cons.mp hc with rfl | hc
          · exact hb
          · have hbc := (List.pairwise_cons.mp next).1 c hc
            have hle := ordered b (by simp)
            omega

/-- What starts at or before the end of an edit taken is not taken any more. -/
theorem not_mem_selectBy {n : Nat} {b : α} {l : List α}
    (ordered : ∀ a ∈ l, (edit a).span.start ≤ (edit a).span.stop)
    (h : (edit b).span.start ≤ n) : b ∉ selectBy edit (some n) l := by
  induction l generalizing n with
  | nil => simp [selectBy]
  | cons a rest ih =>
      have hrest : ∀ c ∈ rest, (edit c).span.start ≤ (edit c).span.stop :=
        fun c hc => ordered c (List.mem_cons_of_mem a hc)
      simp only [selectBy]
      split
      · exact ih hrest h
      · next free =>
          have hn : n < (edit a).span.start := by simpa [blocked] using free
          have ha := ordered a List.mem_cons_self
          rw [List.mem_cons, not_or]
          refine ⟨?_, ih hrest (by omega)⟩
          rintro rfl
          omega

/-- Of two edits that start at the same place only the shorter one can be taken. -/
theorem not_mem_selectBy_of_shorter {last : Option Nat} {a b : α} {l : List α}
    (ordered : ∀ c ∈ l, (edit c).span.start ≤ (edit c).span.stop)
    (sorted : l.Pairwise fun c d => (edit c).le (edit d) = true) (ha : a ∈ l)
    (start : (edit a).span.start = (edit b).span.start)
    (stop : (edit a).span.stop < (edit b).span.stop) : b ∉ selectBy edit last l := by
  induction l generalizing last with
  | nil => simp at ha
  | cons c rest ih =>
      have hrest : ∀ d ∈ rest, (edit d).span.start ≤ (edit d).span.stop :=
        fun d hd => ordered d (List.mem_cons_of_mem c hd)
      obtain ⟨hc, sorted'⟩ := List.pairwise_cons.mp sorted
      rcases List.mem_cons.mp ha with rfl | ha'
      · -- The shorter edit comes first: taken or blocked, it leaves the longer one blocked.
        have hle := ordered a List.mem_cons_self
        have hne : b ≠ a := by
          rintro rfl
          omega
        simp only [selectBy]
        split
        · next held =>
            cases last with
            | none => simp [blocked] at held
            | some n =>
                have hn : (edit a).span.start ≤ n := by simpa [blocked] using held
                exact not_mem_selectBy edit hrest (start ▸ hn)
        · rw [List.mem_cons, not_or]
          exact ⟨hne, not_mem_selectBy edit hrest (start ▸ hle)⟩
      · have hne : b ≠ c := by
          rintro rfl
          have := le_iff.mp (hc a ha')
          omega
        simp only [selectBy]
        split
        · exact ih hrest sorted' ha'
        · rw [List.mem_cons, not_or]
          exact ⟨hne, ih hrest sorted' ha'⟩

/-- Where each edit starts behind the end of those before it, all are taken. -/
theorem selectBy_eq_self {last : Option Nat} {l : List α}
    (apart : l.Pairwise fun a b => (edit a).span.stop < (edit b).span.start)
    (behind : ∀ n ∈ last, ∀ a ∈ l, n < (edit a).span.start) : selectBy edit last l = l := by
  induction l generalizing last with
  | nil => rfl
  | cons a rest ih =>
      obtain ⟨hnext, apart'⟩ := List.pairwise_cons.mp apart
      have free : blocked last (edit a) = false := by
        cases last with
        | none => rfl
        | some n => simpa [blocked] using behind n rfl a List.mem_cons_self
      have hrest : selectBy edit (some (edit a).span.stop) rest = rest :=
        ih apart' (by simpa using hnext)
      rw [selectBy, if_neg (by simp [free]), hrest]

/-- What `selectBy` leaves out. -/
def passedOver : Option Nat → List α → List α
  | _, [] => []
  | last, a :: rest =>
      if blocked last (edit a) then a :: passedOver last rest
      else passedOver (some (edit a).span.stop) rest

theorem selectBy_append_passedOver_perm (last : Option Nat) (l : List α) :
    (selectBy edit last l ++ passedOver edit last l).Perm l := by
  induction l generalizing last with
  | nil => exact .refl _
  | cons a rest ih =>
      simp only [selectBy, passedOver]
      split
      · exact List.perm_middle.trans ((ih last).cons a)
      · exact (ih _).cons a

/-- What is left out starts at or before the end of something that is taken first. -/
theorem reached_of_passedOver {last : Option Nat} {a : α} {l : List α}
    (sorted : l.Pairwise fun c d => (edit c).le (edit d) = true) (ha : a ∈ passedOver edit last l) :
    (∃ n ∈ last, (edit a).span.start ≤ n) ∨
      ∃ b ∈ selectBy edit last l, (edit b).le (edit a) = true ∧
        (edit a).span.start ≤ (edit b).span.stop := by
  induction l generalizing last with
  | nil => simp [passedOver] at ha
  | cons c rest ih =>
      obtain ⟨hc, sorted'⟩ := List.pairwise_cons.mp sorted
      simp only [passedOver] at ha
      simp only [selectBy]
      split at ha
      · next held =>
          rw [if_pos held]
          rcases List.mem_cons.mp ha with rfl | ha
          · exact .inl (by simpa [blocked, Option.any_eq_true] using held)
          · exact ih sorted' ha
      · next free =>
          rw [if_neg free]
          have hrest : a ∈ rest :=
            (selectBy_append_passedOver_perm edit _ rest).subset (List.mem_append_right _ ha)
          rcases ih sorted' ha with ⟨n, ⟨⟩, hn⟩ | ⟨b, hb, hle, hstart⟩
          · exact .inr ⟨c, List.mem_cons_self, hc a hrest, hn⟩
          · exact .inr ⟨b, List.mem_cons_of_mem c hb, hle, hstart⟩

theorem mem_selectBy_or_reached {last : Option Nat} {a : α} {l : List α}
    (sorted : l.Pairwise fun c d => (edit c).le (edit d) = true) (ha : a ∈ l) :
    a ∈ selectBy edit last l ∨ (∃ n ∈ last, (edit a).span.start ≤ n) ∨
      ∃ b ∈ selectBy edit last l, (edit b).le (edit a) = true ∧
        (edit a).span.start ≤ (edit b).span.stop := by
  rcases List.mem_append.mp ((selectBy_append_passedOver_perm edit last l).mem_iff.mpr ha) with
    taken | left
  · exact .inl taken
  · exact .inr (reached_of_passedOver edit sorted left)

end Selection

/-! ### Merging -/

theorem sort_pair {a b : Edit} (h : a.le b = true) : sort [a, b] = [a, b] :=
  List.mergeSort_of_pairwise (by simpa using h)

theorem sort_singleton (a : Edit) : sort [a] = [a] := by simp [sort]

/-- A move puts the statement and its line break in front of the text it passes. -/
theorem merge_planMove {text newline : Text} {s : Statement} {place : Nat}
    (h : place ≤ s.span.start) (h' : s.span.start ≤ s.span.stop) :
    merge text (planMove s place newline) =
      some ⟨⟨place, min (s.span.stop + newline.length) text.length⟩,
        s.text ++ newline ++ text.cut place s.span.start⟩ := by
  have sorted : sort (planMove s place newline) = planMove s place newline := by
    apply sort_pair
    rw [le_iff]
    simp only
    omega
  have hreach : max place (s.span.stop + newline.length) = s.span.stop + newline.length := by
    omega
  rw [merge, sorted]
  simp [planMove, stitch, reach, hreach, Text.cut_of_le]

theorem merge_planBlankLine {text newline : Text} {s : Statement} (h : s.span.start ≤ text.length) :
    merge text (planBlankLine s newline) = some ⟨⟨s.span.start, s.span.start⟩, newline⟩ := by
  simp [merge, sort_singleton, planBlankLine, stitch, reach, Text.cut_of_le, h]

theorem merge_singleton {text : Text} {e : Edit} (h : e.span.stop ≤ text.length) :
    merge text [e] = some e := by
  simp [merge, sort_singleton, stitch, reach, Text.cut_of_le, h]

end Edit

theorem merge_eq_none_iff (text : Text) {edits : List Edit} :
    Edit.merge text edits = none ↔ edits = [] := by
  have hnil : Edit.sort edits = [] ↔ edits = [] := by
    rw [← List.length_eq_zero_iff, Edit.sort, List.length_mergeSort, List.length_eq_zero_iff]
  rw [← hnil, Edit.merge]
  cases Edit.sort edits <;> simp

/-- If each edit writes as many characters of a kind as it deletes, but for one where it is lossy,
so does a whole list of edits. -/
theorem countP_splice {α : Type} {edit : α → Edit} {lossy : α → Bool} {p : Char → Bool}
    {text : Text} {l : List α} {cursor : Nat}
    (each : ∀ a ∈ l, (edit a).text.countP p + (lossy a).toNat =
      (text.cut (edit a).span.start (edit a).span.stop).countP p)
    (start : ∀ a ∈ l, cursor ≤ (edit a).span.start)
    (ordered : ∀ a ∈ l, (edit a).span.start ≤ (edit a).span.stop)
    (apart : l.Pairwise fun a b => (edit a).span.stop < (edit b).span.start) :
    (Edit.splice text cursor (l.map edit)).countP p + l.countP lossy =
      (text.drop cursor).countP p := by
  induction l generalizing cursor with
  | nil => rfl
  | cons a rest ih =>
      obtain ⟨apart, apart'⟩ := List.pairwise_cons.mp apart
      have next := ih (fun b hb => each b (List.mem_cons_of_mem a hb))
        (fun b hb => (apart b hb).le) (fun b hb => ordered b (List.mem_cons_of_mem a hb)) apart'
      have here := each a List.mem_cons_self
      have hlossy : (lossy a).toNat = if lossy a then 1 else 0 := by cases lossy a <;> rfl
      rw [← Text.cut_append_drop (start a List.mem_cons_self),
        ← Text.cut_append_drop (ordered a List.mem_cons_self), List.map_cons, Edit.splice,
        List.countP_cons]
      simp only [List.countP_append]
      omega

/-! ### The fixes of a pass -/

/-- The violations with edits, each with its merged edit, in document order. -/
def mergedFixes (text : Text) (offered : List Violation) : List (Violation × Edit) :=
  (offered.filterMap fun v => (Edit.merge text v.edits).map (v, ·)).mergeSort
    fun a b => a.2.le b.2

/-- The violations that a pass mends, with the edits that do it. -/
def takenFixes (text : Text) (offered : List Violation) : List (Violation × Edit) :=
  Edit.selectBy (·.2) none (mergedFixes text offered)

theorem mem_mergedFixes {text : Text} {offered : List Violation} {f : Violation × Edit} :
    f ∈ mergedFixes text offered ↔ f.1 ∈ offered ∧ Edit.merge text f.1.edits = some f.2 := by
  obtain ⟨v, e⟩ := f
  simp only [mergedFixes, List.mem_mergeSort, List.mem_filterMap, Option.map_eq_some_iff,
    Prod.mk.injEq]
  constructor
  · rintro ⟨w, hw, d, hd, rfl, rfl⟩
    exact ⟨hw, hd⟩
  · rintro ⟨hv, he⟩
    exact ⟨v, hv, e, he, rfl, rfl⟩

theorem mergedFixes_sorted (text : Text) (offered : List Violation) :
    (mergedFixes text offered).Pairwise fun a b => a.2.le b.2 = true := by
  apply List.pairwise_mergeSort
  · intro a b c
    exact Edit.le_trans
  · intro a b
    exact Edit.le_total a.2 b.2

theorem map_mergedFixes (text : Text) (offered : List Violation) :
    (mergedFixes text offered).map (·.2) =
      Edit.sort ((offered.map (·.edits)).filterMap (Edit.merge text)) := by
  rw [mergedFixes, List.map_mergeSort (s := Edit.le) (fun _ _ _ _ => rfl), Edit.sort]
  congr 1
  rw [List.map_filterMap, List.filterMap_map]
  apply List.filterMap_congr
  intro v _
  cases h : Edit.merge text v.edits <;> simp [h]

theorem mem_mergedFixes_of_taken {text : Text} {offered : List Violation} {f : Violation × Edit}
    (h : f ∈ takenFixes text offered) : f ∈ mergedFixes text offered :=
  (Edit.selectBy_sublist _ _ _).subset h

/-- A violation that is not mended starts at or before the end of one that is, and follows it. -/
theorem mem_takenFixes_or_reached {text : Text} {offered : List Violation} {f : Violation × Edit}
    (h : f ∈ mergedFixes text offered) :
    f ∈ takenFixes text offered ∨ ∃ g ∈ takenFixes text offered,
      g.2.le f.2 = true ∧ f.2.span.start ≤ g.2.span.stop := by
  rcases @Edit.mem_selectBy_or_reached _ (·.2) none f _ (mergedFixes_sorted text offered) h with
    taken | ⟨_, ⟨⟩, -⟩ | reached
  · exact .inl taken
  · exact .inr reached

theorem applyFixes_text (text : Text) (offered : List Violation) :
    (applyFixes text (offered.map (·.edits))).text =
      Edit.splice text 0 ((takenFixes text offered).map (·.2)) := by
  rw [takenFixes, Edit.map_selectBy, map_mergedFixes, applyFixes]

theorem applyFixes_applied (text : Text) (offered : List Violation) :
    (applyFixes text (offered.map (·.edits))).applied = (takenFixes text offered).length := by
  have h : (takenFixes text offered).length = ((takenFixes text offered).map (·.2)).length := by
    simp
  rw [h, takenFixes, Edit.map_selectBy, map_mergedFixes, applyFixes]

/-- A pass mends nothing only if no violation on offer has edits. -/
theorem takenFixes_eq_nil_iff {text : Text} {offered : List Violation} :
    takenFixes text offered = [] ↔ mergedFixes text offered = [] := by
  rw [takenFixes]
  cases mergedFixes text offered <;> simp [Edit.selectBy, Edit.blocked]

theorem mem_of_mem_passFixes {violations : List Violation} {v : Violation}
    (h : v ∈ passFixes violations) : v ∈ violations := by
  unfold passFixes at h
  split at h
  · exact List.mem_of_mem_filter h
  · exact h

theorem mem_passFixes {violations : List Violation} {v : Violation} (hv : v ∈ violations)
    (hkind : v.kind ≠ .missingBlankLine) :
    v ∈ passFixes violations := by
  unfold passFixes
  split
  · exact List.mem_filter.mpr ⟨hv, by simpa using hkind⟩
  · exact hv

theorem passFixes_of_ordered {violations : List Violation}
    (ordered : ∀ v ∈ violations, v.kind ≠ .wrongOrder) : passFixes violations = violations := by
  rw [passFixes, if_neg]
  simpa using ordered

/-- Empty lines wait until nothing is out of order. -/
theorem kind_ne_of_mem_passFixes {violations : List Violation} {v w : Violation}
    (hv : v ∈ passFixes violations) (hw : w ∈ violations) (hkind : w.kind = .wrongOrder) :
    v.kind ≠ .missingBlankLine := by
  rw [passFixes, if_pos] at hv
  · simpa using (List.mem_filter.mp hv).2
  · exact List.any_eq_true.mpr ⟨w, hw, by simp [hkind]⟩

end ImportOrder
