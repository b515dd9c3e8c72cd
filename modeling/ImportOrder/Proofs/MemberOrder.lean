import ImportOrder.Proofs.CollectedSpans
import ImportOrder.Proofs.Document

/-!
The order of the names that one statement binds. The name reported is found by comparing the names
with their sorted copy, place by place; it is also the first one that a smaller name follows. The
edit that mends the statement writes the sorted names over the old ones and touches nothing else of
the document.
-/

namespace ImportOrder

/-! ### The name reported -/

/-- Is the name at a position followed by a smaller one? -/
def Overtaken (l : List Binding) (p : Nat) : Prop :=
  ∃ a b q, l[p]? = some a ∧ p < q ∧ l[q]? = some b ∧ b.codes < a.codes

theorem overtaken_zero {a : Binding} {l : List Binding} :
    Overtaken (a :: l) 0 ↔ ∃ b ∈ l, b.name < a.name := by
  simp only [Overtaken, Binding.codes_lt_iff]
  constructor
  · rintro ⟨c, b, q, hc, hq, hb, hlt⟩
    obtain rfl : a = c := Option.some.inj hc
    cases q with
    | zero => exact absurd hq (Nat.lt_irrefl 0)
    | succ q => exact ⟨b, List.mem_of_getElem? hb, hlt⟩
  · rintro ⟨b, hb, hlt⟩
    obtain ⟨q, hq⟩ := List.getElem?_of_mem hb
    exact ⟨a, b, q + 1, rfl, Nat.succ_pos q, hq, hlt⟩

theorem overtaken_succ {a : Binding} {l : List Binding} {p : Nat} :
    Overtaken (a :: l) (p + 1) ↔ Overtaken l p := by
  constructor
  · rintro ⟨c, b, q, hc, hq, hb, hlt⟩
    cases q with
    | zero => exact absurd hq (Nat.not_lt_zero _)
    | succ q => exact ⟨c, b, q, hc, Nat.lt_of_succ_lt_succ hq, hb, hlt⟩
  · rintro ⟨c, b, q, hc, hq, hb, hlt⟩
    exact ⟨c, b, q + 1, hc, Nat.succ_lt_succ hq, hb, hlt⟩

/-- The first binding of a list whose name is not the one that another list has there. -/
def firstDifference (l m : List Binding) : Option Binding :=
  (l.zip m).findSome? fun p => if p.1.name == p.2.name then none else some p.1

theorem firstDifference_cons (a b : Binding) (l m : List Binding) :
    firstDifference (a :: l) (b :: m) =
      if a.name = b.name then firstDifference l m else some a := by
  rw [firstDifference, List.zip_cons_cons, List.findSome?_cons]
  by_cases h : a.name = b.name
  · simp [h, firstDifference]
  · simp [h]

theorem name_le_of_perm {a b : Binding} {l m : List Binding}
    (sorted : (b :: m).Pairwise fun x y => x.name ≤ y.name)
    (perm : ((b :: m).map (·.name)).Perm ((a :: l).map (·.name))) :
    ∀ c ∈ a :: l, b.name ≤ c.name := by
  intro c hc
  have hmem : c.name ∈ (b :: m).map (·.name) := perm.mem_iff.mpr (List.mem_map_of_mem hc)
  rw [List.map_cons, List.mem_cons] at hmem
  cases hmem with
  | inl heq => exact heq.ge
  | inr hmem =>
      obtain ⟨d, hd, hname⟩ := List.mem_map.mp hmem
      exact hname ▸ (List.pairwise_cons.mp sorted).1 d hd

/-- Against a sorted list of the same names, the first difference is the first name overtaken. -/
theorem overtaken_of_firstDifference {l m : List Binding} {b : Binding}
    (sorted : m.Pairwise fun x y => x.name ≤ y.name)
    (perm : (m.map (·.name)).Perm (l.map (·.name))) (h : firstDifference l m = some b) :
    ∃ p, l[p]? = some b ∧ Overtaken l p ∧ ∀ q < p, ¬ Overtaken l q := by
  induction l generalizing m with
  | nil => simp [firstDifference] at h
  | cons a l ih =>
      cases m with
      | nil => simp [firstDifference] at h
      | cons d m =>
          have least := name_le_of_perm sorted perm
          rw [firstDifference_cons] at h
          by_cases same : a.name = d.name
          · -- The least name stands first, so nothing overtakes it.
            rw [if_pos same] at h
            rw [List.map_cons, List.map_cons, same] at perm
            obtain ⟨p, hp, passed, first⟩ := ih (List.pairwise_cons.mp sorted).2 perm.cons_inv h
            refine ⟨p + 1, hp, overtaken_succ.mpr passed, ?_⟩
            intro q hq
            cases q with
            | zero =>
                rw [overtaken_zero]
                rintro ⟨c, hc, hlt⟩
                exact absurd (same.symm ▸ least c (List.mem_cons_of_mem a hc)) (not_le.mpr hlt)
            | succ q =>
                rw [overtaken_succ]
                exact first q (Nat.lt_of_succ_lt_succ hq)
          · -- The least name is another one, and it stands further back.
            rw [if_neg same] at h
            obtain rfl : a = b := Option.some.inj h
            refine ⟨0, rfl, overtaken_zero.mpr ?_, fun q hq => absurd hq (Nat.not_lt_zero q)⟩
            have hmem : d.name ∈ (a :: l).map (·.name) := perm.mem_iff.mp (by simp)
            rw [List.map_cons, List.mem_cons] at hmem
            obtain ⟨c, hc, hname⟩ := List.mem_map.mp (hmem.resolve_left (Ne.symm same))
            refine ⟨c, hc, lt_of_le_of_ne ?_ ?_⟩
            · exact hname ▸ least a List.mem_cons_self
            · rw [hname]
              exact Ne.symm same

namespace Statement

theorem firstMisplaced_eq (s : Statement) :
    s.firstMisplaced = firstDifference s.named s.sortedNamed := rfl

theorem sortedNamed_perm (s : Statement) : s.sortedNamed.Perm s.named :=
  List.mergeSort_perm _ _

end Statement

/-- The name reported is the first one that a smaller name follows, and no name in front of it is
greater than one behind it. -/
theorem first_misplaced_is_overtaken (s : Statement) :
    (s.firstMisplaced = none ↔ s.InOrder) ∧
    (¬ s.InOrder → ∃ p b, s.firstMisplaced = some b ∧ s.named[p]? = some b ∧
      Overtaken s.named p ∧ (∀ q, Overtaken s.named q → p ≤ q) ∧
      ∀ q r a c, q < p → q < r → s.named[q]? = some a → s.named[r]? = some c →
        a.codes ≤ c.codes) := by
  refine ⟨Statement.firstMisplaced_eq_none, ?_⟩
  intro unsorted
  obtain ⟨b, hb⟩ := Option.ne_none_iff_exists'.mp (mt Statement.firstMisplaced_eq_none.mp unsorted)
  obtain ⟨p, hp, passed, first⟩ := overtaken_of_firstDifference s.sortedNamed_pairwise
    (s.sortedNamed_perm.map (·.name)) (s.firstMisplaced_eq.symm.trans hb)
  refine ⟨p, b, hb, hp, passed, ?_, ?_⟩
  · intro q hq
    exact Nat.le_of_not_lt fun hlt => first q hlt hq
  · intro q r a c hq hr ha hc
    apply le_of_not_gt
    intro hlt
    exact first q hq ⟨a, c, r, ha, hr, hc, hlt⟩

/-! ### Statements cut out of a document -/

namespace Text

theorem cut_cut {t : Text} {lo hi m n : Nat} (h : lo + n ≤ hi) :
    (t.cut lo hi).cut m n = t.cut (lo + m) (lo + n) := by
  have hsize : min (n - m) (hi - lo - m) = lo + n - (lo + m) := by omega
  rw [cut, cut, cut, List.drop_take, List.take_take, List.drop_drop, hsize]

theorem cut_append_of_le {x y : Text} {lo hi : Nat} (h : hi ≤ x.length) :
    (x ++ y).cut lo hi = x.cut lo hi := by
  by_cases hle : lo ≤ hi
  · rw [cut, cut, List.drop_append_of_le_length (hle.trans h), List.take_append_of_le_length]
    rw [List.length_drop]
    omega
  · have hge : hi ≤ lo := Nat.le_of_not_le hle
    rw [cut_of_le hge, cut_of_le hge]

theorem place_of_le {size m n : Nat} (h : m ≤ n) : place size (Int.ofNat n - m) = n - m := by
  have hn : Int.ofNat n - m = (n - m : Nat) := by simp [Int.ofNat_sub h]
  rw [hn, place, if_neg (by omega), Int.toNat_natCast]

theorem not_mem_intercalate {c : Char} {between : Text} {parts : List Text} (h : c ∉ between)
    (each : ∀ p ∈ parts, c ∉ p) : c ∉ between.intercalate parts := by
  induction parts with
  | nil => simp
  | cons p rest ih =>
      have hp := each p List.mem_cons_self
      have hrest := ih fun q hq => each q (List.mem_cons_of_mem p hq)
      cases rest with
      | nil => simpa using hp
      | cons q rest =>
          rw [List.intercalate_cons_cons, List.mem_append, List.mem_append]
          exact not_or.mpr ⟨not_or.mpr ⟨hp, h⟩, hrest⟩

end Text

/-- A statement cut out of a document with its names, each behind the one before it. -/
structure Statement.CutFrom (doc : Text) (s : Statement) : Prop where
  order : s.span.start ≤ s.span.stop
  reach : s.span.stop ≤ doc.length
  text : s.text = doc.cut s.span.start s.span.stop
  bindings : ∀ b ∈ s.bindings, b.Inside doc s.span.start s.span.stop
  apart : s.bindings.Pairwise fun a b => a.span.stop ≤ b.span.start

namespace Statement

theorem named_sublist (s : Statement) : s.named.Sublist s.bindings := by
  unfold named
  split
  · exact List.nil_sublist _
  · next b rest hbindings =>
      rw [hbindings]
      split
      · exact List.sublist_cons_self b rest
      · exact List.Sublist.refl _

theorem bindings_of_defaultBinding {s : Statement} {d : Binding} (h : s.defaultBinding = some d) :
    s.bindings = d :: s.named := by
  unfold defaultBinding at h
  unfold named
  cases hbindings : s.bindings with
  | nil => simp [hbindings] at h
  | cons b rest =>
      rw [hbindings, List.head?_cons, Option.filter_eq_some_iff] at h
      obtain rfl : b = d := Option.some.inj h.1
      simp [h.2]

variable {doc : Text} {s : Statement} {first last : Binding}

theorem CutFrom.within_eq (cut : s.CutFrom doc) {lo hi : Nat} (hlo : s.span.start ≤ lo)
    (hle : lo ≤ hi) (hhi : hi ≤ s.span.stop) : Edit.within s ⟨lo, hi⟩ = doc.cut lo hi := by
  rw [Edit.within, Text.slice, Text.place_of_le hlo, Text.place_of_le (hlo.trans hle), cut.text,
    Text.cut_cut (by omega), Nat.add_sub_cancel' hlo, Nat.add_sub_cancel' (hlo.trans hle)]

/-- The names that may be sorted reach from the first of them to the last. -/
theorem CutFrom.named_inside (cut : s.CutFrom doc) (hfirst : s.named.head? = some first)
    (hlast : s.named.getLast? = some last) :
    ∀ b ∈ s.named, b.Inside doc first.span.start last.span.stop := by
  have apart := cut.apart.sublist s.named_sublist
  have inside : ∀ b ∈ s.named, b.Inside doc s.span.start s.span.stop :=
    fun b hb => cut.bindings b (s.named_sublist.subset hb)
  intro b hb
  refine ⟨(inside b hb).text, ?_, (inside b hb).order, ?_⟩
  · obtain ⟨rest, hnamed⟩ := List.head?_eq_some_iff.mp hfirst
    rw [hnamed] at apart hb inside
    cases List.mem_cons.mp hb with
    | inl heq => rw [heq]
    | inr hb =>
        exact (inside first List.mem_cons_self).order.trans ((List.pairwise_cons.mp apart).1 b hb)
  · obtain ⟨front, hnamed⟩ := List.getLast?_eq_some_iff.mp hlast
    rw [hnamed] at apart hb inside
    cases List.mem_append.mp hb with
    | inl hb =>
        exact ((List.pairwise_append.mp apart).2.2 b hb last (by simp)).trans
          (inside last (by simp)).order
    | inr hb => rw [List.mem_singleton.mp hb]

theorem CutFrom.ends_le (cut : s.CutFrom doc) (hfirst : s.named.head? = some first)
    (hlast : s.named.getLast? = some last) :
    s.span.start ≤ first.span.start ∧ first.span.start ≤ last.span.stop ∧
      last.span.stop ≤ s.span.stop := by
  have first_mem := List.mem_of_head? hfirst
  have last_mem := List.mem_of_getLast? hlast
  have own := cut.named_inside hfirst hlast first first_mem
  exact ⟨(cut.bindings first (s.named_sublist.subset first_mem)).start, own.order.trans own.stop,
    (cut.bindings last (s.named_sublist.subset last_mem)).stop⟩

/-- The names in order are written over those of the statement, unless a comment is among them. -/
theorem CutFrom.planMembers_eq (cut : s.CutFrom doc) (hfirst : s.named.head? = some first)
    (hlast : s.named.getLast? = some last) :
    Edit.planMembers s =
      if '#' ∈ doc.cut first.span.start last.span.stop then []
      else [⟨⟨first.span.start, last.span.stop⟩,
        [',', ' '].intercalate (s.sortedNamed.map (·.text))⟩] := by
  obtain ⟨hlo, hle, hhi⟩ := cut.ends_le hfirst hlast
  rw [Edit.planMembers, hfirst, hlast]
  simp only [cut.within_eq hlo hle hhi, List.contains_iff_mem]

theorem CutFrom.not_mem_text (cut : s.CutFrom doc) (hfirst : s.named.head? = some first)
    (hlast : s.named.getLast? = some last)
    (clean : '#' ∉ doc.cut first.span.start last.span.stop) : ∀ b ∈ s.named, '#' ∉ b.text := by
  intro b hb hash
  have inside := cut.named_inside hfirst hlast b hb
  apply clean
  rw [inside.text] at hash
  rw [← Text.cut_append_cut inside.start (inside.order.trans inside.stop),
    ← Text.cut_append_cut inside.order inside.stop]
  exact List.mem_append_right _ (List.mem_append_left _ hash)

theorem CutFrom.leading (cut : s.CutFrom doc) (hfirst : s.named.head? = some first) {d : Binding}
    (hd : s.defaultBinding = some d) :
    d.span.stop ≤ first.span.start ∧ d.text = doc.cut d.span.start d.span.stop := by
  have hbindings := bindings_of_defaultBinding hd
  have apart := cut.apart
  rw [hbindings] at apart
  exact ⟨(List.pairwise_cons.mp apart).1 first (List.mem_of_head? hfirst),
    (cut.bindings d (by simp [hbindings])).text⟩

end Statement

/-! ### Sorting the names of a statement -/

theorem applyFixes_singleton {text : Text} {e : Edit} (inside : e.span.stop ≤ text.length) :
    applyFixes text [[e]] =
      ⟨text.take e.span.start ++ e.text ++ text.drop e.span.stop, 1, 0⟩ := by
  have merged : Edit.sort ([[e]].filterMap (Edit.merge text)) = [e] := by
    rw [List.filterMap_cons, Edit.merge_singleton inside, List.filterMap_nil, Edit.sort_singleton]
  rw [applyFixes]
  simp only [merged]
  simp [Edit.select, Edit.blocked, Edit.splice, Text.cut]

/-- A document `out` that differs from another one in a statement whose names reached from `lo` to
`hi` and are now in order. -/
structure NamesSorted (doc : Text) (s : Statement) (lo hi : Nat) (order : List Binding)
    (out : Text) : Prop where
  each : order.Perm s.named
  sorted : order.Pairwise fun a b => a.codes ≤ b.codes
  stable : ∀ name, order.filter (·.name = name) = s.named.filter (·.name = name)
  text : out = doc.take lo ++ [',', ' '].intercalate (order.map (·.text)) ++ doc.drop hi
  leading : ∀ d ∈ s.defaultBinding, d.span.stop ≤ lo ∧ out.cut d.span.start d.span.stop = d.text
  comments : out.count '#' = doc.count '#'
  /-- A statement with the names in this order is not reported again. -/
  settled : ∀ t : Statement, t.named.map (·.name) = order.map (·.name) →
    ∀ policy index, Placed.checkMembers policy index t = none

theorem checkMembers_eq_none {s t : Statement}
    (h : t.named.map (·.name) = s.sortedNamed.map (·.name)) (policy : Policy) (index : Nat) :
    Placed.checkMembers policy index t = none := by
  have sorted := s.sortedNamed_pairwise
  have settled : t.firstMisplaced = none := by
    rw [Statement.firstMisplaced_eq_none, Statement.inOrder_iff, h]
    exact List.pairwise_map.mpr sorted
  rw [Placed.checkMembers, settled, Option.map_none, ite_self]

theorem Statement.CutFrom.namesSorted {doc : Text} {s : Statement} {first last : Binding}
    (cut : s.CutFrom doc) (hfirst : s.named.head? = some first)
    (hlast : s.named.getLast? = some last)
    (clean : '#' ∉ doc.cut first.span.start last.span.stop) :
    NamesSorted doc s first.span.start last.span.stop s.sortedNamed
      (doc.take first.span.start ++ [',', ' '].intercalate (s.sortedNamed.map (·.text)) ++
        doc.drop last.span.stop) where
  each := s.sortedNamed_perm
  sorted := s.sortedNamed_pairwise.imp Binding.codes_le_iff.mpr
  stable := filter_mergeSort (fun b : Binding => b.name) s.named
  text := rfl
  leading := by
    intro d hd
    obtain ⟨hstop, htext⟩ := cut.leading hfirst (Option.mem_def.mp hd)
    obtain ⟨-, hle, hhi⟩ := cut.ends_le hfirst hlast
    have hlength : (doc.take first.span.start).length = first.span.start :=
      List.length_take_of_le (hle.trans (hhi.trans cut.reach))
    refine ⟨hstop, ?_⟩
    rw [List.append_assoc, Text.cut_append_of_le (hlength.symm ▸ hstop), htext]
    have hfront : doc.take first.span.start = doc.cut 0 first.span.start := by simp [Text.cut]
    rw [hfront, Text.cut_cut (by omega), Nat.zero_add, Nat.zero_add]
  comments := by
    obtain ⟨-, hle, -⟩ := cut.ends_le hfirst hlast
    have written : '#' ∉ [',', ' '].intercalate (s.sortedNamed.map (·.text)) := by
      apply Text.not_mem_intercalate (by decide)
      rw [List.forall_mem_map]
      intro b hb
      exact cut.not_mem_text hfirst hlast clean b (s.sortedNamed_perm.mem_iff.mp hb)
    conv_rhs => rw [← List.take_append_drop first.span.start doc, ← Text.cut_append_drop hle]
    simp only [List.count_append, List.count_eq_zero.mpr written, List.count_eq_zero.mpr clean]
    omega
  settled := fun _ h => checkMembers_eq_none h

/-- The edit for names out of order rewrites the text from the first of them to the last and nothing
else; there is none exactly if a comment stands there. -/
theorem member_fix_is_local (doc newline : Text) (v : Violation)
    (kind : v.kind = .wrongMemberOrder) (cut : v.statement.CutFrom doc)
    (unsorted : ¬ v.statement.InOrder) :
    ∃ first last, v.statement.named.head? = some first ∧
      v.statement.named.getLast? = some last ∧
      (v.plan newline = [] ↔ '#' ∈ doc.cut first.span.start last.span.stop) ∧
      ∀ e ∈ v.plan newline, v.plan newline = [e] ∧
        e.span = ⟨first.span.start, last.span.stop⟩ ∧
        ∃ order out, applyFixes doc [v.plan newline] = ⟨out, 1, 0⟩ ∧
          NamesSorted doc v.statement first.span.start last.span.stop order out := by
  have nonempty : v.statement.named ≠ [] := by
    intro hnil
    apply unsorted
    rw [Statement.InOrder, hnil]
    exact .nil
  have hfirst := List.head?_eq_some_head nonempty
  have hlast := List.getLast?_eq_some_getLast nonempty
  have hplan : v.plan newline = Edit.planMembers v.statement := by
    rw [Violation.plan, kind]
    rfl
  refine ⟨_, _, hfirst, hlast, ?_⟩
  rw [hplan, cut.planMembers_eq hfirst hlast]
  by_cases comment : '#' ∈ doc.cut (v.statement.named.head nonempty).span.start
      (v.statement.named.getLast nonempty).span.stop
  · simp [comment]
  · rw [if_neg comment]
    refine ⟨by simp [comment], ?_⟩
    intro e he
    rw [List.mem_singleton] at he
    subst he
    have inside := (cut.ends_le hfirst hlast).2.2.trans cut.reach
    exact ⟨rfl, rfl, _, _, applyFixes_singleton inside, cut.namesSorted hfirst hlast comment⟩

instance (doc : Text) (lo hi : Nat) (b : Binding) : Decidable (b.Inside doc lo hi) :=
  decidable_of_iff (b.text = doc.cut b.span.start b.span.stop ∧ lo ≤ b.span.start ∧
      b.span.start ≤ b.span.stop ∧ b.span.stop ≤ hi)
    ⟨fun h => ⟨h.1, h.2.1, h.2.2.1, h.2.2.2⟩, fun h => ⟨h.text, h.start, h.order, h.stop⟩⟩

/-- A leading name that stays, a name that is bound twice, and a comment behind the last one. -/
def Text.renamed : Text := "#\nimport D, b as z, a, z#\n".toList

def Violation.renamed : Violation where
  index := 0
  statement :=
    { source := "m"
      text := "import D, b as z, a, z#".toList
      bindings := [⟨"D", ['D'], ⟨9, 10⟩, true⟩, ⟨"z", "b as z".toList, ⟨12, 18⟩, false⟩,
        ⟨"a", ['a'], ⟨20, 21⟩, false⟩, ⟨"z", ['z'], ⟨23, 24⟩, false⟩]
      start := ⟨2, 0⟩
      stop := ⟨2, 23⟩
      span := ⟨2, 25⟩ }
  fault := .wrongMemberOrder ⟨"z", "b as z".toList, ⟨12, 18⟩, false⟩

theorem member_fix_is_local_renamed :
    Violation.renamed.statement.CutFrom .renamed ∧ ¬ Violation.renamed.statement.InOrder ∧
      ∃ order, applyFixes .renamed [Violation.renamed.plan ['\n']] =
          ⟨"#\nimport D, a, b as z, z#\n".toList, 1, 0⟩ ∧
        NamesSorted .renamed Violation.renamed.statement 12 24 order
          "#\nimport D, a, b as z, z#\n".toList := by
  have cut : Violation.renamed.statement.CutFrom .renamed :=
    ⟨by decide, by decide, by decide, by decide, by decide⟩
  have unsorted : ¬ Violation.renamed.statement.InOrder := by decide
  have applied : applyFixes .renamed [Violation.renamed.plan ['\n']] =
      ⟨"#\nimport D, a, b as z, z#\n".toList, 1, 0⟩ := by cbv
  obtain ⟨first, last, hfirst, hlast, none_iff, sorts⟩ :=
    member_fix_is_local .renamed ['\n'] .renamed rfl cut unsorted
  obtain rfl : _ = first := Option.some.inj hfirst
  obtain rfl : _ = last := Option.some.inj hlast
  have planned : Violation.renamed.plan ['\n'] ≠ [] := by
    rw [Ne, none_iff]
    decide
  obtain ⟨e, he⟩ := List.exists_mem_of_ne_nil _ planned
  obtain ⟨-, -, order, out, hout, sorted⟩ := sorts e he
  rw [applied] at hout
  obtain rfl := congrArg Outcome.text hout
  exact ⟨cut, unsorted, order, applied, sorted⟩

end ImportOrder
