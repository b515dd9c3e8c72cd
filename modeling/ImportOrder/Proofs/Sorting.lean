import Mathlib

/-!
Stable sorting by a key. The elements of one key come out in the order they had, and a sorted list
is determined by its parts with equal keys; so a list that is sorted and keeps the order among equal
keys is what sorting gives.
-/

namespace ImportOrder

variable {α K : Type} [LinearOrder K] (key : α → K)

theorem pairwise_mergeSort_key (l : List α) :
    (l.mergeSort fun a b => decide (key a ≤ key b)).Pairwise fun a b => key a ≤ key b := by
  refine (List.pairwise_mergeSort ?_ ?_ l).imp of_decide_eq_true
  · intro a b c h h'
    rw [decide_eq_true_eq] at *
    exact le_trans h h'
  · intro a b
    rw [Bool.or_eq_true, decide_eq_true_eq, decide_eq_true_eq]
    exact le_total _ _

theorem filter_mergeSort (l : List α) (k : K) :
    (l.mergeSort fun a b => decide (key a ≤ key b)).filter (fun a => decide (key a = k)) =
      l.filter fun a => decide (key a = k) := by
  have tied : (l.filter fun a => decide (key a = k)).Pairwise
      fun a b => decide (key a ≤ key b) = true := by
    refine List.pairwise_of_forall_mem_list fun a ha b hb => ?_
    rw [List.mem_filter, decide_eq_true_eq] at ha hb
    rw [decide_eq_true_eq, ha.2, hb.2]
  have perm := (List.mergeSort_perm l fun a b => decide (key a ≤ key b)).filter
    fun a => decide (key a = k)
  have sub : (l.filter fun a => decide (key a = k)).Sublist
      (l.mergeSort fun a b => decide (key a ≤ key b)) := by
    refine List.sublist_mergeSort ?_ ?_ tied List.filter_sublist
    · intro a b c h h'
      rw [decide_eq_true_eq] at *
      exact le_trans h h'
    · intro a b
      rw [Bool.or_eq_true, decide_eq_true_eq, decide_eq_true_eq]
      exact le_total _ _
  have sub' := sub.filter fun a => decide (key a = k)
  rw [List.filter_filter] at sub'
  simp only [Bool.and_self] at sub'
  exact (sub'.eq_of_length perm.length_eq.symm).symm

/-- A sorted list is determined by its parts with equal keys. -/
theorem eq_of_pairwise_of_filter {l m : List α} (hl : l.Pairwise fun a b => key a ≤ key b)
    (hm : m.Pairwise fun a b => key a ≤ key b)
    (h : ∀ k, l.filter (fun a => decide (key a = k)) = m.filter fun a => decide (key a = k)) :
    l = m := by
  have mem : ∀ {l m : List α},
      (∀ k, l.filter (fun a => decide (key a = k)) = m.filter fun a => decide (key a = k)) →
      ∀ a ∈ l, a ∈ m := by
    intro l m h a ha
    have : a ∈ l.filter fun b => decide (key b = key a) := by simp [ha]
    rw [h] at this
    exact List.mem_of_mem_filter this
  induction l generalizing m with
  | nil =>
      cases m with
      | nil => rfl
      | cons b m => exact absurd (mem (fun k => (h k).symm) b List.mem_cons_self) (by simp)
  | cons a l ih =>
      cases m with
      | nil => exact absurd (mem h a List.mem_cons_self) (by simp)
      | cons b m =>
          obtain ⟨ha, hl'⟩ := List.pairwise_cons.mp hl
          obtain ⟨hb, hm'⟩ := List.pairwise_cons.mp hm
          have hab : key a = key b := by
            apply le_antisymm
            · rcases List.mem_cons.mp (mem (fun k => (h k).symm) b List.mem_cons_self) with
                rfl | hmem
              · exact le_rfl
              · exact ha b hmem
            · rcases List.mem_cons.mp (mem h a List.mem_cons_self) with rfl | hmem
              · exact le_rfl
              · exact hb a hmem
          have hhead := h (key b)
          simp only [List.filter_cons, hab, decide_true, if_true, List.cons.injEq] at hhead
          obtain ⟨rfl, -⟩ := hhead
          refine congrArg (a :: ·) (ih hl' hm' fun k => ?_)
          have hk := h k
          simp only [List.filter_cons] at hk
          split at hk
          · exact (List.cons.inj hk).2
          · exact hk

/-- What is sorted by the key and has the same parts with equal keys is the sorted list. -/
theorem mergeSort_eq_of_filter {l m : List α} (hm : m.Pairwise fun a b => key a ≤ key b)
    (h : ∀ k, l.filter (fun a => decide (key a = k)) = m.filter fun a => decide (key a = k)) :
    (l.mergeSort fun a b => decide (key a ≤ key b)) = m := by
  exact eq_of_pairwise_of_filter key (pairwise_mergeSort_key key l) hm
    fun k => (filter_mergeSort key l k).trans (h k)

/-- Elements can be left out before sorting or after it. -/
theorem mergeSort_filter (p : α → Bool) (l : List α) :
    ((l.filter p).mergeSort fun a b => decide (key a ≤ key b)) =
      (l.mergeSort fun a b => decide (key a ≤ key b)).filter p := by
  refine mergeSort_eq_of_filter key ((pairwise_mergeSort_key key l).filter p) fun k => ?_
  calc (l.filter p).filter (fun a => decide (key a = k))
      = (l.filter fun a => decide (key a = k)).filter p := List.filter_comm ..
    _ = ((l.mergeSort fun a b => decide (key a ≤ key b)).filter
          fun a => decide (key a = k)).filter p := by rw [filter_mergeSort]
    _ = _ := List.filter_comm ..

end ImportOrder
