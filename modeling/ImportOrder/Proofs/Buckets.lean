import Mathlib
import ImportOrder.Order
import ImportOrder.Proofs.Sorting

/-!
Positions by key. The table into which the positions are put one after the other holds, for each key
that was met, the positions of that key. Read in the order of its keys it gives the buckets of a
partition, and these are the parts with equal keys of a stable sort, so each position is in one of
them and in no other.
-/

namespace ImportOrder

/-! ### Lists without repetitions -/

theorem nodup_eraseDups {κ : Type} [BEq κ] [LawfulBEq κ] (l : List κ) : l.eraseDups.Nodup := by
  match l with
  | [] => simp
  | a :: rest =>
      rw [List.eraseDups_cons, List.nodup_cons]
      refine ⟨?_, nodup_eraseDups (rest.filter fun b => !b == a)⟩
      simp [List.mem_eraseDups]
termination_by l.length
decreasing_by
  exact Nat.lt_succ_of_le (List.length_filter_le _ _)

theorem eraseDups_sublist {κ : Type} [BEq κ] (l : List κ) : l.eraseDups.Sublist l := by
  cases l with
  | nil => simp
  | cons a rest =>
      rw [List.eraseDups_cons]
      exact ((eraseDups_sublist (rest.filter fun b => !b == a)).trans
        List.filter_sublist).cons_cons a
termination_by l.length
decreasing_by
  exact Nat.lt_succ_of_le (List.length_filter_le _ _)

/-! ### The table -/

/-- The positions that hold a key. -/
def bucket {κ : Type} [BEq κ] (keys : List κ) (key : κ) : List Nat :=
  (keys.zipIdx.filter (·.1 == key)).map (·.2)

theorem mem_bucket {κ : Type} [BEq κ] [LawfulBEq κ] {keys : List κ} {key : κ} {n : Nat} :
    n ∈ bucket keys key ↔ keys[n]? = some key := by
  simp only [bucket, List.mem_map, List.mem_filter, beq_iff_eq, List.mem_zipIdx_iff_getElem?]
  constructor
  · rintro ⟨x, ⟨hx, rfl⟩, rfl⟩
    exact hx
  · intro h
    exact ⟨(key, n), ⟨h, rfl⟩, rfl⟩

theorem bucket_increasing {κ : Type} [BEq κ] (keys : List κ) (key : κ) :
    (bucket keys key).Pairwise (· < ·) := by
  rw [bucket, List.pairwise_map]
  apply List.Pairwise.filter
  rw [← List.pairwise_map (f := Prod.snd) (R := (· < ·)), List.zipIdx_map_snd]
  exact List.pairwise_lt_range'

namespace BucketTable

variable {κ : Type} [DecidableEq κ]

theorem ofKeys_concat (keys : List κ) (key : κ) :
    ofKeys (keys ++ [key]) = put key keys.length (ofKeys keys) := by
  simp [ofKeys, List.zipIdx_append]

theorem bucket_concat (keys : List κ) (key g : κ) :
    bucket (keys ++ [key]) g = bucket keys g ++ if g = key then [keys.length] else [] := by
  by_cases hg : g = key
  · simp [bucket, List.zipIdx_append, hg]
  · simp [bucket, List.zipIdx_append, hg, Ne.symm hg]

theorem put_map {key : κ} {f : κ → List Nat} {met : List κ} (nodup : met.Nodup)
    (absent : key ∉ met → f key = []) (n : Nat) :
    put key n (met.map fun k => (k, f k)) =
      (if key ∈ met then met else met ++ [key]).map
        fun k => (k, f k ++ if k = key then [n] else []) := by
  induction met with
  | nil => simp [put, absent]
  | cons k met ih =>
      obtain ⟨hk, nodup'⟩ := List.nodup_cons.mp nodup
      by_cases heq : k = key
      -- The keys behind this one are others, so what they have stays as it is.
      · subst heq
        have rest : ∀ j ∈ met, (j, f j) = (j, f j ++ if j = k then [n] else []) := by
          intro j hj
          have hne : j ≠ k := by
            rintro rfl
            exact hk hj
          simp [hne]
        simp [put, List.map_congr_left rest]
      · have absent' : key ∉ met → f key = [] := by
          intro h
          apply absent
          simp [h, Ne.symm heq]
        have hrest := ih nodup' absent'
        rw [List.map_cons, put, if_neg (by simpa using heq), hrest]
        by_cases hmem : key ∈ met
        · simp [hmem, heq]
        · simp [hmem, heq, Ne.symm heq]

theorem eraseDups_concat (keys : List κ) (key : κ) :
    (keys ++ [key]).eraseDups =
      if key ∈ keys.eraseDups then keys.eraseDups else keys.eraseDups ++ [key] := by
  rw [List.eraseDups_append, List.removeAll]
  by_cases h : key ∈ keys
  · simp [h]
  · simp [h, List.eraseDups_cons]

/-- The table holds the bucket of each key, in the order in which the keys were met. -/
theorem ofKeys_eq (keys : List κ) :
    ofKeys keys = keys.eraseDups.map fun key => (key, bucket keys key) := by
  induction keys using List.reverseRecOn with
  | nil => simp [ofKeys]
  | append_singleton keys key ih =>
      have absent : key ∉ keys.eraseDups → bucket keys key = [] := by
        intro h
        apply List.eq_nil_iff_forall_not_mem.mpr
        intro n hn
        exact h (List.mem_eraseDups.mpr (List.mem_of_getElem? (mem_bucket.mp hn)))
      rw [ofKeys_concat, ih, put_map (nodup_eraseDups keys) absent, eraseDups_concat]
      simp only [bucket_concat]

end BucketTable

/-! ### Buckets in order -/

variable {L : Type} [LinearOrder L]

/-- The keys that occur, each once and in order. -/
def bucketKeys (keys : List L) : List L := (keys.mergeSort fun a b => decide (a ≤ b)).eraseDups

theorem mem_bucketKeys {keys : List L} {key : L} : key ∈ bucketKeys keys ↔ key ∈ keys := by
  rw [bucketKeys, List.mem_eraseDups, List.mem_mergeSort]

theorem bucketKeys_increasing (keys : List L) : (bucketKeys keys).Pairwise (· < ·) := by
  have sorted := (pairwise_mergeSort_key id keys).sublist (eraseDups_sublist _)
  exact (sorted.and (nodup_eraseDups _)).imp fun h => lt_of_le_of_ne h.1 h.2

/-- Keys can be sorted before the repeated ones are left out or afterwards. -/
theorem mergeSort_eraseDups (keys : List L) :
    (keys.eraseDups.mergeSort fun a b => decide (a ≤ b)) = bucketKeys keys := by
  have nodup : (keys.eraseDups.mergeSort fun a b => decide (a ≤ b)).Nodup :=
    (List.mergeSort_perm _ _).nodup_iff.mpr (nodup_eraseDups keys)
  have increasing : (keys.eraseDups.mergeSort fun a b => decide (a ≤ b)).Pairwise (· < ·) :=
    ((pairwise_mergeSort_key id _).and nodup).imp fun h => lt_of_le_of_ne h.1 h.2
  apply increasing.eq_of_mem_iff (bucketKeys_increasing keys)
  intro key
  rw [List.mem_mergeSort, List.mem_eraseDups]
  exact mem_bucketKeys.symm

theorem partition_eq (keys : List L) :
    partition (fun a b => decide (a ≤ b)) keys = (bucketKeys keys).map (bucket keys) := by
  have read : (keys.eraseDups.mergeSort fun a b => decide (a ≤ b)).map
        (fun key => (key, bucket keys key)) =
      (BucketTable.ofKeys keys).mergeSort fun a b => decide (a.1 ≤ b.1) := by
    rw [BucketTable.ofKeys_eq]
    exact List.map_mergeSort fun a _ b _ => rfl
  rw [partition, ← read, mergeSort_eraseDups, List.map_map]
  rfl

theorem mem_partition {keys : List L} {members : List Nat} :
    members ∈ partition (fun a b => decide (a ≤ b)) keys ↔
      ∃ key ∈ keys, bucket keys key = members := by
  simp only [partition_eq, List.mem_map, mem_bucketKeys]

theorem bucket_ne_nil {keys : List L} {key : L} (h : key ∈ keys) : bucket keys key ≠ [] := by
  obtain ⟨n, hn⟩ := List.mem_iff_getElem?.mp h
  exact List.ne_nil_of_mem (mem_bucket.mpr hn)

/-! ### Parts with equal keys -/

/-- The part of a concatenation that belongs to one of its tags. -/
theorem filter_flatMap_of_tag {α κ : Type} [DecidableEq κ] {tag : α → κ} {f : κ → List α}
    {p : α → Bool} {k : κ} (hp : ∀ a, p a = true → tag a = k) {l : List κ} (nodup : l.Nodup)
    (tagged : ∀ m ∈ l, ∀ a ∈ f m, tag a = m) :
    (l.flatMap f).filter p = if k ∈ l then (f k).filter p else [] := by
  induction l with
  | nil => simp
  | cons m rest ih =>
      obtain ⟨hm, nodup'⟩ := List.nodup_cons.mp nodup
      rw [List.flatMap_cons, List.filter_append,
        ih nodup' fun n hn => tagged n (List.mem_cons_of_mem m hn)]
      by_cases hk : k = m
      · subst hk
        simp [hm]
      · have hnone : (f m).filter p = [] := by
          rw [List.filter_eq_nil_iff]
          intro a ha hpa
          exact hk ((hp a hpa).symm.trans (tagged m List.mem_cons_self a ha))
        simp [hnone, hk]

/-- A stable sort puts the parts with equal keys one behind the other. -/
theorem mergeSort_eq_flatMap {α : Type} (key : α → L) (l : List α) {groups : List L}
    (increasing : groups.Pairwise (· < ·)) (all : ∀ a ∈ l, key a ∈ groups) :
    (l.mergeSort fun a b => decide (key a ≤ key b)) =
      groups.flatMap fun g => l.filter fun a => decide (key a = g) := by
  have tagged : ∀ g ∈ groups, ∀ a ∈ l.filter (fun a => decide (key a = g)), key a = g := by
    intro g _ a ha
    exact of_decide_eq_true (List.mem_filter.mp ha).2
  apply mergeSort_eq_of_filter key
  · apply List.pairwise_flatMap.mpr
    constructor
    · intro g hg
      apply List.pairwise_of_forall_mem_list
      intro a ha b hb
      rw [tagged g hg a ha, tagged g hg b hb]
    · apply increasing.imp_of_mem
      intro g h hg hh hlt a ha b hb
      rw [tagged g hg a ha, tagged h hh b hb]
      exact hlt.le
  · intro k
    rw [filter_flatMap_of_tag (fun a => of_decide_eq_true) (increasing.imp ne_of_lt) tagged,
      List.filter_filter]
    simp only [Bool.and_self]
    split
    · rfl
    · next hk =>
        apply List.filter_eq_nil_iff.mpr
        intro a ha heq
        exact hk (of_decide_eq_true heq ▸ all a ha)

theorem zipIdx_eq_map_finRange {α : Type} (l : List α) :
    l.zipIdx = (List.finRange l.length).map fun n => (l[n], n.val) := by
  apply List.ext_getElem
  · simp
  · intro n h h'
    simp

theorem flatten_partition (keys : List L) :
    (partition (fun a b => decide (a ≤ b)) keys).flatten =
      ((List.finRange keys.length).mergeSort fun m n => decide (keys[m] ≤ keys[n])).map Fin.val := by
  have all : ∀ x ∈ keys.zipIdx, x.1 ∈ bucketKeys keys := by
    intro x hx
    exact mem_bucketKeys.mpr (List.fst_mem_of_mem_zipIdx hx)
  have sorted : ((List.finRange keys.length).mergeSort fun m n => decide (keys[m] ≤ keys[n])).map
        (fun n => (keys[n], n.val)) =
      keys.zipIdx.mergeSort fun x y => decide (x.1 ≤ y.1) := by
    rw [zipIdx_eq_map_finRange]
    exact List.map_mergeSort fun m _ n _ => rfl
  calc (partition (fun a b => decide (a ≤ b)) keys).flatten
      = (bucketKeys keys).flatMap (bucket keys) := by rw [partition_eq, List.flatMap_def]
    _ = ((bucketKeys keys).flatMap fun g => keys.zipIdx.filter fun x => decide (x.1 = g)).map
          Prod.snd := by rw [List.map_flatMap]; rfl
    _ = (keys.zipIdx.mergeSort fun x y => decide (x.1 ≤ y.1)).map Prod.snd := by
          rw [mergeSort_eq_flatMap Prod.fst _ (bucketKeys_increasing keys) all]
    _ = _ := by rw [← sorted, List.map_map]; rfl

/-- Partitioning positions by key loses none and has none twice. There is one bucket for each key
that occurs, with the positions of that key in increasing order, and the keys increase from bucket
to bucket. One behind the other the buckets hold each position once, as a stable sort by key leaves
them; and the table that is filled position by position holds what a scan for each of the keys that
occur finds. -/
theorem partition_keeps_positions (keys : List L) :
    ∃ groups : List L, groups.Pairwise (· < ·) ∧
      List.Forall₂ (fun group members => members ≠ [] ∧ members.Pairwise (· < ·) ∧
          ∀ n, n ∈ members ↔ keys[n]? = some group)
        groups (partition (fun a b => decide (a ≤ b)) keys) ∧
      (partition (fun a b => decide (a ≤ b)) keys).flatten.Perm (List.range keys.length) ∧
      ((List.finRange keys.length).mergeSort fun m n => decide (keys[m] ≤ keys[n])).map Fin.val =
        (partition (fun a b => decide (a ≤ b)) keys).flatten ∧
      partition (fun a b => decide (a ≤ b)) keys = (bucketKeys keys).map (bucket keys) := by
  refine ⟨bucketKeys keys, bucketKeys_increasing keys, ?_, ?_, (flatten_partition keys).symm,
    partition_eq keys⟩
  · rw [partition_eq, List.forall₂_map_right_iff, List.forall₂_same]
    intro group hgroup
    exact ⟨bucket_ne_nil (mem_bucketKeys.mp hgroup), bucket_increasing keys group,
      fun n => mem_bucket⟩
  · rw [flatten_partition, ← List.map_coe_finRange_eq_range]
    exact (List.mergeSort_perm _ _).map Fin.val

example : partition (fun a b : Int => decide (a ≤ b)) [2, -1, 2, 0] = [[1], [3], [0, 2]] := by cbv

end ImportOrder
