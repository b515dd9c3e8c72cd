import Mathlib
import ImportOrder.Check

/-!
What the order checks report. A backward scan finds the earliest position that holds the least key
above its own; `IsTarget` says so without a scan, and it does not change when the scan runs over the
positions of one group only. From it `Wants` describes all wrong-order reports of a sequence at
once.
-/

namespace ImportOrder

variable {L : Type} [LinearOrder L]

/-- Position `j` is the earliest before `i` with the least admissible key above that of `i`. -/
structure IsTarget (key : Nat → L) (ok : Nat → Prop) (i j : Nat) : Prop where
  before : j < i
  admissible : ok j
  above : key i < key j
  least : ∀ l < i, ok l → key i < key l → key j ≤ key l
  earliest : ∀ l < j, ok l → key i < key l → key j < key l

namespace IsTarget

variable {key : Nat → L} {ok : Nat → Prop} {i j : Nat}

theorem congr {key' : Nat → L} {ok' : Nat → Prop} (hi : key i = key' i)
    (hkey : ∀ l < i, ok l → key l = key' l) (hok : ∀ l < i, ok l ↔ ok' l)
    (h : IsTarget key ok i j) : IsTarget key' ok' i j := by
  have hj := hkey j h.before h.admissible
  refine ⟨h.before, (hok j h.before).mp h.admissible, hi ▸ hj ▸ h.above, ?_, ?_⟩
  · intro l hl hok' habove
    have hl' := (hok l hl).mpr hok'
    rw [← hi, ← hkey l hl hl'] at habove
    rw [← hj, ← hkey l hl hl']
    exact h.least l hl hl' habove
  · intro l hl hok' habove
    have hli : l < i := hl.trans h.before
    have hl' := (hok l hli).mpr hok'
    rw [← hi, ← hkey l hli hl'] at habove
    rw [← hj, ← hkey l hli hl']
    exact h.earliest l hl hl' habove

/-- A later position with the same key has the same target, unless a new one comes in between. -/
theorem of_same_key {l : Nat} (h : IsTarget key ok i j) (hjl : j < l) (hli : l ≤ i)
    (same : key l = key i) : IsTarget key ok l j :=
  ⟨hjl, h.admissible, same ▸ h.above,
    fun k hk hok habove => h.least k (hk.trans_le hli) hok (same ▸ habove),
    fun k hk hok habove => h.earliest k hk hok (same ▸ habove)⟩

theorem unique {k : Nat} (h : IsTarget key ok i j) (h' : IsTarget key ok i k) : j = k := by
  rcases lt_trichotomy j k with hlt | heq | hlt
  · exact absurd (h'.earliest j hlt h.admissible h.above)
      (not_lt.mpr (h.least k h'.before h'.admissible h'.above))
  · exact heq
  · exact absurd (h.earliest k hlt h'.admissible h'.above)
      (not_lt.mpr (h'.least j h.before h.admissible h.above))

/-- The target comes no later than anything else above, or has a smaller key. -/
theorem le_or_lt {l : Nat} (h : IsTarget key ok i j) (hok : ok l) (above : key i < key l) :
    j ≤ l ∨ key j < key l :=
  (Nat.lt_or_ge l j).symm.imp_right fun hlj => h.earliest l hlj hok above

theorem exists_of_above (key : Nat → L) (ok : Nat → Prop) {l : Nat} (hl : l < i) (hok : ok l)
    (above : key i < key l) : ∃ j, IsTarget key ok i j := by
  classical
  let candidates := (Finset.range i).filter fun k => ok k ∧ key i < key k
  have hmem : ∀ k, k ∈ candidates ↔ k < i ∧ ok k ∧ key i < key k := by
    simp [candidates]
  obtain ⟨m, hm, hleast⟩ :=
    Finset.exists_min_image candidates key ⟨l, (hmem l).mpr ⟨hl, hok, above⟩⟩
  have hex : ∃ k, k ∈ candidates ∧ key k = key m := ⟨m, hm, rfl⟩
  obtain ⟨hj, hkey⟩ := Nat.find_spec hex
  obtain ⟨hji, hjok, hjabove⟩ := (hmem _).mp hj
  refine ⟨Nat.find hex, hji, hjok, hjabove, ?_, ?_⟩
  · intro k hk hkok hkabove
    rw [hkey]
    exact hleast k ((hmem k).mpr ⟨hk, hkok, hkabove⟩)
  · intro k hk hkok hkabove
    have hmemk := (hmem k).mpr ⟨hk.trans hji, hkok, hkabove⟩
    refine lt_of_le_of_ne (hkey.le.trans (hleast k hmemk)) ?_
    intro heq
    exact Nat.find_min hex hk ⟨hmemk, by rw [← heq, hkey]⟩

end IsTarget

/-! ### The scan -/

section Scan

variable {κ : Type} {less : κ → κ → Bool} {f : κ → L}

/-- What the scan knows after some candidates: none is above the current key, or the best of those
that are, the first among equals. -/
def Best (f : κ → L) (current : κ) (seen : List (κ × Nat)) : Option (κ × Nat) → Prop
  | none => ∀ x ∈ seen, ¬ f current < f x.1
  | some b => ∃ front back, seen = front ++ b :: back ∧ f current < f b.1 ∧
      (∀ x ∈ front, f current < f x.1 → f b.1 < f x.1) ∧
      ∀ x ∈ back, f current < f x.1 → f b.1 ≤ f x.1

theorem best_step (hless : ∀ a b, less a b = decide (f a < f b)) {current : κ}
    {seen : List (κ × Nat)} {best : Option (κ × Nat)} (x : κ × Nat) (h : Best f current seen best) :
    Best f current (seen ++ [x])
      (if less current x.1 && best.all (fun b => less x.1 b.1) then some x else best) := by
  by_cases habove : f current < f x.1
  · cases best with
    | none =>
        simp only [hless, habove, decide_true, Option.all_none, Bool.and_self, if_true]
        exact ⟨seen, [], rfl, habove, fun y hy hy' => absurd hy' (h y hy), by simp⟩
    | some b =>
        obtain ⟨front, back, rfl, hb, hfront, hback⟩ := h
        by_cases hbetter : f x.1 < f b.1
        · simp only [hless, habove, hbetter, decide_true, Option.all_some, Bool.and_self, if_true]
          refine ⟨front ++ b :: back, [], rfl, habove, ?_, by simp⟩
          intro y hy hy'
          rcases List.mem_append.mp hy with hy | hy
          · exact hbetter.trans (hfront y hy hy')
          · rcases List.mem_cons.mp hy with rfl | hy
            · exact hbetter
            · exact hbetter.trans_le (hback y hy hy')
        · simp only [hless, habove, hbetter, decide_true, decide_false, Option.all_some,
            Bool.and_false, Bool.false_eq_true, if_false]
          refine ⟨front, back ++ [x], by simp, hb, hfront, ?_⟩
          intro y hy hy'
          rcases List.mem_append.mp hy with hy | hy
          · exact hback y hy hy'
          · rw [List.mem_singleton.mp hy]
            exact not_lt.mp hbetter
  · simp only [hless, habove, decide_false, Bool.false_and, Bool.false_eq_true, if_false]
    cases best with
    | none =>
        intro y hy
        rcases List.mem_append.mp hy with hy | hy
        · exact h y hy
        · rwa [List.mem_singleton.mp hy]
    | some b =>
        obtain ⟨front, back, rfl, hb, hfront, hback⟩ := h
        refine ⟨front, back ++ [x], by simp, hb, hfront, ?_⟩
        intro y hy hy'
        rcases List.mem_append.mp hy with hy | hy
        · exact hback y hy hy'
        · rw [List.mem_singleton.mp hy] at hy'
          exact absurd hy' habove

theorem best_scanAbove (hless : ∀ a b, less a b = decide (f a < f b)) {current : κ}
    {seen rest : List (κ × Nat)} {best : Option (κ × Nat)} (h : Best f current seen best) :
    Best f current (seen ++ rest) (scanAbove less current rest best) := by
  induction rest generalizing seen best with
  | nil => simpa [scanAbove] using h
  | cons x rest ih =>
      have step := ih (best_step hless x h)
      rw [List.append_assoc] at step
      simp only [scanAbove]
      split
      · next hx => simpa [hx] using step
      · next hx => simpa [hx] using step

theorem mem_candidates {keys : List κ} {eligible : Nat → Bool} {i : Nat} {x : κ × Nat} :
    x ∈ (keys.take i).zipIdx.filter (eligible ·.2) ↔
      x.2 < i ∧ keys[x.2]? = some x.1 ∧ eligible x.2 = true := by
  rw [List.mem_filter, List.mem_zipIdx_iff_getElem?, List.getElem?_take]
  by_cases h : x.2 < i <;> simp [h]

theorem candidates_increasing (keys : List κ) (eligible : Nat → Bool) (i : Nat) :
    ((keys.take i).zipIdx.filter (eligible ·.2)).Pairwise (fun x y => x.2 < y.2) := by
  apply List.Pairwise.filter
  rw [← List.pairwise_map (f := Prod.snd) (R := (· < ·)), List.zipIdx_map_snd]
  exact List.pairwise_lt_range'

omit [LinearOrder L] in
theorem exists_candidate {keys : List κ} {key : Nat → L}
    (hkey : ∀ n k, keys[n]? = some k → f k = key n) {eligible : Nat → Bool} {i l : Nat}
    (hi : i < keys.length) (hl : l < i) (hok : eligible l = true) :
    ∃ k, (k, l) ∈ (keys.take i).zipIdx.filter (eligible ·.2) ∧ f k = key l := by
  have hl' : l < keys.length := hl.trans hi
  refine ⟨keys[l], mem_candidates.mpr ⟨hl, by simp, hok⟩, ?_⟩
  exact hkey l _ (List.getElem?_eq_getElem hl')

theorem Best.isTarget {keys : List κ} {key : Nat → L}
    (hkey : ∀ n k, keys[n]? = some k → f k = key n) {eligible : Nat → Bool} {i : Nat}
    {current : κ} {b : κ × Nat} (hi : keys[i]? = some current)
    (best : Best f current ((keys.take i).zipIdx.filter (eligible ·.2)) (some b)) :
    IsTarget key (fun n => eligible n = true) i b.2 := by
  have hlen : i < keys.length := (List.getElem?_eq_some_iff.mp hi).1
  have increasing := candidates_increasing keys eligible i
  obtain ⟨front, back, hsplit, habove, hfront, hback⟩ := best
  have hmem : b ∈ (keys.take i).zipIdx.filter (eligible ·.2) := by rw [hsplit]; simp
  obtain ⟨hbi, hbk, hbe⟩ := mem_candidates.mp hmem
  have hcur := hkey i current hi
  have hkb := hkey b.2 b.1 hbk
  rw [hsplit, List.pairwise_append, List.pairwise_cons] at increasing
  obtain ⟨-, ⟨hafter, -⟩, -⟩ := increasing
  refine ⟨hbi, hbe, by rwa [← hcur, ← hkb], ?_, ?_⟩
  · intro l hl hok hl'
    obtain ⟨k, hk, hkl⟩ := exists_candidate hkey hlen hl hok
    rw [← hcur, ← hkl] at hl'
    rw [← hkb, ← hkl]
    rw [hsplit, List.mem_append, List.mem_cons] at hk
    rcases hk with hk | hk | hk
    · exact (hfront _ hk hl').le
    · rw [← hk]
    · exact hback _ hk hl'
  · intro l hl hok hl'
    obtain ⟨k, hk, hkl⟩ := exists_candidate hkey hlen (hl.trans hbi) hok
    rw [← hcur, ← hkl] at hl'
    rw [← hkb, ← hkl]
    rw [hsplit, List.mem_append, List.mem_cons] at hk
    rcases hk with hk | hk | hk
    · exact hfront _ hk hl'
    · have : l = b.2 := congrArg Prod.snd hk
      omega
    · have : b.2 < l := hafter _ hk
      omega

/-- The scan of the model finds the target. -/
theorem backwardTarget_eq_some_iff (less : κ → κ → Bool) (f : κ → L)
    (hless : ∀ a b, less a b = decide (f a < f b)) {keys : List κ} {key : Nat → L}
    (hkey : ∀ n k, keys[n]? = some k → f k = key n) {eligible : Nat → Bool} {i j : Nat} :
    backwardTarget less keys eligible i = some j ↔
      i < keys.length ∧ IsTarget key (fun n => eligible n = true) i j := by
  rw [backwardTarget]
  cases hi : keys[i]? with
  | none =>
      have : keys.length ≤ i := List.getElem?_eq_none_iff.mp hi
      simp only [reduceCtorEq, false_iff, not_and]
      omega
  | some current =>
      have hlen : i < keys.length := (List.getElem?_eq_some_iff.mp hi).1
      have best : Best f current ([] ++ (keys.take i).zipIdx.filter (eligible ·.2))
          (scanAbove less current ((keys.take i).zipIdx.filter (eligible ·.2)) none) :=
        best_scanAbove hless (by simp [Best])
      rw [List.nil_append] at best
      simp only [hlen, true_and, Option.map_eq_some_iff]
      constructor
      · rintro ⟨b, hb, rfl⟩
        rw [hb] at best
        exact best.isTarget hkey hi
      · intro target
        cases hscan : scanAbove less current ((keys.take i).zipIdx.filter (eligible ·.2)) none with
        | none =>
            rw [hscan] at best
            obtain ⟨k, hk, hkj⟩ := exists_candidate hkey hlen target.before target.admissible
            have habove : f current < f k := by
              rw [hkey i current hi, hkj]
              exact target.above
            exact absurd habove (best _ hk)
        | some b =>
            rw [hscan] at best
            exact ⟨b, rfl, (best.isTarget hkey hi).unique target⟩

theorem scanAbove_eq_some {current : κ} {candidates : List (κ × Nat)} {best : Option (κ × Nat)}
    {b : κ × Nat} (h : scanAbove less current candidates best = some b) :
    b ∈ candidates ∨ best = some b := by
  induction candidates generalizing best with
  | nil => exact .inr h
  | cons x rest ih =>
      rw [scanAbove] at h
      split at h
      · rcases ih h with hmem | heq
        · exact .inl (List.mem_cons_of_mem x hmem)
        · cases heq
          exact .inl List.mem_cons_self
      · exact (ih h).imp_left (List.mem_cons_of_mem x)

theorem lt_of_backwardTarget {keys : List κ} {eligible : Nat → Bool} {i j : Nat}
    (h : backwardTarget less keys eligible i = some j) : j < i := by
  unfold backwardTarget at h
  split at h
  · cases h
  · obtain ⟨b, hb, rfl⟩ := Option.map_eq_some_iff.mp h
    rcases scanAbove_eq_some hb with hmem | hnone
    · exact (mem_candidates.mp hmem).1
    · cases hnone

theorem scanAbove_map {α : Type} (less : κ → κ → Bool) (f : α → κ) (current : α)
    (candidates : List (α × Nat)) (best : Option (α × Nat)) :
    scanAbove less (f current) (candidates.map (Prod.map f id)) (best.map (Prod.map f id)) =
      (scanAbove (fun a b => less (f a) (f b)) current candidates best).map (Prod.map f id) := by
  induction candidates generalizing best with
  | nil => rfl
  | cons x rest ih =>
      have hbest : (best.map (Prod.map f id)).all (fun b => less (f x.1) b.1) =
          best.all fun b => less (f x.1) (f b.1) := by
        cases best <;> rfl
      rw [List.map_cons, scanAbove, scanAbove, Prod.map_fst, hbest]
      split
      · exact ih (some x)
      · exact ih best

/-- A scan over keys that are computed compares what they are computed from. -/
theorem backwardTarget_map {α : Type} (f : α → κ) (keys : List α)
    (eligible : Nat → Bool) (i : Nat) :
    backwardTarget less (keys.map f) eligible i =
      backwardTarget (fun a b => less (f a) (f b)) keys eligible i := by
  unfold backwardTarget
  rw [List.getElem?_map]
  cases keys[i]? with
  | none => rfl
  | some current =>
      have hcandidates : ((keys.map f).take i).zipIdx.filter (eligible ·.2) =
          ((keys.take i).zipIdx.filter (eligible ·.2)).map (Prod.map f id) := by
        rw [← List.map_take, List.zipIdx_map, List.filter_map]
        rfl
      have hscan := scanAbove_map less f current
        ((keys.take i).zipIdx.filter (eligible ·.2)) none
      rw [Option.map_none] at hscan
      simp only [Option.map_some, hcandidates, hscan, Option.map_map]
      rfl

end Scan

/-! ### Buckets -/

theorem position_lt_iff {members : List Nat} (increasing : members.Pairwise (· < ·))
    {a b m n : Nat} (ha : members[a]? = some m) (hb : members[b]? = some n) : a < b ↔ m < n := by
  obtain ⟨hla, rfl⟩ := List.getElem?_eq_some_iff.mp ha
  obtain ⟨hlb, rfl⟩ := List.getElem?_eq_some_iff.mp hb
  rw [List.pairwise_iff_getElem] at increasing
  rcases lt_trichotomy a b with h | rfl | h
  · exact iff_of_true h (increasing a b hla hlb h)
  · simp
  · exact iff_of_false h.asymm (increasing b a hlb hla h).asymm

/-- A target among the members of a bucket is one among the positions in the bucket. -/
theorem isTarget_members {members : List Nat} (increasing : members.Pairwise (· < ·))
    {key : Nat → L} {ok : Nat → Prop} {p t i j : Nat} (hp : members[p]? = some i)
    (ht : members[t]? = some j) :
    IsTarget (fun n => key (members.getD n 0)) (fun n => n < members.length ∧ ok (members.getD n 0))
        p t ↔
      IsTarget key (fun n => n ∈ members ∧ ok n) i j := by
  have getD : ∀ {a m : Nat}, members[a]? = some m → members.getD a 0 = m := by
    intro a m ha
    simp [List.getD, ha]
  have hpi := getD hp
  have htj := getD ht
  constructor
  · intro target
    refine ⟨(position_lt_iff increasing ht hp).mp target.before,
      ⟨List.mem_of_getElem? ht, htj ▸ target.admissible.2⟩, hpi ▸ htj ▸ target.above, ?_, ?_⟩
    · rintro l hl ⟨hmem, hok⟩ habove
      obtain ⟨a, ha⟩ := List.mem_iff_getElem?.mp hmem
      have hlen : a < members.length := (List.getElem?_eq_some_iff.mp ha).1
      have hap := (position_lt_iff increasing ha hp).mpr hl
      have := target.least a hap ⟨hlen, (getD ha).symm ▸ hok⟩ (by rwa [getD ha, hpi])
      rwa [htj, getD ha] at this
    · rintro l hl ⟨hmem, hok⟩ habove
      obtain ⟨a, ha⟩ := List.mem_iff_getElem?.mp hmem
      have hlen : a < members.length := (List.getElem?_eq_some_iff.mp ha).1
      have hat := (position_lt_iff increasing ha ht).mpr hl
      have := target.earliest a hat ⟨hlen, (getD ha).symm ▸ hok⟩ (by rwa [getD ha, hpi])
      rwa [htj, getD ha] at this
  · intro target
    have htlen : t < members.length := (List.getElem?_eq_some_iff.mp ht).1
    refine ⟨(position_lt_iff increasing ht hp).mpr target.before,
      ⟨htlen, htj.symm ▸ target.admissible.2⟩, by rw [hpi, htj]; exact target.above, ?_, ?_⟩
    · rintro a ha ⟨hlen, hok⟩ habove
      have ha' := List.getElem?_eq_getElem hlen
      rw [getD ha'] at hok habove ⊢
      rw [hpi] at habove
      rw [htj]
      have hbefore := (position_lt_iff increasing ha' hp).mp ha
      exact target.least _ hbefore ⟨List.getElem_mem hlen, hok⟩ habove
    · rintro a ha ⟨hlen, hok⟩ habove
      have ha' := List.getElem?_eq_getElem hlen
      rw [getD ha'] at hok habove ⊢
      rw [hpi] at habove
      rw [htj]
      have hbefore := (position_lt_iff increasing ha' ht).mp ha
      exact target.earliest _ hbefore ⟨List.getElem_mem hlen, hok⟩ habove

end ImportOrder
