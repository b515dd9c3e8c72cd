import ImportOrder.Proofs.StrictChecks

/-!
The backward scan finds the earliest least key above. This is said of the keys themselves, position
by position, for keys of any linear order and for values that are compared when the program runs.
-/

namespace ImportOrder

variable {L : Type} [LinearOrder L]

/-- What a scan may look at; without a filter it may look at everything. -/
def admits (filter : Option (Nat → Bool)) (j : Nat) : Bool := filter.elim true (· j)

/-- The answers of a filter for so many positions. -/
def flagsOf (filter : Option (Nat → Bool)) (count : Nat) : Option (List Bool) :=
  filter.map fun f => (List.range count).map f

theorem flagsOf_getElem? (filter : Option (Nat → Bool)) {count j : Nat} (h : j < count) :
    (flagsOf filter count).elim (some true) (·[j]?) = some (admits filter j) := by
  cases filter with
  | none => rfl
  | some f => simp [flagsOf, admits, h]

section Keys

variable {keys : List L} {eligible : Nat → Bool} {i : Nat}

/-- The key at a position; behind the end it is the one at `i`, which is not above itself. -/
def keyAt (keys : List L) (i : Nat) (hi : i < keys.length) (n : Nat) : L := keys.getD n keys[i]

omit [LinearOrder L] in
theorem keyAt_eq (hi : i < keys.length) {n : Nat} (hn : n < keys.length) :
    keyAt keys i hi n = keys[n] :=
  List.getD_eq_getElem keys keys[i] hn

theorem backwardTarget_eq_some_iff_isTarget (hi : i < keys.length) {t : Nat} :
    backwardTarget (fun a b => decide (a < b)) keys eligible i = some t ↔
      IsTarget (keyAt keys i hi) (fun n => eligible n = true) i t := by
  have found : ∀ (n : Nat) (k : L), keys[n]? = some k → id k = keyAt keys i hi n := by
    intro n k hk
    simp [keyAt, List.getD, hk]
  have scan : backwardTarget (fun a b => decide (a < b)) keys eligible i = some t ↔
      i < keys.length ∧ IsTarget (keyAt keys i hi) (fun n => eligible n = true) i t :=
    backwardTarget_eq_some_iff _ id (fun _ _ => rfl) found
  rwa [and_iff_right hi] at scan

/-- A target, told by the keys at its positions. -/
theorem isTarget_keyAt_iff (hi : i < keys.length) {t : Nat} :
    IsTarget (keyAt keys i hi) (fun n => eligible n = true) i t ↔
      ∃ ht : t < i, eligible t = true ∧ keys[i] < keys[t] ∧
        (∀ j (hj : j < i), eligible j = true → keys[i] < keys[j] → keys[t] ≤ keys[j]) ∧
        ∀ j (hj : j < t), eligible j = true → keys[i] < keys[j] → keys[t] < keys[j] := by
  constructor
  · intro target
    have ht := target.before
    refine ⟨ht, target.admissible, ?_, ?_, ?_⟩
    · simpa only [keyAt_eq hi hi, keyAt_eq hi (ht.trans hi)] using target.above
    · intro j hj
      simpa only [keyAt_eq hi hi, keyAt_eq hi (hj.trans hi), keyAt_eq hi (ht.trans hi)] using
        target.least j hj
    · intro j hj
      simpa only [keyAt_eq hi hi, keyAt_eq hi (hj.trans (ht.trans hi)), keyAt_eq hi (ht.trans hi)]
        using target.earliest j hj
  · intro ⟨ht, helig, habove, least, earliest⟩
    refine ⟨ht, helig, ?_, ?_, ?_⟩
    · simpa only [keyAt_eq hi hi, keyAt_eq hi (ht.trans hi)] using habove
    · intro j hj
      simpa only [keyAt_eq hi hi, keyAt_eq hi (hj.trans hi), keyAt_eq hi (ht.trans hi)] using
        least j hj
    · intro j hj
      simpa only [keyAt_eq hi hi, keyAt_eq hi (hj.trans (ht.trans hi)), keyAt_eq hi (ht.trans hi)]
        using earliest j hj

theorem backwardTarget_eq_none_iff (hi : i < keys.length) :
    backwardTarget (fun a b => decide (a < b)) keys eligible i = none ↔
      ∀ j (hj : j < i), eligible j = true → ¬ keys[i] < keys[j] := by
  rw [← Option.not_isSome_iff_eq_none, Option.isSome_iff_exists, not_exists]
  constructor
  · intro nothing j hj helig habove
    rw [← keyAt_eq hi hi, ← keyAt_eq hi (hj.trans hi)] at habove
    obtain ⟨t, target⟩ := IsTarget.exists_of_above (keyAt keys i hi)
      (fun n => eligible n = true) hj helig habove
    exact nothing t ((backwardTarget_eq_some_iff_isTarget hi).mpr target)
  · intro nothing t ht
    have target := (backwardTarget_eq_some_iff_isTarget hi).mp ht
    obtain ⟨hti, helig, habove, -, -⟩ := (isTarget_keyAt_iff hi).mp target
    exact nothing t hti helig habove

end Keys

/-! ### Keys that are compared when the program runs -/

/-- The values stand for the keys: they are compared, and compare as the keys do. -/
structure Value.StandFor (values : List Value) (keys : List L) : Prop where
  length_eq : values.length = keys.length
  less_eq : ∀ (m n : Nat) (hm : m < keys.length) (hn : n < keys.length),
    Value.less values[m] values[n] = .ok (decide (keys[m] < keys[n]))

namespace Value.StandFor

variable {values : List Value} {keys : List L}

theorem less_of_mem (h : StandFor values keys) {a b : L × Value} (ha : a ∈ keys.zip values)
    (hb : b ∈ keys.zip values) : Value.less a.2 b.2 = .ok (decide (a.1 < b.1)) := by
  obtain ⟨m, hm, rfl⟩ := List.getElem_of_mem ha
  obtain ⟨n, hn, rfl⟩ := List.getElem_of_mem hb
  rw [List.length_zip] at hm hn
  rw [List.getElem_zip, List.getElem_zip]
  exact h.less_eq m n (by omega) (by omega)

/-- The scan over values is the scan over the keys they stand for. -/
theorem backwardTarget_eq (h : StandFor values keys) (filter : Option (Nat → Bool)) {i : Nat}
    (hi : i < keys.length) :
    Value.backwardTarget values (flagsOf filter keys.length) i =
      .ok (ImportOrder.backwardTarget (fun a b => decide (a < b)) keys (admits filter) i) := by
  have hfst : (keys.zip values).map Prod.fst = keys :=
    List.map_fst_zip h.length_eq.ge
  have hsnd : (keys.zip values).map Prod.snd = values :=
    List.map_snd_zip h.length_eq.le
  have hlen : (keys.zip values).length = keys.length := by
    rw [List.length_zip, h.length_eq, Nat.min_self]
  have hpair : (keys.zip values)[i]? = some (keys.zip values)[i] :=
    List.getElem?_eq_getElem (hlen.symm ▸ hi)
  have scan : Value.backwardTarget ((keys.zip values).map Prod.snd) (flagsOf filter keys.length) i =
      .ok (ImportOrder.backwardTarget (fun a b => decide (a.1 < b.1)) (keys.zip values)
        (admits filter) i) := by
    apply backwardTarget_of_flags (· ∈ keys.zip values) _ (fun a b ha hb => h.less_of_mem ha hb)
      hpair (List.getElem_mem _)
    · intro j a ha
      exact flagsOf_getElem? filter (hlen ▸ (List.getElem?_eq_some_iff.mp ha).1)
    · intro j a ha _
      exact List.mem_of_getElem? ha
  have ranked : ImportOrder.backwardTarget (fun a b => decide (a < b))
        ((keys.zip values).map Prod.fst) (admits filter) i =
      ImportOrder.backwardTarget (fun a b => decide (a.1 < b.1)) (keys.zip values)
        (admits filter) i :=
    backwardTarget_map Prod.fst (keys.zip values) (admits filter) i
  rw [hsnd] at scan
  rw [hfst] at ranked
  rw [scan, ranked]

theorem backwardTarget_fromEnd (h : StandFor values keys) (flags : Option (List Bool)) {i : Nat}
    (hi : i < keys.length) :
    Value.backwardTarget values flags (i - keys.length) = .ok none := by
  have hneg : (i : Int) - keys.length < 0 := by omega
  have hplace : (i : Int) - keys.length + values.length = i := by
    rw [h.length_eq]
    omega
  have hvalue : values[i]? = some values[i] := List.getElem?_eq_getElem (h.length_eq ▸ hi)
  have hzero : ((i : Int) - keys.length).toNat = 0 := by omega
  unfold Value.backwardTarget
  simp only [hneg, if_true, hplace, Int.not_lt.mpr (Int.natCast_nonneg i), if_false,
    Int.toNat_natCast, hvalue, hzero]
  rfl

end Value.StandFor

/-- The scan returns the earliest position before `i` whose key is least among the admitted ones
above that of `i`, and nothing exactly if none is above; so does the scan over values that stand for
the keys. Before an index that counts from the end there is nothing. -/
theorem scan_finds_earliest_minimum (keys : List L) (filter : Option (Nat → Bool)) (i : Nat)
    (hi : i < keys.length) :
    ∃ target : Option Nat,
      backwardTarget (fun a b => decide (a < b)) keys (admits filter) i = target ∧
      (∀ t, target = some t ↔ ∃ ht : t < i, admits filter t = true ∧ keys[i] < keys[t] ∧
        (∀ j (hj : j < i), admits filter j = true → keys[i] < keys[j] → keys[t] ≤ keys[j]) ∧
        ∀ j (hj : j < t), admits filter j = true → keys[i] < keys[j] → keys[t] < keys[j]) ∧
      (target = none ↔ ∀ j (hj : j < i), admits filter j = true → ¬ keys[i] < keys[j]) ∧
      ∀ values : List Value, Value.StandFor values keys →
        Value.backwardTarget values (flagsOf filter keys.length) i = .ok target ∧
        Value.backwardTarget values (flagsOf filter keys.length) (i - keys.length) = .ok none := by
  refine ⟨_, rfl, ?_, backwardTarget_eq_none_iff hi, ?_⟩
  · intro t
    rw [backwardTarget_eq_some_iff_isTarget hi]
    exact isTarget_keyAt_iff hi
  · intro values same
    exact ⟨same.backwardTarget_eq filter hi, same.backwardTarget_fromEnd _ hi⟩

/-- Numbers of three kinds, two of them equal. -/
def Value.mixedNumbers : List Value := [.float (Binary64.ofInt 3), .int 2, .int 3, .bool true]

theorem Value.standFor_mixedNumbers : StandFor mixedNumbers [3, 2, 3, 1] := by
  refine ⟨rfl, ?_⟩
  intro m n hm hn
  have hm' : m < 4 := hm
  have hn' : n < 4 := hn
  interval_cases m <;> interval_cases n <;> rfl

theorem scan_finds_earliest_minimum_mixedNumbers :
    3 < [3, 2, 3, 1].length ∧
      Value.backwardTarget Value.mixedNumbers (some [true, false, true, true]) 3 =
        .ok (some 0) := by
  refine ⟨by decide, ?_⟩
  obtain ⟨target, htarget, -, -, hvalues⟩ :=
    scan_finds_earliest_minimum [3, 2, 3, 1] (some (· != 1)) 3 (by decide)
  have hzero : target = some 0 := htarget.symm.trans (by decide)
  exact hzero ▸ (hvalues _ Value.standFor_mixedNumbers).1

end ImportOrder
