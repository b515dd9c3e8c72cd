import ImportOrder.Order.DynamicKeys
import ImportOrder.Proofs.CleanOrder

/-!
Checking without defaults. The checks put a value of their own in the place of a group that is not
there, of an item outside a list and of a missing sub-pattern among keys. Here the same checks stop
at each of these: a group is looked up by name, lists are read at positions they must have, and keys
are values of which a missing one has no order. Under a policy that was built from a value they
never stop, and they find what the checks find.
-/

namespace ImportOrder

inductive CheckFault where
  | missingGroup (name : String)
  | inconsistent (why : Inconsistency)
  | key (error : KeyError)

def fetch {α : Type} (xs : List α) (i : Nat) : Except KeyError α :=
  match xs[i]? with
  | some a => .ok a
  | none => .error .outOfRange

/-! ### Placing -/

namespace Policy

def strictClaim (p : Policy) (source : String) : Pattern → Except CheckFault (Option (Option Nat))
  | .group name =>
      match p.groups.lookup name with
      | some subs => .ok ((subs.findIdx? (·.accepts source)).map some)
      | none => .error (.missingGroup name)
  | pattern => .ok (if pattern.accepts source then some none else none)

/-- The place of a module among the patterns from a slot on. -/
def strictPlaceFrom (p : Policy) (source : String) :
    Nat → List Pattern → Except CheckFault Placement
  | _, [] => .ok ⟨p.everythingElse, none⟩
  | slot, pattern :: rest => do
      match ← p.strictClaim source pattern with
      | some sub => return ⟨slot, sub.map Int.ofNat⟩
      | none => strictPlaceFrom p source (slot + 1) rest

def strictPlace (p : Policy) (source : String) : Except CheckFault Placement :=
  p.strictPlaceFrom source 0 p.patterns

end Policy

/-! ### Scans -/

/-- A sub-pattern as a key. A missing one cannot be compared. -/
def subValue : Option Int → Value
  | some sub => .int sub
  | none => .null

/-- A first name as a key. Those without come last. -/
def nameValue : Option String → Value
  | some name => .list [.int 0, .str name]
  | none => .list [.int 1, .str ""]

namespace Placed

def strictWrongOrder (items : List Placed) (i j : Nat) : Except KeyError Violation := do
  let item ← fetch items i
  let place ← fetch items j
  return { index := i, statement := item.statement, fault := .wrongOrder j place.statement }

/-- The report of a scan over the keys of the statements at some positions. -/
def strictScan (items : List Placed) (members : List Nat) (keys : List Value)
    (eligible : Option (List Bool)) (pos : Nat) : Except KeyError (Option Violation) := do
  match ← Value.backwardTarget keys eligible pos with
  | some target =>
      return some (← strictWrongOrder items (← fetch members pos) (← fetch members target))
  | none => return none

def strictBlankLine (policy : Policy) (items : List Placed) (i : Nat) :
    Except KeyError (Option Violation) := do
  let item ← fetch items i
  if policy.emptyLines && !(items.take i).any (·.placement.group == item.placement.group) &&
      0 < i then
    let previous ← fetch items (i - 1)
    if lineBetween previous.statement item.statement then return none
    else return some { index := i, statement := item.statement, fault := .missingBlankLine }
  else return none

def strictGroups (policy : Policy) (items : List Placed) : Except KeyError (List Violation) := do
  let all := List.range items.length
  let keys := items.map fun item => Value.int item.placement.group
  let found ← all.mapM fun i => do
    let moved ← strictScan items all keys none i
    let crowded ← strictBlankLine policy items i
    return moved.toList ++ crowded.toList
  return found.flatten

def strictSubOrder (policy : Policy) (items : List Placed) (members : List Nat) :
    Except KeyError (List Violation) := do
  if policy.ignoreInGroupSort then return []
  else
    let subs := (← members.mapM (fetch items)).map (·.placement.sub)
    let found ← (List.range subs.length).mapM fun pos => do
      if (← fetch subs pos).isSome then
        strictScan items members (subs.map subValue) (some (subs.map (·.isSome))) pos
      else return none
    return found.reduceOption

def strictAlphabetical (policy : Policy) (items : List Placed) (members : List Nat) :
    Except KeyError (List Violation) := do
  if policy.ignoreAlphabeticalSort then return []
  else
    let group ← members.mapM (fetch items)
    let keys := group.map (·.statement.firstName)
    let subs := group.map (·.placement.sub)
    let found ← (List.range group.length).mapM fun pos => do
      if (← fetch keys pos).isSome then
        let sub ← fetch subs pos
        let eligible := subs.map fun other => sub.isNone || other == sub
        strictScan items members (keys.map nameValue) (some eligible) pos
      else return none
    return found.reduceOption

def strictBucket (policy : Policy) (items : List Placed) (members : List Nat) :
    Except KeyError (List Violation) := do
  let subs ← strictSubOrder policy items members
  let names ← members.mapM fun i => do
    return checkMembers policy i (← fetch items i).statement
  let alphabetical ← strictAlphabetical policy items members
  return subs ++ names.reduceOption ++ alphabetical

def strictOrder (policy : Policy) (items : List Placed) : Except KeyError (List Violation) := do
  let groups ← strictGroups policy items
  let buckets ← (partition (fun a b => decide (a ≤ b)) (items.map (·.placement.group))).mapM
    (strictBucket policy items)
  return (groups ++ buckets.flatten).mergeSort fun v w => v.position.le w.position

end Placed

def strictCheck (policy : Policy) (newline : Text) (statements : List Statement) :
    Except CheckFault (List Violation) :=
  if statements.isEmpty then .ok []
  else do
    let placements ← statements.mapM fun s => policy.strictPlace s.source
    let claims := placements.map fun p => (Value.int p.group, p.sub)
    let items ← (verify policy statements claims).mapError .inconsistent
    let violations ← (Placed.strictOrder policy items).mapError .key
    return violations.map (·.withPlan newline)

/-! ### Successful steps -/

theorem ok_bind {ε α β : Type} (a : α) (f : α → Except ε β) : (Except.ok a >>= f) = f a := rfl

theorem fetch_of_getElem? {α : Type} {xs : List α} {i : Nat} {a : α} (h : xs[i]? = some a) :
    fetch xs i = .ok a := by
  simp [fetch, h]

theorem mapM_eq_ok {ε α β : Type} {f : α → Except ε β} {g : α → β} {xs : List α}
    (h : ∀ x ∈ xs, f x = .ok (g x)) : xs.mapM f = .ok (xs.map g) := by
  induction xs with
  | nil => rfl
  | cons x rest ih =>
      rw [List.mapM_cons, h x List.mem_cons_self, ok_bind,
        ih fun y hy => h y (List.mem_cons_of_mem x hy), ok_bind]
      rfl

theorem mapM_reports {β : Type} {f : Nat → Except KeyError (Option β)} {g : Nat → Option β}
    {xs : List Nat} (h : ∀ x ∈ xs, f x = .ok (g x)) :
    (do return (← xs.mapM f).reduceOption) = Except.ok (xs.filterMap g) := by
  rw [mapM_eq_ok h, ok_bind]
  exact congrArg Except.ok List.filterMap_map

/-! ### Groups -/

namespace Policy

variable {p : Policy}

/-- A pattern that refers to a group refers to one of the policy's. -/
def Closed (p : Policy) : Prop :=
  ∀ name, .group name ∈ p.patterns → ∃ subs, p.groups.lookup name = some subs

theorem exists_lookup_of_mem {groups : List (String × List Pattern)} {name : String}
    (h : name ∈ groups.map (·.1)) : ∃ subs, groups.lookup name = some subs := by
  induction groups with
  | nil => cases h
  | cons g rest ih =>
      obtain ⟨group, tokens⟩ := g
      by_cases hname : name = group
      · exact ⟨tokens, by simp [hname]⟩
      · obtain ⟨subs, hsubs⟩ := ih ((List.mem_cons.mp h).resolve_left hname)
        exact ⟨subs, by simp [List.lookup_cons, beq_false_of_ne hname, hsubs]⟩

/-- The token of a group's slot is the name of the group. -/
theorem Resolved.token_of_group (h : p.Resolved) {slot : Nat} {name : String}
    (hslot : p.patterns[slot]? = some (.group name)) :
    p.order[slot]? = some name ∧ ∃ subs, p.groups.lookup name = some subs := by
  obtain ⟨compile, token, htoken, hparse⟩ := h.exists_parse hslot
  obtain ⟨rfl, hmem⟩ := Pattern.eq_of_parse_eq_group hparse
  exact ⟨htoken, exists_lookup_of_mem hmem⟩

theorem Resolved.closed (h : p.Resolved) : p.Closed := by
  intro name hname
  obtain ⟨slot, hslot⟩ := List.mem_iff_getElem?.mp hname
  exact (h.token_of_group hslot).2

theorem strictClaim_eq (source : String) {pattern : Pattern}
    (h : ∀ name, pattern = .group name → ∃ subs, p.groups.lookup name = some subs) :
    p.strictClaim source pattern = .ok (p.claim source pattern) := by
  cases pattern with
  | group name =>
      obtain ⟨subs, hsubs⟩ := h name rfl
      simp [strictClaim, claim, hsubs]
  | literal value | regex token found => rfl

theorem strictPlaceFrom_eq {source : String} {patterns : List Pattern} (slot : Nat)
    (h : ∀ name, .group name ∈ patterns → ∃ subs, p.groups.lookup name = some subs) :
    p.strictPlaceFrom source slot patterns =
      .ok ((p.claimedFrom source slot patterns).getD ⟨p.everythingElse, none⟩) := by
  induction patterns generalizing slot with
  | nil => rfl
  | cons pattern rest ih =>
      have hclaim : p.strictClaim source pattern = .ok (p.claim source pattern) :=
        strictClaim_eq source fun name hname => h name (hname ▸ List.mem_cons_self)
      have hrest := ih (slot + 1) fun name hname => h name (List.mem_cons_of_mem pattern hname)
      rw [strictPlaceFrom, hclaim, ok_bind, claimedFrom]
      cases p.claim source pattern with
      | none => exact hrest
      | some sub => rfl

theorem Closed.strictPlace_eq (h : p.Closed) (source : String) :
    p.strictPlace source = .ok (p.place source) := by
  rw [place_eq]
  exact strictPlaceFrom_eq 0 h

/-- A placement by a sub-pattern: the slot is that of a group, and the sub-pattern is one of it. -/
theorem Resolved.sub_lt (h : p.Resolved) {source : String} {sub : Int}
    (hsub : (p.place source).sub = some sub) :
    ∃ name subs n, p.order[(p.place source).group]? = some name ∧
      p.patterns[(p.place source).group]? = some (.group name) ∧
      p.groups.lookup name = some subs ∧ sub = Int.ofNat n ∧ n < subs.length := by
  rcases place_cases source with ⟨pattern, found, hpattern, hclaim, hfound⟩ | heq
  · rw [hfound] at hsub
    obtain ⟨n, rfl, rfl⟩ := Option.map_eq_some_iff.mp hsub
    obtain ⟨name, rfl⟩ := (claim_isSome_iff hclaim).mp rfl
    obtain ⟨htoken, subs, hsubs⟩ := h.token_of_group hpattern
    refine ⟨name, subs, n, htoken, hpattern, hsubs, rfl, ?_⟩
    obtain ⟨k, hk, hkn⟩ := Option.map_eq_some_iff.mp hclaim
    rw [hsubs, Option.getD_some] at hk
    rw [← Option.some_injective _ hkn]
    exact (List.findIdx?_eq_some_iff_getElem.mp hk).1
  · rw [heq] at hsub
    cases hsub

end Policy

/-! ### Keys -/

theorem Value.less_int (a b : Int) : Value.less (.int a) (.int b) = .ok (decide (a < b)) := by
  have hcompare : (compare (a * 1) (b * 1) == Ordering.lt) = decide (a < b) := by
    rw [Int.mul_one, Int.mul_one, Bool.eq_iff_iff, beq_iff_eq, decide_eq_true_iff,
      compare_lt_iff_lt]
  exact congrArg Except.ok hcompare

theorem less_nameValue (a b : Option String) :
    Value.less (nameValue a) (nameValue b) = .ok (Placed.nameLess a b) := by
  cases a with
  | none => cases b <;> rfl
  | some name =>
      cases b with
      | none => rfl
      | some other =>
          have hless : Value.less (nameValue (some name)) (nameValue (some other)) =
              if name == other then .ok false else .ok (decide (name < other)) := rfl
          rw [hless, Placed.nameLess]
          by_cases heq : name = other
          · simp [heq]
          · simp [heq]

/-! ### Scans -/

section Scan

variable {α : Type} {less : α → α → Bool} {value : α → Value} {ok : α → Prop}

theorem improves_eq (compares : ∀ a b, ok a → ok b → Value.less (value a) (value b) = .ok (less a b))
    {current key : α} {best : Option (α × Nat)} (hcurrent : ok current) (hkey : ok key)
    (hbest : ∀ b ∈ best, ok b.1) :
    Value.improves (value current) (value key) (best.map (Prod.map value id)) =
      .ok (less current key && best.all fun b => less key b.1) := by
  unfold Value.improves
  rw [compares current key hcurrent hkey, ok_bind]
  cases less current key with
  | false => rfl
  | true =>
      cases best with
      | none => rfl
      | some b => exact compares key b.1 hkey (hbest b rfl)

/-- A scan over values goes through if the current key and the admitted ones can be compared. -/
theorem scanAbove_eq (compares : ∀ a b, ok a → ok b → Value.less (value a) (value b) = .ok (less a b))
    {admits : Nat → Except KeyError Bool} {eligible : Nat → Bool} {current : α}
    (hcurrent : ok current) {candidates : List (α × Nat)} (best : Option (α × Nat))
    (hbest : ∀ b ∈ best, ok b.1)
    (admitted : ∀ x ∈ candidates, admits x.2 = .ok (eligible x.2) ∧ (eligible x.2 = true → ok x.1)) :
    Value.scanAbove (value current) admits (candidates.map (Prod.map value id))
        (best.map (Prod.map value id)) =
      .ok ((scanAbove less current (candidates.filter (eligible ·.2)) best).map
        (Prod.map value id)) := by
  induction candidates generalizing best with
  | nil => rfl
  | cons x rest ih =>
      obtain ⟨hadmits, hok⟩ := admitted x List.mem_cons_self
      have hrest := fun y hy => admitted y (List.mem_cons_of_mem x hy)
      rw [List.map_cons, Value.scanAbove, Prod.map_snd, Prod.map_fst, id_eq, hadmits, ok_bind]
      cases helig : eligible x.2 with
      | false =>
          rw [List.filter_cons_of_neg (by simp [helig])]
          exact ih best hbest hrest
      | true =>
          have hfilter : (x :: rest).filter (eligible ·.2) = x :: rest.filter (eligible ·.2) :=
            List.filter_cons_of_pos helig
          rw [hfilter, scanAbove, improves_eq compares hcurrent (hok helig) hbest]
          cases less current x.1 && best.all (fun b => less x.1 b.1) with
          | true =>
              refine ih (some x) ?_ hrest
              rintro b ⟨⟩
              exact hok helig
          | false => exact ih best hbest hrest

/-- A scan over values is the scan over keys, if those that are let in can be compared. -/
theorem backwardTarget_of_flags (ok : α → Prop) (flags : Option (List Bool))
    (compares : ∀ a b, ok a → ok b → Value.less (value a) (value b) = .ok (less a b))
    {keys : List α} {eligible : Nat → Bool} {i : Nat} {current : α}
    (hi : keys[i]? = some current) (hcurrent : ok current)
    (hflags : ∀ (j : Nat) (a : α), keys[j]? = some a →
      flags.elim (some true) (·[j]?) = some (eligible j))
    (hok : ∀ (j : Nat) (a : α), keys[j]? = some a → eligible j = true → ok a) :
    Value.backwardTarget (keys.map value) flags i = .ok (backwardTarget less keys eligible i) := by
  have hnonneg : ¬ (i : Int) < 0 := Int.not_lt.mpr (Int.natCast_nonneg i)
  have hvalue : (keys.map value)[i]? = some (value current) := by simp [hi]
  unfold Value.backwardTarget
  simp only [hnonneg, if_false, Int.toNat_natCast, hvalue, backwardTarget, hi, ← List.map_take,
    List.zipIdx_map]
  have hscan : ∀ admits, (∀ x ∈ (keys.take i).zipIdx,
      admits x.2 = .ok (eligible x.2) ∧ (eligible x.2 = true → ok x.1)) →
        Value.scanAbove (value current) admits ((keys.take i).zipIdx.map (Prod.map value id)) none =
          .ok ((scanAbove less current ((keys.take i).zipIdx.filter (eligible ·.2)) none).map
            (Prod.map value id)) :=
    fun admits => scanAbove_eq compares hcurrent none (by simp)
  rw [hscan, ok_bind, Option.map_map]
  · rfl
  · intro x hx
    rw [List.mem_zipIdx_iff_getElem?, List.getElem?_take] at hx
    have hx' := (Option.ite_none_right_eq_some.mp hx).2
    have hflag := hflags x.2 x.1 hx'
    refine ⟨?_, hok x.2 x.1 hx'⟩
    cases flags with
    | none => exact congrArg Except.ok (Option.some_injective _ hflag)
    | some fs =>
        rw [Option.elim_some] at hflag
        simp only [hflag]

/-- The flags of a scan may tell by its key what is let in. -/
theorem backwardTarget_eq (ok : α → Prop) (flag : Option (α → Bool))
    (compares : ∀ a b, ok a → ok b → Value.less (value a) (value b) = .ok (less a b))
    {keys : List α} {eligible : Nat → Bool} {i : Nat} {current : α}
    (hi : keys[i]? = some current) (hcurrent : ok current)
    (hflag : ∀ (j : Nat) (a : α), keys[j]? = some a → eligible j = flag.elim true (· a))
    (hok : ∀ a, flag.elim true (· a) = true → ok a) :
    Value.backwardTarget (keys.map value) (flag.map fun f => keys.map f) i =
      .ok (backwardTarget less keys eligible i) := by
  apply backwardTarget_of_flags ok _ compares hi hcurrent
  · intro j a ha
    rw [hflag j a ha]
    cases flag with
    | none => rfl
    | some f => simp [ha]
  · intro j a ha helig
    exact hok a (hflag j a ha ▸ helig)

end Scan

/-! ### Checks -/

namespace Placed

variable {policy : Policy} {items : List Placed} {g : Nat}

theorem strictWrongOrder_eq {i j : Nat} {v : Violation} (h : wrongOrder items i j = some v) :
    strictWrongOrder items i j = .ok v := by
  obtain ⟨a, b, ha, hb, rfl⟩ := wrongOrder_eq_some_iff.mp h
  rw [strictWrongOrder, fetch_of_getElem? ha, ok_bind, fetch_of_getElem? hb, ok_bind]
  rfl

theorem exists_wrongOrder {i j : Nat} (hi : i < items.length) (hj : j < items.length) :
    ∃ v, wrongOrder items i j = some v :=
  ⟨_, wrongOrder_eq_some_iff.mpr
    ⟨_, _, List.getElem?_eq_getElem hi, List.getElem?_eq_getElem hj, rfl⟩⟩

/-- A scan that finds a position in front of its own has a report. -/
theorem strictScan_eq {members : List Nat} (inside : ∀ m ∈ members, m < items.length)
    {keys : List Value} {eligible : Option (List Bool)} {pos : Nat} {found : Option Nat}
    (hpos : pos < members.length) (hscan : Value.backwardTarget keys eligible pos = .ok found)
    (hbefore : ∀ t ∈ found, t < pos) :
    strictScan items members keys eligible pos =
      .ok (found.bind (against items members pos)) := by
  rw [strictScan, hscan, ok_bind]
  cases found with
  | none => rfl
  | some target =>
      have htarget : target < members.length := (hbefore target rfl).trans hpos
      obtain ⟨v, hv⟩ := exists_wrongOrder (inside _ (List.getElem_mem hpos))
        (inside _ (List.getElem_mem htarget))
      have hagainst : against items members pos target = some v :=
        against_eq_some_iff.mpr
          ⟨_, _, List.getElem?_eq_getElem hpos, List.getElem?_eq_getElem htarget, hv⟩
      simp only [fetch_of_getElem? (List.getElem?_eq_getElem hpos),
        fetch_of_getElem? (List.getElem?_eq_getElem htarget), ok_bind, strictWrongOrder_eq hv,
        Option.bind_some, hagainst]
      rfl

theorem strictBlankLine_eq {i : Nat} (hi : i < items.length) :
    strictBlankLine policy items i = .ok (blankLine policy items i) := by
  have hitem := List.getElem?_eq_getElem hi
  simp only [strictBlankLine, fetch_of_getElem? hitem, ok_bind, blankLine, startsGroup, hitem]
  cases policy.emptyLines && !(items.take i).any
      (·.placement.group == items[i].placement.group) && decide (0 < i) with
  | false => rfl
  | true =>
      have hprevious := List.getElem?_eq_getElem (Nat.lt_of_le_of_lt (Nat.sub_le i 1) hi)
      simp only [fetch_of_getElem? hprevious, ok_bind, hprevious]
      cases hline : lineBetween items[i - 1].statement items[i].statement <;>
        simp [hline, pure, Except.pure]

theorem strictGroupScan_eq {i : Nat} (hi : i < items.length) :
    strictScan items (List.range items.length)
        (items.map fun item => Value.int item.placement.group) none i =
      .ok (crossGroup items i) := by
  have hscan : Value.backwardTarget (items.map fun item => Value.int item.placement.group) none i =
      .ok (backwardTarget (fun a b => decide (a < b)) (items.map (·.placement.group))
        (fun _ => true) i) := by
    rw [backwardTarget_map]
    refine backwardTarget_eq (fun _ => True) none ?_ (List.getElem?_eq_getElem hi)
      trivial (fun _ _ _ => rfl) fun _ _ => trivial
    intro a b _ _
    rw [Value.less_int]
    simp
  rw [strictScan_eq (fun m => List.mem_range.mp) (by simpa using hi) hscan
    fun t ht => lt_of_backwardTarget ht, crossGroup]
  congr 1
  cases hfound : backwardTarget (fun a b => decide (a < b)) (items.map (·.placement.group))
      (fun _ => true) i with
  | none => rfl
  | some j =>
      have hj : j < items.length := (lt_of_backwardTarget hfound).trans hi
      simp [against, hi, hj]

theorem strictGroups_eq : strictGroups policy items = .ok (checkGroups policy items) := by
  rw [strictGroups, checkGroups, List.flatMap_def,
    mapM_eq_ok (g := fun i => (crossGroup items i).toList ++ (blankLine policy items i).toList),
    ok_bind]
  · rfl
  · intro i hi
    have hlen := List.mem_range.mp hi
    rw [strictGroupScan_eq hlen, ok_bind, strictBlankLine_eq hlen, ok_bind]
    rfl

/-! ### Buckets -/

theorem mapM_fetch {members : List Nat} (inside : ∀ m ∈ members, m < items.length) :
    members.mapM (fetch items) = .ok (pick items members) := by
  induction members with
  | nil => rfl
  | cons m rest ih =>
      have hm := List.getElem?_eq_getElem (inside m List.mem_cons_self)
      rw [List.mapM_cons, fetch_of_getElem? hm, ok_bind,
        ih fun k hk => inside k (List.mem_cons_of_mem m hk), ok_bind]
      simp [pick, hm, pure, Except.pure]

theorem lt_of_mem_membersOf {m : Nat} (h : m ∈ membersOf items g) : m < items.length :=
  (mem_membersOf.mp h).1

theorem strictSubScan_eq {subs : List (Option Int)} {pos : Nat} {sub : Int}
    (hpos : subs[pos]? = some (some sub)) :
    Value.backwardTarget (subs.map subValue) (some (subs.map (·.isSome))) pos =
      .ok (backwardTarget (fun a b => decide (a < b)) (subs.map (·.getD 0))
        (fun j => (subs[j]?.join).isSome) pos) := by
  rw [backwardTarget_map]
  refine backwardTarget_eq (fun sub => sub.isSome = true) (some Option.isSome) ?_ hpos rfl
    ?_ fun _ h => h
  · intro a b ha hb
    obtain ⟨m, rfl⟩ := Option.isSome_iff_exists.mp ha
    obtain ⟨n, rfl⟩ := Option.isSome_iff_exists.mp hb
    exact Value.less_int m n
  · intro j a hj
    rw [hj]
    rfl

theorem strictSubOrder_eq :
    strictSubOrder policy items (membersOf items g) =
      .ok (checkSubOrder policy items (membersOf items g)) := by
  unfold strictSubOrder checkSubOrder
  split
  · rfl
  rw [mapM_fetch fun m => lt_of_mem_membersOf, ok_bind]
  have hlength : ((pick items (membersOf items g)).map (·.placement.sub)).length =
      (membersOf items g).length := by
    rw [List.length_map, length_pick]
  generalize (pick items (membersOf items g)).map (·.placement.sub) = subs at hlength
  refine mapM_reports fun pos hpos => ?_
  have hlen := List.mem_range.mp hpos
  have hget := List.getElem?_eq_getElem hlen
  rw [fetch_of_getElem? hget, ok_bind]
  simp only [hget]
  cases hsub : subs[pos] with
  | none => rfl
  | some sub =>
      exact strictScan_eq (fun m => lt_of_mem_membersOf) (hlength ▸ hlen)
        (strictSubScan_eq (hsub ▸ hget)) fun t ht => lt_of_backwardTarget ht

theorem strictNameScan_eq {group : List Placed} {pos : Nat} (hpos : pos < group.length)
    (sub : Option Int) :
    Value.backwardTarget ((group.map (·.statement.firstName)).map nameValue)
        (some ((group.map (·.placement.sub)).map fun other => sub.isNone || other == sub)) pos =
      .ok (backwardTarget nameLess (group.map (·.statement.firstName))
        (fun j => sub.isNone || (group.map (·.placement.sub))[j]?.join == sub) pos) := by
  rw [List.map_map, List.map_map, backwardTarget_map]
  refine backwardTarget_eq (fun _ => True)
    (some ((fun other => sub.isNone || other == sub) ∘ fun a => a.placement.sub))
    (fun a b _ _ => less_nameValue _ _) (List.getElem?_eq_getElem hpos) trivial ?_
    fun _ _ => trivial
  intro j a hj
  simp [hj]

theorem strictAlphabetical_eq :
    strictAlphabetical policy items (membersOf items g) =
      .ok (checkAlphabetical policy items (membersOf items g)) := by
  unfold strictAlphabetical checkAlphabetical
  split
  · rfl
  rw [mapM_fetch fun m => lt_of_mem_membersOf, ok_bind]
  refine mapM_reports fun pos hpos => ?_
  have hlen := List.mem_range.mp hpos
  have hmember : pos < (membersOf items g).length := by simpa [length_pick] using hlen
  have hname : ((pick items (membersOf items g)).map (·.statement.firstName))[pos]? =
      some (pick items (membersOf items g))[pos].statement.firstName := by simp [hlen]
  have hsub : ((pick items (membersOf items g)).map (·.placement.sub))[pos]? =
      some (pick items (membersOf items g))[pos].placement.sub := by simp [hlen]
  rw [fetch_of_getElem? hname, ok_bind, hname, fetch_of_getElem? hsub, hsub]
  cases (pick items (membersOf items g))[pos].statement.firstName with
  | none => rfl
  | some name =>
      exact strictScan_eq (fun m => lt_of_mem_membersOf) hmember (strictNameScan_eq hlen _)
        fun t ht => lt_of_backwardTarget ht

theorem strictBucket_eq :
    strictBucket policy items (membersOf items g) =
      .ok (checkBucket policy items (membersOf items g)) := by
  have hnames : (membersOf items g).mapM (fun i => do
      return checkMembers policy i (← fetch items i).statement) =
        Except.ok ((membersOf items g).map fun i =>
          items[i]?.bind fun item => checkMembers policy i item.statement) := by
    refine mapM_eq_ok fun i hi => ?_
    have hget := List.getElem?_eq_getElem (lt_of_mem_membersOf hi)
    rw [fetch_of_getElem? hget, ok_bind, hget]
    rfl
  rw [strictBucket, strictSubOrder_eq, ok_bind, hnames, ok_bind, strictAlphabetical_eq, ok_bind,
    checkBucket, List.reduceOption, List.filterMap_map]
  rfl

theorem strictOrder_eq (policy : Policy) (items : List Placed) :
    strictOrder policy items = .ok (checkOrder policy items) := by
  have hbuckets : (partition (fun a b => decide (a ≤ b)) (items.map (·.placement.group))).mapM
      (strictBucket policy items) =
        .ok ((partition (fun a b => decide (a ≤ b)) (items.map (·.placement.group))).map
          (checkBucket policy items)) := by
    refine mapM_eq_ok fun members hmembers => ?_
    obtain ⟨g, -, rfl⟩ := mem_partition.mp hmembers
    exact strictBucket_eq
  rw [strictOrder, strictGroups_eq, ok_bind, hbuckets, ok_bind, checkOrder, List.flatMap_def]
  rfl

end Placed

/-! ### Checking -/

/-- Where no group is missing, a check can only stop at a slot outside the policy. -/
theorem Policy.Closed.strictCheck_eq {policy : Policy} (h : policy.Closed) (newline : Text)
    (statements : List Statement) :
    strictCheck policy newline statements =
      (checkStatements policy newline statements).mapError .inconsistent := by
  have hplaces : statements.mapM (fun s => policy.strictPlace s.source) =
      .ok (policy.placeAll statements) :=
    mapM_eq_ok fun s _ => h.strictPlace_eq s.source
  unfold strictCheck checkStatements
  split
  · rfl
  rw [hplaces, ok_bind]
  simp only
  cases verify policy statements
      ((policy.placeAll statements).map fun p => (Value.int p.group, p.sub)) with
  | error why => rfl
  | ok items =>
      simp only [Except.mapError, ok_bind, Placed.strictOrder_eq policy items, Except.map]
      rfl

/-- Under a policy that was built from a value no check stops: every group that a pattern refers to
is there, every placement is in a slot of the policy, and one by a sub-pattern is in the slot of a
group that has the sub-pattern. -/
theorem checking_never_fails (compile : Regex.Compiler) (data : Value) (path : Option String)
    (policy : Policy) (built : Policy.ofValue compile data path = .ok policy) (newline : Text)
    (statements : List Statement) :
    (∃ violations, strictCheck policy newline statements = .ok violations ∧
      checkStatements policy newline statements = .ok violations) ∧
    (∀ name, .group name ∈ policy.patterns → ∃ subs, policy.groups.lookup name = some subs) ∧
    ∀ s ∈ statements, (policy.place s.source).group ≤ policy.order.length ∧
      ∀ sub, (policy.place s.source).sub = some sub →
        ∃ name subs n, policy.order[(policy.place s.source).group]? = some name ∧
          policy.patterns[(policy.place s.source).group]? = some (.group name) ∧
          policy.groups.lookup name = some subs ∧ sub = Int.ofNat n ∧ n < subs.length := by
  have resolved := Policy.resolved_of_ofValue built
  have checked := checkStatements_of_resolved resolved newline statements
  refine ⟨⟨_, ?_, checked⟩, resolved.closed, ?_⟩
  · rw [resolved.closed.strictCheck_eq, checked]
    rfl
  · intro s _
    exact ⟨resolved.place_group_le s.source, fun sub hsub => resolved.sub_lt hsub⟩

/-- A group that takes the name of the everything-else token, one without sub-patterns that is named
twice, and one whose name reads as an expression. -/
def Value.mixedSlot : Value :=
  .map [
    (.str Settings.order,
      .list [.str Settings.everythingElse, .str "/a/", .str "none", .str "none"]),
    (.str Settings.groups, .map [
      (.str Settings.everythingElse, .list [.str "b", .str "a"]),
      (.str "none", .list []),
      (.str "/a/", .list [.str "z"])])]

def Policy.mixedSlot : Policy :=
  { order := [Settings.everythingElse, "/a/", "none", "none"]
    patterns := [.group Settings.everythingElse,
      .regex "/a/" (Regex.Expr.seq (.char ⟨false, [.code 97], false, false⟩) .empty).foundIn,
      .group "none", .group "none"]
    groups := [(Settings.everythingElse, [.literal "b", .literal "a"]), ("none", []),
      ("/a/", [.literal "z"])] }

theorem Policy.ofValue_mixedSlot :
    ofValue Regex.compile .mixedSlot none = .ok .mixedSlot := rfl

/-- Of three statements in one slot the second has no sub-pattern, and the scan passes over it. -/
theorem checking_never_fails_mixedSlot :
    Policy.ofValue Regex.compile .mixedSlot none = .ok .mixedSlot ∧
    (∃ violations,
      strictCheck .mixedSlot ['\n'] [.single "a" true 1, .single "z" true 2, .single "b" true 3] =
        .ok violations ∧
      violations.map (fun v => (v.index, v.place)) = [(2, some 0)]) ∧
    (∃ subs, Policy.mixedSlot.groups.lookup "none" = some subs) ∧
    (Policy.mixedSlot.place "z").group ≤ 4 ∧ (Policy.mixedSlot.place "z").sub = none ∧
    ∃ name subs n, Policy.mixedSlot.order[0]? = some name ∧
      Policy.mixedSlot.groups.lookup name = some subs ∧ 1 = Int.ofNat n ∧ n < subs.length := by
  obtain ⟨⟨violations, strict, checked⟩, groups, places⟩ := checking_never_fails Regex.compile
    .mixedSlot none .mixedSlot Policy.ofValue_mixedSlot ['\n']
    [.single "a" true 1, .single "z" true 2, .single "b" true 3]
  have found : (checkStatements .mixedSlot ['\n']
      [.single "a" true 1, .single "z" true 2, .single "b" true 3]).map
        (·.map fun v => (v.index, v.place)) = .ok [(2, some 0)] := by cbv
  have first : Policy.mixedSlot.place "a" = ⟨0, some 1⟩ := by decide
  have second : Policy.mixedSlot.place "z" = ⟨0, none⟩ := by decide
  rw [checked] at found
  obtain ⟨-, bySub⟩ := places (.single "a" true 1) (by simp)
  obtain ⟨inside, -⟩ := places (.single "z" true 2) (by simp)
  obtain ⟨name, subs, n, token, -, lookup, hn, less⟩ := bySub 1 (congrArg Placement.sub first)
  refine ⟨Policy.ofValue_mixedSlot, ⟨violations, strict, Except.ok.inj found⟩,
    groups "none" (by simp [Policy.mixedSlot]), inside, congrArg Placement.sub second,
    name, subs, n, ?_, lookup, hn, less⟩
  have hsource : (Statement.single "a" true 1).source = "a" := rfl
  rwa [hsource, first] at token

end ImportOrder
