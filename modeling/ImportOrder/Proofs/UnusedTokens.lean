import ImportOrder.Proofs.CleanOrder

/-!
Tokens that claim no statement. A new token of a policy moves the slots behind it up by one, the
slot of everything else among them. Slots are compared with each other and with nothing else, so
the checks see no difference between the old slots and the new ones.
-/

namespace ImportOrder

/-! ### Slots under another numbering -/

theorem bucketKeys_map {σ : Nat → Nat} (mono : StrictMono σ) (keys : List Nat) :
    bucketKeys (keys.map σ) = (bucketKeys keys).map σ := by
  have increasing : ((bucketKeys keys).map σ).Pairwise (· < ·) :=
    (bucketKeys_increasing keys).map σ fun _ _ h => mono h
  apply (bucketKeys_increasing _).eq_of_mem_iff increasing
  intro key
  simp only [mem_bucketKeys, List.mem_map]

theorem partition_map {σ : Nat → Nat} (mono : StrictMono σ) (keys : List Nat) :
    partition (fun a b => decide (a ≤ b)) (keys.map σ) =
      partition (fun a b => decide (a ≤ b)) keys := by
  rw [partition_eq, partition_eq, bucketKeys_map mono, List.map_map]
  apply List.map_congr_left
  intro key _
  simp only [Function.comp_apply, bucket, List.zipIdx_map, List.filter_map, List.map_map]
  congr 1
  apply List.filter_congr
  intro x _
  simp [mono.injective.eq_iff]

namespace Placed

def regroup (σ : Nat → Nat) (item : Placed) : Placed :=
  { item with placement := { item.placement with group := σ item.placement.group } }

section Regroup

variable {σ : Nat → Nat} (policy : Policy) (items : List Placed) (members : List Nat) (i j : Nat)

theorem wrongOrder_regroup : wrongOrder (items.map (regroup σ)) i j = wrongOrder items i j := by
  cases hi : items[i]? <;> cases hj : items[j]? <;> simp [wrongOrder, hi, hj, regroup]

theorem crossGroup_regroup (mono : StrictMono σ) :
    crossGroup (items.map (regroup σ)) i = crossGroup items i := by
  have hkeys : (items.map (regroup σ)).map (·.placement.group) =
      (items.map (·.placement.group)).map σ := by
    simp [regroup]
  have hless : (fun a b => decide (σ a < σ b)) = fun a b : Nat => decide (a < b) := by
    funext a b
    simp only [mono.lt_iff_lt]
  have hreport : wrongOrder (items.map (regroup σ)) i = wrongOrder items i := by
    funext j
    exact wrongOrder_regroup items i j
  rw [crossGroup, crossGroup, hkeys, backwardTarget_map, hless, hreport]

theorem startsGroup_regroup (mono : StrictMono σ) :
    startsGroup (items.map (regroup σ)) i = startsGroup items i := by
  unfold startsGroup
  rw [List.getElem?_map]
  cases items[i]? with
  | none => rfl
  | some item =>
      have hsame : ((fun x => x.placement.group == σ item.placement.group) ∘ regroup σ) =
          fun x : Placed => x.placement.group == item.placement.group := by
        funext x
        simp [regroup, mono.injective.eq_iff]
      rw [← List.map_take, Option.map_some]
      simp only [List.any_map]
      exact congrArg (fun p => !(items.take i).any p) hsame

theorem blankLine_regroup (mono : StrictMono σ) :
    blankLine policy (items.map (regroup σ)) i = blankLine policy items i := by
  rw [blankLine, blankLine, startsGroup_regroup items i mono, List.getElem?_map,
    List.getElem?_map]
  cases items[i]? <;> cases items[i - 1]? <;> rfl

theorem checkGroups_regroup (mono : StrictMono σ) :
    checkGroups policy (items.map (regroup σ)) = checkGroups policy items := by
  simp only [checkGroups, List.length_map, crossGroup_regroup items _ mono,
    blankLine_regroup policy items _ mono]

theorem pick_regroup : pick (items.map (regroup σ)) members = (pick items members).map (regroup σ) := by
  simp [pick, List.map_filterMap]

theorem against_regroup :
    against (items.map (regroup σ)) members i = against items members i := by
  funext t
  simp only [against, wrongOrder_regroup]

/-- Inside a bucket slots do not count. -/
theorem checkBucket_regroup :
    checkBucket policy (items.map (regroup σ)) members = checkBucket policy items members := by
  have hsubs : ((pick items members).map (regroup σ)).map (·.placement.sub) =
      (pick items members).map (·.placement.sub) := by simp [regroup]
  have hnames : ((pick items members).map (regroup σ)).map (·.statement.firstName) =
      (pick items members).map (·.statement.firstName) := by simp [regroup]
  have hstatements : ∀ i, ((items.map (regroup σ))[i]?.bind fun item =>
      checkMembers policy i item.statement) =
        items[i]?.bind fun item => checkMembers policy i item.statement := by
    intro i
    cases hi : items[i]? <;> simp [hi, regroup]
  simp only [checkBucket, checkSubOrder, checkAlphabetical, pick_regroup, hsubs, hnames,
    against_regroup, hstatements, List.length_map]

/-- The checks see slots only by their order. -/
theorem checkOrder_regroup (mono : StrictMono σ) :
    checkOrder policy (items.map (regroup σ)) = checkOrder policy items := by
  have hkeys : (items.map (regroup σ)).map (·.placement.group) =
      (items.map (·.placement.group)).map σ := by
    simp [regroup]
  have hbuckets : checkBucket policy (items.map (regroup σ)) = checkBucket policy items := by
    funext members
    exact checkBucket_regroup policy items members
  simp only [checkOrder, checkGroups_regroup policy items mono, hkeys, partition_map mono, hbuckets]

end Regroup

end Placed

/-! ### A policy with one more token -/

namespace Policy

/-- The slot to which a new token at slot `n` moves a slot. -/
def makeRoom (n slot : Nat) : Nat := if slot < n then slot else slot + 1

theorem strictMono_makeRoom (n : Nat) : StrictMono (makeRoom n) := by
  intro a b hab
  unfold makeRoom
  split <;> split <;> omega

def withToken (p : Policy) (n : Nat) (token : String) (pattern : Pattern) : Policy :=
  { p with order := p.order.insertIdx n token, patterns := p.patterns.insertIdx n pattern }

theorem insertIdx_eq {α : Type} {xs : List α} {n : Nat} (h : n ≤ xs.length) (a : α) :
    xs.insertIdx n a = xs.take n ++ a :: xs.drop n := by
  induction xs generalizing n with
  | nil =>
      obtain rfl : n = 0 := by simpa using h
      rfl
  | cons x rest ih =>
      cases n with
      | zero => rfl
      | succ n =>
          rw [List.insertIdx_succ_cons, ih (Nat.le_of_succ_le_succ h)]
          rfl

variable {p : Policy} {n : Nat} {token : String} {pattern : Pattern}

theorem everythingElse_withToken (hn : n ≤ p.order.length) (hne : token ≠ Settings.everythingElse) :
    (p.withToken n token pattern).everythingElse = makeRoom n p.everythingElse := by
  have hsplit : p.order.idxOf Settings.everythingElse =
      (p.order.take n ++ p.order.drop n).idxOf Settings.everythingElse := by
    rw [List.take_append_drop]
  have hlength : (p.order.take n).length = n := List.length_take_of_le hn
  rw [everythingElse, everythingElse, withToken, hsplit]
  simp only [insertIdx_eq hn, List.idxOf_append, hlength]
  by_cases hmem : Settings.everythingElse ∈ p.order.take n
  · have hlt := List.idxOf_lt_length_of_mem hmem
    rw [hlength] at hlt
    simp only [hmem, if_true, makeRoom, hlt]
  · rw [if_neg hmem, if_neg hmem, List.idxOf_cons_ne _ hne]
    simp only [makeRoom]
    split <;> omega

section Claimed

variable {source : String} {patterns : List Pattern}

theorem claimedFrom_append (slot : Nat) (back : List Pattern) :
    p.claimedFrom source slot (patterns ++ back) =
      (p.claimedFrom source slot patterns).or
        (p.claimedFrom source (slot + patterns.length) back) := by
  induction patterns generalizing slot with
  | nil => rfl
  | cons pattern rest ih =>
      have hslot : slot + 1 + rest.length = slot + (pattern :: rest).length := by
        rw [List.length_cons]
        omega
      rw [List.cons_append, claimedFrom, claimedFrom, ih, hslot]
      cases p.claim source pattern <;> rfl

theorem claimedFrom_group {slot : Nat} {q : Placement}
    (h : p.claimedFrom source slot patterns = some q) :
    slot ≤ q.group ∧ q.group < slot + patterns.length := by
  induction patterns generalizing slot with
  | nil => cases h
  | cons pattern rest ih =>
      rw [claimedFrom] at h
      rw [List.length_cons]
      cases hclaim : p.claim source pattern with
      | some sub =>
          rw [hclaim] at h
          cases h
          exact ⟨Nat.le_refl slot, by simp only; omega⟩
      | none =>
          rw [hclaim] at h
          have := ih h
          omega

theorem claimedFrom_succ (slot : Nat) :
    p.claimedFrom source (slot + 1) patterns =
      (p.claimedFrom source slot patterns).map fun q => { q with group := q.group + 1 } := by
  induction patterns generalizing slot with
  | nil => rfl
  | cons pattern rest ih =>
      rw [claimedFrom, claimedFrom, ih]
      cases p.claim source pattern <;> rfl

theorem claim_withToken (other : Pattern) :
    (p.withToken n token pattern).claim source other = p.claim source other := by
  cases other <;> rfl

theorem claimedFrom_withToken (slot : Nat) :
    (p.withToken n token pattern).claimedFrom source slot patterns =
      p.claimedFrom source slot patterns := by
  induction patterns generalizing slot with
  | nil => rfl
  | cons other rest ih => rw [claimedFrom, claimedFrom, ih, claim_withToken]

end Claimed

theorem Resolved.place_withToken (h : p.Resolved) (hn : n ≤ p.order.length)
    (hne : token ≠ Settings.everythingElse) {source : String}
    (unclaimed : p.claim source pattern = none) :
    (p.withToken n token pattern).place source =
      { p.place source with group := makeRoom n (p.place source).group } := by
  have hpatterns : n ≤ p.patterns.length := h.length_eq ▸ hn
  have hlength : (p.patterns.take n).length = n := List.length_take_of_le hpatterns
  have hold : p.place source = ((p.claimedFrom source 0 (p.patterns.take n)).or
      (p.claimedFrom source n (p.patterns.drop n))).getD ⟨p.everythingElse, none⟩ := by
    conv_lhs => rw [place_eq, ← List.take_append_drop n p.patterns, claimedFrom_append, hlength,
      Nat.zero_add]
  have hnew : (p.withToken n token pattern).place source =
      ((p.claimedFrom source 0 (p.patterns.take n)).or
        (p.claimedFrom source (n + 1) (p.patterns.drop n))).getD
          ⟨makeRoom n p.everythingElse, none⟩ := by
    rw [place_eq, everythingElse_withToken hn hne, claimedFrom_withToken]
    simp only [withToken, insertIdx_eq hpatterns]
    rw [claimedFrom_append, hlength, Nat.zero_add, claimedFrom, unclaimed]
  rw [hold, hnew]
  cases hfront : p.claimedFrom source 0 (p.patterns.take n) with
  | some q =>
      have := (claimedFrom_group hfront).2
      have hlt : q.group < n := by omega
      simp [makeRoom, hlt]
  | none =>
      rw [Option.none_or, Option.none_or, claimedFrom_succ]
      cases hback : p.claimedFrom source n (p.patterns.drop n) with
      | some q =>
          have := (claimedFrom_group hback).1
          have hge : ¬ q.group < n := by omega
          simp [makeRoom, hge]
      | none => rfl

theorem Resolved.placed_withToken (h : p.Resolved) (hn : n ≤ p.order.length)
    (hne : token ≠ Settings.everythingElse) {statements : List Statement}
    (unclaimed : ∀ s ∈ statements, p.claim s.source pattern = none) :
    (p.withToken n token pattern).placed statements =
      (p.placed statements).map (Placed.regroup (makeRoom n)) := by
  rw [placed, placed, List.map_map]
  apply List.map_congr_left
  intro s hs
  rw [h.place_withToken hn hne (unclaimed s hs)]
  rfl

end Policy

/-! ### The value of such a policy -/

namespace Value

theorem sameKey_str {v : Value} {name : String} : v.sameKey (.str name) = true ↔ v = .str name := by
  cases v <;> simp [sameKey, rank?]

theorem field_insert_self (name : String) (v : Value) (entries : List (Value × Value)) :
    field name (insert (.str name) v entries) = some v := by
  induction entries with
  | nil => simp [insert, field, lookup, sameKey]
  | cons e rest ih =>
      rw [insert]
      by_cases he : e.1.sameKey (.str name) = true
      · simp [he, field, lookup]
      · simpa [he, field, lookup] using ih

theorem field_insert_of_ne {name other : String} (hne : other ≠ name) (v : Value)
    (entries : List (Value × Value)) :
    field other (insert (.str name) v entries) = field other entries := by
  induction entries with
  | nil => simp [insert, field, lookup, sameKey, hne.symm]
  | cons e rest ih =>
      rw [insert]
      by_cases he : e.1.sameKey (.str name) = true
      · have hkey : e.1.sameKey (.str other) = false := by
          rw [sameKey_str.mp he]
          simp [sameKey, hne.symm]
        simp [he, field, lookup, hkey]
      · by_cases ho : e.1.sameKey (.str other) = true
        · simp [he, ho, field, lookup]
        · simpa [he, ho, field, lookup] using ih

end Value

namespace Policy

/-- The entries of a policy whose `order` has one more token. -/
def insertToken (n : Nat) (token : String) (tokens : List Value)
    (entries : List (Value × Value)) : List (Value × Value) :=
  Value.insert (.str Settings.order) (.list (tokens.insertIdx n (.str token))) entries

variable {compile : Regex.Compiler}

def readGroups (compile : Regex.Compiler) (tokens : List (String × List String)) :
    Except Pattern.Failure (List (String × List Pattern)) :=
  tokens.mapM fun g => do return (g.1, ← g.2.mapM (Pattern.parse compile (tokens.map (·.1))))

/-- A policy has the groups, the order and the switches of its entries. -/
theorem resolve_eq_ok {entries : List (Value × Value)} {p : Policy}
    (h : resolve compile entries = .ok p) :
    readGroups compile (groupTokens entries) = .ok p.groups ∧
    p = { p with
      order := strings ((Value.field Settings.order entries).getD .null)
      emptyLines := switchOn entries Settings.emptyLines
      ignoreAlphabeticalSort := switchOn entries Settings.ignoreAlphabeticalSort
      ignoreInGroupSort := switchOn entries Settings.ignoreInGroupSort
      ignoreMembersSort := switchOn entries Settings.ignoreMembersSort } := by
  rw [resolve] at h
  obtain ⟨groups, hgroups, h⟩ := bind_eq_ok_iff.mp h
  obtain ⟨patterns, -, h⟩ := bind_eq_ok_iff.mp h
  cases h
  exact ⟨hgroups, rfl⟩

theorem forall₂_insertIdx {α β : Type} {R : α → β → Prop}
    (functional : ∀ a b c, R a b → R a c → b = c) {xs : List α} {ys zs : List β} {n : Nat} {x : α}
    (h : List.Forall₂ R xs ys) (hn : n ≤ xs.length) (h' : List.Forall₂ R (xs.insertIdx n x) zs) :
    ∃ y, R x y ∧ zs = ys.insertIdx n y := by
  have unique : ∀ {xs : List α} {ys zs : List β}, List.Forall₂ R xs ys → List.Forall₂ R xs zs →
      zs = ys := by
    intro xs ys zs h h'
    induction h generalizing zs with
    | nil =>
        cases h'
        rfl
    | cons hy _ ih =>
        cases h' with
        | cons hz htail => rw [functional _ _ _ hz hy, ih htail]
  induction h generalizing n zs with
  | nil =>
      obtain rfl : n = 0 := by simpa using hn
      cases h' with
      | cons hy htail =>
          cases htail
          exact ⟨_, hy, rfl⟩
  | @cons a b xs ys hb htail ih =>
      cases n with
      | zero =>
          cases h' with
          | cons hy htail' => exact ⟨_, hy, by rw [unique (.cons hb htail) htail']; rfl⟩
      | succ n =>
          rw [List.insertIdx_succ_cons] at h'
          cases h' with
          | cons hb' htail' =>
              obtain ⟨y, hy, rfl⟩ := ih (Nat.le_of_succ_le_succ hn) htail'
              exact ⟨y, hy, by rw [functional _ _ _ hb' hb, List.insertIdx_succ_cons]⟩

theorem strings_map_str (names : List String) : strings (.list (names.map .str)) = names := by
  rw [strings, List.filterMap_map]
  exact List.filterMap_some

theorem exists_of_isOrder {tokens : List Value} (h : isOrder (some (.list tokens)) = true) :
    ∃ names : List String, tokens = names.map .str := by
  have hall : ∀ v ∈ tokens, v.isString = true := by
    simp only [isOrder, Bool.and_eq_true, List.all_eq_true] at h
    exact h.2
  clear h
  induction tokens with
  | nil => exact ⟨[], rfl⟩
  | cons v rest ih =>
      obtain ⟨names, rfl⟩ := ih fun w hw => hall w (List.mem_cons_of_mem v hw)
      cases v with
      | str s => exact ⟨s :: names, rfl⟩
      | null | bool _ | int _ | float _ | list _ | map _ | bytes _ | date _ | moment _ | pair _ _
      | set _ =>
          cases hall _ List.mem_cons_self

/-- An order without problems is a list of names. -/
theorem exists_names {entries : List (Value × Value)} {tokens : List Value}
    (hproblems : problems (.map entries) = [])
    (horder : Value.field Settings.order entries = some (.list tokens)) :
    ∃ names : List String, tokens = names.map .str := by
  apply exists_of_isOrder
  simp only [problems, List.append_eq_nil_iff] at hproblems
  have hnone : orderProblems entries = [] := hproblems.1.1.2
  rw [orderProblems, horder] at hnone
  by_contra hfalse
  simp [hfalse] at hnone

/-- With one more token accepted, the policy gains the slot of that token and nothing else. -/
theorem ofValue_insertToken {entries : List (Value × Value)} {tokens : List Value}
    {path : Option String} {p p' : Policy} {n : Nat} {token : String}
    (horder : Value.field Settings.order entries = some (.list tokens))
    (built : ofValue compile (.map entries) path = .ok p) (hn : n ≤ tokens.length)
    (built' : ofValue compile (.map (insertToken n token tokens entries)) path = .ok p') :
    n ≤ p.order.length ∧ ∃ pattern,
      Pattern.parse compile (p.groups.map (·.1)) token = .ok pattern ∧
        p' = p.withToken n token pattern := by
  obtain ⟨entries', ⟨⟩, hproblems, hr⟩ := exists_resolve_of_ofValue built
  obtain ⟨entries', ⟨⟩, -, hr'⟩ := exists_resolve_of_ofValue built'
  -- Nothing but the order is read from what was changed.
  have hfield : ∀ name, name ≠ Settings.order →
      Value.field name (insertToken n token tokens entries) = Value.field name entries :=
    fun name hne => Value.field_insert_of_ne hne _ entries
  have hswitch : ∀ name, name ≠ Settings.order →
      switchOn (insertToken n token tokens entries) name = switchOn entries name := by
    intro name hne
    rw [switchOn, switchOn, hfield name hne]
  obtain ⟨names, rfl⟩ := exists_names hproblems horder
  obtain ⟨hread, hp⟩ := resolve_eq_ok hr
  obtain ⟨hread', hp'⟩ := resolve_eq_ok hr'
  have hgroups : p'.groups = p.groups := by
    have : groupTokens (insertToken n token (names.map .str) entries) = groupTokens entries := by
      rw [groupTokens, groupTokens, hfield _ (by decide)]
    rw [this, hread] at hread'
    exact (Except.ok.inj hread').symm
  have horder : p.order = names := by
    rw [hp, horder]
    exact strings_map_str names
  have horder' : p'.order = p.order.insertIdx n token := by
    rw [horder, hp', insertToken, Value.field_insert_self, Option.getD_some, ← List.map_insertIdx]
    exact strings_map_str _
  rw [List.length_map, ← horder] at hn
  obtain ⟨pattern, hpattern, hpatterns⟩ : ∃ pattern,
      Pattern.parse compile (p.groups.map (·.1)) token = .ok pattern ∧
        p'.patterns = p.patterns.insertIdx n pattern := by
    have resolved' := resolvedBy_of_resolve hr'
    rw [ResolvedBy, horder', hgroups] at resolved'
    exact forall₂_insertIdx (fun _ _ _ h h' => Except.ok.inj (h.symm.trans h'))
      (resolvedBy_of_resolve hr) hn resolved'
  refine ⟨hn, pattern, hpattern, ?_⟩
  have hsame : p' = { p with order := p'.order, patterns := p'.patterns } := by
    rw [hswitch _ (by decide), hswitch _ (by decide), hswitch _ (by decide),
      hswitch _ (by decide)] at hp'
    cases p
    cases p'
    simp only [mk.injEq] at hp hp' hgroups ⊢
    simp [hp, hp', hgroups]
  rw [hsame, horder', hpatterns]
  rfl

end Policy

/-- A token that claims none of the modules changes nothing, wherever it stands in the order. -/
theorem unused_token_harmless (compile : Regex.Compiler) (entries : List (Value × Value))
    (tokens : List Value) (path : Option String) (policy policy' : Policy)
    (listed : Value.field Settings.order entries = some (.list tokens))
    (built : Policy.ofValue compile (.map entries) path = .ok policy) (n : Nat)
    (hn : n ≤ tokens.length) (token : String) (hne : token ≠ Settings.everythingElse)
    (built' : Policy.ofValue compile (.map (Policy.insertToken n token tokens entries)) path =
      .ok policy')
    (newline : Text) (statements : List Statement)
    (unused : ∀ pattern, Pattern.parse compile (policy.groups.map (·.1)) token = .ok pattern →
      ∀ s ∈ statements, policy.claim s.source pattern = none) :
    ∃ violations, checkStatements policy newline statements = .ok violations ∧
      checkStatements policy' newline statements = .ok violations := by
  obtain ⟨hlength, pattern, hpattern, rfl⟩ := Policy.ofValue_insertToken listed built hn built'
  have resolved := Policy.resolved_of_ofValue built
  have resolved' := Policy.resolved_of_ofValue built'
  refine ⟨_, checkStatements_of_resolved resolved newline statements, ?_⟩
  rw [checkStatements_of_resolved resolved',
    resolved.placed_withToken hlength hne (unused pattern hpattern),
    Placed.checkOrder_regroup _ _ (Policy.strictMono_makeRoom n)]
  rfl

def Pattern.letterZ : Pattern :=
  .regex "/z/" (Regex.Expr.seq (.char ⟨false, [.code 122], false, false⟩) .empty).foundIn

/-- In front of all other tokens, `/z/` moves every slot by one. -/
theorem unused_token_harmless_regex :
    Policy.ofValue Regex.compile (.map Value.toolsFirstEntries) none = .ok .toolsFirst ∧
    Policy.ofValue Regex.compile (.map (Policy.insertToken 0 "/z/"
      [.str "tools", .str Settings.everythingElse] Value.toolsFirstEntries)) none =
        .ok (Policy.toolsFirst.withToken 0 "/z/" .letterZ) ∧
    (Policy.toolsFirst.place "a").group = 0 ∧
    ((Policy.toolsFirst.withToken 0 "/z/" .letterZ).place "a").group = 1 ∧
    ∃ violations, checkStatements (Policy.toolsFirst.withToken 0 "/z/" .letterZ) ['\n']
        [.single "c" true 1, .single "a" true 2, .single "b" true 3] = .ok violations ∧
      violations.map (fun v => (v.index, v.place)) = [(1, some 0), (2, some 0), (2, some 1)] := by
  have built := Policy.ofValue_toolsFirst Regex.compile
  have built' : Policy.ofValue Regex.compile (.map (Policy.insertToken 0 "/z/"
      [.str "tools", .str Settings.everythingElse] Value.toolsFirstEntries)) none =
        .ok (Policy.toolsFirst.withToken 0 "/z/" .letterZ) := rfl
  have found : (checkStatements .toolsFirst ['\n']
      [.single "c" true 1, .single "a" true 2, .single "b" true 3]).map
        (·.map fun v => (v.index, v.place)) = .ok [(1, some 0), (2, some 0), (2, some 1)] := by cbv
  obtain ⟨violations, checked, checked'⟩ := unused_token_harmless Regex.compile _
    [.str "tools", .str Settings.everythingElse] none .toolsFirst _ rfl built 0 (by decide) "/z/"
    (by decide) built' ['\n'] [.single "c" true 1, .single "a" true 2, .single "b" true 3] (by
      intro pattern hpattern
      obtain rfl : Pattern.letterZ = pattern := Except.ok.inj hpattern
      decide)
  rw [checked] at found
  exact ⟨built, built', by decide, by decide, violations, checked',
    Except.ok.inj found⟩

end ImportOrder
