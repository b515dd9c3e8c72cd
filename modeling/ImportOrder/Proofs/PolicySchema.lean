import ImportOrder.Proofs.StrictChecks
import ImportOrder.Proofs.UnusedTokens

/-!
Which values are policies. A value without problems is one of a fixed form, and whether it becomes a
policy then depends on its regular expressions alone: the first one that does not compile decides,
and only an error of the compiler is reported, not a breakdown. What counts as a regular expression
is decided twice, when problems are looked for and when patterns are read, and the two decisions
agree: so no group of a policy refers to another one.
-/

namespace ImportOrder

theorem exists_of_mapError_eq_error {ε ε' α : Type} {f : ε → ε'} {x : Except ε α} {e : ε'}
    (h : x.mapError f = .error e) : ∃ g, x = .error g ∧ f g = e := by
  cases x with
  | error g => exact ⟨g, rfl, Except.error.inj h⟩
  | ok a => cases h

theorem ConfigurationFailure.ofPattern_injective : Function.Injective ofPattern := by
  intro f g h
  cases f <;> cases g <;> cases h <;> rfl

theorem ConfigurationFailure.ofPattern_ne_invalid {f : Pattern.Failure} {errors : List Problem}
    {path : Option String} : ofPattern f ≠ .refused (.invalid errors path) := by
  cases f <;> exact nofun

/-! ### Tokens between slashes -/

/-- A token that is a slash, an expression, and a slash. -/
def Pattern.Encloses (token : String) (inner : Text) : Prop :=
  token.toList = '/' :: (inner ++ ['/'])

namespace Pattern

variable {token : String} {inner : Text}

theorem Encloses.isRegexToken (h : Encloses token inner) : isRegexToken token = true := by
  have hlength : token.length = inner.length + 2 := by
    rw [← String.length_toList, h]
    simp
  have hlast : token.toList.getLast? = some '/' := by
    rw [h, ← List.cons_append, List.getLast?_concat]
  simp [Pattern.isRegexToken, Settings.regexDelimiter, hlast, hlength, h.symm ▸ List.head?_cons]

theorem Encloses.interior_eq (h : Encloses token inner) : interior token = inner := by
  rw [interior, h, List.drop_one, List.tail_cons, List.dropLast_concat]

theorem isRegexToken_iff : isRegexToken token = true ↔ ∃ inner, Encloses token inner := by
  constructor
  · intro h
    simp only [isRegexToken, Settings.regexDelimiter, Bool.and_eq_true, decide_eq_true_eq,
      beq_iff_eq] at h
    obtain ⟨⟨hlength, hfirst⟩, hlast⟩ := h
    obtain ⟨front, hfront⟩ := List.getLast?_eq_some_iff.mp hlast
    rw [hfront] at hfirst
    cases front with
    | nil =>
        rw [← String.length_toList, hfront] at hlength
        simp at hlength
    | cons c inner =>
        obtain rfl : c = '/' := Option.some.inj hfirst
        exact ⟨inner, hfront⟩
  · rintro ⟨inner, h⟩
    exact h.isRegexToken

-- One slash cannot stand at both ends.
example : isRegexToken "/" = false ∧ isRegexToken "//" = true := by decide

/-- The ways in which the regular expression of a token does not compile. -/
inductive Refused (compile : Regex.Compiler) (token : String) : Failure → Prop where
  | error {inner : Text} {e : Regex.Error} (enclosed : Encloses token inner)
      (fails : compile inner = .error (.error e)) : Refused compile token (.error ⟨token, e⟩)
  | breakdown {inner : Text} {b : Regex.Breakdown} (enclosed : Encloses token inner)
      (fails : compile inner = .error (.breakdown b)) : Refused compile token (.breakdown b)

variable {compile : Regex.Compiler}

theorem parse_eq_error_iff (names : List String) {f : Failure} :
    parse compile names token = .error f ↔ Refused compile token f := by
  constructor
  · intro h
    unfold parse at h
    split at h
    · next hregex =>
        obtain ⟨inner, enclosed⟩ := isRegexToken_iff.mp hregex
        rw [enclosed.interior_eq] at h
        split at h
        · cases h
        · next fails =>
            cases h
            exact .error enclosed fails
        · next fails =>
            cases h
            exact .breakdown enclosed fails
    · split at h <;> cases h
  · intro h
    cases h with
    | error enclosed fails =>
        rw [parse, if_pos enclosed.isRegexToken, enclosed.interior_eq, fails]
    | breakdown enclosed fails =>
        rw [parse, if_pos enclosed.isRegexToken, enclosed.interior_eq, fails]

theorem Encloses.parse_ne_group (h : Encloses token inner) {names : List String} {name : String} :
    parse compile names token ≠ .ok (.group name) := by
  intro hparse
  rw [parse, if_pos h.isRegexToken] at hparse
  split at hparse <;> cases hparse

end Pattern

/-! ### Readings of a list -/

theorem forall_mem_exists_iff {α β : Type} {row : β → α} {P : β → Prop} {xs : List α} :
    (∀ x ∈ xs, ∃ b, x = row b ∧ P b) ↔ ∃ bs : List β, xs = bs.map row ∧ ∀ b ∈ bs, P b := by
  constructor
  · intro h
    induction xs with
    | nil => exact ⟨[], rfl, by simp⟩
    | cons x xs ih =>
        obtain ⟨b, rfl, hb⟩ := h x List.mem_cons_self
        obtain ⟨bs, rfl, hbs⟩ := ih fun y hy => h y (List.mem_cons_of_mem _ hy)
        exact ⟨b :: bs, rfl, List.forall_mem_cons.mpr ⟨hb, hbs⟩⟩
  · rintro ⟨bs, rfl, h⟩
    rw [List.forall_mem_map]
    exact fun b hb => ⟨b, rfl, h b hb⟩

section Failures

variable {ε α β : Type}

theorem failureOf_eq_none {x : Except ε α} : failureOf x = none ↔ ∃ a, x = .ok a := by
  cases x <;> simp [failureOf]

theorem failureOf_bind {x : Except ε α} {f : α → Except ε β} {o : Option ε}
    (h : ∀ a, failureOf (f a) = o) : failureOf (x >>= f) = (failureOf x).or o := by
  cases x with
  | error e => rfl
  | ok a => exact h a

theorem failureOf_bind_pure (x : Except ε α) (f : α → β) :
    failureOf (x >>= fun a => pure (f a)) = failureOf x := by
  rw [failureOf_bind (o := none) fun _ => rfl, Option.or_none]

/-- A list is read up to the first element that fails. -/
theorem failureOf_mapM (f : α → Except ε β) (xs : List α) :
    failureOf (xs.mapM f) = xs.findSome? fun x => failureOf (f x) := by
  induction xs with
  | nil => rfl
  | cons x xs ih =>
      rw [List.mapM_cons, failureOf_bind fun _ => failureOf_bind_pure _ _, ih, List.findSome?_cons]
      cases failureOf (f x) <;> rfl

theorem findSome?_flatMap (f : α → List β) (g : β → Option ε) (xs : List α) :
    (xs.flatMap f).findSome? g = xs.findSome? fun x => (f x).findSome? g := by
  induction xs with
  | nil => rfl
  | cons x xs ih =>
      rw [List.flatMap_cons, List.findSome?_append, ih, List.findSome?_cons]
      cases (f x).findSome? g <;> rfl

end Failures

theorem exists_mem_of_forall₂ {α β : Type} {R : α → β → Prop} {xs : List α} {ys : List β}
    (h : List.Forall₂ R xs ys) {x : α} (hx : x ∈ xs) : ∃ y ∈ ys, R x y := by
  induction h with
  | nil => cases hx
  | cons hxy _ ih =>
      cases List.mem_cons.mp hx with
      | inl heq => exact ⟨_, List.mem_cons_self, heq ▸ hxy⟩
      | inr hx =>
          obtain ⟨y, hy, hR⟩ := ih hx
          exact ⟨y, List.mem_cons_of_mem _ hy, hR⟩

/-! ### The form of a policy -/

namespace Policy

/-- The entries of a mapping from group names to lists of tokens. -/
def table (groups : List (String × List String)) : List (Value × Value) :=
  groups.map fun g => (.str g.1, .list (g.2.map .str))

/-- No token of a group is the name of a group, unless it is a regular expression. -/
def Flat (groups : List (String × List String)) : Prop :=
  ∀ g ∈ groups, ∀ token ∈ g.2, (∃ inner, Pattern.Encloses token inner) ∨
    token ∉ groups.map (·.1)

/-- The groups of a policy, which may be left out. -/
def Declares (entries : List (Value × Value)) (groups : List (String × List String)) : Prop :=
  Value.field "groups" entries = some (.map (table groups)) ∨
    groups = [] ∧ (Value.field "groups" entries = none ∨ Value.field "groups" entries = some .null)

/-- The entries of a policy with the given tokens. -/
structure Schema (entries : List (Value × Value)) (order : List String)
    (groups : List (String × List String)) : Prop where
  options : ∀ e ∈ entries, ∃ option ∈ ["order", "groups", "empty-line-between-groups",
    "ignore-alphabetical-sort", "ignore-in-group-sort", "ignore-members-sort"], e.1 = .str option
  nonempty : order ≠ []
  order : Value.field "order" entries = some (.list (order.map .str))
  flat : Flat groups
  groups : Declares entries groups
  switches : ∀ option ∈ ["empty-line-between-groups", "ignore-alphabetical-sort",
    "ignore-in-group-sort", "ignore-members-sort"], ∀ v, Value.field option entries = some v →
      ∃ b, v = .bool b

variable {entries : List (Value × Value)}

theorem optionProblems_eq_nil :
    optionProblems entries = [] ↔ ∀ e ∈ entries, ∃ option ∈ options, e.1 = .str option := by
  simp only [optionProblems, List.filterMap_eq_nil_iff, ite_eq_left_iff, reduceCtorEq, imp_false,
    not_not, List.any_eq_true, Value.sameKey_str]

theorem orderProblems_eq_nil :
    orderProblems entries = [] ↔ ∃ tokens : List String, tokens ≠ [] ∧
      Value.field Settings.order entries = some (.list (tokens.map .str)) := by
  rw [orderProblems, ite_eq_left_iff]
  simp only [imp_false, not_not, List.cons_ne_nil]
  constructor
  · intro h
    cases hfield : Value.field Settings.order entries with
    | none => simp [hfield, isOrder] at h
    | some v =>
        cases v with
        | list items =>
            rw [hfield] at h
            obtain ⟨tokens, rfl⟩ := exists_of_isOrder h
            refine ⟨tokens, ?_, rfl⟩
            rintro rfl
            simp [isOrder] at h
        | null | bool _ | int _ | float _ | str _ | map _ | bytes _ | date _ | moment _
        | pair _ _ | set _ =>
            simp [hfield, isOrder] at h
  · rintro ⟨tokens, hne, hfield⟩
    simp [hfield, isOrder, Value.isString, hne]

theorem switchProblems_eq_nil {switch : String} :
    switchProblems entries switch = [] ↔
      ∀ v, Value.field switch entries = some v → ∃ b, v = .bool b := by
  unfold switchProblems
  cases Value.field switch entries with
  | none => simp
  | some v => cases v <;> simp

theorem field_table (groups : List (String × List String)) (token : String) :
    (Value.field token (table groups)).isSome = true ↔ token ∈ groups.map (·.1) := by
  simp [Value.field, Value.lookup, table, Value.sameKey_str]

/-- A token that may stand in one of some groups. -/
def Permitted (groups : List (Value × Value)) (token : String) : Prop :=
  (∃ inner, Pattern.Encloses token inner) ∨ Value.field token groups = none

theorem subProblems_eq_nil {groups : List (Value × Value)} {group : String} {sub : Value} :
    subProblems groups group sub = [] ↔ ∃ token, sub = .str token ∧ Permitted groups token := by
  cases sub with
  | str token =>
      simp only [subProblems, Permitted, ← Pattern.isRegexToken_iff, Value.str.injEq,
        exists_eq_left']
      cases Pattern.isRegexToken token <;> simp
  | null | bool _ | int _ | float _ | list _ | map _ | bytes _ | date _ | moment _
  | pair _ _ | set _ =>
      simp [subProblems]

theorem groupProblems_eq_nil {groups : List (Value × Value)} {e : Value × Value} :
    groupProblems groups e = [] ↔
      ∃ g : String × List String, e = (.str g.1, .list (g.2.map .str)) ∧
        ∀ token ∈ g.2, Permitted groups token := by
  obtain ⟨key, v⟩ := e
  cases key with
  | str group =>
      cases v with
      | list subs =>
          simp only [groupProblems, List.flatMap_eq_nil_iff, subProblems_eq_nil,
            forall_mem_exists_iff, Prod.mk.injEq, Value.str.injEq, Value.list.injEq, Prod.exists]
          constructor
          · rintro ⟨tokens, hsubs, permitted⟩
            exact ⟨group, tokens, ⟨rfl, hsubs⟩, permitted⟩
          · rintro ⟨_, tokens, ⟨-, hsubs⟩, permitted⟩
            exact ⟨tokens, hsubs, permitted⟩
      | null | bool _ | int _ | float _ | str _ | map _ | bytes _ | date _ | moment _
      | pair _ _ | set _ =>
          simp [groupProblems]
  | null | bool _ | int _ | float _ | list _ | map _ | bytes _ | date _ | moment _
  | pair _ _ | set _ =>
      simp [groupProblems]

theorem flat_iff {groups : List (String × List String)} :
    Flat groups ↔ ∀ g ∈ groups, ∀ token ∈ g.2, Permitted (table groups) token := by
  simp only [Flat, Permitted, ← Option.not_isSome_iff_eq_none, field_table]

theorem groupsProblems_eq_nil :
    groupsProblems entries = [] ↔ ∃ groups, Declares entries groups ∧ Flat groups := by
  have none_flat : Flat [] := fun g hg => absurd hg List.not_mem_nil
  unfold groupsProblems Declares
  rw [Settings.groups]
  cases Value.field "groups" entries with
  | none => simp [none_flat]
  | some v =>
      cases v with
      | null => simp [none_flat]
      | map groups =>
          simp only [List.flatMap_eq_nil_iff, groupProblems_eq_nil, forall_mem_exists_iff, flat_iff,
            Option.some.injEq, reduceCtorEq, or_self, and_false, or_false, Value.map.injEq]
          constructor
          · rintro ⟨named, rfl, permitted⟩
            exact ⟨named, rfl, permitted⟩
          · rintro ⟨named, rfl, permitted⟩
            exact ⟨named, rfl, permitted⟩
      | bool _ | int _ | float _ | str _ | list _ | bytes _ | date _ | moment _
      | pair _ _ | set _ =>
          simp

/-- A value has no problems exactly if it has the form of a policy. -/
theorem problems_eq_nil_iff {data : Value} :
    problems data = [] ↔ ∃ entries order groups, data = .map entries ∧
      Schema entries order groups := by
  cases data with
  | map entries =>
      simp only [problems, List.append_eq_nil_iff, List.flatMap_eq_nil_iff, optionProblems_eq_nil,
        orderProblems_eq_nil, groupsProblems_eq_nil, switchProblems_eq_nil]
      constructor
      · rintro ⟨⟨⟨known, order, nonempty, horder⟩, groups, declared, flat⟩, switches⟩
        exact ⟨entries, order, groups, rfl, known, nonempty, horder, flat, declared, switches⟩
      · rintro ⟨_, order, groups, ⟨⟩, h⟩
        exact ⟨⟨⟨h.options, order, h.nonempty, h.order⟩, groups, h.groups, h.flat⟩, h.switches⟩
  | null | bool _ | int _ | float _ | str _ | list _ | bytes _ | date _ | moment _
  | pair _ _ | set _ =>
      simp [problems]

-- A group may be named like a regular expression: its name in a group is then no reference to it.
example : problems (.map [(.str "order", .list [.str "/a/"]),
    (.str "groups", .map (table [("/a/", ["/a/", "/"])]))]) = [] := by decide

/-! ### Reading the tokens -/

variable {order : List String} {groups : List (String × List String)}

theorem Schema.groupTokens_eq (schema : Schema entries order groups) :
    groupTokens entries = groups := by
  rcases schema.groups with hmap | ⟨rfl, hnone | hnull⟩
  · rw [groupTokens, Settings.groups, hmap, table]
    simp [List.filterMap_map, Value.string?, strings_map_str]
  · rw [groupTokens, Settings.groups, hnone]
  · rw [groupTokens, Settings.groups, hnull]

theorem Schema.order_eq (schema : Schema entries order groups) :
    strings ((Value.field Settings.order entries).getD .null) = order := by
  rw [Settings.order, schema.order, Option.getD_some, strings_map_str]

variable {compile : Regex.Compiler}

/-- The first token that does not compile, and how. -/
def FailsFirst (compile : Regex.Compiler) (tokens : List String) (f : Pattern.Failure) : Prop :=
  ∃ before token after, tokens = before ++ token :: after ∧ Pattern.Refused compile token f ∧
    ∀ t ∈ before, ∀ g, ¬ Pattern.Refused compile t g

theorem failureOf_parse_eq_none {names : List String} {token : String} :
    failureOf (Pattern.parse compile names token) = none ↔
      ∀ f, ¬ Pattern.Refused compile token f := by
  simp only [← Pattern.parse_eq_error_iff names, ← failureOf_eq_some]
  exact Option.eq_none_iff_forall_ne_some

theorem failsFirst_iff (names : List String) {tokens : List String} {f : Pattern.Failure} :
    FailsFirst compile tokens f ↔
      (tokens.findSome? fun token => failureOf (Pattern.parse compile names token)) = some f := by
  simp only [List.findSome?_eq_some_iff, failureOf_eq_some, failureOf_parse_eq_none,
    Pattern.parse_eq_error_iff, FailsFirst]

/-- The groups are read first, and the order only if they can be. -/
theorem failureOf_resolve (schema : Schema entries order groups) :
    failureOf (resolve compile entries) = (groups.flatMap (·.2) ++ order).findSome? fun token =>
      failureOf (Pattern.parse compile (groups.map (·.1)) token) := by
  rw [resolve, schema.groupTokens_eq, schema.order_eq, List.findSome?_append, findSome?_flatMap,
    ← failureOf_mapM _ order]
  rw [failureOf_bind fun _ => failureOf_bind_pure _ _, failureOf_mapM]
  congr 2
  funext g
  rw [failureOf_bind_pure, failureOf_mapM]

theorem resolve_eq_error_iff (schema : Schema entries order groups) {f : Pattern.Failure} :
    resolve compile entries = .error f ↔ FailsFirst compile (groups.flatMap (·.2) ++ order) f := by
  rw [← failureOf_eq_some, failureOf_resolve schema, failsFirst_iff]

theorem exists_resolve_eq_ok_iff (schema : Schema entries order groups) :
    (∃ p, resolve compile entries = .ok p) ↔
      ∀ token ∈ groups.flatMap (·.2) ++ order, ∀ f, ¬ Pattern.Refused compile token f := by
  simp only [← failureOf_eq_none, failureOf_resolve schema, List.findSome?_eq_none_iff,
    failureOf_parse_eq_none]

/-! ### The policy of a value -/

theorem forall₂_of_readGroups {tokens : List (String × List String)}
    {groups : List (String × List Pattern)} (h : readGroups compile tokens = .ok groups) :
    List.Forall₂ (fun g q => List.Forall₂ (fun token pattern =>
      Pattern.parse compile (tokens.map (·.1)) token = .ok pattern) g.2 q.2) tokens groups := by
  refine (forall₂_of_mapM_eq_ok h).imp ?_
  intro g q hg
  obtain ⟨subs, hsubs, hg⟩ := bind_eq_ok_iff.mp hg
  cases hg
  exact forall₂_of_mapM_eq_ok hsubs

/-- No sub-pattern of a policy stands for a group. -/
theorem Schema.group_notMem (schema : Schema entries order groups) {p : Policy}
    (h : resolve compile entries = .ok p) {g : String × List Pattern} (hg : g ∈ p.groups)
    (name : String) : .group name ∉ g.2 := by
  intro hsub
  have read := forall₂_of_readGroups (resolve_eq_ok h).1
  rw [schema.groupTokens_eq] at read
  obtain ⟨t, ht, hsubs⟩ := exists_mem_of_forall₂ (List.Forall₂.flip read) hg
  obtain ⟨token, htoken, hparse⟩ := exists_mem_of_forall₂ (List.Forall₂.flip hsubs) hsub
  -- A regular expression is read as one even if a group has its name.
  cases schema.flat t ht token htoken with
  | inl hregex =>
      obtain ⟨inner, enclosed⟩ := hregex
      exact enclosed.parse_ne_group hparse
  | inr hfresh => exact hfresh (Pattern.eq_of_parse_eq_group hparse).2

variable {data : Value} {path : Option String}

theorem ofValue_of_problems (h : problems data ≠ []) :
    ofValue compile data path = .error (.refused (.invalid (problems data) path)) := by
  unfold ofValue
  split
  · next hnone => exact absurd hnone h
  · rfl

theorem ofValue_map (schema : Schema entries order groups) :
    ofValue compile (.map entries) path = (resolve compile entries).mapError .ofPattern := by
  unfold ofValue
  rw [problems_eq_nil_iff.mpr ⟨entries, order, groups, rfl, schema⟩]

theorem ofValue_eq_invalid_iff :
    ofValue compile data path = .error (.refused (.invalid (problems data) path)) ↔
      problems data ≠ [] := by
  constructor
  · intro h hproblems
    obtain ⟨entries, order, groups, rfl, schema⟩ := problems_eq_nil_iff.mp hproblems
    rw [ofValue_map schema] at h
    obtain ⟨f, -, hf⟩ := exists_of_mapError_eq_error h
    exact ConfigurationFailure.ofPattern_ne_invalid hf
  · exact ofValue_of_problems

theorem ofValue_eq_ofPattern_iff {f : Pattern.Failure} :
    ofValue compile data path = .error (.ofPattern f) ↔
      ∃ entries order groups, data = .map entries ∧ Schema entries order groups ∧
        FailsFirst compile (groups.flatMap (·.2) ++ order) f := by
  constructor
  · intro h
    by_cases hproblems : problems data = []
    · obtain ⟨entries, order, groups, rfl, schema⟩ := problems_eq_nil_iff.mp hproblems
      rw [ofValue_map schema] at h
      obtain ⟨g, hr, hg⟩ := exists_of_mapError_eq_error h
      obtain rfl := ConfigurationFailure.ofPattern_injective hg
      exact ⟨entries, order, groups, rfl, schema, (resolve_eq_error_iff schema).mp hr⟩
    · rw [ofValue_of_problems hproblems] at h
      exact absurd (Except.error.inj h).symm ConfigurationFailure.ofPattern_ne_invalid
  · rintro ⟨entries, order, groups, rfl, schema, fails⟩
    rw [ofValue_map schema, (resolve_eq_error_iff schema).mpr fails]
    rfl

theorem ofValue_eq_ok_iff {p : Policy} :
    ofValue compile data path = .ok p ↔
      ∃ entries order groups, data = .map entries ∧ Schema entries order groups ∧
        resolve compile entries = .ok p := by
  constructor
  · intro h
    obtain ⟨entries, rfl, hproblems, hr⟩ := exists_resolve_of_ofValue h
    obtain ⟨_, order, groups, ⟨⟩, schema⟩ := problems_eq_nil_iff.mp hproblems
    exact ⟨entries, order, groups, rfl, schema, hr⟩
  · rintro ⟨entries, order, groups, rfl, schema, h⟩
    rw [ofValue_map schema, h]
    rfl

theorem exists_ofValue_eq_ok_iff :
    (∃ p, ofValue compile data path = .ok p) ↔
      ∃ entries order groups, data = .map entries ∧ Schema entries order groups ∧
        ∀ token ∈ groups.flatMap (·.2) ++ order, ∀ f, ¬ Pattern.Refused compile token f := by
  constructor
  · rintro ⟨p, h⟩
    obtain ⟨entries, order, groups, rfl, schema, hr⟩ := ofValue_eq_ok_iff.mp h
    exact ⟨entries, order, groups, rfl, schema, (exists_resolve_eq_ok_iff schema).mp ⟨p, hr⟩⟩
  · rintro ⟨entries, order, groups, rfl, schema, compiles⟩
    obtain ⟨p, hr⟩ := (exists_resolve_eq_ok_iff schema).mpr compiles
    exact ⟨p, ofValue_eq_ok_iff.mpr ⟨entries, order, groups, rfl, schema, hr⟩⟩

/-- A compiler that never breaks down gives an error for every token that does not compile. -/
theorem exists_badPattern_iff (steady : ∀ inner b, compile inner ≠ .error (.breakdown b)) :
    (∃ e, ofValue compile data path = .error (.refused (.badPattern e))) ↔
      ∃ entries order groups, data = .map entries ∧ Schema entries order groups ∧
        ∃ token ∈ groups.flatMap (·.2) ++ order, ∃ f, Pattern.Refused compile token f := by
  constructor
  · rintro ⟨e, h⟩
    obtain ⟨entries, order, groups, hdata, schema, before, token, after, htokens, refused, -⟩ :=
      ofValue_eq_ofPattern_iff (f := .error e) |>.mp h
    exact ⟨entries, order, groups, hdata, schema, token, by simp [htokens], _, refused⟩
  · rintro ⟨entries, order, groups, rfl, schema, token, htoken, f, refused⟩
    cases hr : resolve compile entries with
    | ok p => exact absurd refused ((exists_resolve_eq_ok_iff schema).mp ⟨p, hr⟩ token htoken f)
    | error g =>
        have fails := (resolve_eq_error_iff schema).mp hr
        have h : ofValue compile (.map entries) path = .error (.ofPattern g) :=
          ofValue_eq_ofPattern_iff.mpr ⟨entries, order, groups, rfl, schema, fails⟩
        cases g with
        | error e => exact ⟨e, h⟩
        | breakdown b =>
            obtain ⟨_, _, _, -, refused, -⟩ := fails
            cases refused with
            | breakdown _ hbreaks => exact absurd hbreaks (steady _ _)

end Policy

open Policy in
/-- A value becomes a policy exactly if it has the form of one and its regular expressions compile.
If it has another form, its problems are reported; otherwise the first regular expression that does
not compile decides. -/
theorem policy_accepted_iff_schema (compile : Regex.Compiler) (data : Value)
    (path : Option String) :
    (problems data = [] ↔
      ∃ entries order groups, data = .map entries ∧ Schema entries order groups) ∧
    (ofValue compile data path = .error (.refused (.invalid (problems data) path)) ↔
      problems data ≠ []) ∧
    (∀ f, ofValue compile data path = .error (.ofPattern f) ↔
      ∃ entries order groups, data = .map entries ∧ Schema entries order groups ∧
        FailsFirst compile (groups.flatMap (·.2) ++ order) f) ∧
    ((∃ p, ofValue compile data path = .ok p) ↔
      ∃ entries order groups, data = .map entries ∧ Schema entries order groups ∧
        ∀ token ∈ groups.flatMap (·.2) ++ order, ∀ f, ¬ Pattern.Refused compile token f) ∧
    ((∀ inner b, compile inner ≠ .error (.breakdown b)) →
      ((∃ e, ofValue compile data path = .error (.refused (.badPattern e))) ↔
        ∃ entries order groups, data = .map entries ∧ Schema entries order groups ∧
          ∃ token ∈ groups.flatMap (·.2) ++ order, ∃ f, Pattern.Refused compile token f)) ∧
    ∀ p, ofValue compile data path = .ok p →
      (∀ g ∈ p.groups, ∀ name, .group name ∉ g.2) ∧ p.Closed ∧
        p.patterns.length = p.order.length := by
  refine ⟨problems_eq_nil_iff, ofValue_eq_invalid_iff, fun f => ofValue_eq_ofPattern_iff,
    exists_ofValue_eq_ok_iff, exists_badPattern_iff, ?_⟩
  intro p h
  obtain ⟨entries, order, groups, -, schema, hr⟩ := ofValue_eq_ok_iff.mp h
  have resolved := resolved_of_ofValue h
  exact ⟨fun g hg => schema.group_notMem hr hg, resolved.closed, resolved.length_eq.symm⟩

/-- The whole expression is to be read by ASCII and by Unicode: the compiler breaks down on it, and
no error is reported. -/
theorem policy_breaks_down_on_clashing_flags :
    Policy.ofValue Regex.compile (.map [(.str "order", .list [.str "/(?a)(?u)x/"])]) none =
      .error (.breakdown .clashingFlags) := by
  cbv

end ImportOrder
