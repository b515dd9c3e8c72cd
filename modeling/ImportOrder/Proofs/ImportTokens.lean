import ImportOrder.Code.Collect
import ImportOrder.Proofs.TokenLines
import ImportOrder.Proofs.TokenPositions

/-!
The tokens of import statements. A parser is described by what it takes from the front of its
tokens; such descriptions compose as parsers do. The imports of a module have their tokens in the
order of the statements, each import on a line of statements that ends before the next begins, and
the names of an import have theirs in the order of the names, with commas between them.
-/

namespace ImportOrder.Code

namespace Parse

variable {α β : Type}

/-- Whatever a parser answers, it stands in this relation to the tokens taken for it. -/
def Takes (p : Parse α) (Q : α → List Token → Prop) : Prop :=
  ∀ ts a rest, p.run ts = some (a, rest) → ∃ used, ts = used ++ rest ∧ Q a used

/-- Tokens of which none ends a line. -/
def Plain (ts : List Token) : Prop := ∀ t ∈ ts, t.lexeme ≠ .newline

theorem Plain.append {ts us : List Token} (h : Plain ts) (h' : Plain us) : Plain (ts ++ us) := by
  intro t ht
  rcases List.mem_append.mp ht with ht | ht
  · exact h t ht
  · exact h' t ht

/-- Tokens of which none ends a line, from one of them to another. -/
structure Bounds (first last : Token) (used : List Token) : Prop where
  head : used.head? = some first
  last : used.getLast? = some last
  plain : Plain used

theorem Bounds.first_mem {first last : Token} {used : List Token} (h : Bounds first last used) :
    first ∈ used :=
  List.mem_of_mem_head? h.head

theorem Bounds.last_mem {first last : Token} {used : List Token} (h : Bounds first last used) :
    last ∈ used :=
  List.mem_of_mem_getLast? h.last

theorem Bounds.append {first last first' last' : Token} {used mid more : List Token}
    (h : Bounds first last used) (hmid : Plain mid) (h' : Bounds first' last' more) :
    Bounds first last' (used ++ mid ++ more) := by
  refine ⟨?_, ?_, (h.plain.append hmid).append h'.plain⟩
  · simp [h.head]
  · simp [h'.last]

/-- Items with commas between them and perhaps one at the end. The last item comes first. -/
inductive Listed (S : α → List Token → Prop) : List α → List Token → Prop
  | one {a : α} {used : List Token} (item : S a used) : Listed S [a] used
  | comma {items : List α} {used : List Token} {c : Token} (front : Listed S items used)
      (comma : c.lexeme = .mark ",") : Listed S items (used ++ [c])
  | more {items : List α} {used : List Token} {c : Token} {a : α} {last : List Token}
      (front : Listed S items used) (comma : c.lexeme = .mark ",") (item : S a last) :
      Listed S (a :: items) (used ++ c :: last)

section Listed

variable {S : α → List Token → Prop} {items : List α} {used : List Token}

theorem Listed.map {T : β → List Token → Prop} {f : α → β} (h : Listed S items used)
    (himp : ∀ a used, S a used → T (f a) used) : Listed T (items.map f) used := by
  induction h with
  | one item => exact .one (himp _ _ item)
  | comma front comma ih => exact .comma ih comma
  | more front comma item ih => exact .more ih comma (himp _ _ item)

theorem Listed.plain (h : Listed S items used) (hplain : ∀ a used, S a used → Plain used) :
    Plain used := by
  induction h with
  | one item => exact hplain _ _ item
  | comma front comma ih => exact ih.append (by simp [Plain, comma])
  | @more items used c a last front comma item ih =>
      have hcomma : Plain [c] := by simp [Plain, comma]
      exact ih.append (hcomma.append (hplain a last item))

theorem Listed.exists_own (h : Listed S items used) {a : α} (ha : a ∈ items) :
    ∃ own, S a own ∧ own.Sublist used := by
  induction h with
  | one item =>
      obtain rfl := List.mem_singleton.mp ha
      exact ⟨_, item, List.Sublist.refl _⟩
  | comma front comma ih =>
      obtain ⟨own, hown, hsub⟩ := ih ha
      exact ⟨own, hown, hsub.trans (List.sublist_append_left _ _)⟩
  | @more items used c b last front comma item ih =>
      rcases List.mem_cons.mp ha with rfl | ha
      · exact ⟨last, item, (List.sublist_cons_self c last).trans (List.sublist_append_right _ _)⟩
      · obtain ⟨own, hown, hsub⟩ := ih ha
        exact ⟨own, hown, hsub.trans (List.sublist_append_left _ _)⟩

end Listed

theorem bind_eq_some {p : Parse α} {f : α → Parse β} {ts rest : List Token} {b : β} :
    (p >>= f).run ts = some (b, rest) ↔
      ∃ a mid, p.run ts = some (a, mid) ∧ (f a).run mid = some (b, rest) := by
  refine Option.bind_eq_some_iff.trans ⟨?_, ?_⟩
  · rintro ⟨⟨a, mid⟩, hp, hf⟩
    exact ⟨a, mid, hp, hf⟩
  · rintro ⟨a, mid, hp, hf⟩
    exact ⟨(a, mid), hp, hf⟩

section Takes

variable {p q : Parse α} {f : α → Parse β} {Q : α → List Token → Prop} {R : β → List Token → Prop}

theorem takes_any (p : Parse α) : p.Takes fun _ _ => True := by
  intro ts a rest h
  obtain ⟨used, hused⟩ := p.suffix h
  exact ⟨used, hused.symm, trivial⟩

theorem Takes.mono (h : p.Takes Q) {Q' : α → List Token → Prop}
    (himp : ∀ a used, Q a used → Q' a used) : p.Takes Q' := by
  intro ts a rest hrun
  obtain ⟨used, hused, hq⟩ := h ts a rest hrun
  exact ⟨used, hused, himp a used hq⟩

theorem Takes.pure {a : α} (h : Q a []) : (Pure.pure a : Parse α).Takes Q := by
  intro ts b rest hrun
  cases hrun
  exact ⟨[], rfl, h⟩

theorem Takes.fail : (failure : Parse α).Takes Q := by
  intro ts a rest hrun
  cases hrun

theorem Takes.bind (hp : p.Takes Q)
    (hf : ∀ a used, Q a used → (f a).Takes fun b more => R b (used ++ more)) :
    (p >>= f).Takes R := by
  intro ts b rest hrun
  obtain ⟨a, mid, hrunp, hrunf⟩ := bind_eq_some.mp hrun
  obtain ⟨used, rfl, hq⟩ := hp ts a mid hrunp
  obtain ⟨more, rfl, hr⟩ := hf a used hq mid b rest hrunf
  exact ⟨used ++ more, (List.append_assoc _ _ _).symm, hr⟩

theorem Takes.repeatUpTo {step : α → Parse (Option α)}
    (hstep : ∀ a used, Q a used → (step a).Takes fun o more => Q (o.getD a) (used ++ more))
    (fuel : Nat) {a : α} {used : List Token} (ha : Q a used) :
    (Parse.repeatUpTo step fuel a).Takes fun b more => Q b (used ++ more) := by
  induction fuel generalizing a used with
  | zero => exact Takes.fail
  | succ fuel ih =>
      refine Takes.bind (hstep a used ha) ?_
      rintro (_ | b) more hmore
      · exact Takes.pure (by simpa using hmore)
      · simpa only [List.append_assoc, Option.getD_some] using ih hmore

theorem Takes.iterate {step : α → Parse (Option α)}
    (hstep : ∀ a used, Q a used → (step a).Takes fun o more => Q (o.getD a) (used ++ more))
    {a : α} {used : List Token} (ha : Q a used) :
    (Parse.iterate step a).Takes fun b more => Q b (used ++ more) := by
  intro ts b rest hrun
  obtain ⟨_, _, ⟨⟩, hrun⟩ := bind_eq_some.mp hrun
  exact Takes.repeatUpTo hstep _ ha ts b rest hrun

theorem Takes.next? : Parse.next?.Takes fun _ used => used = [] := by
  intro ts o rest hrun
  cases hrun
  exact ⟨[], rfl, rfl⟩

theorem Takes.nextIs (l : Lexeme) : (Parse.nextIs l).Takes fun _ used => used = [] := by
  refine Takes.bind Takes.next? ?_
  rintro o used rfl
  exact Takes.pure rfl

/-- A token whose lexeme is known beforehand. -/
theorem Takes.nextIs_token {l : Lexeme} {g : Token → Parse α}
    (hg : ∀ t, t.lexeme = l → (g t).Takes fun a more => Q a (t :: more)) (hq : q.Takes Q) :
    Parse.Takes (do if ← Parse.nextIs l then (do let t ← Parse.token; g t) else q) Q := by
  intro ts a rest hrun
  obtain ⟨b, mid, ⟨⟩, hrun⟩ := bind_eq_some.mp hrun
  cases ts with
  | nil => exact hq _ _ _ hrun
  | cons t ts =>
      by_cases ht : t.lexeme = l
      · rw [if_pos (by simp [ht])] at hrun
        obtain ⟨used, rfl, hused⟩ := hg t ht _ _ _ hrun
        exact ⟨t :: used, rfl, hused⟩
      · rw [if_neg (by simp [ht])] at hrun
        exact hq _ _ _ hrun

theorem take?_eq_some {l : Lexeme} {ts rest : List Token} {b : Bool}
    (h : (take? l).run ts = some (b, rest)) :
    b = false ∧ rest = ts ∨ b = true ∧ ∃ t, t.lexeme = l ∧ ts = t :: rest := by
  obtain ⟨o, mid, ⟨⟩, hrun⟩ := bind_eq_some.mp h
  cases ts with
  | nil =>
      cases hrun
      exact .inl ⟨rfl, rfl⟩
  | cons t ts =>
      by_cases ht : t.lexeme = l
      · rw [if_pos (by simp [ht])] at hrun
        cases hrun
        exact .inr ⟨rfl, t, ht, rfl⟩
      · rw [if_neg (by simp [ht])] at hrun
        cases hrun
        exact .inl ⟨rfl, rfl⟩

/-- A token of this lexeme if it is there, and no other. -/
def Tested (l : Lexeme) (b : Bool) (used : List Token) : Prop :=
  b = false ∧ used = [] ∨ b = true ∧ ∃ t, t.lexeme = l ∧ used = [t]

theorem Takes.tested (l : Lexeme) : (Parse.take? l).Takes (Tested l) := by
  intro ts b rest hrun
  rcases take?_eq_some hrun with ⟨rfl, rfl⟩ | ⟨rfl, t, ht, rfl⟩
  · exact ⟨[], rfl, .inl ⟨rfl, rfl⟩⟩
  · exact ⟨[t], rfl, .inr ⟨rfl, t, ht, rfl⟩⟩

theorem Takes.take? {l : Lexeme} (hl : l ≠ .newline) :
    (Parse.take? l).Takes fun _ used => Plain used := by
  refine (Takes.tested l).mono ?_
  rintro b used (⟨-, rfl⟩ | ⟨-, t, rfl, rfl⟩)
  · simp [Plain]
  · simp [Plain, hl]

theorem Takes.mark? (m : String) : (Parse.mark? m).Takes fun _ used => Plain used :=
  Takes.take? (by simp)

theorem guard_eq_some {b : Bool} {ts rest : List Token} {u : Unit}
    (h : (guard (b = true) : Parse Unit).run ts = some (u, rest)) : b = true ∧ rest = ts := by
  cases b with
  | false => cases h
  | true =>
      cases h
      exact ⟨rfl, rfl⟩

theorem takes_guard (b : Bool) :
    (guard (b = true) : Parse Unit).Takes fun _ used => b = true ∧ used = [] := by
  intro ts u rest hrun
  obtain ⟨hb, rfl⟩ := guard_eq_some hrun
  exact ⟨[], rfl, hb, rfl⟩

theorem expect_eq_some {l : Lexeme} {ts rest : List Token} {u : Unit}
    (h : (expect l).run ts = some (u, rest)) : ∃ t, t.lexeme = l ∧ ts = t :: rest := by
  obtain ⟨b, mid, htake, hguard⟩ := bind_eq_some.mp h
  obtain ⟨rfl, rfl⟩ := guard_eq_some hguard
  rcases take?_eq_some htake with ⟨hfalse, -⟩ | ⟨-, ht⟩
  · cases hfalse
  · exact ht

theorem Takes.token : Parse.token.Takes fun t used => used = [t] := by
  intro ts t rest hrun
  cases ts with
  | nil => cases hrun
  | cons t ts =>
      cases hrun
      exact ⟨[t], rfl, rfl⟩

theorem Takes.name : Parse.name.Takes fun a used => Bounds a.2 a.2 used := by
  refine Takes.bind Takes.token ?_
  rintro t used rfl
  split
  · next w hw =>
      split
      · exact Takes.fail
      · exact Takes.pure ⟨rfl, rfl, by simp [Plain, hw]⟩
  · exact Takes.fail

theorem Takes.commaList {item : Parse α} {ends : Lexeme → Bool} (h : item.Takes Q) :
    (Parse.commaList item ends).Takes fun a used => Listed Q a.1.reverse used := by
  refine Takes.bind h ?_
  intro first used hfirst
  refine Takes.bind (Takes.iterate (Q := fun a used => Listed Q a.1 used) ?_ (.one hfirst)) ?_
  · rintro ⟨items, _⟩ used hitems
    refine Takes.bind (Takes.tested (.mark ",")) ?_
    rintro b comma (⟨rfl, rfl⟩ | ⟨rfl, c, hc, rfl⟩)
    · exact Takes.pure (by simpa using hitems)
    · refine Takes.bind Takes.next? ?_
      rintro o _ rfl
      split
      · exact Takes.pure (by simpa using Listed.comma hitems hc)
      · refine Takes.bind h ?_
        intro x more hx
        exact Takes.pure (by simpa using Listed.more hitems hc hx)
  · rintro ⟨items, commas⟩ more hitems
    exact Takes.pure (by simpa using hitems)

theorem Takes.word (w : String) : (Parse.word w).Takes fun _ used => Plain used := by
  intro ts u rest hrun
  obtain ⟨t, ht, rfl⟩ := expect_eq_some hrun
  exact ⟨[t], rfl, by simp [Plain, ht]⟩

end Takes

/-! ### Import statements -/

theorem Takes.dottedName : Parse.dottedName.Takes fun a used => Bounds a.2.1 a.2.2 used := by
  refine Takes.bind Takes.name ?_
  rintro ⟨head, first⟩ used hfirst
  refine Takes.iterate (Q := fun (a : String × Token × Token) used => Bounds a.2.1 a.2.2 used) ?_
    hfirst
  rintro ⟨spelling, first, last⟩ used hused
  refine Takes.bind (Takes.tested (.mark ".")) ?_
  rintro b dot (⟨rfl, rfl⟩ | ⟨rfl, c, hc, rfl⟩)
  · exact Takes.pure (by simpa using hused)
  · refine Takes.bind Takes.name ?_
    rintro ⟨part, last⟩ more hlast
    refine Takes.pure ?_
    simp only [List.append_nil, ← List.append_assoc]
    exact hused.append (by simp [Plain, hc]) hlast

/-- The tokens of a name that an import binds. -/
def Names (a : Alias) (used : List Token) : Prop := Bounds a.first a.last used

theorem Takes.renamed {imported : Parse (String × Token × Token)}
    (h : imported.Takes fun a used => Bounds a.2.1 a.2.2 used) :
    (Parse.renamed imported).Takes fun a used => Names a.2 used := by
  refine Takes.bind h ?_
  rintro ⟨spelling, first, last⟩ used hused
  refine Takes.bind (Takes.tested (.word "as")) ?_
  rintro b word (⟨rfl, rfl⟩ | ⟨rfl, w, hw, rfl⟩)
  · exact Takes.pure (by simpa [Names] using hused)
  · refine Takes.bind Takes.name ?_
    rintro ⟨bound, last⟩ more hlast
    refine Takes.pure ?_
    simp only [List.append_nil, ← List.append_assoc]
    exact hused.append (by simp [Plain, hw]) hlast

/-- Tokens behind the first one of an import, which ends with a name or with what stands behind
its names. -/
inductive Body (i : Import) : List Token → Prop
  | star {used : List Token} (none : i.aliases = []) (last : i.last ∈ used) (plain : Plain used) :
      Body i used
  | bare {front used : List Token} (plain : Plain front)
      (names : Listed Names i.aliases.reverse used)
      (last : i.aliases.getLast?.map (·.last) = some i.last) : Body i (front ++ used)
  | wrapped {front used : List Token} (plain : Plain front)
      (names : Listed Names i.aliases.reverse used) (closing : i.last.lexeme ≠ .newline) :
      Body i (front ++ (used ++ [i.last]))

theorem Listed.names_plain {names : List Token} {aliases : List Alias}
    (h : Listed Names aliases names) : Plain names :=
  h.plain fun _ _ hname => hname.plain

section Body

variable {i : Import} {used more : List Token}

theorem Body.plain (h : Body i used) : Plain used := by
  cases h with
  | star none last plain => exact plain
  | bare plain names last => exact plain.append names.names_plain
  | wrapped plain names closing =>
      exact plain.append (names.names_plain.append (by simpa [Plain] using closing))

theorem Body.last_mem (h : Body i used) : i.last ∈ used := by
  cases h with
  | star none last plain => exact last
  | bare plain names last =>
      obtain ⟨a, ha, hlast⟩ := Option.map_eq_some_iff.mp last
      have hmem : a ∈ i.aliases.reverse := List.mem_reverse.mpr (List.mem_of_mem_getLast? ha)
      obtain ⟨own, hown, hsub⟩ := names.exists_own hmem
      exact List.mem_append_right _ (hsub.subset (hlast ▸ hown.last_mem))
  | wrapped plain names closing => simp

theorem Body.prepend (h : Body i used) (hmore : Plain more) : Body i (more ++ used) := by
  cases h with
  | star none last plain => exact .star none (List.mem_append_right _ last) (hmore.append plain)
  | bare plain names last =>
      rw [← List.append_assoc]
      exact .bare (hmore.append plain) names last
  | wrapped plain names closing =>
      rw [← List.append_assoc]
      exact .wrapped (hmore.append plain) names closing

end Body

def Holds (i : Import) (used : List Token) : Prop := ∃ more, used = i.first :: more ∧ Body i more

theorem listed_aliases {items : List (String × Alias)} {used : List Token}
    (h : Listed (fun a => Names a.2) items.reverse used) :
    Listed Names (items.map (·.2)).reverse used := by
  rw [← List.map_reverse]
  exact h.map fun _ _ hname => hname

/-- Names that nothing ends but the last of them. -/
theorem body_of_last {items : List (String × Alias)} {x : String × Alias} {used : List Token}
    (h : Listed (fun a => Names a.2) items.reverse used) (hx : items.getLast? = some x)
    (source : String) (first : Token) :
    Body ⟨source, items.map (·.2), first, x.2.last⟩ used := by
  have hempty : Plain [] := by simp [Plain]
  exact Body.bare hempty (listed_aliases h) (by simp [hx])

theorem Takes.importModules : Parse.importModules.Takes Holds := by
  refine Takes.bind Takes.token ?_
  rintro first used rfl
  refine Takes.bind (Takes.commaList (Takes.renamed Takes.dottedName)) ?_
  rintro ⟨items, commas⟩ more hitems
  dsimp only
  split
  · next hlast => exact Takes.pure ⟨more, by simp, body_of_last hitems hlast _ _⟩
  · exact Takes.fail

theorem Takes.relativeDots : Parse.relativeDots.Takes fun _ used => Plain used := by
  have start : Plain [] := by simp [Plain]
  refine Takes.iterate (Q := fun _ used => Plain used) ?_ start
  intro dots used hused
  refine Takes.bind (Takes.mark? ".") ?_
  rintro (_ | _) dot hdot
  · refine Takes.bind (Takes.mark? "...") ?_
    rintro (_ | _) more hmore
    · exact Takes.pure (by simpa using hused.append (hdot.append hmore))
    · exact Takes.pure (by simpa using hused.append (hdot.append hmore))
  · exact Takes.pure (by simpa using hused.append hdot)

theorem Takes.modulePath (dots : String) :
    (Parse.modulePath dots).Takes fun _ used => Plain used := by
  refine Takes.bind (Takes.nextIs _) ?_
  rintro (_ | _) _ rfl
  · refine Takes.bind Takes.dottedName ?_
    rintro ⟨spelling, tokens⟩ used hused
    exact Takes.pure (by simpa using hused.plain)
  · refine Takes.bind (takes_guard _) ?_
    rintro _ _ ⟨-, rfl⟩
    exact Takes.pure (by simp [Plain])

theorem Takes.memberName : Parse.memberName.Takes fun a used => Bounds a.2.1 a.2.2 used := by
  refine Takes.bind Takes.name ?_
  rintro ⟨spelling, t⟩ used hused
  exact Takes.pure (by simpa using hused)

theorem Takes.members (source : String) (first : Token) :
    (Parse.members source first).Takes fun i used => i.first = first ∧ Body i used := by
  refine Takes.nextIs_token ?_ (Takes.bind (Takes.mark? "(") ?_)
  · intro last hlast
    exact Takes.pure ⟨rfl, .star rfl (by simp) (by simp [Plain, hlast])⟩
  rintro (_ | _) used hused
  · refine Takes.bind (Takes.commaList (Takes.renamed Takes.memberName)) ?_
    rintro ⟨items, commas⟩ more hitems
    dsimp only
    split
    · next hlast =>
        refine Takes.pure ⟨rfl, ?_⟩
        simpa using (body_of_last hitems hlast source first).prepend hused
    · exact Takes.fail
  · refine Takes.bind (Takes.commaList (Takes.renamed Takes.memberName)) ?_
    rintro ⟨items, commas⟩ more hitems
    refine Takes.bind Takes.token ?_
    rintro last _ rfl
    refine Takes.bind (takes_guard _) ?_
    rintro _ _ ⟨hlast, rfl⟩
    refine Takes.pure ⟨rfl, ?_⟩
    have hplain : last.lexeme ≠ .newline := by
      rw [eq_of_beq hlast]
      decide
    simpa using Body.wrapped (i := ⟨source, items.map (·.2), first, last⟩) hused
      (listed_aliases hitems) hplain

theorem Takes.importNames : Parse.importNames.Takes Holds := by
  refine Takes.bind Takes.token ?_
  rintro first used rfl
  refine Takes.bind Takes.relativeDots ?_
  intro dots used hdots
  refine Takes.bind (Takes.modulePath dots) ?_
  intro path used' hpath
  refine Takes.bind (Takes.word "import") ?_
  rintro _ word hword
  refine (Takes.members _ first).mono ?_
  rintro i more ⟨rfl, hbody⟩
  refine ⟨used ++ (used' ++ (word ++ more)), rfl, ?_⟩
  exact ((hbody.prepend hword).prepend hpath).prepend hdots

end Parse

namespace Grammar

open Parse

variable (g : Grammar)

/-- An import and the keyword with which it starts, if a statement is one. -/
def Kept (o : Option Import) (used : List Token) : Prop :=
  ∀ i ∈ o, Holds i used ∧ ∃ w, i.first.lexeme = .word w

theorem takes_none {α : Type} (p : Parse α) : (do let _ ← p; return none : Parse (Option Import)).Takes
    Kept := by
  refine Takes.bind (takes_any p) ?_
  intro a used _
  exact Takes.pure (by simp [Kept])

theorem kept_of_keyword {p : Parse Import} (hp : p.Takes Holds) {w : String} {ts rest : List Token}
    {o : Option Import} (hnext : ts.head?.map (·.lexeme) = some (.word w))
    (hrun : (do return some (← p) : Parse (Option Import)).run ts = some (o, rest)) :
    ∃ used, ts = used ++ rest ∧ Kept o used := by
  obtain ⟨i, mid, hi, ⟨⟩⟩ := bind_eq_some.mp hrun
  obtain ⟨used, rfl, more, rfl, hlast⟩ := hp ts i rest hi
  refine ⟨i.first :: more, rfl, ?_⟩
  rintro j ⟨⟩
  exact ⟨⟨more, rfl, hlast⟩, w, by simpa using hnext⟩

theorem takes_smallStatement : g.smallStatement.Takes Kept := by
  intro ts o rest hrun
  obtain ⟨next, mid, ⟨⟩, hrun⟩ := bind_eq_some.mp hrun
  split at hrun
  · next hnext => exact kept_of_keyword Takes.importModules hnext hrun
  · next hnext => exact kept_of_keyword Takes.importNames hnext hrun
  · exact takes_none _ _ _ _ hrun
  · exact takes_none _ _ _ _ hrun

/-- An import on a line of statements: behind its last token the line ends. -/
def Alone (o : Option Import) (used : List Token) : Prop :=
  ∀ i ∈ o, (∃ w, i.first.lexeme = .word w) ∧ ∃ front more back e,
    used = front ++ i.first :: more ++ back ++ [e] ∧ Body i more ∧ e.lexeme = .newline

theorem takes_line : g.line.Takes Alone := by
  refine Takes.bind g.takes_smallStatement ?_
  intro o used ho
  refine Takes.bind (takes_any _) ?_
  intro count back _
  refine Takes.bind (Q := fun _ used => ∃ e, used = [e] ∧ e.lexeme = .newline) ?_ ?_
  · intro ts u rest hrun
    obtain ⟨e, he, rfl⟩ := expect_eq_some hrun
    exact ⟨[e], rfl, e, rfl, he⟩
  · rintro _ _ ⟨e, rfl, he⟩
    refine Takes.pure ?_
    intro i hi
    have hi' : i ∈ o := by
      split at hi
      · exact hi
      · cases hi
    obtain ⟨⟨more, rfl, hlast⟩, hword⟩ := ho i hi'
    exact ⟨hword, [], more, back, e, by simp, hlast, he⟩

theorem takes_statement : g.statement.Takes Alone := by
  refine Takes.bind (takes_any _) ?_
  rintro (_ | _) front _
  · refine g.takes_line.mono ?_
    intro o used ho i hi
    obtain ⟨hword, front', more, back, e, rfl, hlast, he⟩ := ho i hi
    exact ⟨hword, front ++ front', more, back, e, by simp, hlast, he⟩
  · exact Takes.pure (by simp [Alone])

/-- Imports in the order of their tokens, each alone on its line of statements. -/
inductive Spread : List Import → List Token → Prop
  | nil (ts : List Token) : Spread [] ts
  | cons {i : Import} {found : List Import} {e : Token} {rest : List Token}
      (front more back : List Token) (word : ∃ w, i.first.lexeme = .word w)
      (body : Body i more) (ending : e.lexeme = .newline) (next : Spread found rest) :
      Spread (i :: found) (front ++ i.first :: more ++ back ++ e :: rest)

theorem Spread.prepend {found : List Import} {ts : List Token} (h : Spread found ts)
    (us : List Token) : Spread found (us ++ ts) := by
  cases h with
  | nil => exact .nil _
  | cons front more back word body ending next =>
      have := Spread.cons (us ++ front) more back word body ending next
      simpa using this

theorem takes_another (found : List Import) : (g.another found).Takes fun o used =>
    ∀ out ∈ o, out = found ∨ ∃ i, out = i :: found ∧ Alone (some i) used := by
  refine Takes.bind (Takes.nextIs _) ?_
  rintro (_ | _) _ rfl
  · refine Takes.bind g.takes_statement ?_
    rintro (_ | i) used hi
    · exact Takes.pure (by simp)
    · exact Takes.pure (by simpa using hi)
  · exact Takes.pure (by simp)

theorem spread_of_repeatUpTo {fuel : Nat} {found out : List Import} {ts rest : List Token}
    (h : (repeatUpTo g.another fuel found).run ts = some (out, rest)) :
    ∃ new, out = new.reverse ++ found ∧ Spread new ts := by
  induction fuel generalizing found ts with
  | zero => cases h
  | succ fuel ih =>
      obtain ⟨o, mid, hanother, hrun⟩ := bind_eq_some.mp h
      obtain ⟨used, rfl, ho⟩ := g.takes_another found _ _ _ hanother
      cases o with
      | none =>
          cases hrun
          exact ⟨[], rfl, .nil _⟩
      | some out' =>
          obtain ⟨new, rfl, hnew⟩ := ih hrun
          rcases ho out' rfl with rfl | ⟨i, rfl, hi⟩
          · exact ⟨new, rfl, hnew.prepend used⟩
          · obtain ⟨word, front, more, back, e, rfl, last, ending⟩ := hi i rfl
            refine ⟨i :: new, by simp, ?_⟩
            have := Spread.cons front more back word last ending hnew
            simpa using this

theorem spread_of_imports {found : List Import} {ts rest : List Token}
    (h : g.imports.run ts = some (found, rest)) : Spread found ts := by
  obtain ⟨out, mid, hrun, ⟨⟩⟩ := bind_eq_some.mp h
  obtain ⟨_, _, ⟨⟩, hrun⟩ := bind_eq_some.mp hrun
  obtain ⟨new, rfl, hnew⟩ := g.spread_of_repeatUpTo hrun
  simpa using hnew

end Grammar

/-! ### Lines of import statements -/

def Import.firstLine (i : Import) : Nat := (relocate i.first i.first.start).line

def Import.lastLine (i : Import) : Nat := (relocate i.first i.last.stop).line

theorem joined_eq {first : Token} {more : List Token}
    (shares : (first :: more).IsChain Token.SharesMargin) (plain : Parse.Plain (first :: more)) :
    ∀ t ∈ more, t.joined = first.joined := by
  induction more generalizing first with
  | nil => simp
  | cons t more ih =>
      rw [List.isChain_cons_cons] at shares
      have hplain : Parse.Plain (t :: more) := fun u hu => plain u (List.mem_cons_of_mem _ hu)
      have ht : t.joined = first.joined := shares.1 (plain first List.mem_cons_self)
      intro u hu
      rcases List.mem_cons.mp hu with rfl | hu
      · exact ht
      · exact (ih shares.2 hplain u hu).trans ht

section Lines

open Grammar (Spread)

variable {n : Nat} {found : List Import} {ts : List Token}

theorem Spread.first_mem (h : Spread found ts) {i : Import} (hi : i ∈ found) :
    i.first ∈ ts ∧ ∃ w, i.first.lexeme = .word w := by
  induction h with
  | nil => cases hi
  | cons front more back word body ending next ih =>
      rcases List.mem_cons.mp hi with rfl | hi
      · exact ⟨by simp, word⟩
      · obtain ⟨hfirst, hword⟩ := ih hi
        exact ⟨by simp [hfirst], hword⟩

/-- Imports stand on lines of the source, each below the one before it. -/
theorem Spread.lines (h : Spread found ts) (ordered : Token.Ordered n ts) :
    (∀ i ∈ found, 1 ≤ i.firstLine ∧ i.firstLine ≤ i.lastLine ∧ i.lastLine ≤ n) ∧
      found.Pairwise fun i j => i.lastLine < j.firstLine := by
  induction h with
  | nil => simp
  | @cons i found e rest front more back word body ending next ih =>
      have hlast : i.last ∈ more := body.last_mem
      have hfirst := ordered.within i.first (by simp)
      have hstop := ordered.within i.last (by simp [hlast])
      -- The tokens in the order in which they are compared.
      have inside : [i.first, i.last, e].Sublist (front ++ i.first :: more ++ back ++ e :: rest) :=
        (((List.nil_sublist front).append ((List.singleton_sublist.mpr hlast).cons_cons _)).append
          (List.nil_sublist back)).append ((List.nil_sublist rest).cons_cons e)
      have hinside := ordered.follows.sublist inside
      simp only [List.pairwise_cons, List.mem_cons, List.not_mem_nil, or_false, forall_eq_or_imp,
        forall_eq] at hinside
      obtain ⟨⟨⟨hstart, -⟩, -⟩, ⟨hend, -⟩, -⟩ := hinside
      have hjoined : i.last.joined = i.first.joined := by
        refine joined_eq ordered.shares.left_of_append.left_of_append.right_of_append ?_ _ hlast
        intro t ht
        rcases List.mem_cons.mp ht with rfl | ht
        · obtain ⟨w, hw⟩ := word
          simp [hw]
        · exact body.plain t ht
      have behind : Token.Ordered n ([e] ++ rest) := ordered.right
      obtain ⟨hlines, hpairs⟩ := ih behind.right
      have hstart' := hfirst.joined_lt
      simp only [Token.firstLine, Token.lastLine] at hstart hend
      refine ⟨?_, List.pairwise_cons.mpr ⟨?_, hpairs⟩⟩
      · intro j hj
        rcases List.mem_cons.mp hj with rfl | hj
        · obtain ⟨-, hle, -⟩ := hfirst
          obtain ⟨-, hle', hn⟩ := hstop
          simp only [Import.firstLine, Import.lastLine, relocate]
          omega
        · exact hlines j hj
      · intro j hj
        obtain ⟨hmem, w, hw⟩ := Spread.first_mem next hj
        have hnext := ((List.pairwise_cons.mp behind.follows).1 j.first hmem).2 ending w hw
        simp only [Token.firstLine] at hnext
        simp only [Import.firstLine, Import.lastLine, relocate]
        omega

end Lines

theorem exists_spread {source : Text} {found : List Import} (h : imports? source = some found) :
    ∃ ts, tokens source = some ts ∧ Grammar.Spread found ts := by
  obtain ⟨ts, hts, hfound⟩ := Option.bind_eq_some_iff.mp h
  obtain ⟨⟨out, rest⟩, hrun, ⟨⟩⟩ := Option.bind_eq_some_iff.mp hfound
  exact ⟨ts, hts, Grammar.spread_of_imports _ hrun⟩

/-- The imports of a source stand on its lines, each below the one before it. -/
theorem imports_lines {source : Text} {found : List Import} (h : imports? source = some found) :
    (∀ i ∈ found, 1 ≤ i.firstLine ∧ i.firstLine ≤ i.lastLine ∧
      i.lastLine ≤ 1 + (Text.unifyBreaks source).count '\n') ∧
      found.Pairwise fun i j => i.lastLine < j.firstLine := by
  obtain ⟨ts, hts, spread⟩ := exists_spread h
  exact Spread.lines spread (tokens_ordered hts)

/-! ### Positions of names -/

/-- The names of an import stand inside it, one behind the other. -/
structure Import.Laid (text : Text) (i : Import) : Prop where
  reached : ∀ a ∈ i.aliases, Reached text a.first.start ∧ Reached text a.last.stop
  inside : ∀ a ∈ i.aliases, i.first.start.place ≤ a.first.start.place ∧
    a.first.start.place ≤ a.last.stop.place ∧ a.last.stop.place ≤ i.last.stop.place
  apart : i.aliases.Pairwise fun a b => a.last.stop.place < b.first.start.place

namespace Parse

variable {text : Text} {i : Import} {used : List Token}

theorem Bounds.ordered {first last : Token} (h : Bounds first last used)
    (laid : Token.Laid text used) : first.start.place ≤ last.stop.place := by
  obtain ⟨rest, rfl⟩ := List.head?_eq_some_iff.mp h.head
  have hfirst := (laid.located first List.mem_cons_self).ordered
  rcases List.mem_cons.mp h.last_mem with rfl | hlast
  · exact hfirst
  · have hnext := (List.pairwise_cons.mp laid.apart).1 last hlast
    have hordered := (laid.located last (List.mem_cons_of_mem _ hlast)).ordered
    exact (hfirst.trans hnext).trans hordered

/-- A comma stands between any two names. -/
theorem Listed.apart {aliases : List Alias} (h : Listed Names aliases used)
    (laid : Token.Laid text used) :
    aliases.Pairwise fun b a => a.last.stop.place < b.first.start.place := by
  induction h with
  | one item => exact List.pairwise_singleton _ _
  | comma front comma ih => exact ih (laid.sublist (List.sublist_append_left _ _))
  | @more aliases used c b last front comma item ih =>
      refine List.pairwise_cons.mpr ⟨?_, ih (laid.sublist (List.sublist_append_left _ _))⟩
      intro a ha
      obtain ⟨own, hown, hsub⟩ := front.exists_own ha
      obtain ⟨-, hback, hacross⟩ := List.pairwise_append.mp laid.apart
      have hcomma : c.start.place < c.stop.place :=
        (laid.located c (by simp)).spelled (by simp [comma, Lexeme.isSpelled])
      calc a.last.stop.place
        _ ≤ c.start.place := hacross _ (hsub.subset hown.last_mem) c List.mem_cons_self
        _ < c.stop.place := hcomma
        _ ≤ b.first.start.place := (List.pairwise_cons.mp hback).1 _ item.first_mem

theorem Listed.laid {more : List Token} (names : Listed Names i.aliases.reverse used)
    (laid : Token.Laid text (i.first :: more)) (hsub : used.Sublist more)
    (last : ∀ a ∈ i.aliases, a.last.stop.place ≤ i.last.stop.place) : i.Laid text := by
  have laid' : Token.Laid text used := laid.sublist (hsub.cons _)
  have own : ∀ a ∈ i.aliases, ∃ own, Names a own ∧ own.Sublist used := by
    intro a ha
    exact names.exists_own (List.mem_reverse.mpr ha)
  refine ⟨?_, ?_, List.pairwise_reverse.mp (names.apart laid')⟩
  · intro a ha
    obtain ⟨own, hown, hin⟩ := own a ha
    exact ⟨(laid'.located _ (hin.subset hown.first_mem)).start,
      (laid'.located _ (hin.subset hown.last_mem)).stop⟩
  · intro a ha
    obtain ⟨own, hown, hin⟩ := own a ha
    have hfirst := (laid.located i.first List.mem_cons_self).ordered
    have hnext : i.first.stop.place ≤ a.first.start.place :=
      (List.pairwise_cons.mp laid.apart).1 _ (hsub.subset (hin.subset hown.first_mem))
    exact ⟨hfirst.trans hnext, hown.ordered (laid'.sublist hin), last a ha⟩

theorem Body.laid (h : Body i used) (laid : Token.Laid text (i.first :: used)) : i.Laid text := by
  cases h with
  | star none last plain =>
      constructor
      · simp [none]
      · simp [none]
      · simp [none]
  | @bare front used plain names last =>
      have hsub : used.Sublist (front ++ used) := List.sublist_append_right _ _
      refine names.laid laid hsub ?_
      intro a ha
      obtain ⟨b, hb, hlast⟩ := Option.map_eq_some_iff.mp last
      obtain ⟨rest, hrest⟩ := List.getLast?_eq_some_iff.mp hb
      have hreverse : i.aliases.reverse = b :: rest.reverse := by simp [hrest]
      have laid' : Token.Laid text used := laid.sublist (hsub.cons _)
      have hapart := names.apart laid'
      obtain ⟨own, hown, hin⟩ := names.exists_own (hreverse ▸ List.mem_cons_self)
      have hordered := hown.ordered (laid'.sublist hin)
      rw [hreverse] at hapart
      rcases List.mem_cons.mp (hreverse ▸ List.mem_reverse.mpr ha) with rfl | ha
      · rw [hlast]
      · have hbefore := (List.pairwise_cons.mp hapart).1 a ha
        rw [← hlast]
        exact (hbefore.trans_le hordered).le
  | @wrapped front used plain names closing =>
      have hsub : used.Sublist (front ++ (used ++ [i.last])) :=
        (List.sublist_append_left _ _).trans (List.sublist_append_right _ _)
      refine names.laid laid hsub ?_
      intro a ha
      obtain ⟨own, hown, hin⟩ := names.exists_own (List.mem_reverse.mpr ha)
      have hback : (used ++ [i.last]).Sublist (i.first :: (front ++ (used ++ [i.last]))) :=
        (List.sublist_append_right _ _).cons _
      have hnext : a.last.stop.place ≤ i.last.start.place :=
        (List.pairwise_append.mp (laid.sublist hback).apart).2.2 _ (hin.subset hown.last_mem) _
          List.mem_cons_self
      have hlast : i.last.start.place ≤ i.last.stop.place :=
        (laid.located i.last (by simp)).ordered
      exact hnext.trans hlast

end Parse

theorem Spread.laid {found : List Import} {ts : List Token} (h : Grammar.Spread found ts)
    {text : Text} (laid : Token.Laid text ts) : ∀ i ∈ found, i.Laid text := by
  induction h with
  | nil => simp
  | @cons i found e rest front more back word body ending next ih =>
      have hrest : rest.Sublist (front ++ i.first :: more ++ back ++ e :: rest) :=
        (List.sublist_cons_self e rest).trans (List.sublist_append_right _ _)
      have hown : (i.first :: more).Sublist (front ++ i.first :: more ++ back ++ e :: rest) :=
        ((List.sublist_append_right _ _).trans (List.sublist_append_left _ _)).trans
          (List.sublist_append_left _ _)
      intro j hj
      rcases List.mem_cons.mp hj with rfl | hj
      · exact body.laid (laid.sublist hown)
      · exact ih (laid.sublist hrest) j hj

theorem imports_laid {source : Text} {found : List Import} (h : imports? source = some found) :
    ∀ i ∈ found, i.Laid (Text.unifyBreaks source) := by
  obtain ⟨ts, hts, spread⟩ := exists_spread h
  exact Spread.laid spread (tokens_laid hts)

end ImportOrder.Code
