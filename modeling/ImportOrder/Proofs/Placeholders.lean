import Mathlib.Data.List.Infix
import Mathlib.Data.List.Nodup
import Mathlib.Data.List.TakeWhile
import ImportOrder.Text.Quoted
import ImportOrder.Violation

/-!
Filling a template. Putting in values one after the other is the substitution of all of them at once
as long as each placeholder that is found stands in the template itself; where a value brings one
along, it is filled too. So a message shows the source it is about with the placeholder of the other
source filled in.
-/

namespace ImportOrder

/-- A character that two parts do not have tells where they end. -/
theorem Text.append_cons_inj {d : Char} {a b r s : Text} (ha : d ∉ a) (hb : d ∉ b)
    (h : a ++ d :: r = b ++ d :: s) : a = b ∧ r = s := by
  have front : ∀ {l t : Text}, d ∉ l → (l ++ d :: t).takeWhile (· != d) = l := by
    intro l t hl
    rw [List.takeWhile_append_of_pos fun c hc => bne_iff_ne.mpr (ne_of_mem_of_not_mem hc hl)]
    simp
  obtain rfl : a = b := by rw [← front (t := r) ha, h, front hb]
  exact ⟨rfl, (List.cons.inj (List.append_cancel_left h)).2⟩

namespace Template

/-! ### Substitution of all values at once -/

/-- The template with each placeholder of its own replaced by its value; `pending` characters of
the last one are still to be passed over. -/
def substituteFrom (values : List (String × String)) : Text → Nat → Text
  | [], _ => []
  | _ :: rest, pending + 1 => substituteFrom values rest pending
  | c :: rest, 0 =>
      match values.find? fun v => (placeholder v.1).isPrefixOf (c :: rest) with
      | some v => v.2.toList ++ substituteFrom values rest ((placeholder v.1).length - 1)
      | none => c :: substituteFrom values rest 0

def substitute (values : List (String × String)) (template : Text) : Text :=
  substituteFrom values template 0

/-- Names that placeholders can tell apart: they are distinct and without braces. -/
structure Named (values : List (String × String)) : Prop where
  distinct : (values.map Prod.fst).Nodup
  plain : ∀ v ∈ values, '\x7b' ∉ v.1.toList ∧ '\x7d' ∉ v.1.toList

theorem placeholder_eq (name : String) (rest : Text) :
    placeholder name ++ rest = '\x7b' :: (name.toList ++ '\x7d' :: rest) := by
  simp [placeholder]

/-- At most one placeholder stands at the start of a text. -/
theorem name_unique {m n : String} {t : Text} (hm : '\x7d' ∉ m.toList) (hn : '\x7d' ∉ n.toList)
    (hmt : placeholder m <+: t) (hnt : placeholder n <+: t) : m = n := by
  obtain ⟨r, hr⟩ := hmt
  obtain ⟨s, hs⟩ := hnt
  rw [← hs, placeholder_eq, placeholder_eq] at hr
  exact String.toList_inj.mp (Text.append_cons_inj hm hn (List.cons.inj hr).2).1

theorem exists_of_append_eq {d : Char} {x s front y : Text} (hx : d ∉ x)
    (h : x ++ s = front ++ d :: y) : ∃ more, front = x ++ more ∧ s = more ++ d :: y := by
  induction x generalizing front with
  | nil => exact ⟨front, rfl, h⟩
  | cons c x ih =>
      rw [List.mem_cons, not_or] at hx
      cases front with
      | nil => exact absurd (List.cons.inj h).1.symm hx.1
      | cons e front =>
          rw [List.cons_append, List.cons_append, List.cons.injEq] at h
          obtain ⟨more, hfront, hs⟩ := ih hx.2 h.2
          exact ⟨more, by rw [h.1, hfront, List.cons_append], hs⟩

theorem behind_placeholder {n : String} {x y rest : Text} (hn : '\x7b' ∉ n.toList)
    (h : placeholder n ++ rest = x ++ '\x7b' :: y) :
    x = [] ∨ ∃ more, x = placeholder n ++ more ∧ rest = more ++ '\x7b' :: y := by
  cases x with
  | nil => exact .inl rfl
  | cons c x =>
      have htail : '\x7b' ∉ n.toList ++ ['\x7d'] := by simp [hn]
      have heq : (n.toList ++ ['\x7d']) ++ rest = x ++ '\x7b' :: y := (List.cons.inj h).2
      obtain ⟨more, rfl, hrest⟩ := exists_of_append_eq htail heq
      exact .inr ⟨more, by rw [← (List.cons.inj h).1]; rfl, hrest⟩

theorem substituteFrom_eq (values : List (String × String)) (t : Text) (pending : Nat) :
    substituteFrom values t pending = substitute values (t.drop pending) := by
  induction t generalizing pending with
  | nil => cases pending <;> rfl
  | cons c rest ih =>
      cases pending with
      | zero => rfl
      | succ pending => exact ih pending

section Steps

variable {values : List (String × String)} {v : String × String} {c : Char} {rest : Text}

theorem substitute_char (free : ∀ v ∈ values, ¬ placeholder v.1 <+: c :: rest) :
    substitute values (c :: rest) = c :: substitute values rest := by
  have hfind : (values.find? fun v => (placeholder v.1).isPrefixOf (c :: rest)) = none := by
    rw [List.find?_eq_none]
    intro v hv
    simpa using free v hv
  simp only [substitute, substituteFrom, hfind]

theorem Named.eq_of_prefix (named : Named values) {u : String × String} {t : Text}
    (hu : u ∈ values) (hv : v ∈ values) (hut : placeholder u.1 <+: t)
    (hvt : placeholder v.1 <+: t) : u = v :=
  List.inj_on_of_nodup_map named.distinct hu hv
    (name_unique (named.plain u hu).2 (named.plain v hv).2 hut hvt)

theorem Named.sublist {fewer : List (String × String)} (named : Named values)
    (h : fewer.Sublist values) : Named fewer :=
  ⟨named.distinct.sublist (h.map Prod.fst), fun u hu => named.plain u (h.subset hu)⟩

theorem Named.not_prefix (named : Named (values ++ [v])) {u : String × String} {t : Text}
    (hu : u ∈ values) (hvt : placeholder v.1 <+: t) : ¬ placeholder u.1 <+: t := by
  intro hut
  have hsame : u = v := named.eq_of_prefix (List.mem_append_left [v] hu) (by simp) hut hvt
  have hnodup := named.distinct
  rw [List.map_append, List.nodup_append] at hnodup
  exact hnodup.2.2 u.1 (List.mem_map_of_mem hu) v.1 (by simp) (congrArg Prod.fst hsame)

theorem substitute_hole (named : Named values) (hv : v ∈ values) :
    substitute values (placeholder v.1 ++ rest) = v.2.toList ++ substitute values rest := by
  have hfound : (values.find? fun u => (placeholder u.1).isPrefixOf (placeholder v.1 ++ rest)) =
      some v := by
    have hsome : (values.find? fun u =>
        (placeholder u.1).isPrefixOf (placeholder v.1 ++ rest)).isSome := by
      rw [List.find?_isSome]
      exact ⟨v, hv, by simp⟩
    obtain ⟨u, hu⟩ := Option.isSome_iff_exists.mp hsome
    have hstart : placeholder u.1 <+: placeholder v.1 ++ rest := by
      simpa using List.find?_some hu
    rw [hu, named.eq_of_prefix (List.mem_of_find?_eq_some hu) hv hstart (List.prefix_append _ _)]
  have hlength : (placeholder v.1).length - 1 = (v.1.toList ++ ['\x7d']).length := by
    simp [placeholder]
  have hdrop : (v.1.toList ++ '\x7d' :: rest).drop ((placeholder v.1).length - 1) = rest := by
    rw [hlength, List.append_cons v.1.toList _ rest, List.drop_left]
  rw [placeholder_eq] at hfound ⊢
  simp only [substitute, substituteFrom, hfound]
  rw [substituteFrom_eq, hdrop, substitute]

/-- Each text is read from left to right: a placeholder, or a character that starts none. -/
theorem template_induction {P : Text → Prop} (values : List (String × String)) (nil : P [])
    (hole : ∀ v ∈ values, ∀ rest, P rest → P (placeholder v.1 ++ rest))
    (char : ∀ c rest, (∀ v ∈ values, ¬ placeholder v.1 <+: c :: rest) → P rest → P (c :: rest))
    (t : Text) : P t := by
  induction hlen : t.length using Nat.strongRecOn generalizing t with
  | ind n ih =>
      cases t with
      | nil => exact nil
      | cons c rest =>
          by_cases hfree : ∀ v ∈ values, ¬ placeholder v.1 <+: c :: rest
          · exact char c rest hfree (ih rest.length (by simp [← hlen]) rest rfl)
          · push Not at hfree
            obtain ⟨v, hv, later, hlater⟩ := hfree
            rw [← hlater] at hlen ⊢
            refine hole v hv later (ih later.length ?_ later rfl)
            simp only [← hlen, placeholder, List.length_append, List.length_cons]
            omega

theorem not_prefix_of_ne (name : String) (hc : c ≠ '\x7b') : ¬ placeholder name <+: c :: rest := by
  intro h
  exact hc (List.cons_prefix_cons.mp h).1.symm

theorem substitute_plain {x : Text} (hx : '\x7b' ∉ x) :
    substitute values (x ++ rest) = x ++ substitute values rest := by
  induction x with
  | nil => rfl
  | cons c x ih =>
      rw [List.mem_cons, not_or] at hx
      rw [List.cons_append, substitute_char fun v _ => not_prefix_of_ne v.1 (Ne.symm hx.1), ih hx.2,
        List.cons_append]

theorem substitute_nothing (t : Text) : substitute [] t = t := by
  induction t with
  | nil => rfl
  | cons c rest ih => rw [substitute_char (by simp), ih]

theorem substitute_other (named : Named (values ++ [v])) :
    substitute values (placeholder v.1 ++ rest) = placeholder v.1 ++ substitute values rest := by
  have hlast : v ∈ values ++ [v] := by simp
  have hfree : ∀ u ∈ values, ¬ placeholder u.1 <+: '\x7b' :: (v.1.toList ++ '\x7d' :: rest) := by
    intro u hu hstart
    rw [← placeholder_eq] at hstart
    exact named.not_prefix hu (List.prefix_append _ _) hstart
  have hname : '\x7b' ∉ v.1.toList ++ ['\x7d'] := by simp [(named.plain v hlast).1]
  rw [placeholder_eq, substitute_char hfree, List.append_cons, substitute_plain hname,
    ← List.append_cons, placeholder_eq]

end Steps

/-! ### One value after the other -/

section Fill

variable {values done : List (String × String)} {v : String × String} {template : Text}

theorem fillOne_eq (template : Text) (v : String × String) :
    fillOne template v.1 v.2 = substitute [v] template := by
  have step : ∀ (t : Text) (pending : Nat),
      Text.replaceFrom (placeholder v.1) v.2.toList t pending = substituteFrom [v] t pending := by
    intro t
    induction t with
    | nil => intro pending; cases pending <;> rfl
    | cons c rest ih =>
        intro pending
        cases pending with
        | succ pending => exact ih pending
        | zero =>
            rw [Text.replaceFrom, substituteFrom, List.find?_cons, List.find?_nil]
            cases (placeholder v.1).isPrefixOf (c :: rest) with
            | true => exact congrArg (v.2.toList ++ ·) (ih _)
            | false => exact congrArg (c :: ·) (ih 0)
  exact step template 0

/-- Once the values of `done` are in, the placeholders of a name are those of the template: each has
before it what was made of the template before it. -/
def Untouched (done : List (String × String)) (name : String) (template : Text) : Prop :=
  ∀ front back, substitute done template = front ++ (placeholder name ++ back) →
    ∃ before behind, template = before ++ (placeholder name ++ behind) ∧
      substitute done before = front

/-- A part of the text that no placeholder reaches into is left alone. -/
theorem substitute_clear {x rest : Text}
    (clear : ∀ front back, x ++ rest = front ++ (placeholder v.1 ++ back) →
      ∃ more, front = x ++ more) :
    substitute [v] (x ++ rest) = x ++ substitute [v] rest := by
  induction x with
  | nil => rfl
  | cons c x ih =>
      have hfree : ∀ u ∈ [v], ¬ placeholder u.1 <+: c :: (x ++ rest) := by
        rintro u hu ⟨back, hback⟩
        rw [List.mem_singleton.mp hu] at hback
        obtain ⟨more, hmore⟩ := clear [] back hback.symm
        cases hmore
      rw [List.cons_append, substitute_char hfree, ih, List.cons_append]
      intro front back hfront
      obtain ⟨more, hmore⟩ := clear (c :: front) back (congrArg (c :: ·) hfront)
      exact ⟨more, (List.cons.inj hmore).2⟩

section Piece

variable {name : String} {piece made rest : Text}

/-- Behind a piece of the template that becomes `made` the placeholders are the template's again. -/
theorem Untouched.behind (h : Untouched done name (piece ++ rest))
    (whole : substitute done (piece ++ rest) = made ++ substitute done rest)
    (split : ∀ before behind, piece ++ rest = before ++ (placeholder name ++ behind) →
      (before = [] ∧ made ≠ []) ∨ ∃ more, before = piece ++ more ∧
        substitute done before = made ++ substitute done more) :
    Untouched done name rest := by
  intro front back hfront
  obtain ⟨before, behind, heq, hbefore⟩ :=
    h (made ++ front) back (by rw [whole, hfront, List.append_assoc])
  rcases split before behind heq with ⟨rfl, hmade⟩ | ⟨more, rfl, hmore⟩
  · exact absurd (List.append_eq_nil_iff.mp hbefore.symm).1 hmade
  · refine ⟨more, behind, ?_, List.append_cancel_left (hmore.symm.trans hbefore)⟩
    rw [List.append_assoc] at heq
    exact List.append_cancel_left heq

theorem Untouched.clear (h : Untouched done v.1 (piece ++ rest))
    (whole : substitute done (piece ++ rest) = made ++ substitute done rest)
    (split : ∀ before behind, piece ++ rest = before ++ (placeholder v.1 ++ behind) →
      ∃ more, before = piece ++ more ∧ substitute done before = made ++ substitute done more) :
    substitute [v] (made ++ substitute done rest) =
      made ++ substitute [v] (substitute done rest) := by
  apply substitute_clear
  intro front back hfront
  obtain ⟨before, behind, heq, hbefore⟩ := h front back (whole.trans hfront)
  obtain ⟨more, -, hmore⟩ := split before behind heq
  exact ⟨substitute done more, hbefore.symm.trans hmore⟩

end Piece

/-- A value that is put in last finds the placeholders of the template and no others. -/
theorem substitute_substitute (named : Named (done ++ [v])) (h : Untouched done v.1 template) :
    substitute [v] (substitute done template) = substitute (done ++ [v]) template := by
  induction template using template_induction (done ++ [v]) with
  | nil => rfl
  | char c rest hfree ih =>
      have hdone : ∀ u ∈ done, ¬ placeholder u.1 <+: c :: rest :=
        fun u hu => hfree u (List.mem_append_left [v] hu)
      have whole : substitute done ([c] ++ rest) = [c] ++ substitute done rest :=
        substitute_char hdone
      have split : ∀ before behind, [c] ++ rest = before ++ (placeholder v.1 ++ behind) →
          ∃ more, before = [c] ++ more ∧ substitute done before = [c] ++ substitute done more := by
        intro before behind heq
        cases before with
        | nil => exact absurd ⟨behind, heq.symm⟩ (hfree v (by simp))
        | cons d more =>
            obtain ⟨rfl, hrest⟩ := List.cons.inj heq
            refine ⟨more, rfl, substitute_char ?_⟩
            intro u hu hstart
            have hmore : c :: more <+: c :: rest := ⟨placeholder v.1 ++ behind, heq.symm⟩
            exact hdone u hu (hstart.trans hmore)
      have hrest : Untouched done v.1 rest :=
        Untouched.behind h whole fun before behind heq => .inr (split before behind heq)
      have hclear := Untouched.clear h whole split
      rw [List.singleton_append] at whole
      rw [whole, substitute_char hfree, ← ih hrest]
      exact hclear
  | hole u hu rest ih =>
      rw [substitute_hole named hu]
      have hopen := fun (before behind : Text)
          (heq : placeholder u.1 ++ rest = before ++ (placeholder v.1 ++ behind)) =>
        behind_placeholder (named.plain u hu).1 (heq.trans (by rw [placeholder_eq]))
      rcases List.mem_append.mp hu with hold | hnew
      · have whole : substitute done (placeholder u.1 ++ rest) =
            u.2.toList ++ substitute done rest :=
          substitute_hole (named.sublist (List.sublist_append_left _ _)) hold
        have split : ∀ before behind,
            placeholder u.1 ++ rest = before ++ (placeholder v.1 ++ behind) →
            ∃ more, before = placeholder u.1 ++ more ∧
              substitute done before = u.2.toList ++ substitute done more := by
          intro before behind heq
          rcases hopen before behind heq with rfl | ⟨more, rfl, -⟩
          · exact absurd (List.prefix_append _ rest) (named.not_prefix hold ⟨behind, heq.symm⟩)
          · exact ⟨more, rfl, substitute_hole (named.sublist (List.sublist_append_left _ _)) hold⟩
        have hrest : Untouched done v.1 rest :=
          Untouched.behind h whole fun before behind heq => .inr (split before behind heq)
        rw [whole, Untouched.clear h whole split, ih hrest]
      · obtain rfl := List.mem_singleton.mp hnew
        have whole : substitute done (placeholder u.1 ++ rest) =
            placeholder u.1 ++ substitute done rest := substitute_other named
        have hrest : Untouched done u.1 rest := by
          apply Untouched.behind h whole
          intro before behind heq
          rcases hopen before behind heq with rfl | ⟨more, rfl, -⟩
          · exact .inl ⟨rfl, nofun⟩
          · exact .inr ⟨more, rfl, substitute_other named⟩
        rw [whole, substitute_hole (named.sublist (List.sublist_append_right _ _)) (by simp),
          ih hrest]

/-- Every placeholder that is found while the values are put in stands in the template. -/
def Literal (values : List (String × String)) (template : Text) : Prop :=
  ∀ done v rest, values = done ++ v :: rest → Untouched done v.1 template

theorem fill_concat (template : String) (values : List (String × String)) (v : String × String) :
    (fill template (values ++ [v])).toList = substitute [v] (fill template values).toList := by
  simp [fill, fillOne_eq]

theorem toList_fill {template : String} (named : Named values)
    (literal : Literal values template.toList) :
    (fill template values).toList = substitute values template.toList := by
  induction values using List.reverseRecOn with
  | nil => simp [fill, substitute_nothing]
  | append_singleton values v ih =>
      have hearlier : Literal values template.toList := by
        intro done u rest heq
        exact literal done u (rest ++ [v]) (by simp [heq])
      rw [fill_concat, ih (named.sublist (List.sublist_append_left _ _)) hearlier]
      exact substitute_substitute named (literal values v [] rfl)

/-- Each opening brace of the template opens a placeholder. -/
def Tidy (values : List (String × String)) (template : Text) : Prop :=
  ∀ before behind, template = before ++ '\x7b' :: behind →
    ∃ v ∈ values, placeholder v.1 <+: '\x7b' :: behind

theorem Tidy.right {piece rest : Text} (h : Tidy values (piece ++ rest)) : Tidy values rest := by
  intro before behind heq
  exact h (piece ++ before) behind (by rw [heq, List.append_assoc])

/-- Values without opening braces bring no placeholder along, and a tidy template has no brace that
could make one of what they bring. -/
theorem untouched_of_tidy {later : List (String × String)} (named : Named (done ++ v :: later))
    (tidy : Tidy (done ++ v :: later) template) (closed : ∀ u ∈ done, '\x7b' ∉ u.2.toList) :
    Untouched done v.1 template := by
  induction template using template_induction (done ++ v :: later) with
  | nil =>
      intro front back heq
      rw [placeholder_eq] at heq
      exact absurd heq.symm (by simp [substitute, substituteFrom])
  | char c rest hfree ih =>
      have hc : c ≠ '\x7b' := by
        rintro rfl
        obtain ⟨u, hu, hstart⟩ := tidy [] rest rfl
        exact hfree u hu hstart
      intro front back heq
      rw [substitute_char fun u _ => not_prefix_of_ne u.1 hc] at heq
      cases front with
      | nil =>
          rw [placeholder_eq] at heq
          exact absurd (List.cons.inj heq).1 hc
      | cons d front =>
          obtain ⟨rfl, hfront⟩ := List.cons.inj heq
          have hrest : Tidy (done ++ v :: later) rest :=
            Tidy.right (show Tidy _ ([c] ++ rest) from tidy)
          obtain ⟨before, behind, rfl, rfl⟩ := ih hrest front back hfront
          exact ⟨c :: before, behind, rfl, substitute_char fun u _ => not_prefix_of_ne u.1 hc⟩
  | hole u hu rest ih =>
      intro front back heq
      rw [placeholder_eq v.1] at heq
      -- Before what comes behind the placeholder stands its value, or the placeholder itself.
      have behindIt : ∀ made more, (∀ t, substitute done (placeholder u.1 ++ t) =
          made ++ substitute done t) → front = made ++ more →
          substitute done rest = more ++ '\x7b' :: (v.1.toList ++ '\x7d' :: back) →
          ∃ before behind, placeholder u.1 ++ rest = before ++ (placeholder v.1 ++ behind) ∧
            substitute done before = front := by
        intro made more hmade hfront hmore
        rw [← placeholder_eq] at hmore
        obtain ⟨before, behind, rfl, rfl⟩ := ih tidy.right more back hmore
        exact ⟨placeholder u.1 ++ before, behind, by rw [List.append_assoc],
          by rw [hmade, hfront]⟩
      by_cases hold : u ∈ done
      · have hmade : ∀ t, substitute done (placeholder u.1 ++ t) =
            u.2.toList ++ substitute done t := fun t =>
          substitute_hole (named.sublist (List.sublist_append_left _ _)) hold
        rw [hmade] at heq
        obtain ⟨more, hfront, hmore⟩ := exists_of_append_eq (closed u hold) heq
        exact behindIt _ more hmade hfront hmore
      · have hlater : u ∈ v :: later := (List.mem_append.mp hu).resolve_left hold
        have hother : Named (done ++ [u]) := named.sublist
          ((List.singleton_sublist.mpr hlater).append_left done)
        have hmade : ∀ t, substitute done (placeholder u.1 ++ t) =
            placeholder u.1 ++ substitute done t := fun t => substitute_other hother
        rw [hmade] at heq
        rcases behind_placeholder (named.plain u hu).1 heq with rfl | ⟨more, hfront, hmore⟩
        · have hown : placeholder v.1 <+: placeholder u.1 ++ substitute done rest :=
            ⟨back, by rw [heq, placeholder_eq]; rfl⟩
          have hsame : u = v := named.eq_of_prefix hu (by simp) (List.prefix_append _ _) hown
          exact ⟨[], rest, by rw [hsame]; rfl, rfl⟩
        · exact behindIt _ more hmade hfront hmore

theorem literal_of_tidy (named : Named values) (tidy : Tidy values template)
    (closed : ∀ v ∈ values.dropLast, '\x7b' ∉ v.2.toList) : Literal values template := by
  intro done v later heq
  subst heq
  apply untouched_of_tidy named tidy
  intro u hu
  apply closed u
  rw [List.dropLast_append_of_ne_nil (List.cons_ne_nil v later)]
  exact List.mem_append_left _ hu

end Fill

/-! ### Messages -/

section Messages

variable {values : List (String × String)} {v : String × String}

theorem substitute_break (named : Named values) {d : Char} (hd : ∀ v ∈ values, d ∉ placeholder v.1)
    (t rest : Text) :
    substitute values (t ++ d :: rest) = substitute values t ++ d :: substitute values rest := by
  induction t using template_induction values with
  | nil =>
      apply substitute_char
      intro v hv hstart
      exact hd v hv (by rw [← (List.cons_prefix_cons.mp hstart).1]; exact List.mem_cons_self)
  | hole v hv t ih => rw [List.append_assoc, substitute_hole named hv, substitute_hole named hv, ih,
      List.append_assoc]
  | char c t hfree ih =>
      rw [List.cons_append, substitute_char hfree, substitute_char, ih, List.cons_append]
      rintro v hv ⟨back, hback⟩
      rcases List.append_eq_append_iff.mp (hback.trans (List.cons_append ..).symm) with
        ⟨inner, hinner, -⟩ | ⟨inner, hinner, hback⟩
      · exact hfree v hv ⟨inner, hinner.symm⟩
      · cases inner with
        | nil => exact hfree v hv ⟨[], by simpa using hinner⟩
        | cons e inner =>
            obtain ⟨rfl, -⟩ := List.cons.inj hback
            exact hd v hv (by simp [hinner])

theorem length_substitute (named : Named [v]) (t : Text) :
    ∃ count, (substitute [v] t).length + count * (placeholder v.1).length =
      t.length + count * v.2.toList.length := by
  induction t using template_induction [v] with
  | nil => exact ⟨0, by simp [substitute, substituteFrom]⟩
  | hole u hu rest ih =>
      obtain rfl := List.mem_singleton.mp hu
      obtain ⟨count, hcount⟩ := ih
      refine ⟨count + 1, ?_⟩
      rw [substitute_hole named hu, List.length_append, List.length_append, Nat.succ_mul,
        Nat.succ_mul]
      omega
  | char c rest hfree ih =>
      obtain ⟨count, hcount⟩ := ih
      refine ⟨count, ?_⟩
      rw [substitute_char hfree, List.length_cons, List.length_cons]
      omega

/-- A value changes a text exactly if its placeholder is in it and the value is not that. -/
theorem substitute_eq_self_iff (named : Named [v]) (t : Text) :
    substitute [v] t = t ↔ ¬ placeholder v.1 <:+: t ∨ v.2.toList = placeholder v.1 := by
  induction t using template_induction [v] with
  | nil =>
      refine iff_of_true rfl (.inl ?_)
      intro h
      exact absurd (List.infix_nil.mp h) (by simp [placeholder])
  | hole u hu rest ih =>
      obtain rfl := List.mem_singleton.mp hu
      rw [substitute_hole named hu, or_iff_right (not_not.mpr (List.prefix_append _ rest).isInfix)]
      constructor
      · intro heq
        -- Equal texts are equally long, however often the value is put in.
        obtain ⟨count, hcount⟩ := length_substitute named rest
        have hlength := congrArg List.length heq
        rw [List.length_append, List.length_append] at hlength
        have hmul : (count + 1) * u.2.toList.length = (count + 1) * (placeholder u.1).length := by
          rw [Nat.succ_mul, Nat.succ_mul]
          omega
        exact (List.append_inj heq (Nat.eq_of_mul_eq_mul_left count.succ_pos hmul)).1
      · intro heq
        rw [heq, ih.mpr (.inr heq)]
  | char c rest hfree ih =>
      have hinfix : placeholder v.1 <:+: c :: rest ↔ placeholder v.1 <:+: rest := by
        rw [List.infix_cons_iff, or_iff_right (hfree v List.mem_cons_self)]
      rw [substitute_char hfree, List.cons.injEq, and_iff_right rfl, ih, hinfix]

theorem wrongOrder_pieces : Settings.wrongOrder.toList =
    "Expected import from '".toList ++ (placeholder "current" ++ (Text.apostrophe ::
      (" to come before import from '".toList ++ (placeholder "previous" ++ "'.".toList)))) := by
  decide

theorem named_sources (current previous : String) :
    Named ([("current", current)] ++ [("previous", previous)]) := by
  refine ⟨by simp, ?_⟩
  intro v hv
  have hname : v.1 = "current" ∨ v.1 = "previous" := by
    cases List.mem_append.mp hv with
    | inl h => exact .inl (congrArg Prod.fst (List.mem_singleton.mp h))
    | inr h => exact .inr (congrArg Prod.fst (List.mem_singleton.mp h))
  cases hname with
  | inl h => rw [h]; decide
  | inr h => rw [h]; decide

theorem substitute_braceless {t : Text} (ht : '\x7b' ∉ t) : substitute values t = t := by
  have h : substitute values (t ++ []) = t ++ substitute values [] := substitute_plain ht
  rwa [List.append_nil, show substitute values [] = [] from rfl, List.append_nil] at h

/-- The first source has the placeholder of the second filled in. -/
theorem fill_wrongOrder (current previous : String) :
    fill Settings.wrongOrder [("current", current), ("previous", previous)] =
      "Expected import from '" ++ String.ofList (fillOne current.toList "previous" previous) ++
        "' to come before import from '" ++ previous ++ "'." := by
  have named := named_sources current previous
  have hfirst : Named [("current", current)] := named.sublist (List.sublist_append_left _ _)
  have hsecond : Named [("previous", previous)] := named.sublist (List.sublist_append_right _ _)
  have hopening : '\x7b' ∉ "Expected import from '".toList := by decide
  have hmiddle : '\x7b' ∉ " to come before import from '".toList := by decide
  have hclosing : '\x7b' ∉ "'.".toList := by decide
  have hmark : Text.apostrophe ≠ '\x7b' := by decide
  have hbreak : ∀ v ∈ [("previous", previous)], Text.apostrophe ∉ placeholder v.1 := by
    intro v hv
    rw [List.mem_singleton.mp hv]
    show Text.apostrophe ∉ placeholder "previous"
    decide
  have hmiddle' : "' to come before import from '".toList =
      Text.apostrophe :: " to come before import from '".toList := by decide
  rw [← String.toList_inj]
  simp only [fill, List.foldl_cons, List.foldl_nil, String.toList_append, String.toList_ofList,
    fillOne_eq _ ("current", current), fillOne_eq _ ("previous", previous), wrongOrder_pieces,
    hmiddle']
  rw [substitute_plain hopening, substitute_hole hfirst List.mem_cons_self,
    substitute_char fun v _ => not_prefix_of_ne v.1 hmark, substitute_plain hmiddle,
    substitute_other named, substitute_braceless hclosing, substitute_plain hopening,
    substitute_break hsecond hbreak, substitute_plain hmiddle,
    substitute_hole hsecond List.mem_cons_self, substitute_braceless hclosing]
  simp

end Messages

/-- A value is put in literally as long as it brings no placeholder of a later name along: then
filling is the substitution of all values at once. This is so if no value but the last has an
opening brace and the template has none but those of its placeholders. The message about an import
in the wrong place shows the source of the place verbatim, and the other one exactly if it does not
have the placeholder of that source in it, or that source is the placeholder. -/
theorem values_put_in_literally (template : String) (values : List (String × String))
    (named : Named values) :
    (Literal values template.toList →
      fill template values = String.ofList (substitute values template.toList)) ∧
    (Tidy values template.toList → (∀ v ∈ values.dropLast, '\x7b' ∉ v.2.toList) →
      Literal values template.toList) ∧
    ∀ (v : Violation) (place : Nat) (reference : Statement), v.fault = .wrongOrder place reference →
      v.message = "Expected import from '" ++
        String.ofList (fillOne v.statement.source.toList "previous" reference.source) ++
        "' to come before import from '" ++ reference.source ++ "'." ∧
      (v.message = "Expected import from '" ++ v.statement.source ++
          "' to come before import from '" ++ reference.source ++ "'." ↔
        ¬ placeholder "previous" <:+: v.statement.source.toList ∨
          reference.source.toList = placeholder "previous") := by
  refine ⟨?_, ?_, ?_⟩
  · intro literal
    rw [← toList_fill named literal, String.ofList_toList]
  · intro tidy closed
    exact literal_of_tidy named tidy closed
  · intro v place reference hfault
    have hmessage : v.message = fill Settings.wrongOrder
        [("current", v.statement.source), ("previous", reference.source)] := by
      simp only [Violation.message, Violation.kind, Violation.data, hfault, Kind.template]
    have hsecond := (named_sources v.statement.source reference.source).sublist
      (List.sublist_append_right _ _)
    rw [hmessage, fill_wrongOrder]
    refine ⟨rfl, ?_⟩
    have hverbatim := substitute_eq_self_iff hsecond v.statement.source.toList
    rw [← fillOne_eq] at hverbatim
    rw [← hverbatim]
    simp [← String.toList_inj]

/-- An import to be moved up, from a source with braces. -/
def bracedSources : Violation where
  index := 1
  statement := ⟨"\x7bcurrent\x7d", [], [], ⟨2, 0⟩, ⟨2, 0⟩, ⟨9, 9⟩⟩
  fault := .wrongOrder 0 ⟨"\x7bb", [], [], ⟨1, 0⟩, ⟨1, 8⟩, ⟨0, 8⟩⟩

theorem values_put_in_literally_braces :
    fill "\x7ba\x7d\x7bb\x7d" [("a", "x\x7d"), ("b", "\x7ba\x7d")] = "x\x7d\x7ba\x7d" ∧
      bracedSources.message =
        "Expected import from '\x7bcurrent\x7d' to come before import from '\x7bb'." := by
  have named : Named [("a", "x\x7d"), ("b", "\x7ba\x7d")] :=
    ⟨by decide, by decide⟩
  have tails : ∀ t ∈ "\x7ba\x7d\x7bb\x7d".toList.tails, t.head? = some '\x7b' →
      ∃ v ∈ [("a", "x\x7d"), ("b", "\x7ba\x7d")], placeholder v.1 <+: t := by decide
  have tidy : Tidy [("a", "x\x7d"), ("b", "\x7ba\x7d")] "\x7ba\x7d\x7bb\x7d".toList := by
    intro before behind heq
    exact tails ('\x7b' :: behind) ((List.mem_tails _ _).mpr ⟨before, heq.symm⟩) rfl
  have hputIn := values_put_in_literally "\x7ba\x7d\x7bb\x7d" _ named
  constructor
  · rw [hputIn.1 (hputIn.2.1 tidy (by decide))]
    decide
  · rw [(hputIn.2.2 bracedSources 0 _ rfl).2.mpr (.inl (by decide))]
    decide

/-- The value of the first name brings the placeholder of the second along, and it is filled. -/
theorem fill_reaches_into_value :
    Named [("a", "\x7bb\x7d"), ("b", "x")] ∧
      fill "\x7ba\x7d\x7bb\x7d" [("a", "\x7bb\x7d"), ("b", "x")] = "xx" ∧
      String.ofList (substitute [("a", "\x7bb\x7d"), ("b", "x")] "\x7ba\x7d\x7bb\x7d".toList) =
        "\x7bb\x7dx" :=
  ⟨⟨by decide, by decide⟩, by decide, by decide⟩

end Template

end ImportOrder
