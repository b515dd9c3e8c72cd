import ImportOrder.Code.Collect
import ImportOrder.Proofs.Passes

/-!
What a run of passes means once it has stopped, for any way of collecting statements. Either every
pass that was allowed applied a fix, or the last text is settled: a pass over it carries out
nothing. In a settled text nothing is out of order, no empty line is missing, and only names with a comment
between them are left as they are; so another run over it changes nothing.
-/

namespace ImportOrder

section Runs

variable {collect : Collector} {policy : Policy} {file : String} {text final : Text}
variable {found : Collection} {violations : List Violation} {limit : Nat} {done : List Pass}
variable {r : Result}

/-- The text can be checked, and a pass over it carries out nothing. -/
def Settled (collect : Collector) (policy : Policy) (text : Text) : Prop :=
  ∃ found violations, survey collect policy text = .ok (found, violations) ∧
    carriedOut text violations = []

/-- How many passes applied a fix. -/
def effective (done : List Pass) : Nat := done.countP (·.outcome.applied != 0)

theorem effective_of_forall (h : ∀ pass ∈ done, pass.outcome.applied ≠ 0) :
    effective done = done.length := by
  rw [effective, List.countP_eq_length]
  simpa using h

/-- A run uses up its passes, each of them for a fix, or it ends with a settled text. -/
theorem full_or_settled (h : passes collect policy limit text = (done, .ok final)) :
    (done.length = limit ∧ ∀ pass ∈ done, pass.outcome.applied ≠ 0) ∨
      Settled collect policy final := by
  induction limit generalizing text done with
  | zero =>
      cases h
      exact .inl ⟨rfl, by simp⟩
  | succ limit ih =>
      rw [passes] at h
      cases hsurvey : survey collect policy text with
      | error e =>
          rw [onePass, hsurvey] at h
          cases h
      | ok checked =>
          obtain ⟨found, violations⟩ := checked
          rw [onePass_of_survey hsurvey] at h
          cases violations with
          | nil =>
              cases h
              exact .inr ⟨found, [], hsurvey, carriedOut_nil _⟩
          | cons v rest =>
              simp only [List.isEmpty_cons, Bool.false_eq_true, if_false] at h
              split at h
              · next idle =>
                  cases h
                  rw [beq_iff_eq, applied_eq_length, List.length_eq_zero_iff] at idle
                  exact .inr ⟨found, _, hsurvey, idle⟩
              · next applied =>
                  obtain ⟨rfl, hending⟩ := Prod.mk.inj h
                  refine (ih (Prod.ext rfl hending)).imp_left ?_
                  rintro ⟨hlength, hall⟩
                  refine ⟨by simp [hlength], ?_⟩
                  intro pass hpass
                  rcases List.mem_cons.mp hpass with rfl | hpass
                  · simpa using applied
                  · exact hall pass hpass

/-- Names are left alone only if a comment stands between them. -/
theorem comment_of_planMembers_eq_nil {s : Statement} {b : Binding} (hb : s.firstMisplaced = some b)
    (h : Edit.planMembers s = []) :
    ∃ first ∈ s.named.head?, ∃ last ∈ s.named.getLast?,
      '#' ∈ Edit.within s ⟨first.span.start, last.span.stop⟩ := by
  have hne : s.named ≠ [] := by
    intro hnil
    simp [Statement.firstMisplaced, hnil] at hb
  have hfirst := List.head?_eq_some_head hne
  have hlast := List.getLast?_eq_some_getLast hne
  refine ⟨_, hfirst, _, hlast, ?_⟩
  simp only [Edit.planMembers, hfirst, hlast] at h
  split at h
  · next comment => exact List.contains_iff_mem.mp comment
  · cases h

theorem checkStatements_of_survey (h : survey collect policy text = .ok (found, violations)) :
    checkStatements policy found.newline found.statements = .ok violations := by
  unfold survey at h
  split at h
  · cases h
  · split at h
    · next hcheck =>
        cases h
        exact hcheck
    · cases h

theorem comment_of_settled (h : survey collect policy text = .ok (found, violations))
    (settled : carriedOut text violations = []) {v : Violation} (hv : v ∈ violations) :
    v.kind = .wrongMemberOrder ∧ v.edits = [] ∧
      ∃ first ∈ v.statement.named.head?, ∃ last ∈ v.statement.named.getLast?,
        '#' ∈ Edit.within v.statement ⟨first.span.start, last.span.stop⟩ := by
  have hcheck := checkStatements_of_survey h
  obtain ⟨hkind, hedits⟩ := settled_violations hcheck settled hv
  refine ⟨hkind, hedits, ?_⟩
  rcases (mem_of_checkStatements hcheck).mp hv with ⟨i, j, s, r, -, -, -, rfl⟩ |
    ⟨i, s, -, -, rfl⟩ | ⟨i, s, b, -, -, hb, rfl⟩
  · cases hkind
  · cases hkind
  · exact comment_of_planMembers_eq_nil hb hedits

theorem exists_edits_iff (h : survey collect policy text = .ok (found, violations)) :
    (∃ v ∈ violations, v.edits ≠ []) ↔ ∃ next, Advances collect policy text next := by
  simp only [advances_iff h, exists_and_left, exists_eq', and_true]
  constructor
  · rintro ⟨v, hv, hedits⟩ settled
    exact hedits (comment_of_settled h settled hv).2.1
  · intro busy
    obtain ⟨fix, hfix⟩ := List.exists_mem_of_ne_nil _ busy
    obtain ⟨v, hv, -, hedits⟩ := mem_carriedOut hfix
    exact ⟨v, mem_of_mem_passFixes hv, hedits⟩

theorem check_of_survey (h : survey collect policy text = .ok (found, violations)) :
    check collect policy file text = .ok ⟨file, violations, found.statements.length, none, 0⟩ := by
  rw [check, h]
  rfl

/-- A run of fixing gives the check of the text that its passes lead to. -/
theorem fix_eq_ok_iff :
    fix collect policy file text = (done, .ok r) ↔
      ∃ final found violations,
        passes collect policy Settings.maxFixPasses text = (done, .ok final) ∧
        survey collect policy final = .ok (found, violations) ∧
        r = ⟨file, violations, found.statements.length, some final, appliedIn done⟩ := by
  rw [fix, Prod.mk.injEq]
  constructor
  · rintro ⟨rfl, h⟩
    cases hpasses : (passes collect policy Settings.maxFixPasses text).2 with
    | error e =>
        rw [hpasses] at h
        cases h
    | ok final =>
        cases hsurvey : survey collect policy final with
        | error e =>
            simp [hpasses, check, hsurvey, Except.bind, Except.map] at h
        | ok checked =>
            obtain ⟨found, violations⟩ := checked
            simp only [hpasses, check, hsurvey, Except.bind, Except.map, Except.ok.injEq] at h
            exact ⟨final, found, violations, Prod.ext rfl hpasses, hsurvey, h.symm⟩
  · rintro ⟨final, found, violations, hpasses, hsurvey, rfl⟩
    rw [hpasses]
    simp [check, hsurvey, Except.bind, Except.map]

end Runs

/-- A run that stops before its limit has nothing left to do. -/
theorem stopped_run_is_final (collect : Collector) (policy : Policy) (file : String) (text : Text)
    (done : List Pass) (r : Result) (h : fix collect policy file text = (done, .ok r)) :
    ∃ final, r.fixed = some final ∧
      (∃ c, check collect policy file final = .ok c ∧ r.violations = c.violations ∧
        r.status = c.status ∧ r.statementCount = c.statementCount) ∧
      (effective done < Settings.maxFixPasses →
        (∀ v ∈ r.violations, v.kind = .wrongMemberOrder ∧ v.edits = [] ∧
          ∃ first ∈ v.statement.named.head?, ∃ last ∈ v.statement.named.getLast?,
            '#' ∈ Edit.within v.statement ⟨first.span.start, last.span.stop⟩) ∧
        ∃ idle, fix collect policy file final = (idle, .ok { r with fixesApplied := 0 })) := by
  obtain ⟨final, found, violations, hpasses, hsurvey, rfl⟩ := fix_eq_ok_iff.mp h
  refine ⟨final, rfl, ⟨_, check_of_survey hsurvey, rfl, rfl, rfl⟩, fun fewer => ?_⟩
  have settled : carriedOut final violations = [] := by
    rcases full_or_settled hpasses with ⟨hlength, hall⟩ | ⟨found', violations', hsurvey', settled⟩
    · rw [effective_of_forall hall, hlength] at fewer
      exact absurd fewer (Nat.lt_irrefl _)
    · cases hsurvey.symm.trans hsurvey'
      exact settled
  refine ⟨fun v hv => comment_of_settled hsurvey settled hv, ?_⟩
  obtain ⟨idle, hidle, hzero⟩ := exists_passes_of_settled hsurvey settled Settings.maxFixPasses
  exact ⟨idle, fix_eq_ok_iff.mpr ⟨final, found, violations, hidle, hsurvey, by rw [hzero]⟩⟩

/-- Two names out of order, with a comment between them. -/
def Item.commented : Item :=
  ⟨"os", "from os import (".toList, none, [⟨"b", ['b'], ", #\n ".toList⟩, ⟨"a", ['a'], [')']⟩]⟩

def Item.plain : Item := ⟨"z", "import ".toList, none, [⟨"z", ['z'], []⟩]⟩

/-- The names stand below the other statement, above it, and above an empty line. -/
def Document.commented : Fin 3 → Document
  | 0 => ⟨.lf, [.item .plain, .item .commented]⟩
  | 1 => ⟨.lf, [.item .commented, .item .plain]⟩
  | 2 => ⟨.lf, [.item .commented, .line [], .item .plain]⟩

theorem Code.collect_commented (k : Fin 3) :
    collect (Document.commented k).text = some (Document.commented k).collection := by
  decide +revert +kernel

theorem passes_commented :
    passes Code.collect .systemFirst Settings.maxFixPasses (Document.commented 0).text =
      ([⟨2, ⟨(Document.commented 1).text, 1, 0⟩⟩, ⟨2, ⟨(Document.commented 2).text, 1, 0⟩⟩,
        ⟨1, ⟨(Document.commented 2).text, 0, 0⟩⟩], .ok (Document.commented 2).text) := by
  have first : onePass Code.collect .systemFirst (Document.commented 0).text =
      .ok (some ⟨2, ⟨(Document.commented 1).text, 1, 0⟩⟩) := by
    rw [onePass, survey, Code.collect_commented]
    cbv
  have second : onePass Code.collect .systemFirst (Document.commented 1).text =
      .ok (some ⟨2, ⟨(Document.commented 2).text, 1, 0⟩⟩) := by
    rw [onePass, survey, Code.collect_commented]
    cbv
  have third : onePass Code.collect .systemFirst (Document.commented 2).text =
      .ok (some ⟨1, ⟨(Document.commented 2).text, 0, 0⟩⟩) := by
    rw [onePass, survey, Code.collect_commented]
    cbv
  simp [passes, Settings.maxFixPasses, first, second, third]

theorem stopped_run_is_final_commented :
    ∃ done r, fix Code.collect .systemFirst "m" (Document.commented 0).text = (done, .ok r) ∧
      effective done = 2 ∧ r.fixed = some (Document.commented 2).text ∧ r.violations.length = 1 ∧
      (∀ v ∈ r.violations, v.kind = .wrongMemberOrder ∧ v.edits = []) ∧
      ∃ idle, fix Code.collect .systemFirst "m" (Document.commented 2).text =
        (idle, .ok { r with fixesApplied := 0 }) := by
  obtain ⟨violations, hcheck, hsurvey⟩ := exists_survey Policy.resolved_systemFirst
    (Code.collect_commented 2)
  have hlength : (checkStatements .systemFirst ['\n'] (Document.commented 2).statements).map
      List.length = .ok 1 := by cbv
  have h : fix Code.collect .systemFirst "m" (Document.commented 0).text = (_, .ok _) :=
    fix_eq_ok_iff.mpr ⟨_, _, _, passes_commented, hsurvey, rfl⟩
  obtain ⟨final, hfinal, -, means⟩ := stopped_run_is_final _ _ _ _ _ _ h
  obtain rfl := Option.some_injective _ hfinal
  obtain ⟨left, again⟩ := means (by decide)
  refine ⟨_, _, h, rfl, rfl, ?_, fun v hv => ⟨(left v hv).1, (left v hv).2.1⟩, again⟩
  exact Except.ok.inj ((congrArg (Except.map List.length) hcheck).symm.trans hlength)

end ImportOrder
