import ImportOrder.Proofs.FileVisits
import ImportOrder.Proofs.FixRun
import ImportOrder.Proofs.OtherLines

/-!
The check of listed files. The verdicts on the files give the code with which the command ends. If
the project cannot be loaded no file is visited, and there is a code only if that is reported.
-/

namespace ImportOrder.Command

/-! ### The command -/

/-- The code with which verdicts on listed files end a command. -/
structure EndsWith (files : List String) (verdicts : List (Option Result)) (code : Nat) : Prop where
  failed : code = 2 ↔ files = [] ∨ none ∈ verdicts
  violated : code = 1 ↔ code ≠ 2 ∧ ∃ result, some result ∈ verdicts ∧ result.violations ≠ []
  clean : code = 0 ↔ code ≠ 2 ∧ ∀ result, some result ∈ verdicts → result.violations = []

theorem endsWith_exitCode {files : List String} (hfiles : files ≠ [])
    (verdicts : List (Option Result)) :
    EndsWith files verdicts (exitCode (verdicts.any (·.isNone)) (verdicts.filterMap id)) := by
  have hfailed : verdicts.any (·.isNone) = true ↔ none ∈ verdicts := by
    simp [Option.isNone_iff_eq_none]
  have hmem : ∀ result, result ∈ verdicts.filterMap id ↔ some result ∈ verdicts := by simp
  have hviolated : (verdicts.filterMap id).any (!·.passed) = true ↔
      ∃ result, some result ∈ verdicts ∧ result.violations ≠ [] := by
    rw [List.any_eq_true]
    simp only [hmem, Result.passed, Bool.not_eq_true', List.isEmpty_eq_false_iff, ne_eq]
  unfold exitCode
  by_cases failed : none ∈ verdicts
  · rw [if_pos (hfailed.mpr failed)]
    constructor <;> simp [Settings.exitError, failed]
  · rw [if_neg (fun h => failed (hfailed.mp h))]
    by_cases violated : ∃ result, some result ∈ verdicts ∧ result.violations ≠ []
    · rw [if_pos (hviolated.mpr violated)]
      constructor
      · simp [Settings.exitViolations, failed, hfiles]
      · simpa [Settings.exitViolations] using violated
      · simpa [Settings.exitViolations] using violated
    · rw [if_neg (fun h => violated (hviolated.mp h))]
      constructor
      · simp [Settings.exitOk, failed, hfiles]
      · simpa [Settings.exitOk] using violated
      · simpa [Settings.exitOk] using violated

theorem present_runs (asJson : Bool) (results : List Result) (w : World) :
    ∃ errors, Runs (present asJson results) w (.ok ()) { w with errors } := by
  cases asJson with
  | true => exact ⟨_, report_runs _ w⟩
  | false => exact ⟨_, report_runs _ w⟩

section Command

variable {libraries : Libraries} {arguments : List String} {o : CheckOptions} {w : World}

theorem runCheck_visits {project : Project} (listed : o.readsInput = false)
    (load : Runs (loadProject libraries o.config) w (.ok project) w)
    (resolved : project.policy.Resolved) (unlogged : project.logDirectory = "")
    (decodes : Decodes w.directory o.files w.tree) :
    ∃ verdicts code tree errors, Runs (runCheck libraries o) w (.ok code) { w with tree, errors } ∧
      Visits libraries.collect project.policy o.fixes w.directory o.files w.tree verdicts tree ∧
      EndsWith o.files verdicts code := by
  unfold runCheck
  by_cases empty : o.files = []
  · have hends : EndsWith [] [] Settings.exitError := by constructor <;> simp [Settings.exitError]
    simp only [listed, empty, Bool.false_eq_true, if_false, List.isEmpty_nil, if_true]
    exact ⟨[], _, w.tree, _, load.bind ((report_runs _ w).bind (Runs.pure _)), .nil w.tree, hends⟩
  · obtain ⟨verdicts, tree, errors, hruns, hvisits⟩ :=
      checkFiles_visits resolved unlogged o.fixes o.files w decodes
    obtain ⟨errors', hpresent⟩ := present_runs o.asJson (verdicts.filterMap id)
      { w with tree, errors }
    refine ⟨verdicts, _, tree, errors', load.bind ?_, hvisits, endsWith_exitCode empty verdicts⟩
    simp only [listed, Bool.false_eq_true, if_false, List.isEmpty_iff, empty]
    exact hruns.bind (hpresent.bind (Runs.pure _))

/-- How a command line ends in a world, and the world after it. -/
def ran (libraries : Libraries) (arguments : List String) (w : World) : Ending × World :=
  (Command.run (m := StateM World) libraries arguments).run w

theorem ran_of_runs (parsed : Request.ofArguments arguments = .ok (.check o)) {code : Nat}
    {w' : World} (h : Runs (runCheck libraries o) w (.ok code) w') :
    ran libraries arguments w = (.exit code, w') := by
  have hrequest : (Request.run (m := StateM World) libraries (.check o)).run.run w =
      (.ok code, w') := h
  simp only [ran, Command.run, parsed, StateT.run_bind, hrequest]
  rfl

theorem ran_of_fails (parsed : Request.ofArguments arguments = .ok (.check o)) {e : Failure}
    {w' : World} (h : Runs (runCheck libraries o) w (.error e) w') :
    ran libraries arguments w = (conclude (m := StateM World) e).run w' := by
  have hrequest : (Request.run (m := StateM World) libraries (.check o)).run.run w =
      (.error e, w') := h
  simp only [ran, Command.run, parsed, StateT.run_bind, hrequest]
  rfl

/-- What a command line does that asks for a check of listed files. -/
theorem ran_visits {project : Project}
    (parsed : Request.ofArguments arguments = .ok (.check o)) (listed : o.readsInput = false)
    (load : loaded libraries o.config w = .ok project) (unlogged : project.logDirectory = "")
    (decodes : Decodes w.directory o.files w.tree) :
    ∃ verdicts code,
      Visits libraries.collect project.policy o.fixes w.directory o.files w.tree verdicts
        (ran libraries arguments w).2.tree ∧
      (ran libraries arguments w).1 = .exit code ∧ EndsWith o.files verdicts code := by
  obtain ⟨hrun, hcases⟩ := loaded_cases libraries o.config w
  simp only [load, Except.ok.injEq, exists_eq_left', reduceCtorEq, exists_false, or_false]
    at hrun hcases
  obtain ⟨verdicts, code, tree, errors, hruns, hvisits, hends⟩ :=
    runCheck_visits listed hrun hcases unlogged decodes
  rw [ran_of_runs parsed hruns]
  exact ⟨verdicts, code, hvisits, rfl, hends⟩

/-- How a command ends whose project cannot be loaded. -/
def endingOf : Project.LoadError → Ending
  | .configuration _ | .file _ => .exit 2
  | .undecodable => .undecodable
  | .badScalar e => .badScalar e
  | .breakdown b => .breakdown b

theorem ran_unloaded {e : Project.LoadError}
    (parsed : Request.ofArguments arguments = .ok (.check o))
    (load : loaded libraries o.config w = .error (.load e)) :
    (ran libraries arguments w).1 = endingOf e ∧ (ran libraries arguments w).2.tree = w.tree := by
  obtain ⟨hrun, -⟩ := loaded_cases libraries o.config w
  rw [load] at hrun
  have hcheck : Runs (runCheck libraries o) w (.error (.load e)) w := hrun.bind_error
  rw [ran_of_fails parsed hcheck]
  cases e <;> exact ⟨rfl, rfl⟩

end Command

/-- The check of listed files: how it ends, and what becomes of the files. A project that cannot be
loaded ends it with code 2, but only if what is wrong with it is reported. -/
theorem check_visits_listed_files (libraries : Libraries) (arguments : List String)
    (o : CheckOptions) (w : World) (parsed : Request.ofArguments arguments = .ok (.check o))
    (listed : o.readsInput = false) :
    (∃ e, loaded libraries o.config w = .error (.load e) ∧
      (ran libraries arguments w).1 = endingOf e ∧
      (ran libraries arguments w).2.tree = w.tree) ∨
    ∃ project, loaded libraries o.config w = .ok project ∧ (project.logDirectory = "" →
      Decodes w.directory o.files w.tree →
      (∃ verdicts code,
        Visits libraries.collect project.policy o.fixes w.directory o.files w.tree verdicts
          (ran libraries arguments w).2.tree ∧
        (ran libraries arguments w).1 = .exit code ∧ EndsWith o.files verdicts code) ∧
      (∀ place, (ran libraries arguments w).2.tree.lookup place = w.tree.lookup place ∨
        o.fixes = true ∧ ∃ old new, w.tree.lookup place = some (.file old) ∧
          (ran libraries arguments w).2.tree.lookup place = some (.file new) ∧
          Relation.TransGen (RewrittenAt libraries.collect project.policy w.directory o.files
            w.tree place) old new) ∧
      (Distinct w.directory w.tree o.files →
        (∀ file ∈ o.files, ∀ place old, w.tree.locate w.directory file = .ok place →
          w.tree.lookup place = some (.file old) →
          ∃ new, Becomes libraries.collect project.policy o.fixes file old new ∧
            (ran libraries arguments w).2.tree.lookup place = some (.file new)) ∧
        ∀ arguments' o', Request.ofArguments arguments' = .ok (.check o') →
          o'.readsInput = false → o'.config = o.config → o'.fixes = o.fixes →
          o'.files.Perm o.files →
          ∀ place, (ran libraries arguments' w).2.tree.lookup place =
            (ran libraries arguments w).2.tree.lookup place)) := by
  rcases (loaded_cases libraries o.config w).2 with ⟨project, load, -⟩ | ⟨e, load⟩
  case inr => exact .inl ⟨e, load, ran_unloaded parsed load⟩
  refine .inr ⟨project, load, fun unlogged decodes => ?_⟩
  obtain ⟨verdicts, code, hvisits, hexit, hends⟩ := ran_visits parsed listed load unlogged decodes
  refine ⟨⟨verdicts, code, hvisits, hexit, hends⟩, hvisits.entry_cases, ?_⟩
  intro distinct
  refine ⟨fun file hfile place old located entry => hvisits.becomes distinct hfile located entry,
    ?_⟩
  intro arguments' o' parsed' listed' hconfig hfixes perm place
  have decodes' : Decodes w.directory o'.files w.tree :=
    fun file hfile => decodes file (perm.mem_iff.mp hfile)
  obtain ⟨verdicts', code', hvisits', -, -⟩ :=
    ran_visits parsed' listed' (hconfig ▸ load) unlogged decodes'
  rw [hfixes] at hvisits'
  exact hvisits.entry_perm hvisits' perm distinct place

section Arguments

variable {f g : String}

theorem roleOf_plain (s : Spec) (h : f.startsWith "-" = false) : s.roleOf f = .ok .plain := by
  simp [Spec.roleOf, h]

theorem roleOf_named {s : Spec} {option : String} {o : OptionSpec}
    (dashed : option.startsWith "-" = true) (h : s.named.lookup option = some o) :
    s.roleOf option = .ok (.option (some o) option none) := by
  simp [Spec.roleOf, dashed, h]

theorem ne_separator (h : f.startsWith "-" = false) : (f == "--") = false := by
  apply beq_false_of_ne
  rintro rfl
  simp at h

/-- The tool itself does not know the options of its commands. -/
theorem roleOf_unknown {option : String} (h : option = "--config" ∨ option = "--fix") :
    mainSpec.roleOf option = .ok (.option none option none) := by
  have looked : option.startsWith "-" = true ∧ mainSpec.named.lookup option = none ∧
      (option == "-") = false ∧ Spec.splitValue option = (option, none) ∧
      mainSpec.candidates option = [] ∧ Spec.isNegativeNumber option = false := by
    rcases h with rfl | rfl <;> decide +kernel
  obtain ⟨dashed, unnamed, long, whole, nothing, word⟩ := looked
  have unbroken : option.contains ' ' = false := by
    rcases h with rfl | rfl <;> simp
  simp only [Spec.roleOf, dashed, unnamed, long, whole, nothing, word, unbroken]
  rfl

/-- The command line that asks for two files to be fixed. -/
theorem ofArguments_fix (hf : f.startsWith "-" = false) (hg : g.startsWith "-" = false) :
    Request.ofArguments ["check", "--config", "p", "--fix", f, g] =
      .ok (.check { config := some "p", fixes := true, files := [f, g] }) := by
  have hp : "p".startsWith "-" = false := by simp
  have hcheck : "check".startsWith "-" = false := by simp
  have command : mainSpec.roles ["check", "--config", "p", "--fix", f, g] =
      .ok [("check", .plain), ("--config", .option none "--config" none), ("p", .plain),
        ("--fix", .option none "--fix" none), (f, .plain), (g, .plain)] := by
    simp [Spec.roles, roleOf_unknown, roleOf_plain _ hcheck, roleOf_plain _ hp, roleOf_plain _ hf,
      roleOf_plain _ hg, ne_separator hf, ne_separator hg, bind, Except.bind, pure, Except.pure]
  have options : checkSpec.roles ["--config", "p", "--fix", f, g] =
      .ok [("--config", .option (some configOption) "--config" none), ("p", .plain),
        ("--fix", .option (some ⟨["--fix"], .flag⟩) "--fix" none), (f, .plain), (g, .plain)] := by
    have config : checkSpec.roleOf "--config" =
        .ok (.option (some configOption) "--config" none) := roleOf_named (by simp) (by decide)
    have fix : checkSpec.roleOf "--fix" =
        .ok (.option (some ⟨["--fix"], .flag⟩) "--fix" none) := roleOf_named (by simp) (by decide)
    simp [Spec.roles, config, fix, roleOf_plain _ hp, roleOf_plain _ hf, roleOf_plain _ hg,
      ne_separator hf, ne_separator hg, bind, Except.bind, pure, Except.pure]
  have main : mainSpec.parse ["check", "--config", "p", "--fix", f, g] =
      .ok { taken := some ["check", "--config", "p", "--fix", f, g] } := by
    rw [Spec.parse, command]
    rfl
  have rest : checkSpec.parse ["--config", "p", "--fix", f, g] =
      .ok { flags := ["--fix"], values := [("--config", "p")],
            taken := some ([f, g].erase "--") } := by
    rw [Spec.parse, options]
    rfl
  have files : [f, g].erase "--" = [f, g] := by
    simp [List.erase, ne_separator hf, ne_separator hg]
  simp only [Request.ofArguments, main, rest, files, bind, Except.bind]
  rfl

end Arguments

/-- A project file `p`, and a file `a` whose imports are out of order. -/
def unsorted (project : Text) : World where
  tree := ⟨[(["p"], .file (Bytes.ofText project)),
    (["a"], .file (Bytes.ofText "import a\nimport b\n".toList))]⟩

theorem locate_unsorted {project : Text} {name : String}
    (h : name = "p" ∨ name = "a" ∨ name = "x") :
    (unsorted project).tree.locate (unsorted project).directory name = .ok [name] := by
  have whole : FileTree.segments name = [name] := by
    rcases h with rfl | rfl | rfl <;> cbv
  have relative : name.startsWith "/" = false := by
    rcases h with rfl | rfl | rfl <;> simp
  rw [FileTree.locate, whole, relative]
  rcases h with rfl | rfl | rfl <;> rfl

theorem lookup_unsorted {project : Text} :
    (unsorted project).tree.lookup ["a"] =
      some (.file (Bytes.ofText "import a\nimport b\n".toList)) := rfl

theorem read_unsorted_missing {project : Text} :
    (unsorted project).tree.read (unsorted project).directory "x" = .error .notFound := by
  rw [FileTree.read, locate_unsorted (by simp)]
  rfl

theorem decodes_unsorted {project : Text} :
    Decodes (unsorted project).directory ["x", "a"] (unsorted project).tree := by
  intro file hfile content hread
  obtain ⟨place, located, entry⟩ := FileTree.read_eq_ok_iff.mp hread
  rcases List.mem_pair.mp hfile with rfl | rfl
  · rw [read_unsorted_missing] at hread
    cases hread
  · rw [locate_unsorted (by simp)] at located
    cases located
    cases lookup_unsorted.symm.trans entry
    exact ⟨_, Bytes.decode?_ofText _⟩

theorem distinct_unsorted {project : Text} :
    Distinct (unsorted project).directory (unsorted project).tree ["x", "a"] := by
  refine List.pairwise_pair.mpr ?_
  intro place hplace
  rw [locate_unsorted (by simp)] at hplace ⊢
  cases hplace
  decide

/-- The module `b` comes before all others. -/
def leading : Policy := { order := ["b"], patterns := [.literal "b"], groups := [] }

def spellsLeading : List (Value × Value) → Bool
  | [(.str policy, .map [(.str order, .list [.str token])])] =>
      policy == "policy" && order == "order" && token == "b"
  | _ => false

theorem eq_of_spellsLeading {entries : List (Value × Value)} (h : spellsLeading entries = true) :
    entries = [(.str "policy", .map [(.str "order", .list [.str "b"])])] := by
  unfold spellsLeading at h
  split at h
  · simp only [Bool.and_eq_true, beq_iff_eq] at h
    obtain ⟨⟨rfl, rfl⟩, rfl⟩ := h
    rfl
  · cases h

theorem mappingOf_leading :
    Project.mappingOf .standard "p" "policy:\n  order: [b]".toList =
      .ok [(.str "policy", .map [(.str "order", .list [.str "b"])])] := by
  -- Values have no decidable equality, so the mapping is recognized.
  have spelled : (Project.mappingOf .standard "p" "policy:\n  order: [b]".toList).toOption.any
      spellsLeading = true := by decide +kernel
  cases h : Project.mappingOf .standard "p" "policy:\n  order: [b]".toList with
  | error e =>
      rw [h] at spelled
      cases spelled
  | ok entries =>
      rw [h] at spelled
      rw [eq_of_spellsLeading spelled]

theorem loaded_of_text (project : Text) :
    loaded .standard (some "p") (unsorted project) =
      (projectOf .standard "p" project).mapError .load := by
  have read : (unsorted project).tree.read (unsorted project).directory "p" =
      .ok (Bytes.ofText project) :=
    FileTree.read_eq_ok_iff.mpr ⟨["p"], locate_unsorted (.inl rfl), rfl⟩
  exact loaded_of_read _ (by decide) (by cbv) read (Bytes.decode?_ofText _)

theorem rewrites_unsorted :
    Rewrites Code.collect leading "a" (Bytes.ofText "import a\nimport b\n".toList)
      (Bytes.ofText "import b\nimport a\n".toList) := by
  have found : Code.collect "import a\nimport b\n".toList =
      some ⟨[.bare "a" 1 0, .bare "b" 2 9], ['\n']⟩ := by decide
  have found' : Code.collect "import b\nimport a\n".toList =
      some ⟨[.bare "b" 1 0, .bare "a" 2 9], ['\n']⟩ := by decide
  have first : onePass Code.collect leading "import a\nimport b\n".toList =
      .ok (some ⟨1, ⟨"import b\nimport a\n".toList, 1, 0⟩⟩) := by
    rw [onePass, survey, found]
    cbv
  have clean : survey Code.collect leading "import b\nimport a\n".toList =
      .ok (⟨[.bare "b" 1 0, .bare "a" 2 9], ['\n']⟩, []) := by
    rw [survey, found']
    cbv
  have second : onePass Code.collect leading "import b\nimport a\n".toList = .ok none := by
    rw [onePass, clean]
    rfl
  have hpasses : passes Code.collect leading Settings.maxFixPasses "import a\nimport b\n".toList =
      ([⟨1, ⟨"import b\nimport a\n".toList, 1, 0⟩⟩], .ok "import b\nimport a\n".toList) := by
    rw [Settings.maxFixPasses, passes, first]
    dsimp only
    rw [passes, second]
    rfl
  have hfix : fix Code.collect leading "a" "import a\nimport b\n".toList = (_, .ok _) :=
    fix_eq_ok_iff.mpr ⟨_, _, _, hpasses, clean, rfl⟩
  exact ⟨_, _, _, Bytes.decode?_ofText _, congrArg Prod.snd hfix, rfl, by decide, rfl⟩

/-- The file that is not there comes first, and the other one is fixed all the same. -/
theorem check_visits_listed_files_unsorted :
    ∃ w, w = unsorted "policy:\n  order: [b]".toList ∧
      (ran .standard ["check", "--config", "p", "--fix", "x", "a"] w).1 = .exit 2 ∧
      (ran .standard ["check", "--config", "p", "--fix", "x", "a"] w).2.tree.lookup ["a"] =
        some (.file (Bytes.ofText "import b\nimport a\n".toList)) ∧
      ∀ place, (ran .standard ["check", "--config", "p", "--fix", "a", "x"] w).2.tree.lookup place =
        (ran .standard ["check", "--config", "p", "--fix", "x", "a"] w).2.tree.lookup place := by
  have ha : "a".startsWith "-" = false := by simp
  have hx : "x".startsWith "-" = false := by simp
  obtain ⟨w, hw⟩ : ∃ w, w = unsorted "policy:\n  order: [b]".toList := ⟨_, rfl⟩
  have unread : w.tree.read w.directory "x" = .error .notFound := hw ▸ read_unsorted_missing
  have located : w.tree.locate w.directory "a" = .ok ["a"] := hw ▸ locate_unsorted (by simp)
  have load : ∃ project, loaded .standard (some "p") w = .ok project ∧
      project.policy = leading ∧ project.logDirectory = "" := by
    rw [hw, loaded_of_text, projectOf, mappingOf_leading]
    exact ⟨_, rfl, rfl, rfl⟩
  obtain ⟨project, load, hpolicy, unlogged⟩ := load
  rcases check_visits_listed_files .standard _ _ w (ofArguments_fix hx ha) rfl with
    ⟨e, failed, -⟩ | ⟨project', load', hall⟩
  · cases load.symm.trans failed
  obtain rfl := Except.ok.inj (load.symm.trans load')
  obtain ⟨⟨verdicts, code, hvisits, hexit, hends⟩, -, hdistinct⟩ := hall unlogged (hw ▸ decodes_unsorted)
  obtain ⟨hbecomes, hperm⟩ := hdistinct (hw ▸ distinct_unsorted)
  refine ⟨w, hw, ?_, ?_, hperm _ _ (ofArguments_fix ha hx) rfl rfl rfl (List.Perm.swap _ _ _)⟩
  · have failed : none ∈ verdicts := by
      cases hvisits with
      | cons first rest =>
          cases first with
          | unread => exact List.mem_cons_self
          | unparsed read | kept read =>
              rw [unread] at read
              cases read
          | rewritten located read =>
              cases unread.symm.trans (FileTree.read_eq_ok_iff.mpr ⟨_, located, read⟩)
    rw [hexit, hends.failed.mpr (.inr failed)]
  · obtain ⟨new, hnew, hentry⟩ := hbecomes "a" (by simp) ["a"] _ located (hw ▸ lookup_unsorted)
    rw [hpolicy] at hnew
    rw [hentry, hnew.unique (.inl ⟨rfl, rewrites_unsorted⟩)]

/-- The project file has a date with a thirteenth month. The command ends without a code. -/
theorem check_breaks_off_on_bad_date :
    ran .standard ["check", "--config", "p", "--fix", "x", "a"]
        (unsorted "policy: 2024-13-45".toList) =
      (.badScalar .outOfRange, unsorted "policy: 2024-13-45".toList) := by
  have unread : Libraries.standard.yaml (Text.unifyBreaks "policy: 2024-13-45".toList) =
      .error .outOfRange := failureOf_eq_some.mp (by decide +kernel)
  have load : loaded .standard (some "p") (unsorted "policy: 2024-13-45".toList) =
      .error (.load (.badScalar .outOfRange)) := by
    rw [loaded_of_text, projectOf, Project.mappingOf, unread]
    rfl
  obtain ⟨hrun, -⟩ := loaded_cases .standard (some "p") (unsorted "policy: 2024-13-45".toList)
  rw [load] at hrun
  exact ran_of_fails (ofArguments_fix (by simp) (by simp)) hrun.bind_error

end ImportOrder.Command
