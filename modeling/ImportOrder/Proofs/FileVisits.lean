import Mathlib.Logic.Relation
import ImportOrder.Proofs.ProjectLoading

/-!
Visits to listed files. The files are visited in turn, whatever comes of the ones before: each visit
has a verdict and leaves the files as they are or one of them with its fixed text.
-/

namespace ImportOrder.Command

/-! ### One file -/

def outcome (collect : Collector) (policy : Policy) (fixes : Bool) (file : String) (source : Text) :
    Except CheckError Result :=
  if fixes then (fix collect policy file source).2
  else check collect policy file source

/-- A visit to a listed file: its verdict, if it could be read and parsed, and the files after
it. -/
inductive Visit (collect : Collector) (policy : Policy) (fixes : Bool) (directory : List String)
    (file : String) (tree : FileTree) : Option Result → FileTree → Prop
  | unread {fault : FileFault} (read : tree.read directory file = .error fault) :
      Visit collect policy fixes directory file tree none tree
  | unparsed {content : Bytes} {source : Text} (read : tree.read directory file = .ok content)
      (decoded : content.decode? = some source)
      (raised : outcome collect policy fixes file source = .error .unparsed) :
      Visit collect policy fixes directory file tree none tree
  | kept {content : Bytes} {source : Text} {result : Result}
      (read : tree.read directory file = .ok content) (decoded : content.decode? = some source)
      (done : outcome collect policy fixes file source = .ok result)
      (same : ∀ t, result.fixed = some t → t = source) :
      Visit collect policy fixes directory file tree (some result) tree
  | rewritten {place : List String} {content : Bytes} {source t : Text} {result : Result}
      (located : tree.locate directory file = .ok place)
      (read : tree.lookup place = some (.file content)) (decoded : content.decode? = some source)
      (asked : fixes = true) (done : outcome collect policy fixes file source = .ok result)
      (fixed : result.fixed = some t) (changed : t ≠ source) :
      Visit collect policy fixes directory file tree (some result)
        (tree.set place (.file (Bytes.ofText t)))

section Visit

variable {collect : Collector} {policy : Policy} {fixes : Bool} {file : String} {source : Text}
  {w : World}

theorem survey_error (resolved : policy.Resolved) {text : Text} {e : CheckError}
    (h : survey collect policy text = .error e) : e = .unparsed := by
  unfold survey at h
  split at h
  · cases h
    rfl
  · rw [checkStatements_of_resolved resolved] at h
    cases h

theorem map_eq_error {ε α β : Type} {x : Except ε α} {f : α → β} {e : ε}
    (h : x.map f = .error e) : x = .error e := by
  cases x with
  | error e' =>
      cases h
      rfl
  | ok a => cases h

theorem check_error (resolved : policy.Resolved) {text : Text} {e : CheckError}
    (h : check collect policy file text = .error e) : e = .unparsed :=
  survey_error resolved (map_eq_error h)

theorem passes_error (resolved : policy.Resolved) {limit : Nat} {text : Text} {e : CheckError}
    (h : (passes collect policy limit text).2 = .error e) : e = .unparsed := by
  induction limit generalizing text with
  | zero => cases h
  | succ limit ih =>
      rw [passes] at h
      split at h
      · next hpass =>
          cases h
          exact survey_error resolved (map_eq_error hpass)
      · cases h
      · split at h
        · cases h
        · exact ih h

/-- Placements fit the policy, so the only thing that can go wrong is the parse. -/
theorem outcome_error (resolved : policy.Resolved) {e : CheckError}
    (h : outcome collect policy fixes file source = .error e) : e = .unparsed := by
  cases fixes with
  | false => exact check_error resolved h
  | true =>
      simp only [outcome, fix, if_true] at h
      cases hpasses : (passes collect policy Settings.maxFixPasses source).2 with
      | error e' =>
          rw [hpasses] at h
          cases h
          exact passes_error resolved hpasses
      | ok final =>
          rw [hpasses] at h
          exact check_error resolved (map_eq_error h)

variable {libraries : Libraries} {project : Project}

theorem log_runs (unlogged : project.logDirectory = "") (entry : CheckLog.Entry) (w : World) :
    Runs (onFile (CheckLog.append project.logDirectory entry).run) w (.ok ()) w := by
  rw [unlogged]
  exact Runs.bind (Runs.lift rfl) (Runs.pure ())

theorem examine_runs (unlogged : project.logDirectory = "") {result : Result}
    (h : outcome libraries.collect project.policy fixes file source = .ok result) :
    Runs (examine libraries project fixes file source) w (.ok result) w := by
  unfold outcome at h
  refine Runs.bind (Runs.lift rfl) ?_
  simp only [h]
  refine Runs.bind (Runs.lift rfl) ?_
  exact Runs.bind (log_runs unlogged _ w) (Runs.pure result)

theorem examine_fails {e : CheckError}
    (h : outcome libraries.collect project.policy fixes file source = .error e) :
    Runs (examine libraries project fixes file source) w (.error (.check file e)) w := by
  unfold outcome at h
  refine Runs.bind (Runs.lift rfl) ?_
  simp only [h]
  exact Runs.throw _

theorem report_runs (t : String) (w : World) :
    Runs (report t) w (.ok ()) { w with errors := w.errors ++ t } := Runs.lift rfl

theorem store_keeps {result : Result} (same : ∀ t, result.fixed = some t → t = source) :
    Runs (store file source result) w (.ok ()) w := by
  unfold store
  cases hfixed : result.fixed with
  | none => exact Runs.pure ()
  | some t =>
      rw [same t hfixed]
      simp only [bne_self_eq_false]
      exact Runs.pure ()

theorem store_writes {result : Result} {t : Text} {place : List String} {content : Bytes}
    (located : w.tree.locate w.directory file = .ok place)
    (read : w.tree.lookup place = some (.file content)) (fixed : result.fixed = some t)
    (changed : t ≠ source) :
    ∃ errors, Runs (store file source result) w (.ok ())
      { w with tree := w.tree.set place (.file (Bytes.ofText t)), errors } := by
  have hwrite : (Host.writeFile file (Bytes.ofText t) : StateM World _).run w =
      (.ok (), { w with tree := w.tree.set place (.file (Bytes.ofText t)) }) :=
    change_of_ok (FileTree.update_eq_ok located read _)
  simp only [store, fixed, bne_iff_ne, ne_eq, changed, not_false_eq_true, if_true]
  exact ⟨_, Runs.bind (Runs.bind (Runs.lift hwrite) (Runs.pure ())) (report_runs _ _)⟩

theorem check_fixed {text : Text} {result : Result}
    (h : check collect policy file text = .ok result) : result.fixed = none := by
  unfold check at h
  cases hsurvey : survey collect policy text with
  | error e =>
      rw [hsurvey] at h
      cases h
  | ok found =>
      rw [hsurvey] at h
      cases h
      rfl

variable (fixes) in
/-- A listed file is visited, whatever is found. -/
theorem checkFile_visits (resolved : project.policy.Resolved)
    (unlogged : project.logDirectory = "")
    (decodes : ∀ content, w.tree.read w.directory file = .ok content →
      ∃ source, content.decode? = some source) :
    ∃ verdict tree errors,
      Runs (checkFile libraries project fixes file) w (.ok verdict) { w with tree, errors } ∧
      Visit libraries.collect project.policy fixes w.directory file w.tree verdict tree := by
  have hread := readFile_run file w
  unfold checkFile
  cases read : w.tree.read w.directory file with
  | error fault =>
      rw [read] at hread
      exact ⟨none, w.tree, _, (Runs.lift hread).bind ((report_runs _ w).bind (Runs.pure none)),
        .unread read⟩
  | ok content =>
      rw [read] at hread
      obtain ⟨source, decoded⟩ := decodes content read
      have hsource : Runs (Command.decoded (m := StateM World) content) w (.ok source) w := by
        rw [Command.decoded, decoded]
        exact Runs.pure source
      cases hout : outcome libraries.collect project.policy fixes file source with
      | error e =>
          obtain rfl := outcome_error resolved hout
          exact ⟨none, w.tree, _, (Runs.lift hread).bind (hsource.bind
            ((examine_fails hout).caught.bind ((report_runs _ w).bind (Runs.pure none)))),
            .unparsed read decoded hout⟩
      | ok result =>
          by_cases same : ∀ t, result.fixed = some t → t = source
          · refine ⟨some result, w.tree, w.errors, (Runs.lift hread).bind (hsource.bind
              ((examine_runs unlogged hout).caught.bind ?_)), .kept read decoded hout same⟩
            cases fixes with
            | false => exact Runs.pure (some result)
            | true => exact (store_keeps same).bind (Runs.pure (some result))
          · push Not at same
            obtain ⟨t, fixed, changed⟩ := same
            have asked : fixes = true := by
              cases fixes with
              | false =>
                  rw [check_fixed hout] at fixed
                  cases fixed
              | true => rfl
            obtain ⟨place, located, entry⟩ := FileTree.read_eq_ok_iff.mp read
            obtain ⟨errors, hstore⟩ := store_writes located entry fixed changed
            subst asked
            exact ⟨some result, _, errors, (Runs.lift hread).bind (hsource.bind
              ((examine_runs unlogged hout).caught.bind
                (hstore.bind (Runs.pure (some result))))),
              .rewritten located entry decoded rfl hout fixed changed⟩

end Visit

/-! ### What a visit changes -/

/-- Fixing the content of a file succeeds and gives another text. -/
def Rewrites (collect : Collector) (policy : Policy) (file : String) (old new : Bytes) : Prop :=
  ∃ source result t, old.decode? = some source ∧
    (fix collect policy file source).2 = .ok result ∧ result.fixed = some t ∧ t ≠ source ∧
    new = Bytes.ofText t

/-- What a visit makes of the content of a file. -/
def Becomes (collect : Collector) (policy : Policy) (fixes : Bool) (file : String)
    (old new : Bytes) : Prop :=
  fixes = true ∧ Rewrites collect policy file old new ∨
    new = old ∧ ∀ other, ¬(fixes = true ∧ Rewrites collect policy file old other)

theorem Rewrites.unique {collect : Collector} {policy : Policy} {file : String}
    {old new new' : Bytes} (h : Rewrites collect policy file old new)
    (h' : Rewrites collect policy file old new') : new' = new := by
  obtain ⟨source, result, t, hsource, hfix, ht, -, rfl⟩ := h
  obtain ⟨source', result', t', hsource', hfix', ht', -, rfl⟩ := h'
  obtain rfl : source = source' := Option.some.inj (hsource.symm.trans hsource')
  obtain rfl : result = result' := Except.ok.inj (hfix.symm.trans hfix')
  rw [Option.some.inj (ht.symm.trans ht')]

theorem Becomes.unique {collect : Collector} {policy : Policy} {fixes : Bool} {file : String}
    {old new new' : Bytes} (h : Becomes collect policy fixes file old new)
    (h' : Becomes collect policy fixes file old new') : new' = new := by
  rcases h with ⟨asked, h⟩ | ⟨rfl, none⟩
  · rcases h' with ⟨-, h'⟩ | ⟨-, none'⟩
    · exact h.unique h'
    · exact absurd ⟨asked, h⟩ (none' _)
  · rcases h' with ⟨asked, h'⟩ | ⟨rfl, -⟩
    · exact absurd ⟨asked, h'⟩ (none _)
    · rfl

section Effects

variable {collect : Collector} {policy : Policy} {fixes : Bool} {directory : List String}
  {file : String} {tree tree' : FileTree} {verdict : Option Result} {place : List String}

theorem Visit.alike (h : Visit collect policy fixes directory file tree verdict tree') :
    tree.Alike tree' := by
  cases h with
  | unread | unparsed | kept => exact FileTree.Alike.refl tree
  | rewritten located read => exact FileTree.alike_set read _

/-- A visit changes nothing but the file visited. -/
theorem Visit.entry_eq (h : Visit collect policy fixes directory file tree verdict tree')
    (hplace : tree.locate directory file ≠ .ok place) :
    tree'.lookup place = tree.lookup place := by
  cases h with
  | unread | unparsed | kept => rfl
  | rewritten located =>
      apply FileTree.lookup_set_of_ne
      rintro rfl
      exact hplace located

theorem Visit.becomes (h : Visit collect policy fixes directory file tree verdict tree')
    (located : tree.locate directory file = .ok place) {old : Bytes}
    (entry : tree.lookup place = some (.file old)) :
    ∃ new, Becomes collect policy fixes file old new ∧ tree'.lookup place = some (.file new) := by
  have found : tree.read directory file = .ok old :=
    FileTree.read_eq_ok_iff.mpr ⟨place, located, entry⟩
  -- Whatever is not a rewriting visit keeps the content, and no rewriting was possible.
  have keeps : (∀ source result t, old.decode? = some source → fixes = true →
      outcome collect policy fixes file source = .ok result → result.fixed = some t → t = source) →
      Becomes collect policy fixes file old old := by
    intro hkeep
    refine .inr ⟨rfl, ?_⟩
    rintro other ⟨rfl, source, result, t, hsource, hfix, ht, hne, -⟩
    exact hne (hkeep source result t hsource rfl hfix ht)
  cases h with
  | unread read =>
      rw [read] at found
      cases found
  | unparsed read decoded raised =>
      obtain rfl := Except.ok.inj (read.symm.trans found)
      refine ⟨_, keeps ?_, entry⟩
      intro source result t hsource _ hdone _
      obtain rfl := Option.some.inj (decoded.symm.trans hsource)
      rw [raised] at hdone
      cases hdone
  | kept read decoded done same =>
      obtain rfl := Except.ok.inj (read.symm.trans found)
      refine ⟨_, keeps ?_, entry⟩
      intro source result t hsource _ hdone ht
      obtain rfl := Option.some.inj (decoded.symm.trans hsource)
      obtain rfl := Except.ok.inj (done.symm.trans hdone)
      exact same t ht
  | rewritten located' read decoded asked done fixed changed =>
      obtain rfl := Except.ok.inj (located'.symm.trans located)
      obtain rfl : _ = old := by simpa using read.symm.trans entry
      subst asked
      exact ⟨_, .inl ⟨rfl, _, _, _, decoded, done, fixed, changed, rfl⟩,
        FileTree.lookup_set_self (FileTree.ne_nil_of_file entry)⟩

/-- A visit leaves what stands at a place or puts the fixed text there. -/
theorem Visit.entry_cases (h : Visit collect policy fixes directory file tree verdict tree')
    (place : List String) :
    tree'.lookup place = tree.lookup place ∨
      fixes = true ∧ tree.locate directory file = .ok place ∧
        ∃ old new, tree.lookup place = some (.file old) ∧ tree'.lookup place = some (.file new) ∧
          Rewrites collect policy file old new := by
  by_cases located : tree.locate directory file = .ok place
  · rcases h.alike place with heq | ⟨old, -, hold, -⟩
    · exact .inl heq
    · obtain ⟨new, hbecomes, hnew⟩ := h.becomes located hold
      rcases hbecomes with ⟨asked, hrewrites⟩ | ⟨rfl, -⟩
      · exact .inr ⟨asked, located, old, new, hold, hnew, hrewrites⟩
      · exact .inl (hnew.trans hold.symm)
  · exact .inl (h.entry_eq located)

/-- Every listed file that can be read is UTF-8. -/
def Decodes (directory : List String) (files : List String) (tree : FileTree) : Prop :=
  ∀ file ∈ files, ∀ content, tree.read directory file = .ok content →
    ∃ source, content.decode? = some source

theorem Visit.decodes {files : List String}
    (h : Visit collect policy fixes directory file tree verdict tree')
    (hdecodes : Decodes directory files tree) : Decodes directory files tree' := by
  intro g hg content hread
  obtain ⟨place, located, entry⟩ := FileTree.read_eq_ok_iff.mp hread
  rcases h.entry_cases place with heq | ⟨-, -, old, new, -, hnew, hrewrites⟩
  · rw [h.alike.locate_eq] at located
    exact hdecodes g hg content (FileTree.read_eq_ok_iff.mpr ⟨place, located, heq ▸ entry⟩)
  · obtain ⟨source, result, t, -, -, -, -, rfl⟩ := hrewrites
    obtain rfl : _ = content := by simpa using hnew.symm.trans entry
    exact ⟨t, Bytes.decode?_ofText t⟩

end Effects

/-! ### All files -/

/-- Visits to listed files in turn, each to the files that the one before it left. -/
inductive Visits (collect : Collector) (policy : Policy) (fixes : Bool) (directory : List String) :
    List String → FileTree → List (Option Result) → FileTree → Prop
  | nil (tree : FileTree) : Visits collect policy fixes directory [] tree [] tree
  | cons {file : String} {files : List String} {tree mid tree' : FileTree}
      {verdict : Option Result} {verdicts : List (Option Result)}
      (first : Visit collect policy fixes directory file tree verdict mid)
      (rest : Visits collect policy fixes directory files mid verdicts tree') :
      Visits collect policy fixes directory (file :: files) tree (verdict :: verdicts) tree'

/-- No two of some paths name the same place. -/
def Distinct (directory : List String) (tree : FileTree) (files : List String) : Prop :=
  files.Pairwise fun f g => ∀ place, tree.locate directory f = .ok place →
    tree.locate directory g ≠ .ok place

section Visits

variable {collect : Collector} {policy : Policy} {fixes : Bool} {directory files : List String}
  {tree tree' : FileTree} {verdicts : List (Option Result)} {place : List String}

theorem Visits.alike (h : Visits collect policy fixes directory files tree verdicts tree') :
    tree.Alike tree' := by
  induction h with
  | nil tree => exact FileTree.Alike.refl tree
  | cons first rest ih => exact first.alike.trans ih

theorem Visits.entry_eq (h : Visits collect policy fixes directory files tree verdicts tree')
    (elsewhere : ∀ file ∈ files, tree.locate directory file ≠ .ok place) :
    tree'.lookup place = tree.lookup place := by
  induction h with
  | nil tree => rfl
  | cons first rest ih =>
      rw [← first.entry_eq (elsewhere _ List.mem_cons_self)]
      apply ih
      intro file hfile
      rw [first.alike.locate_eq]
      exact elsewhere file (List.mem_cons_of_mem _ hfile)

/-- A listed file that names this place is rewritten. -/
def RewrittenAt (collect : Collector) (policy : Policy) (directory files : List String)
    (tree : FileTree) (place : List String) (old new : Bytes) : Prop :=
  ∃ file ∈ files, tree.locate directory file = .ok place ∧ Rewrites collect policy file old new

theorem Visits.entry_cases (h : Visits collect policy fixes directory files tree verdicts tree')
    (place : List String) :
    tree'.lookup place = tree.lookup place ∨
      fixes = true ∧ ∃ old new, tree.lookup place = some (.file old) ∧
        tree'.lookup place = some (.file new) ∧
        Relation.TransGen (RewrittenAt collect policy directory files tree place) old new := by
  induction h with
  | nil tree => exact .inl rfl
  | @cons file files tree mid tree' verdict verdicts first rest ih =>
      -- The later rewritings, seen from the files before the first visit.
      have widen : RewrittenAt collect policy directory files mid place ≤
          RewrittenAt collect policy directory (file :: files) tree place := by
        rintro old new ⟨g, hg, located, hrewrites⟩
        rw [first.alike.locate_eq] at located
        exact ⟨g, List.mem_cons_of_mem _ hg, located, hrewrites⟩
      rcases first.entry_cases place with heq | ⟨asked, located, old, new, hold, hnew, hrewrites⟩
      · rcases ih with heq' | ⟨asked, old, new, hold, hnew, hsteps⟩
        · exact .inl (heq'.trans heq)
        · exact .inr ⟨asked, old, new, heq ▸ hold, hnew, Relation.TransGen.mono widen _ _ hsteps⟩
      · have here : RewrittenAt collect policy directory (file :: files) tree place old new :=
          ⟨file, List.mem_cons_self, located, hrewrites⟩
        rcases ih with heq' | ⟨-, old', new', hold', hnew', hsteps⟩
        · exact .inr ⟨asked, old, new, hold, heq'.trans hnew, .single here⟩
        · obtain rfl : new = old' := by simpa using hnew.symm.trans hold'
          exact .inr ⟨asked, old, new', hold, hnew',
            Relation.TransGen.head here (Relation.TransGen.mono widen _ _ hsteps)⟩

theorem Distinct.of_alike {directory files : List String} (h : Distinct directory tree files)
    (halike : tree.Alike tree') : Distinct directory tree' files := by
  refine h.imp ?_
  intro f g hne place
  rw [halike.locate_eq, halike.locate_eq]
  exact hne place

theorem Visits.becomes (h : Visits collect policy fixes directory files tree verdicts tree')
    (distinct : Distinct directory tree files) {file : String} (hfile : file ∈ files)
    (located : tree.locate directory file = .ok place) {old : Bytes}
    (entry : tree.lookup place = some (.file old)) :
    ∃ new, Becomes collect policy fixes file old new ∧ tree'.lookup place = some (.file new) := by
  induction h with
  | nil tree => cases hfile
  | @cons g files tree mid tree' verdict verdicts first rest ih =>
      obtain ⟨hother, hrest⟩ := List.pairwise_cons.mp distinct
      rcases List.mem_cons.mp hfile with rfl | hfile
      · obtain ⟨new, hbecomes, hnew⟩ := first.becomes located entry
        refine ⟨new, hbecomes, (rest.entry_eq ?_).trans hnew⟩
        intro f hf
        rw [first.alike.locate_eq]
        exact hother f hf place located
      · have elsewhere : tree.locate directory g ≠ .ok place :=
          fun hg => hother file hfile place hg located
        apply ih (Distinct.of_alike hrest first.alike) hfile
        · rw [first.alike.locate_eq]
          exact located
        · rw [first.entry_eq elsewhere]
          exact entry

/-- The order of the list does not matter if its paths name distinct files. -/
theorem Visits.entry_perm {files' : List String} {tree'' : FileTree}
    {verdicts' : List (Option Result)}
    (h : Visits collect policy fixes directory files tree verdicts tree')
    (h' : Visits collect policy fixes directory files' tree verdicts' tree'')
    (perm : files'.Perm files) (distinct : Distinct directory tree files) (place : List String) :
    tree''.lookup place = tree'.lookup place := by
  have distinct' : Distinct directory tree files' := by
    refine (perm.pairwise_iff ?_).mpr distinct
    intro f g hne place hg hf
    exact hne place hf hg
  by_cases listed : ∃ file ∈ files, tree.locate directory file = .ok place
  · obtain ⟨file, hfile, located⟩ := listed
    by_cases isFile : ∃ old, tree.lookup place = some (.file old)
    · obtain ⟨old, hold⟩ := isFile
      obtain ⟨new, hbecomes, hnew⟩ := h.becomes distinct hfile located hold
      obtain ⟨new', hbecomes', hnew'⟩ :=
        h'.becomes distinct' (perm.mem_iff.mpr hfile) located hold
      rw [hnew, hnew', hbecomes.unique hbecomes']
    · rw [h.alike.entry_eq isFile, h'.alike.entry_eq isFile]
  · have elsewhere : ∀ file ∈ files, tree.locate directory file ≠ .ok place :=
      fun file hfile located => listed ⟨file, hfile, located⟩
    rw [h.entry_eq elsewhere, h'.entry_eq fun file hfile => elsewhere file (perm.mem_iff.mp hfile)]

end Visits

theorem checkFiles_visits {libraries : Libraries} {project : Project}
    (resolved : project.policy.Resolved) (unlogged : project.logDirectory = "")
    (fixes : Bool) (files : List String) (w : World)
    (decodes : Decodes w.directory files w.tree) :
    ∃ verdicts tree errors,
      Runs (files.mapM (checkFile libraries project fixes)) w (.ok verdicts)
        { w with tree, errors } ∧
      Visits libraries.collect project.policy fixes w.directory files w.tree verdicts tree := by
  induction files generalizing w with
  | nil => exact ⟨[], w.tree, w.errors, Runs.pure [], .nil w.tree⟩
  | cons file files ih =>
      obtain ⟨verdict, mid, errors, hrun, hvisit⟩ := checkFile_visits fixes resolved
        unlogged (decodes file List.mem_cons_self)
      have later : Decodes w.directory files mid :=
        hvisit.decodes fun g hg => decodes g (List.mem_cons_of_mem _ hg)
      obtain ⟨verdicts, tree, errors', hruns, hvisits⟩ := ih { w with tree := mid, errors } later
      refine ⟨verdict :: verdicts, tree, errors', ?_, .cons hvisit hvisits⟩
      rw [List.mapM_cons]
      exact hrun.bind (hruns.bind (Runs.pure _))

end ImportOrder.Command
