import ImportOrder.Command.Run
import ImportOrder.Proofs.Files
import ImportOrder.Proofs.Placements

/-!
Actions on a world that is a value, and the loading of the project, which only looks at the world,
whatever the libraries. The policy of a project that is loaded fits the placements made under it.
-/

namespace ImportOrder.Command

/-! ### Commands on a world -/

section Runs

variable {ε α β : Type}

/-- What an action that can fail comes to in a world. -/
def Runs (x : ExceptT ε (StateM World) α) (w : World) (r : Except ε α) (w' : World) : Prop :=
  x.run.run w = (r, w')

variable {x : ExceptT ε (StateM World) α} {f : α → ExceptT ε (StateM World) β} {w w' w'' : World}

theorem Runs.pure (a : α) : Runs (Pure.pure a : ExceptT ε (StateM World) α) w (.ok a) w := rfl

theorem Runs.throw (e : ε) : Runs (throw e : ExceptT ε (StateM World) α) w (.error e) w := rfl

theorem Runs.bind {a : α} {r : Except ε β} (hx : Runs x w (.ok a) w') (hf : Runs (f a) w' r w'') :
    Runs (x >>= f) w r w'' := by
  unfold Runs at *
  rw [ExceptT.run_bind, StateT.run_bind, hx]
  exact hf

theorem Runs.bind_error {e : ε} (hx : Runs x w (.error e) w') :
    Runs (x >>= f) w (.error e) w' := by
  unfold Runs at *
  rw [ExceptT.run_bind, StateT.run_bind, hx]
  rfl

theorem Runs.lift {y : StateM World α} {a : α} (hy : y.run w = (a, w')) :
    Runs (ExceptT.lift y : ExceptT ε (StateM World) α) w (.ok a) w' := by
  unfold Runs
  rw [ExceptT.run_lift, StateT.run_map, hy]
  rfl

/-- What an action comes to, a failure too, as a value. -/
theorem Runs.caught {ε' : Type} {r : Except ε α} (hx : Runs x w r w') :
    Runs (ExceptT.lift x.run : ExceptT ε' (StateM World) (Except ε α)) w (.ok r) w' :=
  Runs.lift hx

theorem change_of_ok {path : String} {f : World → Except FileFault FileTree} {w : World}
    {tree : FileTree} (h : f w = .ok tree) :
    (World.change path f).run w = (.ok (), { w with tree }) := by
  simp only [World.change, StateT.run_bind, StateT.run_get, pure_bind, h]
  rfl

theorem change_of_error {path : String} {f : World → Except FileFault FileTree} {w : World}
    {fault : FileFault} (h : f w = .error fault) :
    (World.change path f).run w = (.error ⟨fault, path⟩, w) := by
  simp only [World.change, StateT.run_bind, StateT.run_get, pure_bind, h]
  rfl

end Runs

/-! ### Loading the project -/

section Reads

variable {ε α β : Type} {x : ExceptT ε (StateM World) α} {P : α → Prop} {E : ε → Prop}

/-- Leaves the world as it is, and what it returns or fails with has a property. -/
def Reads (x : ExceptT ε (StateM World) α) (P : α → Prop) (E : ε → Prop) : Prop :=
  ∀ w, (∃ a, Runs x w (.ok a) w ∧ P a) ∨ ∃ e, Runs x w (.error e) w ∧ E e

theorem Reads.pure {a : α} (h : P a) : Reads (Pure.pure a : ExceptT ε (StateM World) α) P E :=
  fun _ => .inl ⟨a, Runs.pure a, h⟩

theorem Reads.throw {e : ε} (h : E e) : Reads (throw e : ExceptT ε (StateM World) α) P E :=
  fun _ => .inr ⟨e, Runs.throw e, h⟩

theorem Reads.bind {f : α → ExceptT ε (StateM World) β} {Q : β → Prop} (hx : Reads x P E)
    (hf : ∀ a, P a → Reads (f a) Q E) : Reads (x >>= f) Q E := by
  intro w
  rcases hx w with ⟨a, hrun, ha⟩ | ⟨e, hrun, he⟩
  · rcases hf a ha w with ⟨b, hrun', hb⟩ | ⟨e, hrun', he⟩
    · exact .inl ⟨b, hrun.bind hrun', hb⟩
    · exact .inr ⟨e, hrun.bind hrun', he⟩
  · exact .inr ⟨e, hrun.bind_error, he⟩

/-- An action that looks at the world and cannot fail. -/
theorem Reads.lift {y : StateM World α} (hy : ∀ w, ∃ a, y.run w = (a, w) ∧ P a) :
    Reads (ExceptT.lift y : ExceptT ε (StateM World) α) P E := by
  intro w
  obtain ⟨a, hrun, ha⟩ := hy w
  exact .inl ⟨a, Runs.lift hrun, ha⟩

end Reads

variable (libraries : Libraries)

theorem readFile_run (path : String) (w : World) :
    (Host.readFile path : StateM World _).run w =
      ((w.tree.read w.directory path).mapError fun fault => ⟨fault, path⟩, w) := by
  simp only [Host.readFile, StateT.run_bind, StateT.run_get, pure_bind]
  cases w.tree.read w.directory path <;> rfl

theorem policy_of_ofValue {compile : Regex.Compiler} {data : Value} {path : Option String}
    {project : Project} (h : Project.ofValue compile data path = .ok project) :
    project.policy.Resolved := by
  unfold Project.ofValue at h
  split at h
  · next entries _ =>
      cases hpolicy : Policy.ofValue compile ((Value.field "policy" entries).getD .null) path with
      | error e =>
          rw [hpolicy] at h
          cases h
      | ok policy =>
          rw [hpolicy] at h
          cases h
          exact Policy.resolved_of_ofValue hpolicy
  · cases h

theorem reads_load (path : String) :
    Reads (Project.load (m := StateM World) libraries path)
      (fun project => project.policy.Resolved) fun _ => True := by
  refine Reads.bind (Reads.lift (P := fun _ => True) fun w => ⟨_, rfl, trivial⟩) ?_
  rintro (_ | _) -
  · exact Reads.throw trivial
  · refine Reads.bind (P := fun _ => True) ?_ ?_
    · refine Reads.bind (Reads.lift (P := fun _ => True) fun w =>
        ⟨_, readFile_run path w, trivial⟩) ?_
      rintro (e | content) -
      · exact Reads.throw trivial
      · dsimp only
        split
        · exact Reads.throw trivial
        · next t _ =>
            cases Project.mappingOf libraries path t with
            | error e => exact Reads.throw trivial
            | ok entries => exact Reads.pure trivial
    · intro entries _
      split
      · next hproject => exact Reads.pure (policy_of_ofValue hproject)
      · exact Reads.throw trivial

theorem firstFile_run (paths : List String) (w : World) :
    ∃ found, (Project.firstFile paths : StateM World _).run w = (found, w) := by
  induction paths with
  | nil => exact ⟨none, rfl⟩
  | cons p rest ih =>
      simp only [Project.firstFile, Host.isFile, StateT.run_bind, StateT.run_get, pure_bind,
        StateT.run_pure]
      cases w.tree.isFile w.directory p with
      | true => exact ⟨some p, rfl⟩
      | false => exact ih

theorem reads_loadProject (path : Option String) :
    Reads (loadProject (m := StateM World) libraries path)
      (fun project => project.policy.Resolved) fun e => ∃ l, e = .load l := by
  unfold loadProject
  split
  case' h_2 =>
    refine Reads.bind (Reads.lift (P := fun _ => True) ?_) ?_
    · intro w
      obtain ⟨found, hfound⟩ := firstFile_run _ w
      exact ⟨found, hfound, trivial⟩
    rintro (_ | p) -
    · exact Reads.throw ⟨_, rfl⟩
  -- What is left is to load a file whose path is known.
  all_goals
    refine Reads.bind (P := fun r => ∀ project, r = .ok project → project.policy.Resolved) ?_ ?_
    · refine Reads.lift fun w => ?_
      rcases reads_load libraries _ w with ⟨project, hrun, resolved⟩ | ⟨e, hrun, -⟩
      · exact ⟨_, hrun, fun _ heq => Except.ok.inj heq ▸ resolved⟩
      · exact ⟨_, hrun, fun _ heq => by cases heq⟩
    rintro (e | project) hproject
    · exact Reads.throw ⟨_, rfl⟩
    · exact Reads.pure (hproject project rfl)

/-- The project that is loaded in a world. -/
def loaded (config : Option String) (w : World) : Except Failure Project :=
  ((loadProject (m := StateM World) libraries config).run.run w).1

theorem loaded_cases (config : Option String) (w : World) :
    Runs (loadProject libraries config) w (loaded libraries config w) w ∧
      ((∃ project, loaded libraries config w = .ok project ∧ project.policy.Resolved) ∨
        ∃ e, loaded libraries config w = .error (.load e)) := by
  rcases reads_loadProject libraries config w with ⟨project, hrun, resolved⟩ | ⟨e, hrun, l, rfl⟩
  · rw [loaded, hrun]
    exact ⟨hrun, .inl ⟨project, rfl, resolved⟩⟩
  · rw [loaded, hrun]
    exact ⟨hrun, .inr ⟨l, rfl⟩⟩

/-- The project that a text spells. -/
def projectOf (path : String) (t : Text) : Except Project.LoadError Project := do
  let entries ← Project.mappingOf libraries path t
  (Project.ofValue libraries.compile (.map entries) (some path)).mapError .ofConfiguration

/-- A project file that is there is read as the text that it holds. -/
theorem loaded_of_read {path : String} {content : Bytes} {t : Text} {w : World}
    (named : path ≠ "") (normal : (Path.ofText path).toText = path)
    (read : w.tree.read w.directory path = .ok content) (decoded : content.decode? = some t) :
    loaded libraries (some path) w = (projectOf libraries path t).mapError .load := by
  have hisFile : Runs (ExceptT.lift (Host.isFile (Path.ofText path).toText : StateM World Bool)) w
      (.ok true : Except Project.LoadError Bool) w := by
    have isFile : w.tree.isFile w.directory path = true := by rw [FileTree.isFile, read]
    rw [normal, ← isFile]
    exact Runs.lift rfl
  have hmapping : Runs (Project.loadMapping libraries path) w
      (Project.mappingOf libraries path t) w := by
    have hread := readFile_run path w
    rw [read] at hread
    refine Runs.bind (Runs.lift hread) ?_
    simp only [Except.mapError, decoded]
    rfl
  have hload : Runs (Project.load libraries path) w (projectOf libraries path t) w := by
    refine Runs.bind hisFile ?_
    unfold projectOf
    cases hentries : Project.mappingOf libraries path t with
    | error e => exact Runs.bind_error (hentries ▸ hmapping)
    | ok entries =>
        refine Runs.bind (hentries ▸ hmapping) ?_
        dsimp only [bind, Except.bind]
        cases Project.ofValue libraries.compile (.map entries) (some path) with
        | error e => exact Runs.throw _
        | ok project => exact Runs.pure project
  have hrun : Runs (loadProject libraries (some path)) w
      ((projectOf libraries path t).mapError .load) w := by
    have hfilter : (some path).filter (!·.isEmpty) = some path := by simp [named]
    rw [loadProject, hfilter]
    refine Runs.bind hload.caught ?_
    cases projectOf libraries path t with
    | error e => exact Runs.throw _
    | ok project => exact Runs.pure project
  rw [loaded, hrun]

end ImportOrder.Command
