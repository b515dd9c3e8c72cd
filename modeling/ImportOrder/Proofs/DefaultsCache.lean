import Mathlib.Data.List.Induction
import ImportOrder.Defaults

/-!
What is kept of the defaults file is a snapshot. A history of requests, resets and changes of the
file tells what a request is answered from: what the file held when it was first loaded since the
last reset, or else what it holds now. Neither the file's later changes nor a request that fails
have a part in it.
-/

namespace ImportOrder.Defaults

/-- A request for the value under a name, of one kind or of any. -/
structure Request where
  key : String
  kind : Option Store.Kind

/-- What the entries of a mapping have for a request. -/
def Request.answer (r : Request) (entries : List (Value × Value)) : Except Error Value :=
  (Store.descend r.key (r.key.splitOn ".") (.map entries)).bind fun v =>
    match r.kind with
    | none => .ok v
    | some kind => if kind.holds v then .ok v else .error (.wrongKind kind.name r.key v.kind)

inductive Event where
  | ask (r : Request)
  | reset
  /-- The file is replaced or removed. -/
  | change (file : Option Value)

namespace Store

def fresh (file : Option Value) : Store := ⟨file, none⟩

def ask (s : Store) (r : Request) : Except Error Value × Store :=
  match r.kind with
  | none => s.get r.key
  | some kind => s.getAs kind r.key

def step (s : Store) : Event → Store
  | .ask r => (s.ask r).2
  | .reset => s.reset
  | .change file => { s with file }

def after (s : Store) (history : List Event) : Store := history.foldl step s

theorem after_concat (s : Store) (history : List Event) (e : Event) :
    s.after (history ++ [e]) = (s.after history).step e := by
  simp [after]

/-- A request loads the mapping and then only looks into it. -/
theorem ask_eq (s : Store) (r : Request) : s.ask r = (s.load.1.bind r.answer, s.load.2) := by
  obtain ⟨key, kind⟩ := r
  cases kind with
  | none =>
      have hanswer : Request.answer ⟨key, none⟩ =
          fun entries => descend key (key.splitOn ".") (.map entries) := by
        funext entries
        simp only [Request.answer]
        cases descend key (key.splitOn ".") (.map entries) <;> rfl
      rw [hanswer]
      rfl
  | some kind =>
      simp only [ask, getAs, get]
      cases s.load.1 <;> rfl

theorem load_of_kept {s : Store} {entries : List (Value × Value)} (h : s.kept = some entries) :
    s.load = (.ok entries, s) := by
  simp [load, h]

theorem load_of_mapping {s : Store} {entries : List (Value × Value)} (hkept : s.kept = none)
    (hfile : s.file = some (.map entries)) :
    s.load = (.ok entries, { s with kept := some entries }) := by
  simp [load, hkept, hfile]

theorem load_of_noFile {s : Store} (hkept : s.kept = none) (hfile : s.file = none) :
    s.load = (.error .noFile, s) := by
  simp [load, hkept, hfile]

theorem load_of_notMapping {s : Store} {v : Value} (hkept : s.kept = none)
    (hfile : s.file = some v) (hv : ∀ entries, v ≠ .map entries) :
    s.load = (.error (.notMapping v.kind), s) := by
  simp [load, hkept, hfile]

end Store

/-! ### Histories -/

def fileAfter (file : Option Value) : List Event → Option Value
  | [] => file
  | .ask _ :: rest | .reset :: rest => fileAfter file rest
  | .change new :: rest => fileAfter new rest

theorem fileAfter_append (file : Option Value) (history later : List Event) :
    fileAfter file (history ++ later) = fileAfter (fileAfter file history) later := by
  induction history generalizing file with
  | nil => rfl
  | cons e rest ih =>
      cases e with
      | ask r | reset => exact ih file
      | change new => exact ih new

/-- A request was made right after `before`, and there was no reset since. -/
def AskedAfter (history before : List Event) : Prop :=
  ∃ r rest, history = before ++ .ask r :: rest ∧ Event.reset ∉ rest

theorem AskedAfter.trans {history before earlier : List Event} (h : AskedAfter history before)
    (h' : AskedAfter before earlier) : AskedAfter history earlier := by
  obtain ⟨r, rest, rfl, hrest⟩ := h
  obtain ⟨q, between, rfl, hbetween⟩ := h'
  refine ⟨q, between ++ .ask r :: rest, by simp, ?_⟩
  simp [hrest, hbetween]

theorem AskedAfter.length_lt {history before : List Event} (h : AskedAfter history before) :
    before.length < history.length := by
  obtain ⟨r, rest, rfl, -⟩ := h
  simp

theorem not_askedAfter_reset (history before : List Event) :
    ¬ AskedAfter (history ++ [.reset]) before := by
  intro ⟨r, rest, heq, hrest⟩
  rcases List.eq_nil_or_concat rest with rfl | ⟨front, e, rfl⟩
  · cases (List.append_inj' heq rfl).2
  · rw [List.concat_eq_append, ← List.cons_append, ← List.append_assoc] at heq
    cases (List.append_inj' heq rfl).2
    exact hrest (by simp)

theorem askedAfter_concat {history before : List Event} {e : Event} (he : e ≠ .reset) :
    AskedAfter (history ++ [e]) before ↔
      AskedAfter history before ∨ ((∃ r, e = .ask r) ∧ before = history) := by
  constructor
  · intro ⟨r, rest, heq, hrest⟩
    rcases List.eq_nil_or_concat rest with rfl | ⟨front, last, rfl⟩
    · obtain ⟨hbefore, hlast⟩ := List.append_inj' heq rfl
      exact .inr ⟨⟨r, List.singleton_inj.mp hlast⟩, hbefore.symm⟩
    · rw [List.concat_eq_append] at heq hrest
      rw [← List.cons_append, ← List.append_assoc] at heq
      exact .inl ⟨r, front, (List.append_inj' heq rfl).1, fun h => hrest (by simp [h])⟩
  · intro h
    cases h with
    | inl h =>
        obtain ⟨r, rest, rfl, hrest⟩ := h
        exact ⟨r, rest ++ [e], by simp, by simp [hrest, he.symm]⟩
    | inr h =>
        obtain ⟨⟨r, rfl⟩, rfl⟩ := h
        exact ⟨r, [], rfl, by simp⟩

/-- The entries the file had when it was first loaded since the last reset: a request was made
while the file was this mapping, and at no request before that was it any mapping. -/
def Snapshot (file : Option Value) (history : List Event) (entries : List (Value × Value)) : Prop :=
  ∃ before, AskedAfter history before ∧ fileAfter file before = some (.map entries) ∧
    ∀ earlier others, AskedAfter before earlier → fileAfter file earlier ≠ some (.map others)

section Snapshot

variable {file : Option Value} {history : List Event} {entries : List (Value × Value)}

/-- A request that met a mapping left a snapshot: its own, or that of an earlier one. -/
theorem exists_snapshot {before : List Event} (h : AskedAfter history before)
    (hfile : fileAfter file before = some (.map entries)) :
    ∃ others, Snapshot file history others := by
  -- Among the requests that met a mapping there is one with the shortest history before it.
  induction hlen : before.length using Nat.strongRecOn generalizing before entries with
  | ind n ih =>
      by_cases hfirst : ∃ earlier others, AskedAfter before earlier ∧
          fileAfter file earlier = some (.map others)
      · obtain ⟨earlier, others, hearlier, hothers⟩ := hfirst
        exact ih earlier.length (hlen ▸ hearlier.length_lt) (h.trans hearlier) hothers rfl
      · refine ⟨entries, before, h, hfile, ?_⟩
        intro earlier others hearlier hothers
        exact hfirst ⟨earlier, others, hearlier, hothers⟩

theorem snapshot_reset : ¬ Snapshot file (history ++ [.reset]) entries := by
  intro h
  obtain ⟨before, hasked, -⟩ := h
  exact not_askedAfter_reset history before hasked

theorem snapshot_change {new : Option Value} :
    Snapshot file (history ++ [.change new]) entries ↔ Snapshot file history entries := by
  simp [Snapshot, askedAfter_concat]

/-- A request finds the snapshot there is, or leaves one if the file is a mapping now. -/
theorem snapshot_ask {r : Request} :
    Snapshot file (history ++ [.ask r]) entries ↔ Snapshot file history entries ∨
      (∀ others, ¬ Snapshot file history others) ∧
        fileAfter file history = some (.map entries) := by
  simp only [Snapshot, askedAfter_concat (e := .ask r) nofun]
  constructor
  · intro ⟨before, hasked, hfile, hfirst⟩
    cases hasked with
    | inl hasked => exact .inl ⟨before, hasked, hfile, hfirst⟩
    | inr hlast =>
        obtain ⟨-, rfl⟩ := hlast
        refine .inr ⟨?_, hfile⟩
        intro others h
        obtain ⟨earlier, hearlier, hothers, -⟩ := h
        exact hfirst earlier others hearlier hothers
  · intro h
    cases h with
    | inl h =>
        obtain ⟨before, hasked, hfile, hfirst⟩ := h
        exact ⟨before, .inl hasked, hfile, hfirst⟩
    | inr h =>
        obtain ⟨hnone, hfile⟩ := h
        refine ⟨history, .inr ⟨⟨r, rfl⟩, rfl⟩, hfile, ?_⟩
        intro earlier others hearlier hothers
        obtain ⟨found, hfound⟩ := exists_snapshot hearlier hothers
        exact hnone found hfound

end Snapshot

/-! ### What is kept -/

namespace Store

theorem file_ask (s : Store) (r : Request) : (s.ask r).2.file = s.file := by
  rw [ask_eq]
  simp only [load]
  split
  · rfl
  · split <;> rfl

theorem file_after (file : Option Value) (history : List Event) :
    ((fresh file).after history).file = fileAfter file history := by
  induction history using List.reverseRecOn with
  | nil => rfl
  | append_singleton history e ih =>
      rw [after_concat, fileAfter_append, ← ih]
      cases e with
      | ask r => exact file_ask _ r
      | reset => rfl
      | change new => rfl

/-- The invariant of a run: what is kept is the snapshot. -/
theorem kept_after_iff (file : Option Value) (history : List Event)
    (entries : List (Value × Value)) :
    ((fresh file).after history).kept = some entries ↔ Snapshot file history entries := by
  induction history using List.reverseRecOn generalizing entries with
  | nil =>
      refine iff_of_false nofun ?_
      intro h
      obtain ⟨before, hasked, -⟩ := h
      exact absurd hasked.length_lt (Nat.not_lt_zero _)
  | append_singleton history e ih =>
      rw [after_concat]
      cases e with
      | reset => exact iff_of_false nofun snapshot_reset
      | change new => rw [snapshot_change, ← ih, step]
      | ask r =>
          rw [snapshot_ask, ← file_after, step, ask_eq]
          simp only [← ih]
          cases hkept : ((fresh file).after history).kept with
          | some kept => simp [load_of_kept hkept, hkept]
          | none =>
              cases hfile : ((fresh file).after history).file with
              | none => simp [load_of_noFile hkept hfile, hkept]
              | some v =>
                  by_cases hv : ∃ es, v = .map es
                  · obtain ⟨es, rfl⟩ := hv
                    simp [load_of_mapping hkept hfile]
                  · rw [not_exists] at hv
                    simp [load_of_notMapping hkept hfile hv, hkept, hv]

end Store

open Store in
/-- Whatever came before, a request is answered from the snapshot if there is one, and leaves the
store as it is. Otherwise it is answered from what the file holds now: a mapping is kept from then
on, and without one the request fails, nothing is kept, and the next request finds no snapshot
either. What is kept does not depend on what was asked for, and so not on whether it was found. -/
theorem cache_is_snapshot (file : Option Value) (history : List Event) (r : Request) :
    let s := (fresh file).after history
    (∀ entries, Snapshot file history entries → s.ask r = (r.answer entries, s)) ∧
    ((∀ entries, ¬ Snapshot file history entries) →
      s.kept = none ∧
      (∀ entries, fileAfter file history = some (.map entries) →
        s.ask r = (r.answer entries, { s with kept := some entries })) ∧
      (fileAfter file history = none → s.ask r = (.error .noFile, s)) ∧
      (∀ v, fileAfter file history = some v → (∀ entries, v ≠ .map entries) →
        s.ask r = (.error (.notMapping v.kind), s)) ∧
      ((∀ entries, fileAfter file history ≠ some (.map entries)) →
        ∀ entries, ¬ Snapshot file (history ++ [.ask r]) entries)) ∧
    ∀ other : Request, (s.ask other).2 = (s.ask r).2 := by
  intro s
  have hfile : s.file = fileAfter file history := file_after file history
  refine ⟨?_, ?_, ?_⟩
  · intro entries hsnapshot
    have hkept : s.kept = some entries := (kept_after_iff file history entries).mpr hsnapshot
    rw [ask_eq, load_of_kept hkept]
    rfl
  · intro hnone
    have hkept : s.kept = none := by
      rw [Option.eq_none_iff_forall_ne_some]
      intro entries hkept
      exact hnone entries ((kept_after_iff file history entries).mp hkept)
    refine ⟨hkept, ?_, ?_, ?_, ?_⟩
    · intro entries hmap
      rw [ask_eq, load_of_mapping hkept (hfile.trans hmap)]
      rfl
    · intro hmissing
      rw [ask_eq, load_of_noFile hkept (hfile.trans hmissing)]
      rfl
    · intro v hv hnotMap
      rw [ask_eq, load_of_notMapping hkept (hfile.trans hv) hnotMap]
      rfl
    · intro hnotMap entries hsnapshot
      cases snapshot_ask.mp hsnapshot with
      | inl hbefore => exact hnone entries hbefore
      | inr hnow => exact hnotMap entries hnow.2
  · intro other
    rw [ask_eq, ask_eq]

end ImportOrder.Defaults
