import Mathlib.Data.List.TakeWhile
import ImportOrder.Proofs.Files

/-!
Paths and directories. A path leads to a directory by its names alone, however many slashes part
them; so the path of the directory above leads to a directory too, and making a directory that is
there changes nothing.
-/

namespace ImportOrder.FileTree

/-! ### Names in paths -/

/-- The names in a path, without the blanks between slashes. -/
def names (path : List Char) : List (List Char) := (path.splitOn '/').filter (!·.isEmpty)

theorem names_append (a b : List Char) : names (a ++ '/' :: b) = names a ++ names b := by
  rw [names, List.splitOn_append_cons_self, List.filter_append, names, names]

theorem names_nil : names [] = [] := by
  simp [names]

theorem names_of_plain {t : List Char} (ht : '/' ∉ t) (hne : t ≠ []) : names t = [t] := by
  rw [names, List.splitOn_eq_singleton ht]
  simp [hne]

theorem names_slashes {a slashes : List Char} (h : ∀ c ∈ slashes, c = '/') :
    names (a ++ slashes) = names a := by
  induction slashes generalizing a with
  | nil => rw [List.append_nil]
  | cons c rest ih =>
      have hrest : names rest = [] := by
        have hblank := ih (a := []) fun d hd => h d (List.mem_cons_of_mem c hd)
        rwa [List.nil_append, names_nil] at hblank
      rw [h c List.mem_cons_self, names_append, hrest, List.append_nil]

/-! ### The directory above -/

theorem upToSlash_append (path : List Char) :
    path = (path.reverse.dropWhile (· != '/')).reverse ++ (splitLast path).2 := by
  rw [splitLast, ← List.reverse_append, List.takeWhile_append_dropWhile, List.reverse_reverse]

theorem splitLast_tail_plain (path : List Char) : '/' ∉ (splitLast path).2 := by
  intro h
  have hmem : '/' ∈ path.reverse.takeWhile (· != '/') := List.mem_reverse.mp h
  simpa using List.mem_takeWhile_imp hmem

theorem upToSlash_cases (path : List Char) :
    (path.reverse.dropWhile (· != '/')).reverse = [] ∨
      ∃ front, (path.reverse.dropWhile (· != '/')).reverse = front ++ ['/'] := by
  cases h : path.reverse.dropWhile (· != '/') with
  | nil => exact .inl rfl
  | cons c rest =>
      have hslash := List.head?_dropWhile_not (· != '/') path.reverse
      rw [h] at hslash
      have hc : c = '/' := by simpa using hslash
      exact .inr ⟨rest.reverse, by rw [hc, List.reverse_cons]⟩

/-- Slashes at the end are taken off, unless there is nothing else. -/
theorem splitLast_head (path : List Char) : ∃ slashes, (∀ c ∈ slashes, c = '/') ∧
    (path.reverse.dropWhile (· != '/')).reverse = (splitLast path).1 ++ slashes := by
  rw [splitLast]
  generalize (path.reverse.dropWhile (· != '/')).reverse = whole
  by_cases hbare : (whole.reverse.dropWhile (· == '/')).reverse.isEmpty
  · exact ⟨[], by simp, by rw [if_pos hbare, List.append_nil]⟩
  · refine ⟨(whole.reverse.takeWhile (· == '/')).reverse, ?_, ?_⟩
    · intro c hc
      simpa using List.mem_takeWhile_imp (List.mem_reverse.mp hc)
    · rw [if_neg hbare, ← List.reverse_append, List.takeWhile_append_dropWhile,
        List.reverse_reverse]

theorem splitLast_head_begins (path : List Char) : (splitLast path).1 <+: path := by
  obtain ⟨slashes, -, hwhole⟩ := splitLast_head path
  refine ⟨slashes ++ (splitLast path).2, ?_⟩
  rw [← List.append_assoc, ← hwhole]
  exact (upToSlash_append path).symm

theorem names_splitLast (path : List Char) :
    names path = names (splitLast path).1 ++ names (splitLast path).2 := by
  obtain ⟨slashes, hslashes, hwhole⟩ := splitLast_head path
  have hhead := names_slashes (a := (splitLast path).1) hslashes
  rw [← hwhole] at hhead
  rw [← hhead]
  cases upToSlash_cases path with
  | inl hnone =>
      have htail := upToSlash_append path
      rw [hnone, List.nil_append] at htail
      rw [hnone, names_nil, List.nil_append, ← htail]
  | inr hfront =>
      obtain ⟨front, hfront⟩ := hfront
      have hpath := upToSlash_append path
      rw [hfront, List.append_assoc, List.singleton_append] at hpath
      rw [hfront, names_append front [], names_nil, List.append_nil, ← names_append, ← hpath]

/-- The names of a path are those of the path above and its last one. -/
theorem names_parent {path head tail : String} (h : parent path = (head, tail)) :
    head.toList <+: path.toList ∧ '/' ∉ tail.toList ∧
      names path.toList = names head.toList ++ names tail.toList := by
  rw [parent] at h
  have hnames := names_splitLast path.toList
  have hbegins := splitLast_head_begins path.toList
  by_cases hempty : (splitLast path.toList).2.isEmpty
  · simp only [hempty, if_true, Prod.mk.injEq] at h
    rw [List.isEmpty_iff.mp hempty, names_nil, List.append_nil,
      names_splitLast (splitLast path.toList).1] at hnames
    rw [← h.1, ← h.2, String.toList_ofList, String.toList_ofList]
    exact ⟨(splitLast_head_begins _).trans hbegins, splitLast_tail_plain _, hnames⟩
  · simp only [hempty, Bool.false_eq_true, if_false, Prod.mk.injEq] at h
    rw [← h.1, ← h.2, String.toList_ofList, String.toList_ofList]
    exact ⟨hbegins, splitLast_tail_plain _, hnames⟩

/-! ### Following a path -/

variable {tree tree' : FileTree} {directory place : List String} {path : String}

theorem follow_cons {s : String} {rest : List String} (h : tree.lookup place = some .directory) :
    tree.follow place (s :: rest) =
      if s == "" || s == "." then tree.follow place rest
      else if s == ".." then tree.follow place.dropLast rest
      else tree.follow (place ++ [s]) rest := by
  rw [follow, h]

/-- Every step of a path starts in a directory. -/
theorem directory_of_follow {s : String} {rest q : List String}
    (h : tree.follow place (s :: rest) = .ok q) : tree.lookup place = some .directory := by
  rw [follow] at h
  cases hentry : tree.lookup place with
  | none =>
      rw [hentry] at h
      cases h
  | some e =>
      rw [hentry] at h
      cases e with
      | directory => rfl
      | file content => cases h

theorem follow_append (a b : List String) :
    tree.follow place (a ++ b) = (tree.follow place a).bind fun q => tree.follow q b := by
  induction a generalizing place with
  | nil => rfl
  | cons s rest ih =>
      rw [List.cons_append, follow, follow]
      cases tree.lookup place with
      | none => rfl
      | some e =>
          cases e with
          | file content => rfl
          | directory =>
              simp only [ih]
              split
              · rfl
              · split <;> rfl

/-- Directories that stay let every path lead where it led. -/
theorem follow_of_directories {segments q : List String}
    (stay : ∀ p, tree.lookup p = some .directory → tree'.lookup p = some .directory)
    (h : tree.follow place segments = .ok q) : tree'.follow place segments = .ok q := by
  induction segments generalizing place with
  | nil => exact h
  | cons s rest ih =>
      have hplace := directory_of_follow h
      rw [follow_cons hplace] at h
      rw [follow_cons (stay place hplace)]
      split at h
      · next hs => rw [if_pos hs]; exact ih h
      · next hs =>
          rw [if_neg hs]
          split at h
          · next hup => rw [if_pos hup]; exact ih h
          · next hup => rw [if_neg hup]; exact ih h

/-- Blanks between slashes do not change to which directory a path leads. -/
theorem follow_blanks (segments : List String) (q : List String) :
    (tree.follow place segments = .ok q ∧ tree.lookup q = some .directory) ↔
      tree.follow place (segments.filter (· != "")) = .ok q ∧ tree.lookup q = some .directory := by
  induction segments generalizing place with
  | nil => rfl
  | cons s rest ih =>
      by_cases hplace : tree.lookup place = some .directory
      · by_cases hs : s = ""
        · rw [follow_cons hplace, if_pos (by simp [hs]), List.filter_cons_of_neg (by simp [hs])]
          exact ih
        · rw [List.filter_cons_of_pos (by simpa using hs), follow_cons hplace, follow_cons hplace]
          split
          · exact ih
          · split
            · exact ih
            · exact ih
      · -- Outside a directory neither leads on, and a path without names stays there.
        constructor
        · intro h
          exact absurd (directory_of_follow h.1) hplace
        · intro h
          cases hnames : (s :: rest).filter (· != "") with
          | nil =>
              rw [hnames] at h
              cases h.1
              exact absurd h.2 hplace
          | cons name more =>
              rw [hnames] at h
              exact absurd (directory_of_follow h.1) hplace

/-! ### Paths to directories -/

/-- A path leads to a directory. -/
def Leads (tree : FileTree) (directory : List String) (path : String) (place : List String) :
    Prop :=
  tree.locate directory path = .ok place ∧ tree.lookup place = some .directory

def startOf (directory : List String) (path : String) : List String :=
  if path.startsWith "/" then [] else directory

theorem locate_of_ne (h : path ≠ "") :
    tree.locate directory path = tree.follow (startOf directory path) (segments path) := by
  rw [locate, if_neg (by simpa using h), startOf]

theorem Leads.ne_empty (h : Leads tree directory path place) : path ≠ "" := by
  rintro rfl
  cases h.1

theorem segments_filter (path : String) :
    (segments path).filter (· != "") = (names path.toList).map String.ofList := by
  rw [segments, names, List.filter_map]
  congr 1
  apply List.filter_congr
  intro t _
  cases t with
  | nil => rfl
  | cons c t => simp

theorem leads_iff (h : path ≠ "") : Leads tree directory path place ↔
    tree.follow (startOf directory path) ((names path.toList).map String.ofList) = .ok place ∧
      tree.lookup place = some .directory := by
  rw [Leads, locate_of_ne h, follow_blanks, segments_filter]

theorem startsWith_slash_iff (path : String) :
    path.startsWith "/" = true ↔ path.toList.head? = some '/' := by
  rw [String.startsWith_string_iff, show "/".toList = ['/'] by decide]
  cases path.toList with
  | nil => simp
  | cons c rest => simp [eq_comm]

/-- A path and a beginning of it start in the same directory. -/
theorem startOf_eq {begun : String} (hne : begun ≠ "") (h : begun.toList <+: path.toList) :
    startOf directory begun = startOf directory path := by
  have hhead : begun.toList.head? = path.toList.head? := by
    obtain ⟨rest, hrest⟩ := h
    cases hbegun : begun.toList with
    | nil => exact absurd (String.toList_eq_nil_iff.mp hbegun) hne
    | cons c more => rw [← hrest, hbegun]; rfl
  have hstart : begun.startsWith "/" = path.startsWith "/" := by
    rw [Bool.eq_iff_iff, startsWith_slash_iff, startsWith_slash_iff, hhead]
  rw [startOf, startOf, hstart]

/-- The path above one that leads to a directory leads to one as well. -/
theorem Leads.exists_above {head tail : String} (h : Leads tree directory path place)
    (hparent : parent path = (head, tail)) (hhead : head ≠ "") (htail : tail ≠ "") :
    ∃ above, Leads tree directory head above := by
  obtain ⟨hbegins, hplain, hnames⟩ := names_parent hparent
  have hlast : names tail.toList = [tail.toList] := names_of_plain hplain (by simpa using htail)
  have hfollow := ((leads_iff h.ne_empty).mp h).1
  rw [hnames, hlast, List.map_append, follow_append, ← startOf_eq hhead hbegins] at hfollow
  cases habove : tree.follow (startOf directory head) ((names head.toList).map String.ofList) with
  | error fault =>
      rw [habove] at hfollow
      cases hfollow
  | ok above =>
      rw [habove] at hfollow
      have hdirectory := directory_of_follow hfollow
      exact ⟨above, (leads_iff hhead).mpr ⟨habove, hdirectory⟩⟩

theorem Leads.isThere (h : Leads tree directory path place) :
    tree.isThere directory path = true := by
  simp [FileTree.isThere, h.1, h.2]

theorem Leads.isDirectory (h : Leads tree directory path place) :
    tree.isDirectory directory path = true := by
  simp [FileTree.isDirectory, h.1, h.2]

theorem Leads.of_directories
    (stay : ∀ p, tree.lookup p = some .directory → tree'.lookup p = some .directory)
    (h : Leads tree directory path place) : Leads tree' directory path place := by
  have hlocate := h.1
  rw [locate_of_ne h.ne_empty] at hlocate
  exact ⟨(locate_of_ne h.ne_empty).trans (follow_of_directories stay hlocate), stay place h.2⟩

/-- Making a directory that is there does nothing. -/
theorem makeDirectories_of_leads (h : Leads tree directory path place) (fuel : Nat) :
    makeDirectories directory (fuel + 1) tree path = (.ok (), tree) := by
  have hmake : tree.makeDirectory directory path = .error .alreadyThere := by
    simp [makeDirectory, h.1, h.2, bind, Except.bind, throw, throwThe, MonadExceptOf.throw]
  have hfinish (tail : String) :
      makeDirectories.finish directory path false tail tree = (.ok (), tree) := by
    simp [makeDirectories.finish, hmake, h.isDirectory]
  cases hparent : parent path with
  | mk head tail =>
      have habove : (head != "" && tail != "" && !tree.isThere directory head) = false := by
        by_cases hhead : head = ""
        · simp [hhead]
        · by_cases htail : tail = ""
          · simp [htail]
          · obtain ⟨above, hleads⟩ := h.exists_above hparent hhead htail
            simp [hleads.isThere]
      simp only [makeDirectories, hparent, habove, Bool.false_eq_true, if_false]
      exact hfinish tail

/-- A path to a name right below a directory says that the directory is there. -/
theorem locate_below_iff {below name : String} {q : List String} (front : List Char)
    (hpath : path ≠ "") (hbelow : below.toList = front ++ '/' :: name.toList)
    (hfront : names front = names path.toList) (hbegins : path.toList <+: below.toList)
    (hplain : '/' ∉ name.toList) (hname : name ≠ "" ∧ name ≠ "." ∧ name ≠ "..") :
    tree.locate directory below = .ok q ↔
      ∃ place, Leads tree directory path place ∧ q = place ++ [name] := by
  have hne : below ≠ "" := by
    rintro rfl
    simp at hbelow
  have hsegments : segments below = segments (String.ofList front) ++ [name] := by
    simp [segments, hbelow, List.splitOn_append_cons_self, List.splitOn_eq_singleton hplain]
  have hleads : ∀ place, Leads tree directory path place ↔
      tree.follow (startOf directory below) (segments (String.ofList front)) = .ok place ∧
        tree.lookup place = some .directory := by
    intro place
    rw [leads_iff hpath, startOf_eq hpath hbegins, ← hfront,
      follow_blanks (segments (String.ofList front)), segments_filter, String.toList_ofList]
  have hlast : ∀ place, tree.lookup place = some .directory →
      tree.follow place [name] = .ok (place ++ [name]) := by
    intro place hplace
    rw [follow_cons hplace, if_neg (by simp [hname]), if_neg (by simp [hname])]
    rfl
  rw [locate_of_ne hne, hsegments, follow_append]
  constructor
  · intro h
    cases hplace : tree.follow (startOf directory below) (segments (String.ofList front)) with
    | error fault =>
        rw [hplace] at h
        cases h
    | ok place =>
        rw [hplace] at h
        have hdirectory := directory_of_follow h
        refine ⟨place, (hleads place).mpr ⟨hplace, hdirectory⟩, ?_⟩
        exact Except.ok.inj (h.symm.trans (hlast place hdirectory))
  · rintro ⟨place, hplace, rfl⟩
    rw [((hleads place).mp hplace).1]
    exact hlast place hplace.2

/-! ### What making directories keeps -/

/-- The content of a file; nothing, if there is no file. -/
def contentAt (tree : FileTree) (place : List String) : Bytes :=
  match tree.lookup place with
  | some (.file content) => content
  | _ => []

theorem contentAt_set_self {content : Bytes} (h : place ≠ []) :
    contentAt (tree.set place (.file content)) place = content := by
  rw [contentAt, lookup_set_self h]

theorem contentAt_of_entry_eq {p : List String} (h : tree'.lookup p = tree.lookup p) :
    contentAt tree' p = contentAt tree p := by
  rw [contentAt, contentAt, h]

theorem contentAt_makeDirectory {p : List String}
    (h : tree.makeDirectory directory path = .ok tree') : contentAt tree' p = contentAt tree p := by
  rw [makeDirectory] at h
  cases hlocate : tree.locate directory path with
  | error fault =>
      rw [hlocate] at h
      cases h
  | ok q =>
      simp only [hlocate, bind, Except.bind] at h
      cases hentry : tree.lookup q with
      | some e =>
          rw [hentry] at h
          cases h
      | none =>
          rw [hentry] at h
          cases h
          by_cases hp : p = q
          · have hq : q ≠ [] := by
              rintro rfl
              cases hentry
            rw [hp, contentAt, contentAt, lookup_set_self hq, hentry]
          · exact contentAt_of_entry_eq (lookup_set_of_ne hp)

theorem contentAt_finish (path : String) (isBelow : Bool) (tail : String) (tree : FileTree)
    (p : List String) :
    contentAt (makeDirectories.finish directory path isBelow tail tree).2 p = contentAt tree p := by
  rw [makeDirectories.finish]
  split
  · rfl
  · split
    · next made hmade => exact contentAt_makeDirectory hmade
    · rfl

theorem contentAt_goOn {above : Except FileError Unit × FileTree}
    {next : FileTree → Except FileError Unit × FileTree} {p : List String}
    (h : ∀ tree, contentAt (next tree).2 p = contentAt tree p) :
    contentAt (makeDirectories.goOn above next).2 p = contentAt above.2 p := by
  rw [makeDirectories.goOn]
  split
  · split
    · exact h above.2
    · rfl
  · exact h above.2

/-- Making directories changes the content of no file. -/
theorem contentAt_makeDirectories (directory : List String) (fuel : Nat) (tree : FileTree)
    (path : String) (p : List String) :
    contentAt (makeDirectories directory fuel tree path).2 p = contentAt tree p := by
  induction fuel generalizing tree path with
  | zero => rfl
  | succ fuel ih =>
      rw [makeDirectories, contentAt_goOn (contentAt_finish path _ _ · p)]
      split
      · exact ih tree _
      · rfl

theorem update_eq (hplace : tree.locate directory path = .ok place)
    (hfile : tree.lookup place ≠ some .directory) (f : Bytes → Bytes) :
    tree.update directory path f = .ok (tree.set place (.file (f (contentAt tree place)))) := by
  cases hentry : tree.lookup place with
  | none => simp [update, contentAt, hplace, hentry, bind, Except.bind, pure, Except.pure]
  | some e =>
      cases e with
      | directory => exact absurd hentry hfile
      | file content =>
          simp [update, contentAt, hplace, hentry, bind, Except.bind, pure, Except.pure]

end ImportOrder.FileTree
