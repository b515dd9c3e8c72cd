import ImportOrder.FileTree

/-!
Files and their content. A text comes back from the bytes it is written as. Giving a file new
content moves nothing: every path names the place it named before, and only the content found
there is another.
-/

namespace ImportOrder

/-! ### Texts as bytes -/

namespace Bytes

theorem toList_loop (bytes : ByteArray) (i : Nat) (done : Bytes) :
    ByteArray.toList.loop bytes i done = done.reverse ++ bytes.data.toList.drop i := by
  fun_induction ByteArray.toList.loop bytes i done with
  | case1 i done hlt ih =>
      have hsize : i < bytes.data.toList.length := hlt
      have hget : bytes.get! i = bytes.data.toList[i] := by
        cases bytes with
        | mk data => exact getElem!_pos data i hlt
      rw [ih, List.drop_eq_getElem_cons hsize, List.reverse_cons, List.append_assoc, hget]
      rfl
  | case2 i done hlt =>
      have hsize : bytes.data.toList.length ≤ i := Nat.le_of_not_lt hlt
      rw [List.drop_eq_nil_of_le hsize, List.append_nil]

theorem decode?_ofText (t : List Char) : decode? (ofText t) = some t := by
  have hbytes : (ofText t).toArray = (String.ofList t).toUTF8.data := by
    rw [ofText, ByteArray.toList, toList_loop]
    simp
  have hvalid : ((String.ofList t).toUTF8).IsValidUTF8 := (String.ofList t).isValidUTF8
  rw [decode?, hbytes, String.fromUTF8?, dif_pos hvalid]
  exact congrArg some (String.toList_ofList)

end Bytes

/-! ### Places -/

namespace FileTree

variable {tree tree' : FileTree} {place other : List String} {e : Entry}

theorem lookup_filter (entries : List (List String × Entry)) (hne : other ≠ place) :
    (entries.filter (·.1 != place)).lookup other = entries.lookup other := by
  induction entries with
  | nil => rfl
  | cons x rest ih =>
      rw [List.filter_cons]
      by_cases hx : x.1 = place
      · have hother : (other == x.1) = false := by simpa [hx] using hne
        rw [if_neg (by simp [hx]), ih, List.lookup_cons, hother]
      · rw [if_pos (by simpa using hx), List.lookup_cons, List.lookup_cons, ih]

theorem lookup_set_self (hplace : place ≠ []) : lookup (tree.set place e) place = some e := by
  simp [lookup, set, hplace]

theorem lookup_set_of_ne (hne : other ≠ place) :
    lookup (tree.set place e) other = tree.lookup other := by
  have hother : (other == place) = false := by simpa using hne
  simp only [lookup, set, List.lookup_cons, hother, lookup_filter tree.entries hne]

theorem ne_nil_of_file {content : Bytes} (h : tree.lookup place = some (.file content)) :
    place ≠ [] := by
  rintro rfl
  cases h

/-- Trees that differ in the content of files and in nothing else. -/
def Alike (tree tree' : FileTree) : Prop :=
  ∀ place, tree'.lookup place = tree.lookup place ∨
    ∃ old new, tree.lookup place = some (.file old) ∧ tree'.lookup place = some (.file new)

theorem Alike.refl (tree : FileTree) : tree.Alike tree := fun _ => .inl rfl

theorem Alike.trans {tree'' : FileTree} (h : tree.Alike tree') (h' : tree'.Alike tree'') :
    tree.Alike tree'' := by
  intro place
  rcases h place with heq | ⟨old, new, hold, hnew⟩
  · rcases h' place with heq' | ⟨old', new', hold', hnew'⟩
    · exact .inl (heq'.trans heq)
    · exact .inr ⟨old', new', heq ▸ hold', hnew'⟩
  · rcases h' place with heq' | ⟨old', new', -, hnew'⟩
    · exact .inr ⟨old, new, hold, heq'.trans hnew⟩
    · exact .inr ⟨old, new', hold, hnew'⟩

theorem Alike.entry_eq (h : tree.Alike tree') (hfile : ¬ ∃ old, tree.lookup place = some (.file old)) :
    tree'.lookup place = tree.lookup place := by
  rcases h place with heq | ⟨old, -, hold, -⟩
  · exact heq
  · exact absurd ⟨old, hold⟩ hfile

theorem alike_set {old : Bytes} (h : tree.lookup place = some (.file old)) (new : Bytes) :
    tree.Alike (tree.set place (.file new)) := by
  intro other
  by_cases hother : other = place
  · subst hother
    exact .inr ⟨old, new, h, lookup_set_self (ne_nil_of_file h)⟩
  · exact .inl (lookup_set_of_ne hother)

theorem Alike.follow_eq (h : tree.Alike tree') (place segments : List String) :
    tree'.follow place segments = tree.follow place segments := by
  induction segments generalizing place with
  | nil => rfl
  | cons s rest ih =>
      rw [follow, follow]
      rcases h place with heq | ⟨old, new, hold, hnew⟩
      · simp only [heq, ih]
      · simp only [hold, hnew]

theorem Alike.locate_eq (h : tree.Alike tree') (directory : List String) (path : String) :
    tree'.locate directory path = tree.locate directory path := by
  simp only [locate, h.follow_eq]

/-! ### Reading and writing -/

variable {directory : List String} {path : String}

theorem read_eq_ok_iff {content : Bytes} : tree.read directory path = .ok content ↔
    ∃ place, tree.locate directory path = .ok place ∧ tree.lookup place = some (.file content) := by
  rw [read]
  cases tree.locate directory path with
  | error fault => simp [bind, Except.bind]
  | ok place =>
      cases hentry : tree.lookup place with
      | none => simp [bind, Except.bind, hentry, throw, throwThe, MonadExceptOf.throw]
      | some e =>
          cases e with
          | directory => simp [bind, Except.bind, hentry, throw, throwThe, MonadExceptOf.throw]
          | file c => simp [bind, Except.bind, hentry, pure, Except.pure]

theorem update_eq_ok {content : Bytes} (hplace : tree.locate directory path = .ok place)
    (hfile : tree.lookup place = some (.file content)) (f : Bytes → Bytes) :
    tree.update directory path f = .ok (tree.set place (.file (f content))) := by
  simp [update, hplace, hfile, bind, Except.bind, pure, Except.pure]

end FileTree

end ImportOrder
