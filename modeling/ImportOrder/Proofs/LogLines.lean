import ImportOrder.CheckLog
import ImportOrder.Proofs.Directories
import ImportOrder.Proofs.Placeholders
import ImportOrder.Proofs.ProjectLoading

/-!
The log of checks over any run of calls. A document on one line is written in printable ASCII, so an
entry is one line, from which the kinds and lines of the violations can be told. A call finds the
directory and the file that the call before left, so it adds its line behind those of the calls
before.
-/

namespace ImportOrder

/-! ### Documents in printable ASCII -/

/-- The characters from the blank to the tilde. -/
def Printable (c : Char) : Prop := 0x20 ≤ c.toNat ∧ c.toNat < 0x7f

instance (c : Char) : Decidable (Printable c) := inferInstanceAs (Decidable (_ ∧ _))

namespace Json

theorem printable_hexDigits (width n : Nat) : ∀ c ∈ Text.hexDigits width n, Printable c := by
  have digits : ∀ d : Fin 16, Printable (Nat.digitChar d) := by decide
  induction width generalizing n with
  | zero => simp [Text.hexDigits]
  | succ width ih =>
      intro c hc
      rw [Text.hexDigits, List.mem_append, List.mem_singleton] at hc
      cases hc with
      | inl hc => exact ih (n / 16) c hc
      | inr hc =>
          rw [hc]
          exact digits ⟨n % 16, Nat.mod_lt n (by decide)⟩

theorem printable_unitEscape (n : Nat) : ∀ c ∈ unitEscape n, Printable c := by
  intro c hc
  rw [unitEscape, List.mem_cons, List.mem_cons] at hc
  rcases hc with rfl | rfl | hc
  · decide
  · decide
  · exact printable_hexDigits 4 n c hc

theorem printable_pair {d : Char} (hd : Printable d) : ∀ c ∈ ['\\', d], Printable c := by
  intro c hc
  rw [List.mem_cons, List.mem_singleton] at hc
  cases hc with
  | inl hc => rw [hc]; decide
  | inr hc => rwa [hc]

/-- However it is escaped, a character becomes printable ones. -/
theorem printable_escapeChar (d : Char) : ∀ c ∈ escapeChar d, Printable c := by
  rw [escapeChar]
  split_ifs with hmark _ _ _ _ _ hplain
  · apply printable_pair
    simp only [Bool.or_eq_true, beq_iff_eq] at hmark
    cases hmark with
    | inl h => rw [h]; decide
    | inr h => rw [h]; decide
  · exact printable_pair (by decide)
  · exact printable_pair (by decide)
  · exact printable_pair (by decide)
  · exact printable_pair (by decide)
  · exact printable_pair (by decide)
  · intro c hc
    rw [List.mem_singleton.mp hc]
    simpa [Printable] using hplain
  · exact printable_unitEscape d.toNat
  · intro c hc
    cases List.mem_append.mp hc with
    | inl hc => exact printable_unitEscape _ c hc
    | inr hc => exact printable_unitEscape _ c hc

theorem printable_escaped (s : String) : ∀ c ∈ escaped s, Printable c := by
  have hmark : Printable Text.quotationMark := by decide
  intro c hc
  rw [escaped, List.mem_append, List.mem_cons, List.mem_singleton, List.mem_flatMap] at hc
  rcases hc with (rfl | ⟨d, -, hd⟩) | rfl
  · exact hmark
  · exact printable_escapeChar d c hd
  · exact hmark

theorem printable_digits (n : Nat) : ∀ c ∈ n.repr.toList, Printable c := by
  intro c hc
  rw [Nat.repr_eq_ofList_toDigits, String.toList_ofList] at hc
  have hdigit := Nat.isDigit_of_mem_toDigits (by decide) (by decide) hc
  rw [Char.isDigit_iff_toNat] at hdigit
  have hbounds : 48 ≤ c.toNat ∧ c.toNat ≤ 57 := hdigit
  exact ⟨by omega, by omega⟩

theorem printable_int (n : Int) : ∀ c ∈ (toString n).toList, Printable c := by
  rw [Int.toString_eq_repr, Int.repr_eq_if]
  split
  · exact printable_digits n.toNat
  · intro c hc
    rw [String.toList_append, List.mem_append] at hc
    cases hc with
    | inl hc =>
        have hsign : ∀ d ∈ "-".toList, Printable d := by simp [Printable]
        exact hsign c hc
    | inr hc => exact printable_digits _ c hc

theorem joined_cons (t : List Char) (rest : List (List Char)) :
    joined [','] (t :: rest) = t ++ rest.flatMap (',' :: ·) := by
  induction rest generalizing t with
  | nil => simp [joined]
  | cons u rest ih =>
      rw [joined, List.intercalate_cons_cons, ← joined, ih, List.flatMap_cons]
      simp

/-- Parts between commas, seen from one of them. -/
theorem joined_around (before after : List (List Char)) (t : List Char) :
    joined [','] (before ++ t :: after) =
      before.flatMap (· ++ [',']) ++ t ++ after.flatMap (',' :: ·) := by
  induction before with
  | nil => exact joined_cons t after
  | cons u rest ih =>
      cases hrest : rest ++ t :: after with
      | nil => simp at hrest
      | cons v more =>
          rw [List.cons_append, hrest, joined, List.intercalate_cons_cons, ← joined, ← hrest, ih]
          simp

theorem printable_joined {parts : List (List Char)} (h : ∀ t ∈ parts, ∀ c ∈ t, Printable c) :
    ∀ c ∈ joined [','] parts, Printable c := by
  cases parts with
  | nil => simp [joined]
  | cons t rest =>
      intro c hc
      rw [joined_cons, List.mem_append, List.mem_flatMap] at hc
      rcases hc with hc | ⟨u, hu, hc⟩
      · exact h t List.mem_cons_self c hc
      · cases List.mem_cons.mp hc with
        | inl hc => rw [hc]; decide
        | inr hc => exact h u (List.mem_cons_of_mem t hu) c hc

theorem printable_enclosed {opened closed : Char} {parts : List (List Char)}
    (hopened : Printable opened) (hclosed : Printable closed)
    (h : ∀ t ∈ parts, ∀ c ∈ t, Printable c) :
    ∀ c ∈ opened :: joined [','] parts ++ [closed], Printable c := by
  intro c hc
  rw [List.mem_append, List.mem_cons, List.mem_singleton] at hc
  rcases hc with (rfl | hc) | rfl
  · exact hopened
  · exact printable_joined h c hc
  · exact hclosed

mutual

theorem printable_compact (j : Json) : ∀ c ∈ compact j, Printable c := by
  cases j with
  | null => simp [compact, Printable]
  | bool b =>
      cases b with
      | true => simp [compact, Printable]
      | false => simp [compact, Printable]
  | int n => rw [compact]; exact printable_int n
  | str s => rw [compact]; exact printable_escaped s
  | arr items =>
      rw [compact]
      exact printable_enclosed (by decide) (by decide) (printable_compactItems items)
  | obj fields =>
      rw [compact]
      exact printable_enclosed (by decide) (by decide) (printable_compactFields fields)

theorem printable_compactItems (items : List Json) :
    ∀ t ∈ compactItems items, ∀ c ∈ t, Printable c := by
  cases items with
  | nil => simp [compactItems]
  | cons v rest =>
      intro t ht
      rw [compactItems, List.mem_cons] at ht
      cases ht with
      | inl ht => rw [ht]; exact printable_compact v
      | inr ht => exact printable_compactItems rest t ht

theorem printable_compactFields (fields : List (String × Json)) :
    ∀ t ∈ compactFields fields, ∀ c ∈ t, Printable c := by
  cases fields with
  | nil => simp [compactFields]
  | cons f rest =>
      intro t ht
      rw [compactFields, List.mem_cons] at ht
      cases ht with
      | inl ht => rw [ht]; exact printable_compactField f
      | inr ht => exact printable_compactFields rest t ht

theorem printable_compactField (f : String × Json) : ∀ c ∈ compactField f, Printable c := by
  cases f with
  | mk name v =>
      intro c hc
      rw [compactField, List.mem_append, List.mem_cons] at hc
      rcases hc with hc | rfl | hc
      · exact printable_escaped name c hc
      · decide
      · exact printable_compact v c hc

end

theorem compactItems_eq (items : List Json) : compactItems items = items.map compact := by
  induction items with
  | nil => rfl
  | cons v rest ih => rw [compactItems, ih, List.map_cons]

theorem compactFields_eq (fields : List (String × Json)) :
    compactFields fields = fields.map compactField := by
  induction fields with
  | nil => rfl
  | cons f rest ih => rw [compactFields, ih, List.map_cons]

/-- An object, seen from one of its fields. -/
theorem compact_obj_around (before after : List (String × Json)) (f : String × Json) :
    compact (.obj (before ++ f :: after)) =
      '\x7b' :: before.flatMap (fun g => compactField g ++ [',']) ++ compactField f ++
        (after.flatMap (fun g => ',' :: compactField g) ++ ['\x7d']) := by
  rw [compact, compactFields_eq, List.map_append, List.map_cons, joined_around, List.flatMap_map,
    List.flatMap_map]
  simp

end Json

namespace Bytes

theorem ofText_eq (t : List Char) : ofText t = t.flatMap String.utf8EncodeChar := by
  rw [ofText, ByteArray.toList, toList_loop]
  simp [String.toUTF8, List.utf8Encode]

theorem ofText_of_ascii {t : List Char} (h : ∀ c ∈ t, c.toNat < 0x80) :
    ofText t = t.map fun c => UInt8.ofNat c.toNat := by
  rw [ofText_eq]
  induction t with
  | nil => rfl
  | cons c rest ih =>
      have hc : String.utf8EncodeChar c = [UInt8.ofNat c.toNat] := by
        have hle : c.val.toNat ≤ 127 := Nat.le_of_lt_succ (h c List.mem_cons_self)
        rw [String.utf8EncodeChar]
        simp only [hle, if_true]
        rfl
      rw [List.flatMap_cons, hc, ih fun d hd => h d (List.mem_cons_of_mem c hd)]
      rfl

end Bytes

theorem Kind.ofName?_name (k : Kind) : Kind.ofName? k.name = some k := by
  cases k <;> decide

theorem Kind.name_injective : Function.Injective Kind.name := by
  intro k k' h
  have same := congrArg Kind.ofName? h
  rwa [ofName?_name, ofName?_name, Option.some.injEq] at same

namespace CheckLog

open FileTree

/-! ### What a line holds -/

def inQuotes (s : String) : Text := Text.quotationMark :: s.toList ++ [Text.quotationMark]

/-- A violation in a line of the log: its kind and the line it was found at. -/
def listed (v : Violation) : Text :=
  '\x7b' :: inQuotes "kind" ++ ':' :: inQuotes v.kind.name ++ ',' :: inQuotes "line" ++
    ':' :: (toString v.position.line).toList ++ ['\x7d']

/-- The violations in a line of the log, in their order. -/
def listing (violations : List Violation) : Text :=
  inQuotes "violations" ++ ':' :: '[' :: [','].intercalate (violations.map listed) ++ [']']

theorem escaped_name (k : Kind) : Json.escaped k.name = inQuotes k.name := by
  cases k <;> decide

theorem compact_violation (v : Violation) :
    Json.compact (.obj [("kind", .str v.kind.name), ("line", .int v.position.line)]) =
      listed v := by
  have hkind : Json.escaped "kind" = inQuotes "kind" := by decide
  have hline : Json.escaped "line" = inQuotes "line" := by decide
  have hnumber : toString (v.position.line : Int) = toString v.position.line := rfl
  simp only [Json.compact, Json.compactFields, Json.compactField, Json.joined, hkind, hline,
    escaped_name, hnumber, listed, List.intercalate_cons_cons, List.intercalate_singleton,
    List.cons_append, List.append_assoc, List.nil_append]

theorem compactField_violations (violations : List Violation) :
    Json.compactField ("violations", .arr (violations.map fun v =>
      .obj [("kind", .str v.kind.name), ("line", .int v.position.line)])) = listing violations := by
  have hname : Json.escaped "violations" = inQuotes "violations" := by decide
  rw [Json.compactField, Json.compact, Json.compactItems_eq, List.map_map, hname, listing,
    Json.joined]
  simp only [Function.comp_def, compact_violation]
  simp

/-- The quotation mark ends the name of a kind, and the brace a number. -/
theorem listed_append_inj {v v' : Violation} {r r' : Text} (h : listed v ++ r = listed v' ++ r') :
    v.kind = v'.kind ∧ v.position.line = v'.position.line ∧ r = r' := by
  have shape (v : Violation) (r : Text) : listed v ++ r =
      ('\x7b' :: inQuotes "kind" ++ [':', Text.quotationMark]) ++
        (v.kind.name.toList ++ Text.quotationMark :: ((',' :: inQuotes "line" ++ [':']) ++
          (v.position.line.repr.toList ++ '\x7d' :: r))) := by
    simp [listed, inQuotes]
  have hname (k : Kind) : Text.quotationMark ∉ k.name.toList := by cases k <;> decide
  have hnumber (n : Nat) : '\x7d' ∉ n.repr.toList := by
    rw [Nat.toList_repr]
    intro hd
    have hdigit := Nat.isDigit_of_mem_toDigits (by decide) (by decide) hd
    cases hdigit
  rw [shape, shape] at h
  obtain ⟨hkind, h⟩ := Text.append_cons_inj (hname _) (hname _) (List.append_cancel_left h)
  obtain ⟨hline, hrest⟩ := Text.append_cons_inj (hnumber _) (hnumber _) (List.append_cancel_left h)
  exact ⟨Kind.name_injective (String.toList_inj.mp hkind),
    Nat.repr_injective (String.toList_inj.mp hline), hrest⟩

theorem later_listed_inj {violations others : List Violation}
    (h : (violations.map listed).flatMap (',' :: ·) ++ [']'] =
      (others.map listed).flatMap (',' :: ·) ++ [']']) :
    violations.map (fun v => (v.kind, v.position.line)) =
      others.map fun v => (v.kind, v.position.line) := by
  induction violations generalizing others with
  | nil =>
      cases others with
      | nil => rfl
      | cons v others => cases h
  | cons v rest ih =>
      cases others with
      | nil => cases h
      | cons v' others =>
          simp only [List.map_cons, List.flatMap_cons, List.cons_append, List.append_assoc,
            List.cons.injEq, true_and] at h
          obtain ⟨hkind, hline, hrest⟩ := listed_append_inj h
          rw [List.map_cons, List.map_cons, hkind, hline, ih hrest]

/-- A listing tells the kinds of its violations, and their lines. -/
theorem listing_inj {violations others : List Violation}
    (h : listing violations = listing others) :
    violations.map (fun v => (v.kind, v.position.line)) =
      others.map fun v => (v.kind, v.position.line) := by
  have shape (vs : List Violation) : listing vs = (inQuotes "violations" ++ [':', '[']) ++
      (Json.joined [','] (vs.map listed) ++ [']']) := by
    simp [listing, Json.joined]
  rw [shape, shape] at h
  have hjoined := List.append_cancel_left h
  cases violations with
  | nil =>
      cases others with
      | nil => rfl
      | cons v others =>
          rw [List.map_cons, Json.joined_cons] at hjoined
          cases hjoined
  | cons v rest =>
      cases others with
      | nil =>
          rw [List.map_cons, Json.joined_cons] at hjoined
          cases hjoined
      | cons v' others =>
          rw [List.map_cons, List.map_cons, Json.joined_cons, Json.joined_cons, List.append_assoc,
            List.append_assoc] at hjoined
          obtain ⟨hkind, hline, hrest⟩ := listed_append_inj hjoined
          rw [List.map_cons, List.map_cons, hkind, hline, later_listed_inj hrest]

def Entry.before (e : Entry) (timestamp : String) : List (String × Json) := [
  ("timestamp", .str timestamp),
  ("event", .str (if e.isFix then "fix" else "check")),
  ("file", .str e.file),
  ("status", .str e.status)]

def Entry.after (e : Entry) : List (String × Json) := [
  ("imports", .int e.imports),
  ("code_hash", .str (codeHash e.source)),
  ("check_ms", .int e.milliseconds)]

theorem toJson_eq (e : Entry) (timestamp : String) :
    e.toJson timestamp = .obj (e.before timestamp ++ ("violations", .arr (e.violations.map fun v =>
      .obj [("kind", .str v.kind.name), ("line", .int v.position.line)])) :: e.after) := rfl

/-- The violations stand in a line as they are listed, and nothing else in it depends on them. -/
theorem line_lists_violations (e : Entry) (timestamp : String) :
    ∃ front back, ∀ violations,
      Entry.line { e with violations } timestamp = front ++ listing violations ++ back := by
  refine ⟨'\x7b' :: (e.before timestamp).flatMap (fun g => Json.compactField g ++ [',']),
    e.after.flatMap (fun g => ',' :: Json.compactField g) ++ ['\x7d'] ++ ['\n'], ?_⟩
  intro violations
  rw [Entry.line, toJson_eq, Json.compact_obj_around, compactField_violations, List.append_assoc]
  rfl

/-- A line is printable up to the newline at its end, and so are its bytes. -/
theorem line_is_ascii (e : Entry) (timestamp : String) :
    ∃ body, e.line timestamp = body ++ ['\n'] ∧ (∀ c ∈ body, Printable c) ∧
      Bytes.ofText (e.line timestamp) = body.map (fun c => UInt8.ofNat c.toNat) ++ [10] := by
  have hbody := Json.printable_compact (e.toJson timestamp)
  refine ⟨(e.toJson timestamp).compact, rfl, hbody, ?_⟩
  rw [Entry.line, Bytes.ofText_of_ascii, List.map_append]
  · rfl
  · intro c hc
    cases List.mem_append.mp hc with
    | inl hc => exact Nat.lt_succ_of_lt (hbody c hc).2
    | inr hc => rw [List.mem_singleton.mp hc]; decide

/-! ### The file of the log -/

theorem checkLog_plain : '/' ∉ Settings.checkLog.toList := by
  decide

theorem checkLog_named :
    Settings.checkLog ≠ "" ∧ Settings.checkLog ≠ "." ∧ Settings.checkLog ≠ ".." := by
  decide

/-- The log stands right below its directory. -/
theorem locate_fileIn_iff {tree : FileTree} {working place : List String} {directory : String}
    (h : directory ≠ "") : tree.locate working (fileIn directory) = .ok place ↔
      ∃ above, Leads tree working directory above ∧ place = above ++ [Settings.checkLog] := by
  rw [fileIn]
  split
  · next hslash =>
      obtain ⟨front, hfront⟩ := String.endsWith_char_iff_exists_append.mp hslash
      have hlist : directory.toList = front.toList ++ ['/'] := by simp [hfront]
      apply locate_below_iff front.toList h
      · simp [hlist]
      · rw [hlist, names_slashes (by simp)]
      · simp
      · exact checkLog_plain
      · exact checkLog_named
  · apply locate_below_iff directory.toList h
    · simp
    · rfl
    · simp [List.append_assoc]
    · exact checkLog_plain
    · exact checkLog_named

/-- A directory can be made, or is there, and the log in it can be written. -/
def Writable (tree : FileTree) (working : List String) (directory : String) (log : List String) :
    Prop :=
  ∃ made, makeDirectories working (directory.length + 1) tree directory = (.ok (), made) ∧
    made.locate working (fileIn directory) = .ok log ∧ made.lookup log ≠ some .directory

theorem Writable.unique {tree : FileTree} {working log log' : List String} {directory : String}
    (h : Writable tree working directory log) (h' : Writable tree working directory log') :
    log = log' := by
  obtain ⟨made, hmade, hplace, -⟩ := h
  obtain ⟨made', hmade', hplace', -⟩ := h'
  cases hmade.symm.trans hmade'
  exact Except.ok.inj (hplace.symm.trans hplace')

def Written (w : World) (directory : String) (log : List String) : Prop :=
  w.tree.locate w.directory (fileIn directory) = .ok log ∧
    ∃ content, w.tree.lookup log = some (.file content)

theorem Written.read_eq {w : World} {directory : String} {log : List String}
    (h : Written w directory log) :
    w.tree.read w.directory (fileIn directory) = .ok (contentAt w.tree log) := by
  obtain ⟨hlog, content, hcontent⟩ := h
  rw [contentAt, hcontent]
  exact read_eq_ok_iff.mpr ⟨log, hlog, hcontent⟩

/-- A log that has been written can be written again, and nothing need be made for it. -/
theorem Written.writable {w : World} {directory : String} {log : List String}
    (h : Written w directory log) (hne : directory ≠ "") :
    Writable w.tree w.directory directory log := by
  obtain ⟨hlog, content, hcontent⟩ := h
  obtain ⟨above, hleads, rfl⟩ := (locate_fileIn_iff hne).mp hlog
  exact ⟨w.tree, makeDirectories_of_leads hleads _, hlog, by simp [hcontent]⟩

theorem written_set {w : World} {directory : String} {log : List String} (h : directory ≠ "")
    (hlog : w.tree.locate w.directory (fileIn directory) = .ok log)
    (hfile : w.tree.lookup log ≠ some .directory) (content : Bytes) :
    Written { w with tree := w.tree.set log (.file content) } directory log := by
  obtain ⟨above, hleads, rfl⟩ := (locate_fileIn_iff h).mp hlog
  have stay : ∀ p, w.tree.lookup p = some .directory →
      lookup (w.tree.set (above ++ [Settings.checkLog]) (.file content)) p = some .directory := by
    intro p hp
    have hne : p ≠ above ++ [Settings.checkLog] := fun heq => hfile (heq ▸ hp)
    rwa [lookup_set_of_ne hne]
  refine ⟨(locate_fileIn_iff h).mpr ⟨above, hleads.of_directories stay, rfl⟩, content, ?_⟩
  exact lookup_set_self (by simp)

/-- A file gets longer, and every other one stays. -/
def Grows (tree tree' : FileTree) (log : List String) (added : Bytes) : Prop :=
  ∀ place, contentAt tree' place = contentAt tree place ++ if place = log then added else []

theorem Grows.nothing {tree tree' : FileTree} (h : ∀ p, contentAt tree' p = contentAt tree p)
    (log : List String) : Grows tree tree' log [] := by
  intro place
  simp [h place]

theorem Grows.trans {tree tree' tree'' : FileTree} {log : List String} {added more : Bytes}
    (h : Grows tree tree' log added) (h' : Grows tree' tree'' log more) :
    Grows tree tree'' log (added ++ more) := by
  intro place
  rw [h' place, h place, List.append_assoc]
  split <;> rfl

theorem grows_set {tree : FileTree} {log : List String} (h : log ≠ []) (added : Bytes) :
    Grows tree (tree.set log (.file (contentAt tree log ++ added))) log added := by
  intro place
  by_cases hplace : place = log
  · rw [if_pos hplace, hplace, contentAt_set_self h]
  · rw [if_neg hplace, List.append_nil, contentAt_of_entry_eq (lookup_set_of_ne hplace)]

/-! ### One call -/

/-- A check to be logged, at some time of day. -/
structure Call where
  directory : String
  entry : Entry
  clock : String

def Call.bytes (c : Call) : Bytes := Bytes.ofText (c.entry.line c.clock)

/-- What a call answers, and the world it leaves. -/
def Call.run (c : Call) (w : World) : Except FileError Unit × World :=
  (append c.directory c.entry : ExceptT FileError (StateM World) Unit).run.run
    { w with clock := c.clock }

theorem Call.run_of_empty {c : Call} (h : c.directory = "") (w : World) :
    c.run w = (.ok (), { w with clock := c.clock }) := by
  rw [Call.run, append, if_neg (by simp [h])]
  rfl

theorem makeDirectories_run {directory : String} {w : World} {done : Except FileError Unit}
    {made : FileTree}
    (h : makeDirectories w.directory (directory.length + 1) w.tree directory = (done, made)) :
    (Host.makeDirectories directory : StateM World (Except FileError Unit)).run w =
      (done, { w with tree := made }) := by
  simp only [Host.makeDirectories, StateT.run_bind, StateT.run_get, pure_bind, h]
  rfl

theorem appendFile_run (path : String) (content : Bytes) (w : World) :
    (Host.appendFile path content : StateM World (Except FileError Unit)).run w =
      (World.change path fun w => w.tree.update w.directory path (· ++ content)).run w := rfl

theorem Call.run_of_unmade {c : Call} {w : World} {e : FileError} {made : FileTree}
    (h : c.directory ≠ "")
    (hmade : makeDirectories w.directory (c.directory.length + 1) w.tree c.directory =
      (.error e, made)) :
    c.run w = (.error e, { w with clock := c.clock, tree := made }) := by
  rw [Call.run, append, if_pos (by simp [h])]
  exact Command.Runs.bind_error (makeDirectories_run hmade)

/-- With its directory made, a call comes to writing the file. -/
theorem Call.run_of_made {c : Call} {w : World} {made : FileTree} (h : c.directory ≠ "")
    (hmade : makeDirectories w.directory (c.directory.length + 1) w.tree c.directory =
      (.ok (), made)) :
    c.run w = (Host.appendFile (fileIn c.directory) c.bytes : StateM World _).run
      { w with clock := c.clock, tree := made } := by
  rw [Call.run, append, if_pos (by simp [h])]
  have hrun : Command.Runs (ExceptT.mk (Host.makeDirectories c.directory) :
      ExceptT FileError (StateM World) Unit) { w with clock := c.clock } (.ok ())
      { w with clock := c.clock, tree := made } := makeDirectories_run hmade
  apply Command.Runs.bind hrun
  rfl

/-- Where the log can be written, a call adds its line to it. -/
theorem Call.run_of_writable {c : Call} {w : World} {log : List String} (h : c.directory ≠ "")
    (hlog : Writable w.tree w.directory c.directory log) :
    ∃ w', c.run w = (.ok (), w') ∧ Written w' c.directory log ∧
      Grows w.tree w'.tree log c.bytes := by
  obtain ⟨made, hmade, hplace, hfile⟩ := hlog
  refine ⟨{ w with clock := c.clock, tree := made.set log (.file (contentAt made log ++ c.bytes)) },
    ?_, ?_, ?_⟩
  · rw [Call.run_of_made h hmade, appendFile_run]
    exact Command.change_of_ok (update_eq hplace hfile (· ++ c.bytes))
  · exact written_set (w := { w with clock := c.clock, tree := made }) h hplace hfile _
  · have hkept : Grows w.tree made log [] := by
      apply Grows.nothing
      intro p
      have hcontent :=
        contentAt_makeDirectories w.directory (c.directory.length + 1) w.tree c.directory p
      rwa [hmade] at hcontent
    have hnamed : log ≠ [] := by
      rintro rfl
      exact hfile rfl
    exact hkept.trans (grows_set hnamed c.bytes)

/-- Where it cannot, a call fails and changes no file. -/
theorem Call.run_of_unwritable {c : Call} {w : World} (h : c.directory ≠ "")
    (hlog : ∀ log, ¬ Writable w.tree w.directory c.directory log) :
    ∃ e w', c.run w = (.error e, w') ∧ ∀ p, contentAt w'.tree p = contentAt w.tree p := by
  have hcontent :=
    contentAt_makeDirectories w.directory (c.directory.length + 1) w.tree c.directory
  cases hmade : makeDirectories w.directory (c.directory.length + 1) w.tree c.directory with
  | mk done made =>
      rw [hmade] at hcontent
      cases done with
      | error e => exact ⟨e, _, Call.run_of_unmade h hmade, hcontent⟩
      | ok =>
          have hupdate : ∃ fault, made.update w.directory (fileIn c.directory) (· ++ c.bytes) =
              .error fault := by
            cases hplace : made.locate w.directory (fileIn c.directory) with
            | error fault => exact ⟨fault, by simp [update, hplace, bind, Except.bind]⟩
            | ok log =>
                by_cases hentry : made.lookup log = some .directory
                · exact ⟨.isDirectory, by simp [update, hplace, hentry, bind, Except.bind, throw,
                    throwThe, MonadExceptOf.throw]⟩
                · exact absurd ⟨made, hmade, hplace, hentry⟩ (hlog log)
          obtain ⟨fault, hfault⟩ := hupdate
          refine ⟨⟨fault, fileIn c.directory⟩, { w with clock := c.clock, tree := made }, ?_,
            hcontent⟩
          rw [Call.run_of_made h hmade, appendFile_run]
          exact Command.change_of_error hfault

/-! ### Any run of calls -/

/-- What calls answer one after the other, and the world they leave. -/
def runAll : List Call → World → List (Except FileError Unit) × World
  | [], w => ([], w)
  | c :: rest, w =>
      let first := c.run w
      let others := runAll rest first.2
      (first.1 :: others.1, others.2)

theorem runAll_cons {c : Call} {w w' : World} {r : Except FileError Unit} (h : c.run w = (r, w'))
    (rest : List Call) :
    runAll (c :: rest) w = (r :: (runAll rest w').1, (runAll rest w').2) := by
  simp only [runAll, h]

/-- The calls that wrote to the log: they had a directory, and did not fail. -/
def logged (calls : List Call) (w : World) : List Call :=
  ((calls.zip (runAll calls w).1).filter fun x => x.1.directory != "" && x.2.isOk).map (·.1)

theorem logged_cons {c : Call} {w w' : World} {r : Except FileError Unit} (h : c.run w = (r, w'))
    (rest : List Call) : logged (c :: rest) w =
      (if c.directory != "" && r.isOk then [c] else []) ++ logged rest w' := by
  rw [logged, runAll_cons h, List.zip_cons_cons, List.filter_cons, logged]
  split <;> rfl

theorem logged_of_ok {calls : List Call} {w : World}
    (h : (runAll calls w).1 = calls.map fun _ => .ok ()) :
    logged calls w = calls.filter (·.directory != "") := by
  rw [logged, h]
  clear h
  induction calls with
  | nil => rfl
  | cons c rest ih =>
      rw [List.map_cons, List.zip_cons_cons, List.filter_cons, List.filter_cons, ← ih]
      simp only [Except.isOk, Except.toBool, Bool.and_true]
      split <;> rfl

section Run

variable {directory : String} {calls : List Call} {w w' : World} {log : List String} {c : Call}

/-- What a run comes to: the lines of the calls that wrote are behind what the log held, no other
file has changed, and the log is there once it has been written. -/
structure Logs (directory : String) (calls : List Call) (w : World) (log : List String) :
    Prop where
  grows : Grows w.tree (runAll calls w).2.tree log ((logged calls w).flatMap Call.bytes)
  written : Written w directory log ∨ logged calls w ≠ [] →
    Written (runAll calls w).2 directory log

theorem Logs.nil : Logs directory [] w log := by
  refine ⟨Grows.nothing (fun _ => rfl) log, ?_⟩
  intro h
  exact h.resolve_right (absurd rfl)

theorem Logs.cons_empty (hc : c.directory = "")
    (h : Logs directory calls { w with clock := c.clock } log) :
    Logs directory (c :: calls) w log := by
  have hrun := Call.run_of_empty hc w
  have hlogged : logged (c :: calls) w = logged calls { w with clock := c.clock } := by
    rw [logged_cons hrun, if_neg (by simp [hc]), List.nil_append]
  constructor
  · rw [hlogged, runAll_cons hrun]
    exact h.grows
  · rw [hlogged, runAll_cons hrun]
    exact h.written

theorem Logs.cons_logged (hc : c.directory ≠ "") (hrun : c.run w = (.ok (), w'))
    (hwritten : Written w' directory log) (hgrows : Grows w.tree w'.tree log c.bytes)
    (h : Logs directory calls w' log) : Logs directory (c :: calls) w log := by
  have hlogged : logged (c :: calls) w = c :: logged calls w' := by
    rw [logged_cons hrun, if_pos (by simp [hc, Except.isOk, Except.toBool]), List.singleton_append]
  constructor
  · rw [hlogged, runAll_cons hrun, List.flatMap_cons]
    exact hgrows.trans h.grows
  · rw [runAll_cons hrun]
    exact fun _ => h.written (.inl hwritten)

theorem Logs.cons_failed {e : FileError} (hrun : c.run w = (.error e, w'))
    (hkept : ∀ p, contentAt w'.tree p = contentAt w.tree p) (hnot : ¬ Written w directory log)
    (h : Logs directory calls w' log) : Logs directory (c :: calls) w log := by
  have hlogged : logged (c :: calls) w = logged calls w' := by
    rw [logged_cons hrun, if_neg (by simp [Except.isOk, Except.toBool]), List.nil_append]
  constructor
  · rw [hlogged, runAll_cons hrun]
    exact (Grows.nothing hkept log).trans h.grows
  · rw [hlogged, runAll_cons hrun]
    exact fun hlog => h.written (.inr (hlog.resolve_left hnot))

/-- Once the log can be written, no call fails. -/
theorem logs_of_writable (hcalls : ∀ c ∈ calls, c.directory = directory ∨ c.directory = "")
    (hlog : Writable w.tree w.directory directory log) :
    (runAll calls w).1 = calls.map (fun _ => .ok ()) ∧ Logs directory calls w log := by
  induction calls generalizing w with
  | nil => exact ⟨rfl, Logs.nil⟩
  | cons c rest ih =>
      rw [List.forall_mem_cons] at hcalls
      by_cases hempty : c.directory = ""
      · obtain ⟨hanswers, hlogs⟩ := ih (w := { w with clock := c.clock }) hcalls.2 hlog
        rw [runAll_cons (Call.run_of_empty hempty w), hanswers]
        exact ⟨rfl, hlogs.cons_empty hempty⟩
      · cases hcalls.1.resolve_right hempty
        obtain ⟨w', hrun, hwritten, hgrows⟩ := Call.run_of_writable hempty hlog
        obtain ⟨hanswers, hlogs⟩ := ih hcalls.2 (hwritten.writable hempty)
        rw [runAll_cons hrun, hanswers]
        exact ⟨rfl, hlogs.cons_logged hempty hrun hwritten hgrows⟩

/-- Calls that fail leave a log of the others. -/
theorem exists_logs (w : World)
    (hcalls : ∀ c ∈ calls, c.directory = directory ∨ c.directory = "") :
    ∃ log, Logs directory calls w log := by
  induction calls generalizing w with
  | nil => exact ⟨[], Logs.nil⟩
  | cons c rest ih =>
      by_cases hlog : ∃ log, Writable w.tree w.directory directory log
      · obtain ⟨log, hlog⟩ := hlog
        exact ⟨log, (logs_of_writable hcalls hlog).2⟩
      · rw [List.forall_mem_cons] at hcalls
        by_cases hempty : c.directory = ""
        · obtain ⟨log, hlogs⟩ := ih { w with clock := c.clock } hcalls.2
          exact ⟨log, hlogs.cons_empty hempty⟩
        · cases hcalls.1.resolve_right hempty
          obtain ⟨e, w', hrun, hkept⟩ := Call.run_of_unwritable hempty (not_exists.mp hlog)
          obtain ⟨log, hlogs⟩ := ih w' hcalls.2
          exact ⟨log, hlogs.cons_failed hrun hkept fun h => hlog ⟨log, h.writable hempty⟩⟩

end Run

/-- Over any run of calls into one directory, the log is what it was with a line behind it for each
call that wrote, in their order, and every other file stays. If the log can be written at the start,
no call fails, and all but those without a directory wrote. Each line is printable ASCII up to the
newline at its end, and has the violations in their order, with their kinds and lines. -/
theorem log_is_one_line_per_call (directory : String) (calls : List Call) (w : World)
    (hcalls : ∀ c ∈ calls, c.directory = directory ∨ c.directory = "") :
    (∃ log,
      Grows w.tree (runAll calls w).2.tree log ((logged calls w).flatMap Call.bytes) ∧
      (logged calls w ≠ [] →
        (runAll calls w).2.tree.read (runAll calls w).2.directory (fileIn directory) =
          .ok (contentAt w.tree log ++ (logged calls w).flatMap Call.bytes)) ∧
      ∀ place, Writable w.tree w.directory directory place →
        log = place ∧ (runAll calls w).1 = calls.map (fun _ => .ok ()) ∧
          logged calls w = calls.filter (·.directory != "")) ∧
    (∀ c ∈ calls,
      (∃ body, c.entry.line c.clock = body ++ ['\n'] ∧ (∀ x ∈ body, Printable x) ∧
        c.bytes = body.map (fun x => UInt8.ofNat x.toNat) ++ [10]) ∧
      ∃ front back, ∀ violations,
        Entry.line { c.entry with violations } c.clock = front ++ listing violations ++ back) ∧
    ∀ violations others, listing violations = listing others →
      violations.map (fun v => (v.kind, v.position.line)) =
        others.map fun v => (v.kind, v.position.line) := by
  refine ⟨?_, fun c _ => ⟨line_is_ascii c.entry c.clock, line_lists_violations c.entry c.clock⟩,
    fun _ _ => listing_inj⟩
  have hread : ∀ log, Logs directory calls w log → logged calls w ≠ [] →
      (runAll calls w).2.tree.read (runAll calls w).2.directory (fileIn directory) =
        .ok (contentAt w.tree log ++ (logged calls w).flatMap Call.bytes) := by
    intro log hlogs hsome
    rw [(hlogs.written (.inr hsome)).read_eq, hlogs.grows log, if_pos rfl]
  by_cases hlog : ∃ log, Writable w.tree w.directory directory log
  · obtain ⟨log, hlog⟩ := hlog
    obtain ⟨hanswers, hlogs⟩ := logs_of_writable hcalls hlog
    refine ⟨log, hlogs.grows, hread log hlogs, ?_⟩
    intro place hplace
    exact ⟨hlog.unique hplace, hanswers, logged_of_ok hanswers⟩
  · obtain ⟨log, hlogs⟩ := exists_logs w hcalls
    exact ⟨log, hlogs.grows, hread log hlogs, fun place hplace => absurd ⟨place, hplace⟩ hlog⟩

/-- The third line of a file lacks an empty line above it. -/
def crowded : Violation :=
  ⟨1, ⟨"b", "import b".toList, [], ⟨3, 1⟩, ⟨3, 9⟩, ⟨11, 19⟩⟩, .missingBlankLine, []⟩

/-- Two checks of files with odd names, and one that is not logged. -/
def Call.oddNames : List Call := [
  ⟨"new/logs", ⟨"a\nb", "passed", [], 1, [], 7, false⟩, "10:00"⟩,
  ⟨"", ⟨"c", "passed", [], 0, [], 7, false⟩, "10:01"⟩,
  ⟨"new/logs", ⟨"\x00😀", "failed", [crowded], 2, ['\r'], 7, true⟩, "10:02"⟩]

theorem writable_oddNames : Writable {} [] "new/logs" ["new", "logs", Settings.checkLog] := by
  have hmade : (makeDirectories [] ("new/logs".length + 1) {} "new/logs").1 = .ok () := by
    decide +kernel
  exact ⟨_, Prod.ext hmade rfl, by decide +kernel, by decide +kernel⟩

theorem log_is_one_line_per_call_oddNames :
    (∀ c ∈ Call.oddNames, c.directory = "new/logs" ∨ c.directory = "") ∧
      (runAll Call.oddNames {}).2.tree.read (runAll Call.oddNames {}).2.directory
        (fileIn "new/logs") = .ok (Call.oddNames[0].bytes ++ Call.oddNames[2].bytes) ∧
      ∃ front back, Call.oddNames[2].entry.line "10:02" = front ++
        "\"violations\":[\x7b\"kind\":\"missing-blank-line\",\"line\":3\x7d]".toList ++ back := by
  have hcalls : ∀ c ∈ Call.oddNames, c.directory = "new/logs" ∨ c.directory = "" := by
    simp [Call.oddNames]
  obtain ⟨⟨log, -, hread, hlog⟩, hlines, -⟩ :=
    log_is_one_line_per_call "new/logs" Call.oddNames {} hcalls
  obtain ⟨rfl, -, hlogged⟩ := hlog _ writable_oddNames
  have hwrote : logged Call.oddNames {} = [Call.oddNames[0], Call.oddNames[2]] := hlogged
  have hnew : contentAt {} ["new", "logs", Settings.checkLog] = [] := rfl
  rw [hwrote, hnew, List.nil_append, List.flatMap_cons, List.flatMap_singleton] at hread
  obtain ⟨-, front, back, hline⟩ := hlines Call.oddNames[2] (List.getElem_mem _)
  have hlisting : listing [crowded] =
      "\"violations\":[\x7b\"kind\":\"missing-blank-line\",\"line\":3\x7d]".toList := by decide
  exact ⟨hcalls, hread (by simp), front, back, hlisting ▸ hline [crowded]⟩

end CheckLog

end ImportOrder
