/-
  What reading and writing do to a folder.

  1. **One place** — `put` changes the file at one place and nothing else.

  2. **Finding** — `find` is the place that a path names.  Only directories are passed on the way,
     so a path names the same place as long as the directories stay (`find_mono`).

  3. **Reading** — a stream that is read loses its bytes, and nothing else changes (`OnlyRead`).

  4. **Writing** — a text goes to the place that its path names (`exists_of_write`).  An ordinary
     file keeps it, so that it is read back (`read_of_write`).

  5. **A folder from its files** — a file that is added stands where its path leads, and no other
     file is touched (`file?_addFile`).
-/
import Acceptor.Files.Folder

namespace Acceptor.Folder

variable {f f' : Folder} {p q : Place} {file : File} {path text : String}

/-- What succeeds with something succeeds in both of its parts. -/
theorem exists_of_bind_eq_ok {α β : Type} {x : Except SystemFault α}
    {g : α → Except SystemFault β} {b : β} (h : x >>= g = .ok b) :
    ∃ a, x = .ok a ∧ g a = .ok b := by
  cases x with
  | error fault => cases h
  | ok a => exact ⟨a, rfl, h⟩

/-! ## One place -/

theorem lookup_map_put (files : List (Place × File)) :
    (files.map fun (r, old) => (r, if r = p then file else old)).lookup q =
      if q = p then (files.lookup q).map fun _ => file else files.lookup q := by
  induction files with
  | nil => split <;> rfl
  | cons entry files ih =>
    obtain ⟨r, old⟩ := entry
    rw [List.map_cons, List.lookup_cons, List.lookup_cons, ih]
    by_cases hr : q = r
    · subst hr
      by_cases hp : q = p
      · simp [hp]
      · simp [hp]
    · simp [beq_false_of_ne hr]

theorem file?_put (f : Folder) (p : Place) (file : File) (q : Place) :
    (f.put p file).file? q = if q = p then some file else f.file? q := by
  cases hold : f.file? p with
  | some old =>
    rw [put, if_pos (by rw [hold]; rfl)]
    show List.lookup q (f.files.map _) = _
    rw [lookup_map_put]
    by_cases hq : q = p
    · subst hq
      rw [if_pos rfl, if_pos rfl, show f.files.lookup q = some old from hold]
      rfl
    · rw [if_neg hq, if_neg hq]
      rfl
  | none =>
    rw [put, if_neg (by rw [hold]; exact Bool.false_ne_true)]
    show List.lookup q (f.files ++ [(p, file)]) = _
    rw [List.lookup_append]
    by_cases hq : q = p
    · subst hq
      rw [if_pos rfl, show f.files.lookup q = none from hold]
      simp
    · rw [if_neg hq, List.lookup_cons, beq_false_of_ne hq, List.lookup_nil, Option.or_none]
      rfl

@[simp] theorem directories_put (f : Folder) (p : Place) (file : File) :
    (f.put p file).directories = f.directories := by
  rw [put]
  split <;> rfl

theorem contentAt_eq_file_iff : f.contentAt p = .file file ↔ f.file? p = some file := by
  rw [contentAt]
  cases f.file? p with
  | some other => simp
  | none => by_cases hdir : p ∈ f.directories <;> simp [hdir]

theorem contentAt_eq_directory_iff :
    f.contentAt p = .directory ↔ f.file? p = none ∧ p ∈ f.directories := by
  rw [contentAt]
  cases f.file? p with
  | some file => simp
  | none => simp

/-! ## Finding -/

/-- The place that a path names. -/
def find (f : Folder) (path : String) : Except SystemFault Place := do
  Place.checkPath path
  f.walk path (Place.segments path)

theorem read_eq_find_take (f : Folder) (path : String) :
    f.read path = f.find path >>= f.take := by
  rw [read, find, bind_assoc]

theorem requireDirectory_eq_ok_iff :
    f.requireDirectory p = .ok () ↔ f.contentAt p = .directory := by
  rw [requireDirectory]
  cases f.contentAt p <;> simp

theorem enter_mono (hdir : ∀ r, f.contentAt r = .directory → f'.contentAt r = .directory)
    {segment : String} (h : f.enter p segment = .ok q) : f'.enter p segment = .ok q := by
  obtain ⟨⟨⟩, hp, hname⟩ := exists_of_bind_eq_ok h
  have hp' : f'.requireDirectory p = .ok () :=
    requireDirectory_eq_ok_iff.2 (hdir p (requireDirectory_eq_ok_iff.1 hp))
  rw [enter, hp']
  exact hname

/-- What is passed on the way is a directory, so the way stays open as long as the directories
    stay.  Induction on the segments. -/
theorem walk_mono (hdir : ∀ r, f.contentAt r = .directory → f'.contentAt r = .directory)
    {segments : List String} (h : segments.foldlM f.enter p = .ok q) :
    segments.foldlM f'.enter p = .ok q := by
  induction segments generalizing p with
  | nil => exact h
  | cons segment segments ih =>
    rw [List.foldlM_cons] at h
    obtain ⟨r, hr, hrest⟩ := exists_of_bind_eq_ok h
    rw [List.foldlM_cons, enter_mono hdir hr]
    exact ih hrest

theorem find_mono (hdir : ∀ r, f.contentAt r = .directory → f'.contentAt r = .directory)
    (h : f.find path = .ok p) : f'.find path = .ok p := by
  obtain ⟨⟨⟩, hcheck, hwalk⟩ := exists_of_bind_eq_ok h
  rw [find, hcheck]
  exact walk_mono hdir hwalk

/-! ## Reading -/

/-- The file at a place is what it was, unless it is a stream that was read. -/
def Keeps (f f' : Folder) (p : Place) : Prop :=
  f'.file? p = f.file? p ∨
    ∃ bytes, f.file? p = some ⟨bytes, .pipe⟩ ∧ f'.file? p = some ⟨.empty, .pipe⟩

/-- Nothing happened to a folder but that files were read. -/
structure OnlyRead (f f' : Folder) : Prop where
  directories : f'.directories = f.directories
  keeps : ∀ p, Keeps f f' p

theorem OnlyRead.refl (f : Folder) : OnlyRead f f := ⟨rfl, fun _ => .inl rfl⟩

theorem OnlyRead.trans {f'' : Folder} (h : OnlyRead f f') (h' : OnlyRead f' f'') :
    OnlyRead f f'' where
  directories := h'.directories.trans h.directories
  keeps p := by
    rcases h.keeps p with heq | ⟨bytes, hbytes, hempty⟩
    · rcases h'.keeps p with heq' | ⟨bytes, hbytes, hempty⟩
      · exact .inl (heq'.trans heq)
      · exact .inr ⟨bytes, heq ▸ hbytes, hempty⟩
    · rcases h'.keeps p with heq' | ⟨-, -, hempty'⟩
      · exact .inr ⟨bytes, hbytes, heq'.trans hempty⟩
      · exact .inr ⟨bytes, hbytes, hempty'⟩

/-- A place holds a file after reading as it did before. -/
theorem OnlyRead.file?_eq_none_iff (h : OnlyRead f f') : f'.file? p = none ↔ f.file? p = none := by
  rcases h.keeps p with heq | ⟨bytes, hbytes, hempty⟩
  · rw [heq]
  · rw [hbytes, hempty]
    simp

theorem OnlyRead.contentAt_eq_directory_iff (h : OnlyRead f f') :
    f'.contentAt p = .directory ↔ f.contentAt p = .directory := by
  rw [Folder.contentAt_eq_directory_iff, Folder.contentAt_eq_directory_iff, h.file?_eq_none_iff,
    h.directories]

theorem OnlyRead.find_iff (h : OnlyRead f f') : f'.find path = .ok p ↔ f.find path = .ok p :=
  ⟨find_mono fun _ => h.contentAt_eq_directory_iff.1,
    find_mono fun _ => h.contentAt_eq_directory_iff.2⟩

/-- An empty stream is empty after reading too. -/
theorem OnlyRead.file?_empty (h : OnlyRead f f') (hp : f.file? p = some ⟨.empty, .pipe⟩) :
    f'.file? p = some ⟨.empty, .pipe⟩ := by
  rcases h.keeps p with heq | ⟨-, -, hempty⟩
  · rw [heq, hp]
  · exact hempty

theorem bytesAt_of_empty {kind : FileKind} (h : f.file? p = some ⟨.empty, kind⟩) :
    f.bytesAt p = .empty := by
  rw [bytesAt, h]
  rfl

/-- A file that is read stays as it is, but a stream loses its bytes. -/
theorem eq_or_of_reading {new : File} {bytes : ByteArray} (h : file.reading = .ok (bytes, new)) :
    new = file ∨ file.kind = .pipe ∧ new = ⟨.empty, .pipe⟩ := by
  obtain ⟨old, kind⟩ := file
  cases kind <;> cases h
  case pipe => exact .inr ⟨rfl, rfl⟩
  all_goals exact .inl rfl

theorem onlyRead_of_take {bytes : ByteArray} (h : f.take p = .ok (bytes, f')) : OnlyRead f f' := by
  rw [take] at h
  split at h
  case h_2 | h_3 => cases h
  rename_i file hcontent
  have hold : f.file? p = some file := contentAt_eq_file_iff.1 hcontent
  obtain ⟨⟨bytes, new⟩, hreading, hput⟩ := exists_of_bind_eq_ok h
  cases hput
  refine ⟨directories_put f p new, fun q => ?_⟩
  rw [Keeps, file?_put]
  by_cases hq : q = p
  · subst hq
    rw [if_pos rfl, hold]
    rcases eq_or_of_reading hreading with rfl | ⟨hkind, rfl⟩
    · exact .inl rfl
    · exact .inr ⟨file.bytes, by rw [← hkind], rfl⟩
  · rw [if_neg hq]
    exact .inl rfl

theorem onlyRead_of_read {bytes : ByteArray} (h : f.read path = .ok (bytes, f')) :
    OnlyRead f f' := by
  rw [read_eq_find_take] at h
  obtain ⟨p, -, htake⟩ := exists_of_bind_eq_ok h
  exact onlyRead_of_take htake

/-! ## Writing -/

/-- The last segment leads on from the directory that the others lead to. -/
theorem find_of_last {front : List String} {last : String} (hcheck : Place.checkPath path = .ok ())
    (hpath : Place.segments path = front ++ [last]) (hfront : f.walk path front = .ok p)
    (hlast : f.enter p last = .ok q) : f.find path = .ok q := by
  rw [find, hcheck]
  show f.walk path (Place.segments path) = _
  rw [hpath, walk, List.foldlM_append]
  show f.walk path front >>= _ = _
  rw [hfront]
  show List.foldlM f.enter p [last] = _
  rw [List.foldlM_cons, hlast]
  rfl

/-- A text goes to the place that its path names. -/
theorem exists_of_write (h : f.write path text = .ok f') :
    ∃ p old new, f.find path = .ok p ∧ f.target p = .ok old ∧
      old.writing text.toUTF8 = .ok new ∧ f' = f.put p new := by
  rw [write] at h
  obtain ⟨⟨⟩, hcheck, h⟩ := exists_of_bind_eq_ok h
  dsimp only at h
  split at h
  case h_1 => cases h
  rename_i last hlast
  obtain ⟨parent, hparent, h⟩ := exists_of_bind_eq_ok h
  obtain ⟨⟨⟩, -, h⟩ := exists_of_bind_eq_ok h
  split at h
  case isTrue => cases h
  rename_i hnamed
  obtain ⟨place, hplace, h⟩ := exists_of_bind_eq_ok h
  obtain ⟨old, htarget, h⟩ := exists_of_bind_eq_ok h
  obtain ⟨new, hwriting, h⟩ := exists_of_bind_eq_ok h
  cases h
  -- no slash stands at the end, so the directory and the name are the whole path
  simp only [Bool.or_eq_true, decide_eq_true_eq, not_or, ne_eq, Decidable.not_not] at hnamed
  obtain ⟨⟨hall, -⟩, -⟩ := hnamed
  rw [hall] at hlast hparent
  obtain ⟨front, hfront⟩ := List.getLast?_eq_some_iff.1 hlast
  rw [hfront, List.dropLast_concat] at hparent
  exact ⟨place, old, new, find_of_last hcheck hfront hparent hplace, htarget, hwriting, rfl⟩

/-- Where a text can be written, there is no directory. -/
theorem contentAt_ne_directory_of_target {old : File} (h : f.target p = .ok old) :
    f.contentAt p ≠ .directory := by
  intro hdir
  rw [target, hdir] at h
  cases h

/-- An ordinary file stands at a place, or none. -/
def IsOrdinary (f : Folder) (p : Place) : Prop :=
  ∀ file, f.file? p = some file → file.kind = .regular

theorem OnlyRead.isOrdinary (h : OnlyRead f f') (hp : f.IsOrdinary p) : f'.IsOrdinary p := by
  intro file hfile
  rcases h.keeps p with heq | ⟨bytes, hbytes, -⟩
  · exact hp file (heq ▸ hfile)
  · exact absurd (hp _ hbytes) (by simp)

/-- What is written to an ordinary file replaces its bytes. -/
theorem eq_of_writing {old new : File} {bytes : ByteArray} (hp : f.IsOrdinary p)
    (htarget : f.target p = .ok old) (h : old.writing bytes = .ok new) :
    new = ⟨bytes, .regular⟩ := by
  have hkind : old.kind = .regular := by
    rw [target] at htarget
    split at htarget
    case h_1 file hcontent =>
      cases htarget
      exact hp _ (contentAt_eq_file_iff.1 hcontent)
    case h_4 =>
      cases htarget
      rfl
    all_goals cases htarget
  rw [File.writing, hkind] at h
  cases h
  rfl

/-- A path names the same place after a file was put where it can be written. -/
theorem find_put {old : File} (htarget : f.target p = .ok old) (file : File)
    (h : f.find path = .ok q) : (f.put p file).find path = .ok q := by
  refine find_mono (fun r hr => ?_) h
  have hne : r ≠ p := by
    rintro rfl
    exact contentAt_ne_directory_of_target htarget hr
  rw [contentAt_eq_directory_iff] at hr ⊢
  rw [file?_put, if_neg hne, directories_put]
  exact hr

/-- A text that was written to an ordinary file is read back. -/
theorem read_of_write (h : f.write path text = .ok f') (hfind : f.find path = .ok p)
    (hp : f.IsOrdinary p) : ∃ f'', f'.read path = .ok (text.toUTF8, f'') := by
  obtain ⟨p', old, new, hfind', htarget, hwriting, rfl⟩ := exists_of_write h
  obtain rfl : p = p' := Except.ok.inj (hfind.symm.trans hfind')
  obtain rfl := eq_of_writing hp htarget hwriting
  have hcontent : (f.put p ⟨text.toUTF8, .regular⟩).contentAt p =
      .file ⟨text.toUTF8, .regular⟩ := by
    rw [contentAt_eq_file_iff, file?_put, if_pos rfl]
  rw [read_eq_find_take, find_put htarget _ hfind]
  show ∃ f'', (f.put p ⟨text.toUTF8, .regular⟩).take p = .ok (text.toUTF8, f'')
  rw [take, hcontent]
  exact ⟨_, rfl⟩

/-! ## A folder from its files -/

/-- Where a path leads if every name on the way is that of a directory. -/
def destination (path : String) : Place :=
  (Place.segments path).foldl Place.into (Place.origin path)

theorem file?_addDirectory (f : Folder) (p q : Place) :
    (f.addDirectory p).file? q = f.file? q := by
  rw [addDirectory]
  split <;> rfl

theorem file?_foldl_addDirectory (f : Folder) (places : List Place) (q : Place) :
    (places.foldl addDirectory f).file? q = f.file? q := by
  induction places generalizing f with
  | nil => rfl
  | cons p places ih => rw [List.foldl_cons, ih, file?_addDirectory]

theorem file?_addFile (f : Folder) (path : String) (bytes : ByteArray) (q : Place) :
    (f.addFile path bytes).file? q =
      if q = destination path then some ⟨bytes, .regular⟩ else f.file? q := by
  rw [addFile, file?_put, file?_foldl_addDirectory]
  rfl

end Acceptor.Folder
