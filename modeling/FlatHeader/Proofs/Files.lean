import FlatHeader.Files.Host
import FlatHeader.Proofs.Lines

/-!
# Writing to files

A path that can be written to leads to a name in a directory (`FileSystem.WritesTo`). Writing
changes what is there and nothing else, and no directory on the way, so the path still leads there
and the text is read back: `Host.wrote_of_writeText`.
-/

namespace FlatHeader

open Text

namespace FileSystem

variable {s : FileSystem} {path contents : Text} {place start directory : Place} {name : Text}

/-! ## Entries -/

theorem entry?_nil (s : FileSystem) : s.entry? [] = some .directory := rfl

/-- One entry is put in the place of another, and all others are kept. -/
theorem entry?_put (s : FileSystem) (place other : Place) (e : Entry) :
    entry? (s.put place e) other =
      if other = [] then some .directory
      else if place = other then some e else s.entry? other := by
  unfold entry? put
  split
  · rfl
  · by_cases hplace : place = other
    · rw [if_pos hplace, List.find?_cons_of_pos (by simpa using hplace)]
      rfl
    · rw [if_neg hplace, List.find?_cons_of_neg (by simpa using hplace), List.find?_filter]
      -- what is filtered out is at `place`, not at `other`
      have hkept : (fun a : Place × Entry => decide (a.1 != place ∧ a.1 == other)) =
          fun a => a.1 == other := by
        funext a
        by_cases ha : a.1 = other
        · simp [ha, Ne.symm hplace]
        · simp [ha]
      simp only [hkept]

/-- What stays where it is if a file is put at a place without a directory: the directories. -/
theorem entry?_put_of_directory (hplace : s.entry? place ≠ some .directory)
    (h : s.entry? directory = some .directory) (c : Option Text) :
    entry? (s.put place (.file c)) directory = some .directory := by
  have hne : place ≠ directory := fun heq => hplace (heq ▸ h)
  rw [entry?_put, if_neg hne, h, ite_self]

/-! ## Where paths lead -/

theorem enter_put (hplace : s.entry? place ≠ some .directory)
    (h : s.enter start name = .ok directory) (c : Option Text) :
    (s.put place (.file c)).enter start name = .ok directory := by
  unfold enter at h ⊢
  split
  · next hstay => rwa [if_pos hstay] at h
  · next hstay =>
    rw [if_neg hstay] at h
    split
    · next hup => rwa [if_pos hup] at h
    · next hup =>
      rw [if_neg hup] at h
      split
      · next hsize => rwa [if_pos hsize] at h
      · next hsize =>
        rw [if_neg hsize] at h
        split at h
        · next hentry => rw [entry?_put_of_directory hplace hentry]; exact h
        · exact absurd h (by simp)
        · exact absurd h (by simp)

theorem foldlM_enter_put (hplace : s.entry? place ≠ some .directory) {names : List Text}
    (h : names.foldlM s.enter start = .ok directory) (c : Option Text) :
    names.foldlM (s.put place (.file c)).enter start = .ok directory := by
  induction names generalizing start with
  | nil => exact h
  | cons name rest ih =>
    rw [List.foldlM_cons] at h ⊢
    cases henter : s.enter start name with
    | error e =>
      rw [henter] at h
      exact absurd h (by simp [bind, Except.bind])
    | ok next =>
      rw [henter] at h
      rw [enter_put hplace henter]
      exact ih h

/-- A path is looked at name by name, but for the last one. -/
theorem locate_eq_ok_iff : s.locate path = .ok (directory, name) ↔
    path ≠ [] ∧ byteSize path < pathSizeLimit ∧
      (splitOn '/' path).dropLast.foldlM s.enter (s.startOf path) = .ok directory ∧
      (splitOn '/' path).getLastD [] = name := by
  unfold locate
  by_cases hnil : path = []
  · rw [if_pos hnil]
    exact iff_of_false (by simp) fun h => h.1 hnil
  · by_cases hsize : pathSizeLimit ≤ byteSize path
    · rw [if_neg hnil, if_pos hsize]
      exact iff_of_false (by simp) fun h => absurd hsize (Nat.not_le_of_lt h.2.1)
    · rw [if_neg hnil, if_neg hsize]
      have hlt := Nat.lt_of_not_le hsize
      cases (splitOn '/' path).dropLast.foldlM s.enter (s.startOf path) with
      | error e => simp [Except.map]
      | ok d => simp [Except.map, hnil, hlt]

/-- A path still leads to its last name in the same directory. -/
theorem locate_put (hplace : s.entry? place ≠ some .directory)
    (h : s.locate path = .ok (directory, name)) (c : Option Text) :
    (s.put place (.file c)).locate path = .ok (directory, name) := by
  obtain ⟨hne, hsize, hnames, hlast⟩ := locate_eq_ok_iff.1 h
  exact locate_eq_ok_iff.2 ⟨hne, hsize, foldlM_enter_put hplace hnames c, hlast⟩

/-! ## Paths to files -/

/-- A path leads to a name in a directory, and no directory has that name, so that a file can. -/
structure WritesTo (s : FileSystem) (path : Text) (directory : Place) (name : Text) : Prop where
  locate : s.locate path = .ok (directory, name)
  ne_nil : name ≠ []
  ne_dot : name ≠ ['.']
  ne_dots : name ≠ ['.', '.']
  size : byteSize name ≤ maxNameSize
  no_directory : s.entry? (name :: directory) ≠ some .directory

/-- A path with a last name does not end with a slash. -/
theorem dropEndWhile_slash_eq_of_locate (h : s.locate path = .ok (directory, name))
    (hname : name ≠ []) : dropEndWhile (· == '/') path = path := by
  obtain ⟨hne, -, -, rfl⟩ := locate_eq_ok_iff.1 h
  obtain ⟨front, c, rfl⟩ := (List.eq_nil_or_concat' path).resolve_left hne
  have hslash : (c == '/') = false := beq_eq_false_iff_ne.2 fun hc => hname <|
    (getLastD_splitOn_eq_nil_iff '/' _).2 (.inr (by rw [List.getLast?_concat, hc]))
  exact dropEndWhile_concat_of_neg (p := (· == '/')) hslash front

theorem ne_nil_of_locate (h : s.locate path = .ok (directory, name))
    (hslash : dropEndWhile (· == '/') path = path) : name ≠ [] := by
  obtain ⟨hne, -, -, rfl⟩ := locate_eq_ok_iff.1 h
  rw [Ne, getLastD_splitOn_eq_nil_iff, not_or]
  refine ⟨hne, fun hlast => ?_⟩
  rw [← hslash] at hlast
  exact absurd (getLast?_dropEndWhile hlast) (by decide)

/-- A path can be written to exactly if it leads to a name that no directory has. -/
theorem placeToWrite_eq_ok_iff : s.placeToWrite path = .ok place ↔
    ∃ directory name, place = name :: directory ∧ s.WritesTo path directory name := by
  constructor
  · intro h
    unfold placeToWrite at h
    dsimp only at h
    split at h
    · exact absurd h (by simp)
    split at h
    · exact absurd h (by simp)
    split at h
    · exact absurd h (by simp)
    split at h
    · exact absurd h (by simp)
    · next directory name hlocate =>
      split at h
      · exact absurd h (by simp)
      · next hdots =>
        split at h
        · exact absurd h (by simp)
        · next hsize =>
          split at h
          · exact absurd h (by simp)
          · next hentry =>
            simp only [Bool.or_eq_true, decide_eq_true_eq, not_or, not_not] at hdots
            obtain ⟨⟨hslash, hdot⟩, hdotdot⟩ := hdots
            rw [hslash] at hlocate
            have hname : name ≠ [] := ne_nil_of_locate hlocate hslash
            exact ⟨directory, name, (Except.ok.inj h).symm, hlocate, hname, hdot, hdotdot,
              Nat.le_of_not_lt hsize, hentry⟩
  · rintro ⟨directory, name, rfl, h⟩
    obtain ⟨hne, hsize, -, -⟩ := locate_eq_ok_iff.1 h.locate
    have hslash := dropEndWhile_slash_eq_of_locate h.locate h.ne_nil
    unfold placeToWrite
    simp only [hslash, if_neg hne, if_neg (Nat.not_le_of_lt hsize), h.locate]
    rw [if_neg (by simp [h.ne_dot, h.ne_dots]), if_neg (Nat.not_lt_of_le h.size),
      if_neg h.no_directory]

namespace WritesTo

theorem placeToWrite_eq (h : s.WritesTo path directory name) :
    s.placeToWrite path = .ok (name :: directory) :=
  placeToWrite_eq_ok_iff.2 ⟨directory, name, rfl, h⟩

/-- When a file has been written, the path still leads to it. -/
theorem put (h : s.WritesTo path directory name) (c : Option Text) :
    (s.put (name :: directory) (.file c)).WritesTo path directory name := by
  refine ⟨locate_put h.no_directory h.locate c, h.ne_nil, h.ne_dot, h.ne_dots, h.size, ?_⟩
  rw [entry?_put, if_neg (List.cons_ne_nil _ _), if_pos rfl]
  simp

/-- What is read is what is in the file that the path leads to. -/
theorem readText_eq (h : s.WritesTo path directory name) {t : Text}
    (hentry : s.entry? (name :: directory) = some (.file (some t))) : s.readText path = .ok t := by
  unfold readText fileAt
  simp only [h.locate, hentry]
  rw [if_neg (by simp [h.ne_nil, h.ne_dot, h.ne_dots]), if_neg (Nat.not_lt_of_le h.size)]

end WritesTo

end FileSystem

namespace Host

variable {h h' : Host} {path contents : Text}

/-! ## Hosts -/

/-- Of two actions, the second takes place on the host that the first one leaves. -/
theorem run_bind {α β : Type} (first : StateM Host α) (next : α → StateM Host β) (h : Host) :
    (first >>= next).run h = (next (first.run h).1).run (first.run h).2 := rfl

/-- To ask for a file changes nothing. -/
@[simp]
theorem run_isFile (h : Host) (path : Text) :
    (FileAccess.isFile path : StateM Host Bool).run h = (h.isFile path, h) := rfl

/-- To read changes nothing. -/
@[simp]
theorem run_read (h : Host) (path : Text) :
    (FileAccess.read path : StateM Host (Except FileError Text)).run h = (h.readText path, h) := rfl

/-- To write changes the host only if it succeeds. -/
theorem run_write (h : Host) (path contents : Text) :
    (FileAccess.write path contents : StateM Host (Except FileError Unit)).run h =
      match h.writeText path contents with
      | .ok h => (.ok (), h)
      | .error e => (.error e, h) := rfl

/-- Writing to a device changes no file. -/
theorem files_of_writeDevice {d : Device} (hw : h.writeDevice contents d = .ok h') :
    h'.files = h.files := by
  cases d with
  | sink => rw [← Except.ok.inj hw]
  | full => exact absurd hw (by simp [writeDevice])
  | terminal => exact absurd hw (by simp [writeDevice])
  | output => rw [← Except.ok.inj hw]
  | messages => rw [← Except.ok.inj hw]

/-- The host `h'` is what `h` becomes when `contents` are written to the file that a path leads to.
It differs in this file only, and the contents are read back from there. -/
structure Wrote (h h' : Host) (path contents : Text) : Prop where
  place : ∃ place, h.files.placeToWrite path = .ok place ∧
    h'.files.entry? place = some (.file (some contents)) ∧
    ∀ other, other ≠ place → h'.files.entry? other = h.files.entry? other
  rest : h' = { h with files := h'.files } ∧ h'.files.workingDirectory = h.files.workingDirectory
  read : h'.readText path = .ok contents

/-- A file is put where the path leads to, and it is read back through this path. -/
theorem wrote_put {place : Place} (hdevice : h.deviceAt? path = none)
    (hplace : h.files.placeToWrite path = .ok place) (contents : Text) :
    h.Wrote { h with files := h.files.put place (.file (some contents)) } path contents := by
  obtain ⟨directory, name, rfl, hwrites⟩ := FileSystem.placeToWrite_eq_ok_iff.1 hplace
  have hafter := hwrites.put (some contents)
  have hentry :
      FileSystem.entry? (h.files.put (name :: directory) (.file (some contents)))
        (name :: directory) = some (.file (some contents)) := by
    rw [FileSystem.entry?_put, if_neg (List.cons_ne_nil _ _), if_pos rfl]
  refine ⟨⟨name :: directory, hplace, hentry, fun other hother => ?_⟩, ⟨rfl, rfl⟩, ?_⟩
  · show FileSystem.entry? (h.files.put (name :: directory) (.file (some contents))) other = _
    rw [FileSystem.entry?_put, if_neg (Ne.symm hother)]
    split
    · next hroot => rw [hroot, FileSystem.entry?_nil]
    · rfl
  · -- the path leads to no device now either
    have hsame : deviceAt?
        { h with files := h.files.put (name :: directory) (.file (some contents)) } path =
        none := by
      unfold deviceAt? at hdevice ⊢
      rw [hplace] at hdevice
      simp only [hafter.placeToWrite_eq]
      exact hdevice
    unfold readText
    rw [hsame]
    exact hafter.readText_eq hentry

/-- A text that is written goes to the file that the path leads to, or to a device, and no file
changes. -/
theorem wrote_of_writeText (hw : h.writeText path contents = .ok h') :
    (h.deviceAt? path = none → h.Wrote h' path contents) ∧
      (h.deviceAt? path ≠ none → h'.files = h.files) := by
  unfold writeText at hw
  cases hdevice : h.deviceAt? path with
  | some d =>
    rw [hdevice] at hw
    exact ⟨fun hnone => absurd hnone (by simp), fun _ => files_of_writeDevice hw⟩
  | none =>
    refine ⟨fun _ => ?_, fun hne => absurd rfl hne⟩
    rw [hdevice] at hw
    dsimp only at hw
    split at hw
    · exact absurd hw (by simp)
    · cases hplace : h.files.placeToWrite path with
      | error e =>
        rw [FileSystem.writeText, hplace] at hw
        exact absurd hw (by simp [Except.map])
      | ok place =>
        rw [FileSystem.writeText, hplace] at hw
        obtain rfl := Except.ok.inj hw
        exact wrote_put hdevice hplace contents

end Host

end FlatHeader
