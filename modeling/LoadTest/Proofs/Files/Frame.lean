import LoadTest.Files.Tree
/-!
# What writing changes

A write changes what stands at one place, and never a directory.  So paths lead where they led
before, and what they do not share a place with is as it was.

* `Tree.SameDirectories`: two trees agree on where the directories are.
* `Tree.readBytes_eq_ok_iff`, `Tree.writePlace_eq_ok_iff`: when reading and writing succeed.
* `Tree.writeAll`: several files written in order; `Tree.sameDirectories_writeAll`,
  `Tree.item?_writeAll` and `Tree.readBytes_writeAll` say what that leaves.
-/

namespace LoadTest

namespace Files

variable {place other : Place} {item : Item}

theorem lookup_putItem_self (place : Place) (item : Item) (items : List (Place × Item)) :
    (putItem place item items).lookup place = some item := by
  induction items with
  | nil => simp [putItem]
  | cons first rest ih =>
    obtain ⟨p, i⟩ := first
    rw [putItem]
    by_cases h : p = place
    · rw [if_pos h, h, List.lookup_cons_self]
    · rw [if_neg h, List.lookup_cons, beq_eq_false_iff_ne.2 (Ne.symm h)]
      exact ih

theorem lookup_putItem_of_ne (item : Item) (h : other ≠ place) (items : List (Place × Item)) :
    (putItem place item items).lookup other = items.lookup other := by
  induction items with
  | nil => simp [putItem, List.lookup_cons, beq_eq_false_iff_ne.2 h]
  | cons first rest ih =>
    obtain ⟨p, i⟩ := first
    rw [putItem]
    by_cases hp : p = place
    · rw [if_pos hp, hp, List.lookup_cons, List.lookup_cons, beq_eq_false_iff_ne.2 h]
    · rw [if_neg hp, List.lookup_cons, List.lookup_cons, ih]

/-- Putting what is there already changes nothing. -/
theorem putItem_of_lookup : ∀ {items : List (Place × Item)}, items.lookup place = some item →
    putItem place item items = items := by
  intro items
  induction items with
  | nil =>
    intro h
    cases h
  | cons first rest ih =>
    obtain ⟨p, i⟩ := first
    intro h
    rw [putItem]
    by_cases hp : p = place
    · rw [hp, List.lookup_cons_self, Option.some_inj] at h
      rw [if_pos hp, h]
    · rw [List.lookup_cons, beq_eq_false_iff_ne.2 (Ne.symm hp)] at h
      rw [if_neg hp, ih h]

namespace Tree

variable {t t' t'' : Tree} {path : String} {bytes : List UInt8}

/-! ## One place -/

theorem item?_nil (t : Tree) : t.item? [] = some .directory := rfl

theorem item?_put_self (t : Tree) (item : Item) (h : place ≠ []) :
    (t.put place item).item? place = some item := by
  rw [item?, if_neg h]
  exact lookup_putItem_self place item t.items

theorem item?_put_of_ne (t : Tree) (item : Item) (h : other ≠ place) :
    (t.put place item).item? other = t.item? other := by
  rw [item?, item?]
  by_cases hroot : other = []
  · rw [if_pos hroot, if_pos hroot]
  · rw [if_neg hroot, if_neg hroot]
    exact lookup_putItem_of_ne item h t.items

/-- Putting what stands at a place already leaves the tree as it is. -/
theorem put_of_item? (hroot : place ≠ []) (h : t.item? place = some item) :
    t.put place item = t := by
  rw [item?, if_neg hroot] at h
  rw [put, putItem_of_lookup h]

/-! ## Directories -/

/-- The trees have their directories at the same places. -/
structure SameDirectories (t t' : Tree) : Prop where
  home : t'.home = t.home
  directory : ∀ place, t'.item? place = some .directory ↔ t.item? place = some .directory

namespace SameDirectories

theorem refl (t : Tree) : SameDirectories t t := ⟨rfl, fun _ => Iff.rfl⟩

theorem symm (h : SameDirectories t t') : SameDirectories t' t :=
  ⟨h.home.symm, fun place => (h.directory place).symm⟩

theorem trans (h : SameDirectories t t') (h' : SameDirectories t' t'') : SameDirectories t t'' :=
  ⟨h'.home.trans h.home, fun place => (h'.directory place).trans (h.directory place)⟩

end SameDirectories

/-- A file put where no directory stands leaves the directories as they are. -/
theorem sameDirectories_put (bytes : List UInt8) (h : t.item? place ≠ some .directory) :
    SameDirectories t (t.put place (.file bytes)) := by
  refine ⟨rfl, fun other => ?_⟩
  have hroot : place ≠ [] := by
    rintro rfl
    exact h t.item?_nil
  by_cases hother : other = place
  · rw [hother, item?_put_self t _ hroot]
    simp [h]
  · rw [item?_put_of_ne t _ hother]

theorem walk_of_directory {dir : Place} {name : String} {names : List String} (hdot : name ≠ ".")
    (hdots : name ≠ "..") (hsize : name.utf8ByteSize ≤ Path.maxName)
    (hitem : t.item? (dir ++ [name]) = some .directory) :
    t.walk dir (name :: names) = t.walk (dir ++ [name]) names := by
  rw [walk, if_neg hdot, if_neg hdots, if_neg (by omega), hitem]

/-- Names lead to the same directory. -/
theorem SameDirectories.walk (h : SameDirectories t t') : ∀ (names : List String) {dir d : Place},
    t.walk dir names = .ok d → t'.walk dir names = .ok d := by
  intro names
  induction names with
  | nil => intro dir d hd; exact hd
  | cons name names ih =>
    intro dir d hd
    by_cases hdot : name = "."
    · rw [Tree.walk, if_pos hdot] at hd ⊢
      exact ih hd
    · by_cases hdots : name = ".."
      · rw [Tree.walk, if_neg hdot, if_pos hdots] at hd ⊢
        exact ih hd
      · by_cases hsize : Path.maxName < name.utf8ByteSize
        · rw [Tree.walk, if_neg hdot, if_neg hdots, if_pos hsize] at hd
          cases hd
        · rw [Tree.walk, if_neg hdot, if_neg hdots, if_neg hsize] at hd
          split at hd
          · cases hd
          · cases hd
          · rename_i hitem
            rw [walk_of_directory hdot hdots (by omega) ((h.directory _).2 hitem)]
            exact ih hd

/-- A path asks for the same. -/
theorem SameDirectories.target (h : SameDirectories t t') {x : Target}
    (hx : t.target path = .ok x) : t'.target path = .ok x := by
  unfold Tree.target at hx ⊢
  rw [h.home]
  cases hcheck : Path.check path with
  | error cause =>
    rw [hcheck] at hx
    cases hx
  | ok u =>
    rw [hcheck] at hx
    simp only [bind, Except.bind] at hx ⊢
    split at hx
    · exact hx
    · split at hx
      · cases hx
      · rename_i d hd
        rw [h.walk _ hd]
        exact hx

/-! ## Reading and writing -/

/-- The place that a path names, if it leads to one. -/
def place? (t : Tree) (path : String) : Option Place :=
  match t.target path with
  | .ok (.named dir name _) => some (dir ++ [name])
  | _ => none

theorem place?_of_target {dir : Place} {name : String} {asDirectory : Bool}
    (h : t.target path = .ok (.named dir name asDirectory)) :
    t.place? path = some (dir ++ [name]) := by
  rw [place?, h]

theorem SameDirectories.place?_of_eq_some (h : SameDirectories t t')
    (hplace : t.place? path = some place) : t'.place? path = some place := by
  unfold Tree.place? at hplace ⊢
  split at hplace
  · rename_i hx
    rw [h.target hx]
    exact hplace
  · cases hplace

theorem SameDirectories.place? (h : SameDirectories t t') (path : String) :
    t'.place? path = t.place? path := by
  cases hplace : t.place? path with
  | some place => exact h.place?_of_eq_some hplace
  | none =>
    cases hplace' : t'.place? path with
    | none => rfl
    | some place => rw [h.symm.place?_of_eq_some hplace'] at hplace; cases hplace

theorem mapError_eq_ok_iff {α β γ : Type} {f : α → β} {x : Except α γ} {y : γ} :
    x.mapError f = .ok y ↔ x = .ok y := by
  cases x with
  | error e =>
    constructor
    · intro h
      cases h
    · intro h
      cases h
  | ok z =>
    constructor
    · intro h
      cases h
      rfl
    · intro h
      cases h
      rfl

theorem exists_of_mapError {α β γ : Type} {f : α → β} {x : Except α γ} {e : β}
    (h : x.mapError f = .error e) : ∃ cause, x = .error cause ∧ f cause = e := by
  cases x with
  | error cause =>
    cases h
    exact ⟨cause, rfl, rfl⟩
  | ok z => cases h

/-- An error of reading names the path that was asked for. -/
theorem path_of_readLines {e : Error} (h : t.readLines path = .error e) : e.path = path := by
  rw [readLines] at h
  cases hbytes : t.readBytes path with
  | ok bytes =>
    rw [hbytes] at h
    cases h
  | error e' =>
    rw [hbytes] at h
    cases h
    obtain ⟨cause, -, rfl⟩ := exists_of_mapError hbytes
    rfl

/-- **Reading succeeds** where a path that does not ask for a directory names a file. -/
theorem readBytes_eq_ok_iff : t.readBytes path = .ok bytes ↔
    ∃ dir name, t.target path = .ok (.named dir name false) ∧
      name.utf8ByteSize ≤ Path.maxName ∧ t.item? (dir ++ [name]) = some (.file bytes) := by
  rw [readBytes, mapError_eq_ok_iff]
  constructor
  · intro h
    cases htarget : t.target path with
    | error cause =>
      rw [htarget] at h
      cases h
    | ok x =>
      rw [htarget] at h
      simp only [bind, Except.bind, throw, throwThe, MonadExceptOf.throw, pure, Except.pure] at h
      cases x with
      | passed => cases h
      | named dir name asDirectory =>
        by_cases hsize : Path.maxName < name.utf8ByteSize
        · simp [hsize] at h
        · simp only [if_neg hsize] at h
          cases hitem : t.item? (dir ++ [name]) with
          | none =>
            rw [hitem] at h
            cases h
          | some item =>
            rw [hitem] at h
            cases item with
            | directory => cases h
            | file bytes' =>
              cases asDirectory with
              | true => cases h
              | false =>
                cases h
                exact ⟨dir, name, rfl, by omega, hitem⟩
  · rintro ⟨dir, name, htarget, hsize, hitem⟩
    simp only [htarget, bind, Except.bind, if_neg (Nat.not_lt.2 hsize), hitem]
    rfl

/-- What can be wrong with a path that asks for a name in a directory. -/
theorem writePlace_of_named {dir : Place} {name : String} {asDirectory : Bool}
    (h : t.target path = .ok (.named dir name asDirectory)) :
    t.writePlace path =
      if asDirectory then .error .isADirectory
      else if Path.maxName < name.utf8ByteSize then .error .nameTooLong
      else if t.item? (dir ++ [name]) = some .directory then .error .isADirectory
      else .ok (dir ++ [name]) := by
  simp only [writePlace, h, bind, Except.bind, throw, throwThe, MonadExceptOf.throw, pure,
    Except.pure]
  rcases hitem : t.item? (dir ++ [name]) with _ | _ | bytes <;> simp

/-- **Writing succeeds** where a path that does not ask for a directory names no directory. -/
theorem writePlace_eq_ok_iff : t.writePlace path = .ok place ↔
    ∃ dir name, t.target path = .ok (.named dir name false) ∧
      name.utf8ByteSize ≤ Path.maxName ∧ t.item? (dir ++ [name]) ≠ some .directory ∧
      place = dir ++ [name] := by
  constructor
  · intro h
    cases htarget : t.target path with
    | error cause =>
      rw [writePlace, htarget] at h
      cases h
    | ok x =>
      cases x with
      | passed =>
        rw [writePlace, htarget] at h
        cases h
      | named dir name asDirectory =>
        rw [writePlace_of_named htarget] at h
        cases asDirectory with
        | true => cases h
        | false =>
          by_cases hsize : Path.maxName < name.utf8ByteSize
          · simp [hsize] at h
          · by_cases hitem : t.item? (dir ++ [name]) = some .directory
            · simp [hsize, hitem] at h
            · simp only [Bool.false_eq_true, if_false, if_neg hsize, if_neg hitem] at h
              cases h
              exact ⟨dir, name, rfl, by omega, hitem, rfl⟩
  · rintro ⟨dir, name, htarget, hsize, hitem, rfl⟩
    rw [writePlace_of_named htarget, if_neg Bool.false_ne_true, if_neg (by omega), if_neg hitem]

/-- A path that asks for the same can be written to in both trees or in none, and for one reason. -/
theorem SameDirectories.writePlace_of_target (h : SameDirectories t t')
    (htarget : t'.target path = t.target path) : t'.writePlace path = t.writePlace path := by
  cases hx : t.target path with
  | error cause =>
    rw [Tree.writePlace, Tree.writePlace, htarget, hx]
    rfl
  | ok x =>
    cases x with
    | passed =>
      rw [Tree.writePlace, Tree.writePlace, htarget, hx]
      rfl
    | named dir name asDirectory =>
      rw [writePlace_of_named hx, writePlace_of_named (htarget.trans hx)]
      simp only [h.directory]

/-- What can be written to in one of the trees can be in the other. -/
theorem SameDirectories.writePlace (h : SameDirectories t t') (hplace : t.writePlace path = .ok place) :
    t'.writePlace path = .ok place := by
  obtain ⟨dir, name, htarget, hsize, hitem, rfl⟩ := writePlace_eq_ok_iff.1 hplace
  exact writePlace_eq_ok_iff.2
    ⟨dir, name, h.target htarget, hsize, mt (h.directory _).1 hitem, rfl⟩

/-- A path that can be written to names the place that is written. -/
theorem place?_of_writePlace (h : t.writePlace path = .ok place) : t.place? path = some place := by
  obtain ⟨dir, name, htarget, -, -, rfl⟩ := writePlace_eq_ok_iff.1 h
  exact place?_of_target htarget

theorem writeText_eq_ok_iff {text : String} : t.writeText path text = .ok t' ↔
    ∃ place, t.writePlace path = .ok place ∧ t' = t.put place (.file (Utf8.encode text.toList)) := by
  rw [writeText, writeBytes]
  cases hplace : t.writePlace path with
  | error cause => simp
  | ok place => simp [eq_comm]

theorem writeText_of_writePlace {cause : Cause} (text : String)
    (h : t.writePlace path = .error cause) : t.writeText path text = .error ⟨cause, path⟩ := by
  rw [writeText, writeBytes, h]

/-- **A write keeps the directories.** -/
theorem sameDirectories_writeText {text : String} (h : t.writeText path text = .ok t') :
    SameDirectories t t' := by
  obtain ⟨place, hplace, rfl⟩ := writeText_eq_ok_iff.1 h
  obtain ⟨dir, name, -, -, hitem, rfl⟩ := writePlace_eq_ok_iff.1 hplace
  exact sameDirectories_put _ hitem

/-- What is written in one tree can be written in another that has the same directories. -/
theorem SameDirectories.writeText {t₁ : Tree} {text : String} (h : SameDirectories t t')
    (hwritten : t.writeText path text = .ok t₁) :
    ∃ t₁', t'.writeText path text = .ok t₁' ∧ SameDirectories t₁ t₁' := by
  obtain ⟨place, hplace, -⟩ := writeText_eq_ok_iff.1 hwritten
  have hwritten' : t'.writeText path text
      = .ok (t'.put place (.file (Utf8.encode text.toList))) :=
    writeText_eq_ok_iff.2 ⟨place, h.writePlace hplace, rfl⟩
  exact ⟨_, hwritten', (sameDirectories_writeText hwritten).symm.trans
    (h.trans (sameDirectories_writeText hwritten'))⟩

/-- **A write changes one place.** -/
theorem item?_writeText {text : String} (h : t.writeText path text = .ok t')
    (hother : t.place? path ≠ some other) : t'.item? other = t.item? other := by
  obtain ⟨place, hplace, rfl⟩ := writeText_eq_ok_iff.1 h
  refine item?_put_of_ne t _ ?_
  rintro rfl
  exact hother (place?_of_writePlace hplace)

/-- **What is written can be read.** -/
theorem readBytes_writeText {text : String} (h : t.writeText path text = .ok t') :
    t'.readBytes path = .ok (Utf8.encode text.toList) := by
  have hsame := sameDirectories_writeText h
  obtain ⟨place, hplace, rfl⟩ := writeText_eq_ok_iff.1 h
  obtain ⟨dir, name, htarget, hsize, -, rfl⟩ := writePlace_eq_ok_iff.1 hplace
  exact readBytes_eq_ok_iff.2 ⟨dir, name, hsame.target htarget, hsize,
    item?_put_self t _ (by simp)⟩

/-- A file that can be read can be written to. -/
theorem exists_writePlace_of_readBytes (h : t.readBytes path = .ok bytes) :
    ∃ place, t.writePlace path = .ok place ∧ place ≠ [] ∧ t.item? place = some (.file bytes) := by
  obtain ⟨dir, name, htarget, hsize, hitem⟩ := readBytes_eq_ok_iff.1 h
  exact ⟨dir ++ [name],
    writePlace_eq_ok_iff.2 ⟨dir, name, htarget, hsize, by simp [hitem], rfl⟩, by simp, hitem⟩

/-- **Writing what can be read leaves the tree as it is.** -/
theorem writeText_of_readBytes {text : String}
    (h : t.readBytes path = .ok (Utf8.encode text.toList)) : t.writeText path text = .ok t := by
  obtain ⟨place, hplace, hroot, hitem⟩ := exists_writePlace_of_readBytes h
  exact writeText_eq_ok_iff.2 ⟨place, hplace, (put_of_item? hroot hitem).symm⟩

/-- A path reads the same in trees that have the same directories and the same at its place. -/
theorem SameDirectories.readBytes (h : SameDirectories t t')
    (hitem : ∀ place, t.place? path = some place → t'.item? place = t.item? place)
    (hread : t.readBytes path = .ok bytes) : t'.readBytes path = .ok bytes := by
  obtain ⟨dir, name, htarget, hsize, hfile⟩ := readBytes_eq_ok_iff.1 hread
  exact readBytes_eq_ok_iff.2 ⟨dir, name, h.target htarget, hsize,
    (hitem _ (place?_of_target htarget)).trans hfile⟩

theorem readText_eq_ok_iff {text : String} : t.readText path = .ok text ↔
    ∃ bytes, t.readBytes path = .ok bytes ∧ String.ofList (Utf8.decode bytes) = text := by
  rw [readText]
  cases t.readBytes path with
  | error e => simp [Except.map]
  | ok bytes => simp [Except.map]

theorem SameDirectories.readText (h : SameDirectories t t') {text : String}
    (hitem : ∀ place, t.place? path = some place → t'.item? place = t.item? place)
    (hread : t.readText path = .ok text) : t'.readText path = .ok text := by
  obtain ⟨bytes, hbytes, htext⟩ := readText_eq_ok_iff.1 hread
  exact readText_eq_ok_iff.2 ⟨bytes, h.readBytes hitem hbytes, htext⟩

/-- The bytes at the end of a path, if there are any, are the same in such trees. -/
theorem SameDirectories.toOption_readBytes (h : SameDirectories t t')
    (hitem : ∀ place, t.place? path = some place → t'.item? place = t.item? place) :
    (t'.readBytes path).toOption = (t.readBytes path).toOption := by
  have hitem' : ∀ place, t'.place? path = some place → t.item? place = t'.item? place := by
    intro place hplace
    exact (hitem place (h.symm.place?_of_eq_some hplace)).symm
  cases hread : t.readBytes path with
  | ok bytes => rw [h.readBytes hitem hread]
  | error e =>
    cases hread' : t'.readBytes path with
    | error e' => rfl
    | ok bytes =>
      rw [h.symm.readBytes hitem' hread'] at hread
      cases hread

/-! ## Several files -/

/-- The tree after texts were written to paths, one after the other. -/
def writeAll (t : Tree) : List (String × String) → Except Error Tree
  | [] => .ok t
  | (path, text) :: files =>
    match t.writeText path text with
    | .error e => .error e
    | .ok t' => t'.writeAll files

theorem writeAll_cons_eq_ok_iff {text : String} {files : List (String × String)} :
    t.writeAll ((path, text) :: files) = .ok t'' ↔
      ∃ t', t.writeText path text = .ok t' ∧ t'.writeAll files = .ok t'' := by
  rw [writeAll]
  cases t.writeText path text with
  | error e => simp
  | ok t' => simp

theorem sameDirectories_writeAll : ∀ (files : List (String × String)) {t : Tree},
    t.writeAll files = .ok t' → SameDirectories t t' := by
  intro files
  induction files with
  | nil =>
    intro t h
    cases h
    exact .refl t'
  | cons file files ih =>
    intro t h
    obtain ⟨t₁, hfile, hfiles⟩ := writeAll_cons_eq_ok_iff.1 h
    exact (sameDirectories_writeText hfile).trans (ih hfiles)

/-- Files that are written all have a place. -/
theorem exists_place?_of_writeAll : ∀ (files : List (String × String)) {t : Tree},
    t.writeAll files = .ok t' → ∀ file ∈ files, ∃ place, t.place? file.1 = some place := by
  intro files
  induction files with
  | nil =>
    intro t _ file hfile
    cases hfile
  | cons first files ih =>
    intro t h file hfile
    obtain ⟨t₁, hfirst, hfiles⟩ := writeAll_cons_eq_ok_iff.1 h
    rcases List.mem_cons.1 hfile with rfl | hfile
    · obtain ⟨place, hplace, -⟩ := writeText_eq_ok_iff.1 hfirst
      exact ⟨place, place?_of_writePlace hplace⟩
    · obtain ⟨place, hplace⟩ := ih hfiles file hfile
      exact ⟨place, ((sameDirectories_writeText hfirst).place? _).symm.trans hplace⟩

/-- **Writing files changes no other places than theirs.** -/
theorem item?_writeAll : ∀ (files : List (String × String)) {t : Tree},
    t.writeAll files = .ok t' → (∀ file ∈ files, t.place? file.1 ≠ some other) →
      t'.item? other = t.item? other := by
  intro files
  induction files with
  | nil =>
    intro t h _
    cases h
    rfl
  | cons file files ih =>
    intro t h hother
    obtain ⟨t₁, hfile, hfiles⟩ := writeAll_cons_eq_ok_iff.1 h
    have hsame := sameDirectories_writeText hfile
    rw [ih hfiles, item?_writeText hfile (hother file (List.mem_cons_self ..))]
    intro file' hfile'
    rw [hsame.place?]
    exact hother file' (List.mem_cons_of_mem _ hfile')

/-- **Files at different places all keep what was written.** -/
theorem readBytes_writeAll : ∀ (files : List (String × String)) {t : Tree},
    t.writeAll files = .ok t' →
      files.Pairwise (fun a b => t.place? a.1 ≠ t.place? b.1) →
        ∀ file ∈ files, t'.readBytes file.1 = .ok (Utf8.encode file.2.toList) := by
  intro files
  induction files with
  | nil =>
    intro t _ _ file hfile
    cases hfile
  | cons first files ih =>
    intro t h hplaces file hfile
    obtain ⟨t₁, hfirst, hfiles⟩ := writeAll_cons_eq_ok_iff.1 h
    obtain ⟨hapart, hplaces⟩ := List.pairwise_cons.1 hplaces
    have hsame := sameDirectories_writeText hfirst
    rcases List.mem_cons.1 hfile with rfl | hfile
    · -- the files after the first one are at other places, so it keeps what it holds
      refine (sameDirectories_writeAll files hfiles).readBytes ?_ (readBytes_writeText hfirst)
      intro place hplace
      refine item?_writeAll files hfiles ?_
      intro file' hfile' hplace'
      rw [hsame.place?] at hplace hplace'
      exact hapart file' hfile' (hplace.trans hplace'.symm)
    · refine ih hfiles ?_ file hfile
      refine hplaces.imp ?_
      intro a b hab
      rwa [hsame.place?, hsame.place?]

end Tree

end Files

end LoadTest
