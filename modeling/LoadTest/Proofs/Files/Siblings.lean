import LoadTest.Proofs.Files.Frame
/-!
# Sibling paths

Paths that differ only after a common start, in characters that are no slashes, lead to the same
directory and differ in the name there.  So they name different places.

* `Path.exists_ofString_append`: the parts of such paths.
* `Tree.eq_of_place?_append`: they name a place each.
* `Tree.SameDirectories.target_append`: where one of them leads somewhere, writing elsewhere changes
  for none of them what it asks for.
-/

namespace LoadTest

namespace Files

theorem exists_splitOn_append (xs : List Char) :
    ∃ names last, ∀ ys : List Char, '/' ∉ ys →
      (xs ++ ys).splitOn '/' = names ++ [last ++ ys] := by
  induction xs with
  | nil =>
    refine ⟨[], [], ?_⟩
    intro ys hys
    simpa using List.splitOn_eq_singleton hys
  | cons x xs ih =>
    obtain ⟨names, last, h⟩ := ih
    by_cases hx : x = '/'
    · refine ⟨[] :: names, last, ?_⟩
      intro ys hys
      rw [List.cons_append, List.splitOn_cons_eq_if_modifyHead, if_pos (by simp [hx]), h ys hys,
        List.cons_append]
    · cases names with
      | nil =>
        refine ⟨[], x :: last, ?_⟩
        intro ys hys
        rw [List.cons_append, List.splitOn_cons_eq_if_modifyHead, if_neg (by simp [hx]), h ys hys]
        rfl
      | cons name names =>
        refine ⟨(x :: name) :: names, last, ?_⟩
        intro ys hys
        rw [List.cons_append, List.splitOn_cons_eq_if_modifyHead, if_neg (by simp [hx]), h ys hys]
        rfl

/-- **Paths with a common start** differ in their last names, which have a common start too. -/
theorem Path.exists_ofString_append (start : String) :
    ∃ isAbsolute names last, ∀ ys : List Char, ys ≠ [] → '/' ∉ ys →
      Path.ofString (start ++ String.ofList ys)
        = { isAbsolute := isAbsolute, names := names ++ [String.ofList (last ++ ys)],
            endsInSlash := false } := by
  obtain ⟨names, last, hsplit⟩ := exists_splitOn_append start.toList
  refine ⟨start.toList.head? == some '/',
    (names.filter fun name => !name.isEmpty).map String.ofList, last, ?_⟩
  intro ys hne hys
  have hhead : ((start.toList ++ ys).head? == some '/') = (start.toList.head? == some '/') := by
    cases hstart : start.toList with
    | cons c cs => rfl
    | nil =>
      cases ys with
      | nil => exact absurd rfl hne
      | cons y ys =>
        simp only [List.nil_append, List.head?_cons, List.head?_nil]
        simp only [List.mem_cons, not_or] at hys
        simp [Ne.symm hys.1]
  have hlast : ((start.toList ++ ys).getLast? == some '/') = false := by
    obtain ⟨y, hy⟩ := Option.ne_none_iff_exists'.1 (mt List.getLast?_eq_none_iff.1 hne)
    have hmem := List.mem_of_getLast? hy
    rw [List.getLast?_append, hy]
    simp only [Option.some_or, beq_eq_false_iff_ne, ne_eq, Option.some.injEq]
    rintro rfl
    exact hys hmem
  have hname : [last ++ ys].filter (fun name => !name.isEmpty) = [last ++ ys] := by simp [hne]
  rw [Path.ofString]
  simp only [String.toList_append, String.toList_ofList, hsplit ys hys, hhead, hlast,
    List.filter_append, hname, List.map_append, List.map_cons, List.map_nil]

namespace Tree

variable {t t' : Tree} {path : String} {place : Place}

/-- A path leads to the directory that its names before the last one lead to. -/
theorem exists_walk_of_place? {isAbsolute endsInSlash : Bool} {names : List String} {last : String}
    (hpath : Path.ofString path = { isAbsolute := isAbsolute, names := names ++ [last],
                                    endsInSlash := endsInSlash })
    (h : t.place? path = some place) :
    ∃ dir, t.walk (if isAbsolute then [] else t.home) names = .ok dir ∧ place = dir ++ [last] := by
  unfold place? target at h
  rw [hpath] at h
  cases hcheck : Path.check path with
  | error cause =>
    rw [hcheck] at h
    cases h
  | ok u =>
    rw [hcheck] at h
    simp only [bind, Except.bind, List.getLast?_concat, List.dropLast_concat] at h
    cases hwalk : t.walk (if isAbsolute then [] else t.home) names with
    | error cause =>
      rw [hwalk] at h
      cases h
    | ok dir =>
      rw [hwalk] at h
      by_cases hdots : last = "." ∨ last = ".."
      · simp only [if_pos hdots] at h
        cases h
      · simp only [if_neg hdots] at h
        cases h
        exact ⟨dir, rfl, rfl⟩

/-- **Paths with a common start name different places.** -/
theorem eq_of_place?_append {start : String} {ys zs : List Char} (hys : ys ≠ [] ∧ '/' ∉ ys)
    (hzs : zs ≠ [] ∧ '/' ∉ zs) (hy : t.place? (start ++ String.ofList ys) = some place)
    (hz : t.place? (start ++ String.ofList zs) = some place) : ys = zs := by
  obtain ⟨isAbsolute, names, last, hpath⟩ := Path.exists_ofString_append start
  obtain ⟨dir, hdir, rfl⟩ := exists_walk_of_place? (hpath ys hys.1 hys.2) hy
  obtain ⟨dir', hdir', hplace⟩ := exists_walk_of_place? (hpath zs hzs.1 hzs.2) hz
  obtain rfl := Except.ok.inj (hdir.symm.trans hdir')
  have hlast := List.append_cancel_left hplace
  simp only [List.cons.injEq, and_true] at hlast
  exact List.append_cancel_left (String.ofList_injective hlast)

/-- **One of them can be followed, so all ask for the same** in trees with the same directories. -/
theorem SameDirectories.target_append {start : String} {ys zs : List Char}
    (h : SameDirectories t t') (hys : ys ≠ [] ∧ '/' ∉ ys) (hzs : zs ≠ [] ∧ '/' ∉ zs)
    (hplace : t.place? (start ++ String.ofList ys) = some place) :
    t'.target (start ++ String.ofList zs) = t.target (start ++ String.ofList zs) := by
  obtain ⟨isAbsolute, names, last, hpath⟩ := Path.exists_ofString_append start
  obtain ⟨dir, hdir, -⟩ := exists_walk_of_place? (hpath ys hys.1 hys.2) hplace
  have hdir' := h.walk names hdir
  unfold Tree.target
  rw [hpath zs hzs.1 hzs.2, h.home]
  cases Path.check (start ++ String.ofList zs) with
  | error cause => rfl
  | ok u =>
    simp only [bind, Except.bind, List.getLast?_concat, List.dropLast_concat, hdir, hdir']

end Tree

end Files

end LoadTest
