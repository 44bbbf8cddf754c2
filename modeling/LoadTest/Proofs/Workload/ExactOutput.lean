import LoadTest.Proofs.Files.Siblings
import LoadTest.Proofs.Partition.Tiling
import LoadTest.Proofs.Workload.Writing
/-!
# Exactly the planned files

A generation that ends well wrote one file for each partition of its plan and changed nothing else.
The template is read once, before the first file is written, so it may be one of the files itself.

* `outputPath`: the path of the file of an index; `place?_outputPath_injective` says that files of
  different indexes are different files.
* `HoldsPlan`: a tree holds the files of a plan and is an earlier tree otherwise.
* `generate_holdsPlan`: so it is after a generation.
-/

namespace LoadTest

namespace Workload

open Binary64

attribute [local irreducible] unitsPerOne overflow

variable {tree t : Files.Tree} {r : Request} {confirm : Question → Except Failure Bool}
  {plan : Plan} {files : List String} {template : String} {cs : List Config} {i j n : Nat}

/-! ## Output paths -/

/-- The path of the file of an index. -/
def outputPath (r : Request) (i : Nat) : String := r.outputPathPrefix ++ "_" ++ toString i

theorem filePath_ofNat (r : Request) (h : i ≤ maxSafe) :
    filePath r.outputPathPrefix (.ofNat i) = outputPath r i := by
  rw [filePath, pathOf, toString_ofNat h, outputPath]

/-- What follows the prefix in an output path. -/
def outputSuffix (i : Nat) : List Char := '_' :: Nat.toDigits 10 i

theorem outputPath_eq (r : Request) (i : Nat) :
    outputPath r i = r.outputPathPrefix ++ String.ofList (outputSuffix i) := by
  rw [outputPath, Nat.toString_eq_ofList_toDigits, ← String.toList_inj]
  simp [outputSuffix]

theorem outputSuffix_injective (h : outputSuffix i = outputSuffix j) : i = j :=
  toDigits_injective (List.tail_eq_of_cons_eq h)

/-- What follows the prefix is part of one name. -/
theorem outputSuffix_isName (i : Nat) : outputSuffix i ≠ [] ∧ '/' ∉ outputSuffix i := by
  refine ⟨List.cons_ne_nil _ _, ?_⟩
  rw [outputSuffix, List.mem_cons, not_or]
  exact ⟨by decide, notMem_toDigits (by decide) i⟩

theorem outputPath_injective (h : outputPath r i = outputPath r j) : i = j := by
  rw [outputPath_eq, outputPath_eq] at h
  refine outputSuffix_injective (String.ofList_injective ?_)
  exact String.append_right_inj _ |>.1 h

/-- **Files of different indexes stand at different places.** -/
theorem place?_outputPath_injective {place : Files.Place}
    (hi : t.place? (outputPath r i) = some place) (hj : t.place? (outputPath r j) = some place) :
    i = j := by
  rw [outputPath_eq] at hi hj
  exact outputSuffix_injective (Files.Tree.eq_of_place?_append (outputSuffix_isName i)
    (outputSuffix_isName j) hi hj)

/-! ## The files of a run -/

/-- The files of a run over a regular plan, in order. -/
theorem paths_eq {perPartition : Nat} (hn : n ≤ maxSafe)
    (h : Writes template r tree (Plan.regular n perPartition).partitions cs t) :
    cs.map (·.path) = (List.range n).map (outputPath r) := by
  rw [h.paths, Plan.regular, List.map_map]
  refine List.map_congr_left ?_
  intro i hi
  have hlt := List.mem_range.1 hi
  exact filePath_ofNat r (by omega)

/-- **A request is generated** if it has a plan, its template can be read and renders for each
partition, the operator says yes, and each path can be written to. -/
theorem result_of_writable (hplan : Plan.make r.recordCount r.insertCountPerPartition = .ok plan)
    (htemplate : tree.readText r.templatePath = .ok template)
    (hrender : ∀ p ∈ plan.partitions, ∃ text, Template.render template (context r p) = .ok text)
    (hconfirm : confirm { numPartitions := plan.numPartitions
                          outputPathPrefix := r.outputPathPrefix } = .ok true)
    (hwritable : ∀ i < plan.partitions.length,
      ∃ place, tree.writePlace (outputPath r i) = .ok place) :
    (generate tree r confirm).result
      = .ok (.generated plan ((List.range plan.partitions.length).map (outputPath r))) := by
  obtain ⟨records, perPartition, -, -, -, hmax, hregular⟩ := Plan.exists_regular_of_make hplan
  have hn : ceilQuotient records perPartition ≤ maxSafe := Nat.le_trans hmax (by decide)
  have hd : (prepare tree r).2 = .ok ⟨r, plan, template⟩ :=
    prepare_eq_ok_iff.2 ⟨rfl, hplan, htemplate⟩
  have hpaths : ∀ p ∈ plan.partitions,
      ∃ place, tree.writePlace (filePath r.outputPathPrefix p.index) = .ok place := by
    intro p hp
    rw [hregular] at hp hwritable
    obtain ⟨i, hi, rfl⟩ := List.mem_map.1 hp
    have hlt := List.mem_range.1 hi
    rw [show (Plan.partition (.ofNat perPartition) i).index = .ofNat i from rfl,
      filePath_ofNat r (by omega)]
    exact hwritable i (by rwa [Plan.length_regular])
  obtain ⟨cs, t, h⟩ := exists_writes plan.partitions tree hrender hpaths
  rw [generate_eq_of_answered hd hconfirm, finish_eq_of_writes (d := ⟨r, plan, template⟩) h]
  rw [hregular] at h ⊢
  simp only [paths_eq hn h, Plan.length_regular]

/-- Each of these files has a place. -/
theorem exists_place?_outputPath (hpaths : cs.map (·.path) = (List.range n).map (outputPath r))
    (hwritten : tree.writeAll (cs.map fun c => (c.path, c.content)) = .ok t) (hi : i < n) :
    ∃ place, tree.place? (outputPath r i) = some place := by
  have hmem : outputPath r i ∈ cs.map (·.path) := by
    rw [hpaths]
    exact List.mem_map_of_mem (List.mem_range.2 hi)
  obtain ⟨c, hc, hpath⟩ := List.mem_map.1 hmem
  rw [← hpath]
  exact Files.Tree.exists_place?_of_writeAll _ hwritten (c.path, c.content)
    (List.mem_map_of_mem hc)

/-- The files of a run over a regular plan are at different places. -/
theorem pairwise_place? (hpaths : cs.map (·.path) = (List.range n).map (outputPath r))
    (hwritten : tree.writeAll (cs.map fun c => (c.path, c.content)) = .ok t) :
    (cs.map fun c => (c.path, c.content)).Pairwise
      fun a b => tree.place? a.1 ≠ tree.place? b.1 := by
  have hindexes : ((List.range n).map (outputPath r)).Pairwise
      fun a b => tree.place? a ≠ tree.place? b := by
    rw [List.pairwise_map]
    refine List.pairwise_lt_range.imp_of_mem ?_
    intro i j hi hj hlt heq
    obtain ⟨place, hplace⟩ := exists_place?_outputPath hpaths hwritten (List.mem_range.1 hi)
    have hij := place?_outputPath_injective hplace (heq ▸ hplace)
    omega
  rw [← hpaths, List.pairwise_map] at hindexes
  rw [List.pairwise_map]
  exact hindexes

/-! ## Exactly the files of a plan -/

/-- **A tree holds exactly the files of a plan**: it is an earlier tree, but for the file of each
partition, which holds the template in the context of the partition. -/
structure HoldsPlan (earlier tree : Files.Tree) (r : Request) (plan : Plan) (files : List String) :
    Prop where
  number : plan.numPartitions = .ofNat plan.partitions.length
  /-- There is a file for each partition, in order. -/
  files_eq : files = (List.range plan.partitions.length).map (outputPath r)
  nodup : files.Nodup
  /-- The template is that of the earlier tree. -/
  content : ∃ template, earlier.readText r.templatePath = .ok template ∧
    ∀ i p, plan.partitions[i]? = some p →
      ∃ text, Template.render template (context r p) = .ok text ∧
        tree.readBytes (outputPath r i) = .ok (Utf8.encode text.toList)
  /-- A path to another place leads to what it led to before. -/
  path : ∀ path, (∀ file ∈ files, earlier.place? path ≠ earlier.place? file) →
    (tree.readBytes path).toOption = (earlier.readBytes path).toOption
  /-- At other places is what was there before. -/
  item : ∀ place, (∀ file ∈ files, earlier.place? file ≠ some place) →
    tree.item? place = earlier.item? place
  /-- No directory was made or removed. -/
  directories : Files.Tree.SameDirectories earlier tree

/-- The file of a partition holds the template in its context. -/
theorem readBytes_of_writes {perPartition : Nat} (hn : n ≤ maxSafe)
    (h : Writes template r tree (Plan.regular n perPartition).partitions cs t) {p : Partition}
    (hp : (Plan.regular n perPartition).partitions[i]? = some p) :
    ∃ text, Template.render template (context r p) = .ok text ∧
      t.readBytes (outputPath r i) = .ok (Utf8.encode text.toList) := by
  have hpaths := paths_eq hn h
  have hwritten := h.writeAll
  obtain ⟨c, hc, hconfig⟩ := h.getElem? hp
  obtain ⟨text, htext, hfields⟩ := config_eq_ok_iff.1 hconfig
  have hi : i < n := by
    have hlt := (List.getElem?_eq_some_iff.1 hp).1
    rwa [Plan.length_regular] at hlt
  have hpath : c.path = outputPath r i := by
    have hget := congrArg (·[i]?) hpaths
    simpa [List.getElem?_map, hc, List.getElem?_range hi] using hget
  have hread := Files.Tree.readBytes_writeAll _ hwritten (pairwise_place? hpaths hwritten)
    (c.path, c.content) (List.mem_map_of_mem (List.mem_of_getElem? hc))
  refine ⟨text, htext, ?_⟩
  rw [← hpath, hread, hfields]

theorem holdsPlan_of_writes {perPartition : Nat} (hn : n ≤ maxSafe)
    (htemplate : tree.readText r.templatePath = .ok template)
    (h : Writes template r tree (Plan.regular n perPartition).partitions cs t) :
    HoldsPlan tree t r (Plan.regular n perPartition) (cs.map (·.path)) := by
  have hpaths := paths_eq hn h
  have hsame := Files.Tree.sameDirectories_writeAll _ h.writeAll
  have hitem : ∀ place, (∀ file ∈ cs.map (·.path), tree.place? file ≠ some place) →
      t.item? place = tree.item? place := by
    intro place hplace
    refine Files.Tree.item?_writeAll _ h.writeAll ?_
    intro file hfile
    obtain ⟨c, hc, rfl⟩ := List.mem_map.1 hfile
    exact hplace c.path (List.mem_map_of_mem hc)
  refine ⟨by rw [Plan.length_regular, Plan.regular], by rw [Plan.length_regular, hpaths], ?_,
    ⟨template, htemplate, fun i p => readBytes_of_writes hn h⟩, ?_, hitem, hsame⟩
  · rw [hpaths, List.Nodup, List.pairwise_map]
    refine List.pairwise_lt_range.imp ?_
    intro i j hlt hij
    have heq := outputPath_injective hij
    omega
  · intro path hpath
    refine hsame.toOption_readBytes ?_
    intro place hplace
    refine hitem place ?_
    intro file hfile hfile'
    exact hpath file hfile (hplace.trans hfile'.symm)

/-- **A generation that ends well writes exactly the files of its plan.** -/
theorem generate_holdsPlan
    (h : (generate tree r confirm).result = .ok (.generated plan files)) :
    Plan.make r.recordCount r.insertCountPerPartition = .ok plan ∧
      HoldsPlan tree (generate tree r confirm).tree r plan files := by
  rcases confirmed_or_unchanged tree r confirm with ⟨d, hd, hconfirm⟩ | ⟨-, hnot⟩
  · obtain ⟨-, hplan, htemplate⟩ := prepare_eq_ok_iff.1 hd
    obtain ⟨records, perPartition, -, -, -, hmax, hregular⟩ := Plan.exists_regular_of_make hplan
    have hn : ceilQuotient records perPartition ≤ maxSafe := Nat.le_trans hmax (by decide)
    rcases generate_of_confirmed hd hconfirm with
      ⟨cs, hwrites, hresult⟩ | ⟨before, p, rest, cs, -, -, ⟨e, -, hresult⟩ | ⟨c, e, -, -, hresult⟩⟩
    · rw [hresult] at h
      cases h
      refine ⟨hplan, ?_⟩
      rw [hregular] at hwrites ⊢
      exact holdsPlan_of_writes hn htemplate hwrites
    · rw [hresult] at h
      cases h
    · rw [hresult] at h
      cases h
  · exact absurd h (hnot plan files)

/-- A directory with a template that is also the file of the first partition. -/
def overwrittenTree : Files.Tree :=
  { items := [(["out_0"], .file (Utf8.encode "from \x7b\x7binsertstart\x7d\x7d".toList))] }

/-- A request for two files over that template. -/
def overwritingRequest : Request :=
  { recordCount := some (.number (.ofNat 8)), operationCount := none
    insertCountPerPartition := some (.number (.ofNat 5)), hosts := none, threadCount := none
    templatePath := "out_0", outputPathPrefix := "out" }

/-- The second file is made from the template that the first file has replaced by then. -/
theorem generate_holdsPlan_overwriting :
    ∃ files, (generate overwrittenTree overwritingRequest fun _ => .ok true).result
        = .ok (.generated (Plan.regular 2 5) files) ∧
      HoldsPlan overwrittenTree (generate overwrittenTree overwritingRequest fun _ => .ok true).tree
        overwritingRequest (Plan.regular 2 5) files := by
  have hR : Plan.IsCount overwritingRequest.recordCount 8 := ⟨rfl, by decide, by decide⟩
  have hC : Plan.IsCount overwritingRequest.insertCountPerPartition 5 := ⟨rfl, by decide, by decide⟩
  have hplan : Plan.make overwritingRequest.recordCount overwritingRequest.insertCountPerPartition
      = .ok (Plan.regular 2 5) := by
    rw [Plan.make_of_isCount hR hC (by decide), if_neg (by decide)]
    rfl
  have hd : (prepare overwrittenTree overwritingRequest).2
      = .ok ⟨overwritingRequest, Plan.regular 2 5, "from \x7b\x7binsertstart\x7d\x7d"⟩ :=
    prepare_eq_ok_iff.2 ⟨rfl, hplan, by decide +kernel⟩
  have hps : (Plan.regular 2 5).partitions
      = [Plan.partition (.ofNat 5) 0, Plan.partition (.ofNat 5) 1] := rfl
  have hwrites : ∃ cs t, Writes "from \x7b\x7binsertstart\x7d\x7d" overwritingRequest
      overwrittenTree (Plan.regular 2 5).partitions cs t := by
    rw [hps]
    refine ⟨_, _, .cons (config_eq_ok_iff.2 ⟨"from 0", by decide +kernel, rfl⟩)
      (Files.Tree.writeText_eq_ok_iff.2 ⟨["out_0"], by decide +kernel, rfl⟩)
      (.cons (config_eq_ok_iff.2 ⟨"from 5", by decide +kernel, rfl⟩)
        (Files.Tree.writeText_eq_ok_iff.2 ⟨["out_1"], by decide +kernel, rfl⟩) (.nil _))⟩
  obtain ⟨cs, t, h⟩ := hwrites
  have hresult : (generate overwrittenTree overwritingRequest fun _ => .ok true).result
      = .ok (.generated (Plan.regular 2 5) (cs.map (·.path))) := by
    rw [generate_eq_of_answered hd rfl, finish_eq_of_writes h]
  exact ⟨_, hresult, (generate_holdsPlan hresult).2⟩

end Workload

end LoadTest
