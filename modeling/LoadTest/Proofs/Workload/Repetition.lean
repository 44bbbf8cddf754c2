import LoadTest.Proofs.Workload.ExactOutput
/-!
# Repeated generations

A generation that ended well can be run again, and again nothing changes: its files are there and can
be written to, they are replaced by what they hold, and the template, which is none of them, is as it
was.

* `readBytes_of_mem_writes`: each file of a run holds what was written to it.
* `generate_again`: the second run is the first one over.
-/

namespace LoadTest

namespace Workload

open Binary64

attribute [local irreducible] unitsPerOne overflow

variable {tree t : Files.Tree} {r : Request} {confirm : Question → Except Failure Bool}
  {plan : Plan} {files : List String} {template : String} {cs : List Config}

/-- **The files of a run are there at its end**, for they are at different places. -/
theorem readBytes_of_mem_writes (hplan : Plan.make r.recordCount r.insertCountPerPartition = .ok plan)
    (h : Writes template r tree plan.partitions cs t) :
    ∀ c ∈ cs, t.readBytes c.path = .ok (Utf8.encode c.content.toList) := by
  obtain ⟨records, perPartition, -, -, -, hmax, rfl⟩ := Plan.exists_regular_of_make hplan
  have hpaths := paths_eq (Nat.le_trans hmax (by decide)) h
  intro c hc
  exact Files.Tree.readBytes_writeAll _ h.writeAll (pairwise_place? hpaths h.writeAll)
    (c.path, c.content) (List.mem_map_of_mem hc)

/-- A template that is none of the files of a run reads the same after it. -/
theorem readText_of_writes {text : String}
    (hapart : ∀ c ∈ cs, tree.place? r.templatePath ≠ tree.place? c.path)
    (hread : tree.readText r.templatePath = .ok text) {ps : List Partition}
    (h : Writes template r tree ps cs t) : t.readText r.templatePath = .ok text := by
  refine (Files.Tree.sameDirectories_writeAll _ h.writeAll).readText ?_ hread
  intro place hplace
  refine Files.Tree.item?_writeAll _ h.writeAll ?_
  intro file hfile hsame
  obtain ⟨c, hc, rfl⟩ := List.mem_map.1 hfile
  exact hapart c hc (hplace.trans hsame.symm)

/-- **A generation that ended well can be repeated**: run again on the tree it left, it ends with the
same plan and the same files, logs the same, and leaves the tree as it is.  The template must be none
of the files that are written. -/
theorem generate_again
    (hapart : ∀ file ∈ files, tree.place? r.templatePath ≠ tree.place? file)
    (h : (generate tree r confirm).result = .ok (.generated plan files)) :
    generate (generate tree r confirm).tree r confirm = generate tree r confirm := by
  obtain ⟨d, cs, t, hd, hconfirm, hwrites, hrun⟩ := exists_writes_of_generated h
  obtain ⟨hr, hplan, htemplate⟩ := prepare_eq_ok_iff.1 hd
  rw [hrun] at h ⊢
  cases h
  have hread := readBytes_of_mem_writes hplan hwrites
  have hagain := hwrites.again hread
  have htemplate' : t.readText r.templatePath = tree.readText r.templatePath := by
    rw [htemplate]
    exact readText_of_writes (fun c hc => hapart _ (List.mem_map_of_mem hc)) htemplate hwrites
  have hprepare := prepare_congr htemplate'
  have hfinish := finish_eq_of_writes (d := d) (by rwa [hr])
  rw [generate_eq_of_answered (hprepare ▸ hd) hconfirm, hprepare, hfinish]

/-- A directory with a template and a file in the place of an output, longer than what comes there. -/
def usedTree : Files.Tree :=
  { items := [(["template"], .file (Utf8.encode "from \x7b\x7binsertstart\x7d\x7d".toList)),
      (["out_1"], .file (Utf8.encode "of an earlier benchmark".toList))] }

/-- A request for two files from that template. -/
def usedRequest : Request :=
  { recordCount := some (.number (.ofNat 8)), operationCount := none
    insertCountPerPartition := some (.number (.ofNat 5)), hosts := none, threadCount := none
    templatePath := "./template", outputPathPrefix := "out" }

/-- The file that is there is replaced by the first run, and the second one replaces it by itself. -/
theorem generate_again_used :
    (∀ file ∈ ["out_0", "out_1"],
      usedTree.place? usedRequest.templatePath ≠ usedTree.place? file) ∧
    (generate usedTree usedRequest fun _ => .ok true).result
      = .ok (.generated (Plan.regular 2 5) ["out_0", "out_1"]) ∧
    generate (generate usedTree usedRequest fun _ => .ok true).tree usedRequest (fun _ => .ok true)
      = generate usedTree usedRequest fun _ => .ok true := by
  have hplan : Plan.make usedRequest.recordCount usedRequest.insertCountPerPartition
      = .ok (Plan.regular 2 5) :=
    Plan.make_ofNat (by decide) (by decide) (by decide) (by decide) (by decide)
  have hps : (Plan.regular 2 5).partitions
      = [Plan.partition (.ofNat 5) 0, Plan.partition (.ofNat 5) 1] := rfl
  have hrender : ∀ p ∈ (Plan.regular 2 5).partitions, ∃ text, Template.render
      "from \x7b\x7binsertstart\x7d\x7d" (context usedRequest p) = .ok text := by
    rw [hps, List.forall_mem_cons, List.forall_mem_singleton]
    exact ⟨⟨"from 0", by decide +kernel⟩, ⟨"from 5", by decide +kernel⟩⟩
  have hplaces : ∀ i < 2, usedTree.writePlace (outputPath usedRequest i)
      = .ok [outputPath usedRequest i] := by decide +kernel
  have hwritable : ∀ i < (Plan.regular 2 5).partitions.length,
      ∃ place, usedTree.writePlace (outputPath usedRequest i) = .ok place := by
    intro i hi
    rw [Plan.length_regular] at hi
    exact ⟨_, hplaces i hi⟩
  have hresult : (generate usedTree usedRequest fun _ => .ok true).result
      = .ok (.generated (Plan.regular 2 5) ["out_0", "out_1"]) :=
    result_of_writable hplan (by decide +kernel) hrender rfl hwritable
  have hapart : ∀ file ∈ ["out_0", "out_1"],
      usedTree.place? usedRequest.templatePath ≠ usedTree.place? file := by
    decide +kernel
  exact ⟨hapart, hresult, generate_again hapart hresult⟩

end Workload

end LoadTest
