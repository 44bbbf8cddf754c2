import LoadTest.Proofs.Workload.ExactOutput
/-!
# A failed write

The files of a generation are written in order, so a path that cannot be written to divides them:
those before it are complete, and it and those after it are as they were.  The failure names the path
and the log ends with the file before it.

* `writePlace_outputPath`: the other files of a run decide nothing about whether a path can be
  written to.
* `HoldsFirst`: a tree holds the first files of a plan and is an earlier tree otherwise.
* `generate_of_unwritable`: so it is after a generation that comes upon such a path.
-/

namespace LoadTest

/-- The message of a log entry. -/
def Entry.message? (e : Entry) : Option String :=
  (e.content?.bind (Value.field? "message")).bind Value.text?

theorem Entry.message?_note (level : Level) (message : String) (fields : List (String × Value)) :
    (Entry.note level message fields).message? = some message := rfl

namespace Workload

open Binary64

attribute [local irreducible] unitsPerOne overflow

variable {tree t : Files.Tree} {r : Request} {confirm : Question → Except Failure Bool}
  {plan : Plan} {template : String} {cs : List Config} {k n perPartition : Nat}

/-! ## Paths that can be written to -/

/-- **Whether the path of an index can be written to** is not changed by writing those of other
indexes, and neither is the reason why it cannot. -/
theorem writePlace_outputPath {ps : List Partition}
    (hps : ps.map (fun p => filePath r.outputPathPrefix p.index) = (List.range k).map (outputPath r))
    (h : Writes template r tree ps cs t) (i : Nat) :
    t.writePlace (outputPath r i) = tree.writePlace (outputPath r i) := by
  have hsame := Files.Tree.sameDirectories_writeAll _ h.writeAll
  refine hsame.writePlace_of_target ?_
  cases k with
  | zero =>
    obtain rfl : ps = [] := by simpa using hps
    rw [h.eq_of_nil]
  | succ k =>
    -- the first file was written, so the directory of all of them is there
    obtain ⟨place, hplace⟩ :=
      exists_place?_outputPath (h.paths.trans hps) h.writeAll k.succ_pos
    rw [outputPath_eq] at hplace
    rw [outputPath_eq]
    exact hsame.target_append (outputSuffix_isName 0) (outputSuffix_isName i) hplace

/-! ## The first files of a plan -/

/-- **A tree holds the first files of a plan**: the files of the partitions before an index hold the
template in the contexts of these partitions, and all else is as in an earlier tree. -/
structure HoldsFirst (earlier tree : Files.Tree) (r : Request) (plan : Plan) (template : String)
    (k : Nat) : Prop where
  content : ∀ i p, i < k → plan.partitions[i]? = some p →
    ∃ text, Template.render template (context r p) = .ok text ∧
      tree.readBytes (outputPath r i) = .ok (Utf8.encode text.toList)
  /-- The file of the index and those after it hold what they held before, if they were there. -/
  later : ∀ i, k ≤ i →
    (tree.readBytes (outputPath r i)).toOption = (earlier.readBytes (outputPath r i)).toOption
  /-- A path to another place leads to what it led to before. -/
  path : ∀ path, (∀ i < k, earlier.place? path ≠ earlier.place? (outputPath r i)) →
    (tree.readBytes path).toOption = (earlier.readBytes path).toOption
  /-- At other places is what was there before. -/
  item : ∀ place, (∀ i < k, earlier.place? (outputPath r i) ≠ some place) →
    tree.item? place = earlier.item? place
  /-- No directory was made or removed. -/
  directories : Files.Tree.SameDirectories earlier tree

/-- A run over the partitions before an index. -/
theorem holdsFirst_of_writes (hk : k ≤ n) (hn : n ≤ maxSafe)
    (htemplate : tree.readText r.templatePath = .ok template)
    (h : Writes template r tree (Plan.regular k perPartition).partitions cs t) :
    HoldsFirst tree t r (Plan.regular n perPartition) template k := by
  have hk' : k ≤ maxSafe := hk.trans hn
  have hholds := holdsPlan_of_writes hk' htemplate h
  have hpaths := paths_eq hk' h
  have hpath : ∀ path, (∀ i < k, tree.place? path ≠ tree.place? (outputPath r i)) →
      (t.readBytes path).toOption = (tree.readBytes path).toOption := by
    intro path hother
    refine hholds.path path ?_
    rw [hpaths]
    intro file hfile
    obtain ⟨i, hi, rfl⟩ := List.mem_map.1 hfile
    exact hother i (List.mem_range.1 hi)
  refine ⟨?_, ?_, hpath, ?_, hholds.directories⟩
  · intro i p hi hp
    rw [Plan.getElem?_regular _ (hi.trans_le hk), ← Plan.getElem?_regular _ hi] at hp
    exact readBytes_of_writes hk' h hp
  · intro i hi
    refine hpath _ ?_
    intro j hj hsame
    obtain ⟨place, hplace⟩ := exists_place?_outputPath hpaths h.writeAll hj
    have hij := place?_outputPath_injective (hsame.trans hplace) hplace
    omega
  · intro place hother
    refine hholds.item place ?_
    rw [hpaths]
    intro file hfile
    obtain ⟨i, hi, rfl⟩ := List.mem_map.1 hfile
    exact hother i (List.mem_range.1 hi)

/-! ## The log -/

/-- What is logged before the operator is asked is neither about a file nor about the end. -/
theorem message?_of_mem_prepare {event : Event} (h : event ∈ (prepare tree r).1) :
    event.toEntry.message? ≠ some "Workload file written" ∧
      event.toEntry.message? ≠ some "Workload files generated" := by
  have hcases : (∃ n records count, event = .planned n records count) ∨
      ∃ path names, event = .unresolved path names := by
    unfold prepare at h
    split at h
    · cases h
    · split at h
      · exact .inl ⟨_, _, _, List.mem_singleton.1 h⟩
      · rcases List.mem_cons.1 h with heq | h
        · exact .inl ⟨_, _, _, heq⟩
        · split at h
          · cases h
          · exact .inr ⟨_, _, List.mem_singleton.1 h⟩
  rcases hcases with ⟨n, records, count, rfl⟩ | ⟨path, names, rfl⟩
  all_goals simp [Event.toEntry, Entry.message?_note]

/-- The entries of a log that have a message. -/
def entriesOf (message : String) (events : List Event) : List Entry :=
  (events.map Event.toEntry).filter fun e => e.message? == some message

theorem entriesOf_prepare_append {message : String} (events : List Event)
    (h : ∀ event ∈ (prepare tree r).1, event.toEntry.message? ≠ some message) :
    entriesOf message ((prepare tree r).1 ++ events) = entriesOf message events := by
  have hnone : entriesOf message (prepare tree r).1 = [] := by
    rw [entriesOf, List.filter_eq_nil_iff]
    intro e he
    obtain ⟨event, hevent, rfl⟩ := List.mem_map.1 he
    simpa using h event hevent
  rw [entriesOf, List.map_append, List.filter_append, ← entriesOf, hnone, List.nil_append,
    entriesOf]

/-- The entry about the file of an index. -/
def writtenEntry (r : Request) (i : Nat) (p : Partition) : Entry :=
  .note .debug "Workload file written"
    [("path", .text (outputPath r i)), ("insertStart", .number p.insertStart)]

theorem message?_writtenEntry (r : Request) (i : Nat) (p : Partition) :
    (writtenEntry r i p).message? = some "Workload file written" := rfl

/-- What is logged of a run over the first partitions of a plan. -/
theorem map_toEntry_of_writes (hk : k ≤ n) (hn : n ≤ maxSafe)
    (h : Writes template r tree (Plan.regular k perPartition).partitions cs t) :
    (cs.map fun c => Event.written c.path c.partition.insertStart).map Event.toEntry
      = ((Plan.regular n perPartition).partitions.take k).mapIdx (writtenEntry r) := by
  rw [h.events, Plan.take_regular _ hk, Plan.regular, List.map_map, List.map_map]
  refine List.ext_getElem? fun i => ?_
  rw [List.getElem?_mapIdx, List.getElem?_map, List.getElem?_map]
  by_cases hi : i < k
  · have hindex : (Plan.partition (ofNat perPartition) i).index = ofNat i := rfl
    rw [List.getElem?_range hi, Option.map_some, Option.map_some, Option.map_some,
      Function.comp_apply, Function.comp_apply, Event.toEntry, hindex,
      filePath_ofNat r (by omega), writtenEntry]
  · rw [List.getElem?_eq_none (by simpa using hi)]
    rfl

/-! ## Runs that stop at a file -/

/-- **The run stops at the first path that cannot be written to**, after the partitions before it. -/
theorem exists_generate_of_unwritable {d : Draft} {cause : Files.Cause}
    (hd : (prepare tree r).2 = .ok d) (hconfirm : confirm d.question = .ok true)
    (hplan : d.plan = Plan.regular n perPartition) (hn : n ≤ maxSafe) (hk : k < n)
    (hrender : ∀ p ∈ d.plan.partitions, ∃ text, Template.render d.template (context r p) = .ok text)
    (hwritable : ∀ i < k, ∃ place, tree.writePlace (outputPath r i) = .ok place)
    (hunwritable : tree.writePlace (outputPath r k) = .error cause) :
    ∃ cs t, Writes d.template r tree (Plan.regular k perPartition).partitions cs t ∧
      generate tree r confirm
        = { events := (prepare tree r).1
              ++ cs.map fun c => .written c.path c.partition.insertStart
            result := .error (Files.Error.asOutput ⟨cause, outputPath r k⟩), tree := t } := by
  obtain ⟨hr, -, -⟩ := prepare_eq_ok_iff.1 hd
  have hsplit : d.plan.partitions = (Plan.regular k perPartition).partitions
      ++ Plan.partition (.ofNat perPartition) k :: d.plan.partitions.drop (k + 1) := by
    obtain ⟨hlt, hget⟩ := List.getElem?_eq_some_iff.1 (Plan.getElem?_regular perPartition hk)
    rw [hplan, ← Plan.take_regular _ hk.le, ← hget, List.getElem_cons_drop, List.take_append_drop]
  have hpath : ∀ i ≤ k, filePath r.outputPathPrefix (Plan.partition (.ofNat perPartition) i).index
      = outputPath r i := fun i hi => filePath_ofNat r (by omega)
  have hbefore : ∃ cs t, Writes d.template r tree (Plan.regular k perPartition).partitions cs t := by
    refine exists_writes _ tree ?_ ?_
    · intro p hp
      refine hrender p ?_
      rw [hsplit]
      exact List.mem_append_left _ hp
    · intro p hp
      obtain ⟨i, hi, rfl⟩ := List.mem_map.1 hp
      rw [hpath i (List.mem_range.1 hi).le]
      exact hwritable i (List.mem_range.1 hi)
  obtain ⟨cs, t, h⟩ := hbefore
  have hmem : Plan.partition (.ofNat perPartition) k ∈ d.plan.partitions := by
    rw [hsplit]
    exact List.mem_append_right _ (List.mem_cons_self ..)
  obtain ⟨text, htext⟩ := hrender _ hmem
  have hpaths := h.paths.symm.trans (paths_eq (by omega) h)
  have hfail : t.writeText (filePath r.outputPathPrefix
      (Plan.partition (.ofNat perPartition) k).index) text = .error ⟨cause, outputPath r k⟩ := by
    rw [hpath k (Nat.le_refl k)]
    refine Files.Tree.writeText_of_writePlace text ?_
    rw [writePlace_outputPath hpaths h, hunwritable]
  refine ⟨cs, t, h, ?_⟩
  have hfinish := finish_eq_of_unwritten (d := d) hsplit (by rwa [hr])
    (config_eq_ok_iff.2 ⟨text, by rwa [hr], rfl⟩) (by rwa [hr])
  rw [generate_eq_of_answered hd hconfirm, hfinish]

/-- **A failed write stops a generation at one point.**  If the plan and the template of a request
are good and the operator says yes, and the path of an index is the first that cannot be written to,
then the generation fails for that path and the reason why it cannot, the tree holds the files before
it and is as it was otherwise, and the log names these files and no end. -/
theorem generate_of_unwritable {cause : Files.Cause}
    (hplan : Plan.make r.recordCount r.insertCountPerPartition = .ok plan)
    (htemplate : tree.readText r.templatePath = .ok template)
    (hrender : ∀ p ∈ plan.partitions, ∃ text, Template.render template (context r p) = .ok text)
    (hconfirm : confirm { numPartitions := plan.numPartitions
                          outputPathPrefix := r.outputPathPrefix } = .ok true)
    (hk : k < plan.partitions.length)
    (hwritable : ∀ i < k, ∃ place, tree.writePlace (outputPath r i) = .ok place)
    (hunwritable : tree.writePlace (outputPath r k) = .error cause) :
    (generate tree r confirm).result
        = .error (.reported .outputWrite ("Failed to write \"" ++ outputPath r k ++ "\"")
            (some (.record [("filePath", .text (outputPath r k))]))
            (some (.fault (Files.Error.toFault ⟨cause, outputPath r k⟩)))) ∧
      HoldsFirst tree (generate tree r confirm).tree r plan template k ∧
      entriesOf "Workload file written" (generate tree r confirm).events
        = (plan.partitions.take k).mapIdx (writtenEntry r) ∧
      entriesOf "Workload files generated" (generate tree r confirm).events = [] := by
  obtain ⟨records, perPartition, -, -, -, hmax, rfl⟩ := Plan.exists_regular_of_make hplan
  rw [Plan.length_regular] at hk
  have hn : ceilQuotient records perPartition ≤ maxSafe := Nat.le_trans hmax (by decide)
  have hd : (prepare tree r).2
      = .ok ⟨r, Plan.regular (ceilQuotient records perPartition) perPartition, template⟩ :=
    prepare_eq_ok_iff.2 ⟨rfl, hplan, htemplate⟩
  obtain ⟨cs, t, h, hrun⟩ := exists_generate_of_unwritable hd hconfirm rfl hn hk hrender hwritable
    hunwritable
  have hentries := map_toEntry_of_writes hk.le hn h
  rw [hrun]
  refine ⟨rfl, holdsFirst_of_writes hk.le hn htemplate h, ?_, ?_⟩
  · rw [entriesOf_prepare_append _ fun event hevent => (message?_of_mem_prepare hevent).1,
      entriesOf, hentries, List.filter_eq_self]
    intro e he
    obtain ⟨i, hi, rfl⟩ := List.mem_mapIdx.1 he
    rw [message?_writtenEntry, beq_self_eq_true]
  · rw [entriesOf_prepare_append _ fun event hevent => (message?_of_mem_prepare hevent).2,
      entriesOf, hentries, List.filter_eq_nil_iff]
    intro e he
    obtain ⟨i, hi, rfl⟩ := List.mem_mapIdx.1 he
    rw [message?_writtenEntry]
    decide

/-- A directory with a template and another directory in the way of a file. -/
def blockedTree : Files.Tree :=
  { items := [(["template"], .file (Utf8.encode "from \x7b\x7binsertstart\x7d\x7d".toList)),
      (["out_1"], .directory)] }

/-- A request for three files from that template, the second of them in that place. -/
def blockedRequest : Request :=
  { recordCount := some (.number (.ofNat 12)), operationCount := none
    insertCountPerPartition := some (.number (.ofNat 5)), hosts := none, threadCount := none
    templatePath := "template", outputPathPrefix := "out" }

/-- The run stops at the second file: the first one is written and the third one is not. -/
theorem generate_of_unwritable_blocked :
    Plan.make blockedRequest.recordCount blockedRequest.insertCountPerPartition
        = .ok (Plan.regular 3 5) ∧
      blockedTree.readText blockedRequest.templatePath
        = .ok "from \x7b\x7binsertstart\x7d\x7d" ∧
      (∀ p ∈ (Plan.regular 3 5).partitions, ∃ text, Template.render
        "from \x7b\x7binsertstart\x7d\x7d" (context blockedRequest p) = .ok text) ∧
      1 < (Plan.regular 3 5).partitions.length ∧
      (∀ i < 1, ∃ place, blockedTree.writePlace (outputPath blockedRequest i) = .ok place) ∧
      blockedTree.writePlace (outputPath blockedRequest 1) = .error .isADirectory ∧
      (generate blockedTree blockedRequest fun _ => .ok true).result
        = .error (.reported .outputWrite ("Failed to write \"" ++ outputPath blockedRequest 1 ++ "\"")
            (some (.record [("filePath", .text (outputPath blockedRequest 1))]))
            (some (.fault (Files.Error.toFault ⟨.isADirectory, outputPath blockedRequest 1⟩)))) ∧
      HoldsFirst blockedTree (generate blockedTree blockedRequest fun _ => .ok true).tree
        blockedRequest (Plan.regular 3 5) "from \x7b\x7binsertstart\x7d\x7d" 1 ∧
      entriesOf "Workload file written"
          (generate blockedTree blockedRequest fun _ => .ok true).events
        = [writtenEntry blockedRequest 0 (Plan.partition (.ofNat 5) 0)] ∧
      entriesOf "Workload files generated"
        (generate blockedTree blockedRequest fun _ => .ok true).events = [] := by
  have hR : Plan.IsCount blockedRequest.recordCount 12 := ⟨rfl, by decide, by decide⟩
  have hC : Plan.IsCount blockedRequest.insertCountPerPartition 5 := ⟨rfl, by decide, by decide⟩
  have hplan : Plan.make blockedRequest.recordCount blockedRequest.insertCountPerPartition
      = .ok (Plan.regular 3 5) := by
    rw [Plan.make_of_isCount hR hC (by decide), if_neg (by decide)]
    rfl
  have htemplate : blockedTree.readText blockedRequest.templatePath
      = .ok "from \x7b\x7binsertstart\x7d\x7d" := by decide +kernel
  have hrender : ∀ p ∈ (Plan.regular 3 5).partitions, ∃ text, Template.render
      "from \x7b\x7binsertstart\x7d\x7d" (context blockedRequest p) = .ok text := by
    have hps : (Plan.regular 3 5).partitions = [Plan.partition (.ofNat 5) 0,
        Plan.partition (.ofNat 5) 1, Plan.partition (.ofNat 5) 2] := rfl
    rw [hps, List.forall_mem_cons, List.forall_mem_cons, List.forall_mem_singleton]
    exact ⟨⟨"from 0", by decide +kernel⟩, ⟨"from 5", by decide +kernel⟩,
      ⟨"from 10", by decide +kernel⟩⟩
  have hwritable : ∀ i < 1, ∃ place,
      blockedTree.writePlace (outputPath blockedRequest i) = .ok place := by
    intro i hi
    obtain rfl : i = 0 := by omega
    exact ⟨["out_0"], by decide +kernel⟩
  have hunwritable : blockedTree.writePlace (outputPath blockedRequest 1)
      = .error .isADirectory := by decide +kernel
  have hk : 1 < (Plan.regular 3 5).partitions.length := by
    rw [Plan.length_regular]
    decide
  exact ⟨hplan, htemplate, hrender, hk, hwritable, hunwritable,
    generate_of_unwritable hplan htemplate hrender rfl hk hwritable hunwritable⟩

end Workload

end LoadTest
