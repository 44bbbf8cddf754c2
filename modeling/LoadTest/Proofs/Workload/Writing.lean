import LoadTest.Workload.Generation
import LoadTest.Proofs.Files.Frame
/-!
# How a generation goes on

The files of a plan are written one after the other.  `Writes` is the relation of a run of the loop
that nothing stops; a generation is such a run over all partitions, or over those before the first
one that is not rendered or not written.

* `writeFrom_append`: the loop takes up after such a run where the run ended.
* `exists_writes`: what it takes for nothing to stop it; `writes_or_stops`: how the loop can go.
* `finish_eq_of_writes`, `finish_eq_of_unrendered`, `finish_eq_of_unwritten`: what comes of it.
* `confirmed_or_unchanged`, `generate_of_confirmed`: the cases of a generation.
-/

namespace LoadTest

namespace Workload

variable {tree t t₁ : Files.Tree} {r : Request} {template : String} {p : Partition}
  {before rest ps : List Partition} {c : Config} {cs : List Config} {d : Draft}
  {confirm : Question → Except Failure Bool}

/-! ## Preparation -/

/-- **A request is ready** if it has a plan and its template can be read. -/
theorem prepare_eq_ok_iff : (prepare tree r).2 = .ok d ↔
    d.request = r ∧ Plan.make r.recordCount r.insertCountPerPartition = .ok d.plan ∧
      tree.readText r.templatePath = .ok d.template := by
  unfold prepare
  cases hplan : Plan.make r.recordCount r.insertCountPerPartition with
  | error e => simp
  | ok plan =>
    cases htemplate : tree.readText r.templatePath with
    | error e => simp
    | ok template =>
      constructor
      · intro h
        cases h
        exact ⟨rfl, rfl, rfl⟩
      · rintro ⟨hr, hp, ht⟩
        cases d
        cases hr
        cases hp
        cases ht
        rfl

/-- Of the tree, only the template is looked at. -/
theorem prepare_congr (h : t.readText r.templatePath = tree.readText r.templatePath) :
    prepare t r = prepare tree r := by
  rw [prepare, prepare, h]

/-! ## Files -/

theorem config_eq_error_iff {e : Template.Error} :
    config template r p = .error e ↔ Template.render template (context r p) = .error e := by
  rw [config]
  cases Template.render template (context r p) with
  | error e' => simp [Except.map]
  | ok content => simp [Except.map]

theorem config_eq_ok_iff : config template r p = .ok c ↔
    ∃ text, Template.render template (context r p) = .ok text ∧
      c = { partition := p, path := filePath r.outputPathPrefix p.index, content := text } := by
  rw [config]
  cases Template.render template (context r p) with
  | error e => simp [Except.map]
  | ok content => simp [Except.map, eq_comm]

/-! ## The loop -/

/-- The files of partitions are rendered and written in order, each of them, from one tree to
another. -/
inductive Writes (template : String) (r : Request) :
    Files.Tree → List Partition → List Config → Files.Tree → Prop
  | nil (tree : Files.Tree) : Writes template r tree [] [] tree
  | cons {tree t₁ t : Files.Tree} {p : Partition} {ps : List Partition} {c : Config}
      {cs : List Config} (rendered : config template r p = .ok c)
      (written : tree.writeText c.path c.content = .ok t₁) (rest : Writes template r t₁ ps cs t) :
      Writes template r tree (p :: ps) (c :: cs) t

/-- After a run over some partitions the loop goes on with the others. -/
theorem writeFrom_append (h : Writes template r tree before cs t) :
    ∀ (done : List Config) (rest : List Partition),
      writeFrom template r tree done (before ++ rest)
        = writeFrom template r t (cs.reverse ++ done) rest := by
  induction h with
  | nil tree => intro done rest; rfl
  | cons hrendered hwritten _ ih =>
    intro done rest
    rw [List.cons_append, writeFrom, hrendered]
    simp only [hwritten]
    rw [ih, List.reverse_cons, List.append_assoc, List.singleton_append]

theorem Writes.eq_of_nil (h : Writes template r tree [] cs t) : t = tree := by
  cases h
  rfl

/-- Each partition has its file among those of the run. -/
theorem Writes.getElem? (h : Writes template r tree ps cs t) :
    ∀ {i : Nat} {p : Partition}, ps[i]? = some p →
      ∃ c, cs[i]? = some c ∧ config template r p = .ok c := by
  induction h with
  | nil =>
    intro i p hp
    cases hp
  | cons hrendered _ _ ih =>
    intro i p hp
    cases i with
    | zero =>
      obtain rfl := Option.some.inj hp
      exact ⟨_, rfl, hrendered⟩
    | succ i => exact ih hp

theorem Writes.paths (h : Writes template r tree ps cs t) :
    cs.map (·.path) = ps.map fun p => filePath r.outputPathPrefix p.index := by
  induction h with
  | nil => rfl
  | cons hrendered _ _ ih =>
    obtain ⟨text, -, rfl⟩ := config_eq_ok_iff.1 hrendered
    rw [List.map_cons, List.map_cons, ih]

/-- What is logged of the files of a run. -/
theorem Writes.events (h : Writes template r tree ps cs t) :
    cs.map (fun c => Event.written c.path c.partition.insertStart)
      = ps.map fun p => Event.written (filePath r.outputPathPrefix p.index) p.insertStart := by
  induction h with
  | nil => rfl
  | cons hrendered _ _ ih =>
    obtain ⟨text, -, rfl⟩ := config_eq_ok_iff.1 hrendered
    rw [List.map_cons, List.map_cons, ih]

/-- A run writes its files and nothing else. -/
theorem Writes.writeAll (h : Writes template r tree ps cs t) :
    tree.writeAll (cs.map fun c => (c.path, c.content)) = .ok t := by
  induction h with
  | nil => rfl
  | cons _ hwritten _ ih => exact Files.Tree.writeAll_cons_eq_ok_iff.2 ⟨_, hwritten, ih⟩

/-- A run over a tree that holds its files already leaves it as it is. -/
theorem Writes.again (h : Writes template r tree ps cs t) {t' : Files.Tree}
    (hread : ∀ c ∈ cs, t'.readBytes c.path = .ok (Utf8.encode c.content.toList)) :
    Writes template r t' ps cs t' := by
  induction h with
  | nil => exact .nil t'
  | cons hrendered _ _ ih =>
    obtain ⟨hfirst, hrest⟩ := List.forall_mem_cons.1 hread
    exact .cons hrendered (Files.Tree.writeText_of_readBytes hfirst) (ih hrest)

/-- **Nothing stops the loop** over partitions that are all rendered and whose files can all be
written: what is written on the way makes no directory, and so none of the others impossible. -/
theorem exists_writes : ∀ (ps : List Partition) (tree : Files.Tree),
    (∀ p ∈ ps, ∃ text, Template.render template (context r p) = .ok text) →
    (∀ p ∈ ps, ∃ place, tree.writePlace (filePath r.outputPathPrefix p.index) = .ok place) →
      ∃ cs t, Writes template r tree ps cs t := by
  intro ps
  induction ps with
  | nil => intro tree _ _; exact ⟨[], tree, .nil tree⟩
  | cons p ps ih =>
    intro tree hrender hplace
    obtain ⟨⟨text, htext⟩, hrender⟩ := List.forall_mem_cons.1 hrender
    obtain ⟨⟨place, hfirst⟩, hplace⟩ := List.forall_mem_cons.1 hplace
    have hwritten : tree.writeText (filePath r.outputPathPrefix p.index) text
        = .ok (tree.put place (.file (Utf8.encode text.toList))) :=
      Files.Tree.writeText_eq_ok_iff.2 ⟨place, hfirst, rfl⟩
    have hsame := Files.Tree.sameDirectories_writeText hwritten
    obtain ⟨cs, t, h⟩ := ih _ hrender fun q hq =>
      (hplace q hq).imp fun _ hq => hsame.writePlace hq
    exact ⟨_, t, .cons (config_eq_ok_iff.2 ⟨text, htext, rfl⟩) hwritten h⟩

/-- **The loop goes through all partitions or stops at one**, which is not rendered or whose file
cannot be written. -/
theorem writes_or_stops (template : String) (r : Request) :
    ∀ (ps : List Partition) (tree : Files.Tree),
      (∃ cs t, Writes template r tree ps cs t) ∨
      ∃ before p rest cs t, ps = before ++ p :: rest ∧ Writes template r tree before cs t ∧
        ((∃ e, config template r p = .error e) ∨
          ∃ c e, config template r p = .ok c ∧ t.writeText c.path c.content = .error e) := by
  intro ps
  induction ps with
  | nil => intro tree; exact .inl ⟨[], tree, .nil tree⟩
  | cons p ps ih =>
    intro tree
    cases hrendered : config template r p with
    | error e => exact .inr ⟨[], p, ps, [], tree, rfl, .nil tree, .inl ⟨e, hrendered⟩⟩
    | ok c =>
      cases hwritten : tree.writeText c.path c.content with
      | error e =>
        exact .inr ⟨[], p, ps, [], tree, rfl, .nil tree, .inr ⟨c, e, hrendered, hwritten⟩⟩
      | ok t₁ =>
        rcases ih t₁ with ⟨cs, t, h⟩ | ⟨before, q, rest, cs, t, rfl, h, hstop⟩
        · exact .inl ⟨c :: cs, t, .cons hrendered hwritten h⟩
        · exact .inr ⟨p :: before, q, rest, c :: cs, t, rfl, .cons hrendered hwritten h, hstop⟩

/-! ## Ending a draft -/

/-- **All files are written**: the run logs and names them. -/
theorem finish_eq_of_writes (h : Writes d.template d.request tree d.plan.partitions cs t) :
    d.finish tree true
      = { events := (cs.map fun c => .written c.path c.partition.insertStart) ++ [.completed cs.length]
          result := .ok (.generated d.plan (cs.map (·.path))), tree := t } := by
  have hloop : writeFrom d.template d.request tree [] d.plan.partitions
      = { tree := t, written := cs, failure? := none } := by
    have := writeFrom_append h [] []
    rw [List.append_nil, List.append_nil, writeFrom, List.reverse_reverse] at this
    exact this
  rw [Draft.finish, if_pos rfl, hloop]
  simp only [List.length_map]

/-- **A file cannot be rendered**: the run logs the files before it and fails for that reason. -/
theorem finish_eq_of_unrendered {e : Template.Error}
    (hps : d.plan.partitions = before ++ p :: rest)
    (h : Writes d.template d.request tree before cs t)
    (he : config d.template d.request p = .error e) :
    d.finish tree true
      = { events := cs.map fun c => .written c.path c.partition.insertStart
          result := .error e.toFailure, tree := t } := by
  have hloop : writeFrom d.template d.request tree [] d.plan.partitions
      = { tree := t, written := cs, failure? := some e.toFailure } := by
    rw [hps, writeFrom_append h, writeFrom, he, List.append_nil, List.reverse_reverse]
  rw [Draft.finish, if_pos rfl, hloop]

/-- **A file cannot be written**: the run logs the files before it and fails for that reason. -/
theorem finish_eq_of_unwritten {e : Files.Error} (hps : d.plan.partitions = before ++ p :: rest)
    (h : Writes d.template d.request tree before cs t)
    (hc : config d.template d.request p = .ok c)
    (he : t.writeText c.path c.content = .error e) :
    d.finish tree true
      = { events := cs.map fun c => .written c.path c.partition.insertStart
          result := .error e.asOutput, tree := t } := by
  have hloop : writeFrom d.template d.request tree [] d.plan.partitions
      = { tree := t, written := cs, failure? := some e.asOutput } := by
    rw [hps, writeFrom_append h, writeFrom, hc]
    simp only [he, List.append_nil, List.reverse_reverse]
  rw [Draft.finish, if_pos rfl, hloop]

/-! ## A generation -/

theorem generate_eq_of_unprepared {f : Failure} (h : (prepare tree r).2 = .error f) :
    generate tree r confirm
      = { events := (prepare tree r).1, result := .error f, tree := tree } := by
  unfold generate
  split
  · rename_i heq
    rw [heq] at h
    cases h
    rw [heq]
  · rename_i heq
    rw [heq] at h
    cases h

theorem generate_eq_of_unanswered {f : Failure} (h : (prepare tree r).2 = .ok d)
    (hf : confirm d.question = .error f) :
    generate tree r confirm
      = { events := (prepare tree r).1, result := .error f, tree := tree } := by
  unfold generate
  split
  · rename_i heq
    rw [heq] at h
    cases h
  · rename_i heq
    rw [heq] at h
    cases h
    rw [hf, heq]

theorem generate_eq_of_answered {answer : Bool} (h : (prepare tree r).2 = .ok d)
    (ha : confirm d.question = .ok answer) :
    generate tree r confirm
      = { d.finish tree answer with
          events := (prepare tree r).1 ++ (d.finish tree answer).events } := by
  unfold generate
  split
  · rename_i heq
    rw [heq] at h
    cases h
  · rename_i heq
    rw [heq] at h
    cases h
    rw [ha, heq]

/-- **The operator said yes, or the tree is as it was** and no files were generated. -/
theorem confirmed_or_unchanged (tree : Files.Tree) (r : Request)
    (confirm : Question → Except Failure Bool) :
    (∃ d, (prepare tree r).2 = .ok d ∧ confirm d.question = .ok true) ∨
      (generate tree r confirm).tree = tree ∧
        ∀ plan files, (generate tree r confirm).result ≠ .ok (.generated plan files) := by
  cases hd : (prepare tree r).2 with
  | error f =>
    rw [generate_eq_of_unprepared hd]
    exact .inr ⟨rfl, fun _ _ => nofun⟩
  | ok d =>
    cases hanswer : confirm d.question with
    | error f =>
      rw [generate_eq_of_unanswered hd hanswer]
      exact .inr ⟨rfl, fun _ _ => nofun⟩
    | ok answer =>
      cases answer with
      | true => exact .inl ⟨d, rfl, hanswer⟩
      | false =>
        rw [generate_eq_of_answered hd hanswer]
        exact .inr ⟨rfl, fun _ _ => nofun⟩

/-- **A confirmed generation** is a run of the loop over all partitions, or over those before one
that is not rendered or not written. -/
theorem generate_of_confirmed (hd : (prepare tree r).2 = .ok d)
    (hconfirm : confirm d.question = .ok true) :
    (∃ cs, Writes d.template r tree d.plan.partitions cs (generate tree r confirm).tree ∧
      (generate tree r confirm).result = .ok (.generated d.plan (cs.map (·.path)))) ∨
    ∃ before p rest cs, d.plan.partitions = before ++ p :: rest ∧
      Writes d.template r tree before cs (generate tree r confirm).tree ∧
      ((∃ e, config d.template r p = .error e ∧
          (generate tree r confirm).result = .error e.toFailure) ∨
        ∃ c e, config d.template r p = .ok c ∧
          (generate tree r confirm).tree.writeText c.path c.content = .error e ∧
          (generate tree r confirm).result = .error e.asOutput) := by
  rw [generate_eq_of_answered hd hconfirm]
  obtain ⟨rfl, -, -⟩ := prepare_eq_ok_iff.1 hd
  rcases writes_or_stops d.template d.request d.plan.partitions tree with
    ⟨cs, t, h⟩ | ⟨before, p, rest, cs, t, hps, h, ⟨e, he⟩ | ⟨c, e, hc, he⟩⟩
  · rw [finish_eq_of_writes h]
    exact .inl ⟨cs, h, rfl⟩
  · rw [finish_eq_of_unrendered hps h he]
    exact .inr ⟨before, p, rest, cs, hps, h, .inl ⟨e, he, rfl⟩⟩
  · rw [finish_eq_of_unwritten hps h hc he]
    exact .inr ⟨before, p, rest, cs, hps, h, .inr ⟨c, e, hc, he, rfl⟩⟩

/-- **A generation that ends well** is a run of the loop over all partitions. -/
theorem exists_writes_of_generated {plan : Plan} {files : List String}
    (h : (generate tree r confirm).result = .ok (.generated plan files)) :
    ∃ d cs t, (prepare tree r).2 = .ok d ∧ confirm d.question = .ok true ∧
      Writes d.template r tree d.plan.partitions cs t ∧
      generate tree r confirm
        = { events := (prepare tree r).1 ++ ((cs.map fun c =>
              .written c.path c.partition.insertStart) ++ [.completed cs.length])
            result := .ok (.generated d.plan (cs.map (·.path))), tree := t } := by
  rcases confirmed_or_unchanged tree r confirm with ⟨d, hd, hconfirm⟩ | ⟨-, hnot⟩
  · obtain ⟨hr, -, -⟩ := prepare_eq_ok_iff.1 hd
    rcases generate_of_confirmed hd hconfirm with
      ⟨cs, hwrites, -⟩ | ⟨before, p, rest, cs, -, -, ⟨e, -, hresult⟩ | ⟨c, e, -, -, hresult⟩⟩
    · have hfinish := finish_eq_of_writes (d := d) (by rwa [hr])
      exact ⟨d, cs, _, hd, hconfirm, hwrites, by rw [generate_eq_of_answered hd hconfirm, hfinish]⟩
    · rw [hresult] at h
      cases h
    · rw [hresult] at h
      cases h
  · exact absurd h (hnot plan files)

end Workload

end LoadTest
