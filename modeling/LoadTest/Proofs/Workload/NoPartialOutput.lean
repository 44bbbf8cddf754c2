import LoadTest.Proofs.Partition.Tiling
import LoadTest.Proofs.Template.Failing
import LoadTest.Proofs.Workload.Writing
/-!
# No partial output

The files of a generation are rendered one by one between writes, so a template that fails for a
later partition only would leave the files of the earlier ones behind.  There is no such template
among those that ask for no built-in member: the context of the first partition is lower than all
others, for its records start at zero.

* `lowers_context`: the context of the first partition against those of the others.
* `generate_leaves_tree`: a generation that ends early without a failed write leaves nothing.
-/

namespace LoadTest

namespace Workload

open Binary64

attribute [local irreducible] unitsPerOne overflow

variable {tree : Files.Tree} {r : Request} {confirm : Question → Except Failure Bool}
  {p p₀ : Partition} {plan : Plan} {template : String}

/-! ## Contexts of a plan -/

/-- The parameters after those of the partition. -/
def commonParameters (r : Request) : Template.Context :=
  ((parameters r none none).drop 4).map fun (name, v?) => (name, .ofValue v?)

theorem context_eq (r : Request) (p : Partition) :
    context r p = ("recordcount", .ofValue r.recordCount) ::
      ("operationcount", .ofValue r.operationCount) :: ("insertstart", .number p.insertStart) ::
        ("insertcount", .number p.insertCount) :: commonParameters r := rfl

/-- A partition of the same size whose start counts as false has a lower context. -/
theorem lowers_context (hcount : p₀.insertCount = p.insertCount)
    (hstart : (Template.Item.scalar (.number p₀.insertStart)).isTrue = false) :
    (context r p₀).Lowers (context r p) := by
  intro name
  rw [context_eq, context_eq, hcount]
  by_cases hrecord : name = "recordcount"
  · rw [hrecord]
    exact .inl rfl
  · by_cases hoperation : name = "operationcount"
    · rw [hoperation]
      exact .inl rfl
    · by_cases hname : name = "insertstart"
      · rw [hname]
        exact .inr ⟨p.insertStart, p₀.insertStart, rfl, rfl, hstart⟩
      · refine .inl ?_
        simp only [List.lookup_cons, beq_eq_false_iff_ne.2 hrecord,
          beq_eq_false_iff_ne.2 hoperation, beq_eq_false_iff_ne.2 hname]

theorem isTrue_zero : (Template.Item.scalar (.number (.ofNat 0))).isTrue = false := by
  have heq : (ofNat 0).eq 0 = true := (eq_iff_of_toInt? toInt?_zero toInt?_zero).2 rfl
  rw [Template.Item.isTrue, heq, Bool.or_true]
  rfl

/-- **Plans have a first partition**, whose context is lower than those of all partitions. -/
theorem exists_first_partition
    (h : Plan.make r.recordCount r.insertCountPerPartition = .ok plan) :
    ∃ p₀ ps, plan.partitions = p₀ :: ps ∧
      ∀ p ∈ plan.partitions, (context r p₀).Lowers (context r p) := by
  obtain ⟨records, perPartition, hR, hC, hle, -, rfl⟩ := Plan.exists_regular_of_make h
  have hpos := ceilQuotient_pos (Nat.lt_of_lt_of_le hC.2.1 hle) hC.2.1
  obtain ⟨n, hn⟩ := Nat.exists_eq_add_one_of_ne_zero hpos.ne'
  have hper : perPartition ≤ 2 ^ 53 := Nat.le_trans hC.2.2 (by decide)
  rw [hn]
  refine ⟨Plan.partition (.ofNat perPartition) 0, _, by
    rw [Plan.regular, List.range_succ_eq_map, List.map_cons], ?_⟩
  intro p hp
  obtain ⟨i, -, rfl⟩ := List.mem_map.1 hp
  refine lowers_context rfl ?_
  rw [Plan.partition_ofNat (by decide) hper, Nat.zero_mul]
  exact isTrue_zero

/-! ## Runs that end early -/

/-- A template that fails for a partition of a plan fails for the first one. -/
theorem exists_first_unrendered
    (h : Plan.make r.recordCount r.insertCountPerPartition = .ok plan)
    (hasks : Template.asksBuiltIn template = false) (hp : p ∈ plan.partitions)
    {e : Template.Error} (he : Template.render template (context r p) = .error e) :
    ∃ p₀ ps, plan.partitions = p₀ :: ps ∧
      Template.render template (context r p₀) = .error e := by
  obtain ⟨p₀, ps, hps, hlowers⟩ := exists_first_partition h
  exact ⟨p₀, ps, hps, Template.render_of_lowers (hlowers p hp) hasks he⟩

/-- **The failure was raised by writing a file**: the operator said yes, the files of some
partitions were rendered and written, and that of the next one was rendered, but could not be
written. -/
inductive RaisedByWriting (tree : Files.Tree) (r : Request)
    (confirm : Question → Except Failure Bool) : Failure → Prop
  | intro {d : Draft} {before rest : List Partition} {p : Partition} {cs : List Config}
      {t : Files.Tree} {c : Config} {e : Files.Error} (prepared : (prepare tree r).2 = .ok d)
      (confirmed : confirm d.question = .ok true) (split : d.plan.partitions = before ++ p :: rest)
      (written : Writes d.template r tree before cs t) (rendered : config d.template r p = .ok c)
      (unwritten : t.writeText c.path c.content = .error e) :
      RaisedByWriting tree r confirm e.asOutput

/-- A failure that was raised by writing a file is the one with which the generation ends. -/
theorem result_of_raisedByWriting {f : Failure} (h : RaisedByWriting tree r confirm f) :
    (generate tree r confirm).result = .error f := by
  obtain ⟨hd, hconfirm, hps, hwrites, hc, he⟩ := h
  obtain ⟨rfl, -, -⟩ := prepare_eq_ok_iff.1 hd
  rw [generate_eq_of_answered hd hconfirm, finish_eq_of_unwritten hps hwrites hc he]

/-- A partition that is not rendered is the first one, so nothing was written before it. -/
theorem eq_nil_of_unrendered {d : Draft} {before rest : List Partition} {cs : List Config}
    {t : Files.Tree} {e : Template.Error} (hd : (prepare tree r).2 = .ok d)
    (hasks : Template.asksBuiltIn d.template = false)
    (hps : d.plan.partitions = before ++ p :: rest) (h : Writes d.template r tree before cs t)
    (he : config d.template r p = .error e) : before = [] := by
  obtain ⟨-, hplan, -⟩ := prepare_eq_ok_iff.1 hd
  have hp : p ∈ d.plan.partitions := by simp [hps]
  obtain ⟨p₀, ps, hfirst, he₀⟩ := exists_first_unrendered hplan hasks hp (config_eq_error_iff.1 he)
  cases h with
  | nil => rfl
  | cons hrendered =>
    rw [hps, List.cons_append, List.cons.injEq] at hfirst
    rw [hfirst.1, config_eq_error_iff.2 he₀] at hrendered
    cases hrendered

/-- The template of a request, if it can be read, asks for no built-in member. -/
def AsksNoBuiltIn (tree : Files.Tree) (r : Request) : Prop :=
  ∀ template, tree.readText r.templatePath = .ok template → Template.asksBuiltIn template = false

/-- **Either the tree is as it was, or all files were written, or writing one failed**, if the
template asks for no built-in member. -/
theorem generate_cases (confirm : Question → Except Failure Bool) (hasks : AsksNoBuiltIn tree r) :
    (generate tree r confirm).tree = tree ∨
      (∃ plan files, (generate tree r confirm).result = .ok (.generated plan files)) ∨
      ∃ f, RaisedByWriting tree r confirm f := by
  rcases confirmed_or_unchanged tree r confirm with ⟨d, hd, hconfirm⟩ | ⟨htree, -⟩
  · rcases generate_of_confirmed hd hconfirm with
      ⟨cs, -, hresult⟩ | ⟨before, p, rest, cs, hps, h, ⟨e, he, -⟩ | ⟨c, e, hc, he, -⟩⟩
    · exact .inr (.inl ⟨_, _, hresult⟩)
    · obtain ⟨-, -, htemplate⟩ := prepare_eq_ok_iff.1 hd
      obtain rfl := eq_nil_of_unrendered hd (hasks _ htemplate) hps h he
      exact .inl h.eq_of_nil
    · exact .inr (.inr ⟨e.asOutput, hd, hconfirm, hps, h, hc, he⟩)
  · exact .inl htree

/-- **A generation that was declined** leaves the tree as it is, whatever the template. -/
theorem tree_of_declined (h : (generate tree r confirm).result = .ok (.declined plan)) :
    (generate tree r confirm).tree = tree := by
  rcases confirmed_or_unchanged tree r confirm with ⟨d, hd, hconfirm⟩ | ⟨htree, -⟩
  · rcases generate_of_confirmed hd hconfirm with
      ⟨cs, -, hresult⟩ | ⟨before, p, rest, cs, -, -, ⟨e, -, hresult⟩ | ⟨c, e, -, -, hresult⟩⟩
    all_goals
      rw [hresult] at h
      cases h
  · exact htree

/-- **A generation leaves no partial output but on a failed write.**  The tree is as it was after a
generation that the operator declined and, if the template asks for no built-in member, after one
that failed for any reason but a file that could not be written.  Such a template that cannot be
rendered for some partition of the plan cannot be rendered for the first one, for the same reason. -/
theorem generate_leaves_tree (tree : Files.Tree) (r : Request)
    (confirm : Question → Except Failure Bool) :
    (∀ plan, (generate tree r confirm).result = .ok (.declined plan) →
      (generate tree r confirm).tree = tree) ∧
    (∀ f, (generate tree r confirm).result = .error f → ¬ RaisedByWriting tree r confirm f →
      AsksNoBuiltIn tree r → (generate tree r confirm).tree = tree) ∧
    (∀ plan template e, Plan.make r.recordCount r.insertCountPerPartition = .ok plan →
      Template.asksBuiltIn template = false →
      (∃ p ∈ plan.partitions, Template.render template (context r p) = .error e) →
        ∃ p₀, plan.partitions.head? = some p₀ ∧
          Template.render template (context r p₀) = .error e) := by
  refine ⟨fun _ => tree_of_declined, ?_, ?_⟩
  · intro f hf hnot hasks
    rcases generate_cases confirm hasks with htree | ⟨plan', files, hresult⟩ | ⟨f', hf'⟩
    · exact htree
    · rw [hf] at hresult
      cases hresult
    · rw [result_of_raisedByWriting hf'] at hf
      cases hf
      exact absurd hf' hnot
  · rintro plan template e hplan hasks ⟨p, hp, he⟩
    obtain ⟨p₀, ps, hps, he₀⟩ := exists_first_unrendered hplan hasks hp he
    exact ⟨p₀, by rw [hps, List.head?_cons], he₀⟩

/-- A directory with a template that writes the context as a whole. -/
def wholeTree : Files.Tree :=
  { items := [(["template"], .file (Utf8.encode "\x7b\x7b.\x7d\x7d".toList))] }

/-- A request for two files from that template. -/
def wholeRequest : Request :=
  { recordCount := some (.number (.ofNat 10)), operationCount := none
    insertCountPerPartition := some (.number (.ofNat 5)), hosts := none, threadCount := none
    templatePath := "template", outputPathPrefix := "workload" }

/-- The template that writes the context as a whole leaves no file behind, whatever the operator
says. -/
theorem generate_leaves_wholeTree :
    (∃ plan, (generate wholeTree wholeRequest fun _ => .ok false).result = .ok (.declined plan)) ∧
      (generate wholeTree wholeRequest fun _ => .ok false).tree = wholeTree ∧
      (∃ f, (generate wholeTree wholeRequest fun _ => .ok true).result = .error f ∧
        ¬ RaisedByWriting wholeTree wholeRequest (fun _ => .ok true) f) ∧
      (generate wholeTree wholeRequest fun _ => .ok true).tree = wholeTree ∧
      ∃ p₀, (Plan.regular 2 5).partitions.head? = some p₀ ∧
        Template.render "\x7b\x7b.\x7d\x7d" (context wholeRequest p₀) = .error .wholeContext := by
  have hR : Plan.IsCount wholeRequest.recordCount 10 := ⟨rfl, by decide, by decide⟩
  have hC : Plan.IsCount wholeRequest.insertCountPerPartition 5 := ⟨rfl, by decide, by decide⟩
  have hplan : Plan.make wholeRequest.recordCount wholeRequest.insertCountPerPartition
      = .ok (Plan.regular 2 5) := by
    rw [Plan.make_of_isCount hR hC (by decide), if_neg (by decide)]
    rfl
  have hps : (Plan.regular 2 5).partitions
      = [] ++ Plan.partition (.ofNat 5) 0 :: [Plan.partition (.ofNat 5) 1] := rfl
  have hd : (prepare wholeTree wholeRequest).2
      = .ok ⟨wholeRequest, Plan.regular 2 5, "\x7b\x7b.\x7d\x7d"⟩ :=
    prepare_eq_ok_iff.2 ⟨rfl, hplan, by decide +kernel⟩
  have hrender : ∀ i < 2, Template.render "\x7b\x7b.\x7d\x7d"
      (context wholeRequest (Plan.partition (.ofNat 5) i)) = .error .wholeContext := by
    decide +kernel
  have hasks : AsksNoBuiltIn wholeTree wholeRequest := by
    intro template htemplate
    obtain rfl := Except.ok.inj ((prepare_eq_ok_iff.1 hd).2.2.symm.trans htemplate)
    decide +kernel
  have hdeclined : (generate wholeTree wholeRequest fun _ => .ok false).result
      = .ok (.declined (Plan.regular 2 5)) := by
    rw [generate_eq_of_answered hd rfl]
    rfl
  have hfailed : (generate wholeTree wholeRequest fun _ => .ok true).result
      = .error Template.Error.wholeContext.toFailure := by
    have he : config "\x7b\x7b.\x7d\x7d" wholeRequest (Plan.partition (.ofNat 5) 0)
        = .error .wholeContext := config_eq_error_iff.2 (hrender 0 (by decide))
    rw [generate_eq_of_answered hd rfl, finish_eq_of_unrendered
      (d := ⟨wholeRequest, Plan.regular 2 5, "\x7b\x7b.\x7d\x7d"⟩) hps (.nil _) he]
  have hnot : ¬ RaisedByWriting wholeTree wholeRequest (fun _ => .ok true)
      Template.Error.wholeContext.toFailure := by
    intro h
    cases h
  refine ⟨⟨_, hdeclined⟩, (generate_leaves_tree _ _ _).1 _ hdeclined, ⟨_, hfailed, hnot⟩,
    (generate_leaves_tree _ _ _).2.1 _ hfailed hnot hasks, ?_⟩
  exact (generate_leaves_tree wholeTree wholeRequest fun _ => .ok true).2.2 _ _ _ hplan
    (by decide +kernel) ⟨Plan.partition (.ofNat 5) 1, by simp [hps], hrender 1 (by decide)⟩

end Workload

end LoadTest
