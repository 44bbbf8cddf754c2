import LoadTest.CommandLine.Program
import LoadTest.Proofs.Partition.Tiling
import LoadTest.Proofs.Report.Outcome
/-!
# Accepted options

What a tool accepts on its command line needs no second look: a count that passes is a safe integer
above zero, so a plan can only be refused for what two counts are to each other, and a step and an
operation that pass are the options of a series as they are.

* `validate_eq_ok_iff`, `Validated.and_eq_ok_iff`: where a checked value comes from.
* `exists_isCount_of_count`: what passes the check of a count.
* `GenerateOptions.ofValue_eq_ok_iff`, `ReportOptions.ofValue_eq_ok_iff`: options are accepted if
  each of them passes its check.
* `ofArguments_suffices`: accepted options meet the demands of plans and of series.
-/

namespace LoadTest

namespace CommandLine

open Binary64

attribute [local irreducible] unitsPerOne overflow

/-! ## Checked values -/

section Checks

variable {α β : Type} {values : Value} {name : String} {check : Check α}
  {missing : Except (Rejection String) α} {a : α}

/-- **A value passes** if it is given and passes its check, or is missing and has a default. -/
theorem validate_eq_ok_iff : validate values name check missing = .ok a ↔
    (∃ v, values.field? name = some v ∧ check v = .ok a) ∨
      values.field? name = none ∧ missing = .ok a := by
  rw [validate, Files.Tree.mapError_eq_ok_iff]
  cases values.field? name with
  | none => simp
  | some v => simp

theorem map_eq_ok_iff {ε : Type} {f : α → β} {x : Except ε α} {b : β} :
    x.map f = .ok b ↔ ∃ a, x = .ok a ∧ f a = b := by
  cases x with
  | error e => simp [Except.map]
  | ok a => simp [Except.map]

theorem Validated.and_eq_ok_iff {f : Validated (α → β)} {x : Validated α} {b : β} :
    f.and x = .ok b ↔ ∃ g a, f = .ok g ∧ x = .ok a ∧ g a = b := by
  cases f with
  | error e =>
    cases x with
    | error e' => simp [Validated.and]
    | ok a => simp [Validated.and]
  | ok g =>
    cases x with
    | error e => simp [Validated.and]
    | ok a => simp [Validated.and]

theorem accept_eq_ok_iff {x : Except ArgumentError (Validated α)} :
    accept x = .ok a ↔ x = .ok (.ok a) := by
  rcases x with e | e | b
  · simp [accept]
  · simp [accept]
  · simp [accept]

/-- Options that are accepted, with what a function makes of them. -/
theorem exists_accepted {x : Except ArgumentError (Validated α)} {f : α → β} {b : β}
    (h : (accept x).toOption.map f = some b) : ∃ a, x = .ok (.ok a) ∧ f a = b := by
  obtain ⟨a, ha, hb⟩ := Option.map_eq_some_iff.1 h
  refine ⟨a, accept_eq_ok_iff.1 ?_, hb⟩
  cases hx : accept x with
  | error e =>
    rw [hx] at ha
    cases ha
  | ok a' =>
    rw [hx] at ha
    cases ha
    rfl

end Checks

/-! ## Counts -/

variable {v values : Value} {name : String} {x : Binary64} {arguments : List String}

/-- **What passes the check of a count** is a safe integer above zero. -/
theorem exists_isCount_of_count (h : count v = .ok x) : ∃ n, Plan.IsCount (some (.number x)) n := by
  unfold count at h
  split at h
  · cases h
  · rename_i y hy
    by_cases hfinite : y.isFinite = true
    · by_cases hinteger : y.isInteger = true
      · by_cases hlarge : ofNat maxSafe < y
        · simp [hfinite, hinteger, hlarge, refuse] at h
        · by_cases hpos : 0 < y
          · simp only [hfinite, hinteger, hlarge, hpos, Bool.not_true, Bool.false_eq_true, if_false,
              if_true] at h
            cases h
            obtain ⟨z, hz⟩ := Option.isSome_iff_exists.1 hinteger
            have hpos' := (lt_iff_of_toInt? toInt?_zero hz).1 hpos
            have hsafe := mt (lt_iff_of_toInt? (toInt?_ofNat (by decide)) hz).2 hlarge
            exact Plan.exists_isCount_of_toInt? hz hpos' (by omega)
          · simp [hfinite, hinteger, hlarge, hpos, refuse] at h
      · simp [hfinite, hinteger, refuse] at h
    · simp [hfinite, refuse] at h

/-- A count is one whether it was given or is a default. -/
theorem exists_isCount_of_validate {default : Nat} (hpos : 0 < default) (hsafe : default ≤ maxSafe)
    (h : validate values name count (.ok (.ofNat default)) = .ok x) :
    ∃ n, Plan.IsCount (some (.number x)) n := by
  rcases validate_eq_ok_iff.1 h with ⟨v, -, hv⟩ | ⟨-, hdefault⟩
  · exact exists_isCount_of_count hv
  · cases hdefault
    exact ⟨default, rfl, hpos, hsafe⟩

/-- A count is a whole number above zero. -/
theorem isInteger_of_isCount {n : Nat} (h : Plan.IsCount (some (.number x)) n) :
    x.isInteger = true ∧ 0 < x := by
  obtain ⟨hx, hpos, hsafe⟩ := h
  have hint := toInt?_ofNat (Nat.le_trans hsafe (by decide))
  cases hx
  refine ⟨by rw [isInteger, hint]; rfl, ?_⟩
  exact (lt_iff_of_toInt? toInt?_zero hint).2 (by omega)

/-! ## Options -/

theorem GenerateOptions.ofValue_eq_ok_iff {fields : List (String × Value)} {o : GenerateOptions} :
    GenerateOptions.ofValue (some (.record fields)) = .ok o ↔
      validate (.record fields) "recordcount" count (.ok (.ofNat 500000000)) = .ok o.recordCount ∧
      validate (.record fields) "operationcount" count (.ok (.ofNat 10000000))
        = .ok o.operationCount ∧
      validate (.record fields) "insertcount" count (.ok (.ofNat 25000000)) = .ok o.insertCount ∧
      validate (.record fields) "hosts" nonEmpty (.ok "queenbee") = .ok o.hosts ∧
      validate (.record fields) "threadcount" count (.ok (.ofNat 100)) = .ok o.threadCount ∧
      validate (.record fields) "template" (required templateMessage) (refuse [templateMessage])
        = .ok o.template ∧
      validate (.record fields) "output" nonEmpty (.ok "workload") = .ok o.output ∧
      validate (.record fields) "yes" flag (.ok false) = .ok o.yes := by
  rw [GenerateOptions.ofValue]
  simp only [checkRecord, bind, Except.bind, Validated.and_eq_ok_iff, map_eq_ok_iff]
  constructor
  · rintro ⟨_, _, ⟨_, _, ⟨_, _, ⟨_, _, ⟨_, _, ⟨_, _, ⟨_, _, ⟨_, hrecord, rfl⟩, hoperation, rfl⟩, hinsert,
      rfl⟩, hhosts, rfl⟩, hthread, rfl⟩, htemplate, rfl⟩, houtput, rfl⟩, hyes, rfl⟩
    exact ⟨hrecord, hoperation, hinsert, hhosts, hthread, htemplate, houtput, hyes⟩
  · rintro ⟨hrecord, hoperation, hinsert, hhosts, hthread, htemplate, houtput, hyes⟩
    exact ⟨_, _, ⟨_, _, ⟨_, _, ⟨_, _, ⟨_, _, ⟨_, _, ⟨_, _, ⟨_, hrecord, rfl⟩, hoperation, rfl⟩,
      hinsert, rfl⟩, hhosts, rfl⟩, hthread, rfl⟩, htemplate, rfl⟩, houtput, rfl⟩, hyes, rfl⟩

theorem ReportOptions.ofValue_eq_ok_iff {fields : List (String × Value)} {o : ReportOptions} :
    ReportOptions.ofValue (some (.record fields)) = .ok o ↔
      validate (.record fields) "file" (required fileMessage) (refuse [fileMessage]) = .ok o.file ∧
      validate (.record fields) "delta" count (.ok (.ofNat Series.defaultDelta)) = .ok o.delta ∧
      validate (.record fields) "operation" (choice (Operation.all.map (·.name)) Operation.ofName?)
        (.ok Series.defaultOperation) = .ok o.operation := by
  rw [ReportOptions.ofValue]
  simp only [checkRecord, bind, Except.bind, Validated.and_eq_ok_iff, map_eq_ok_iff]
  constructor
  · rintro ⟨_, _, ⟨_, _, ⟨_, hfile, rfl⟩, hdelta, rfl⟩, hoperation, rfl⟩
    exact ⟨hfile, hdelta, hoperation⟩
  · rintro ⟨hfile, hdelta, hoperation⟩
    exact ⟨_, _, ⟨_, _, ⟨_, hfile, rfl⟩, hdelta, rfl⟩, hoperation, rfl⟩

/-! ## What the options are good for -/

/-- **The counts of a request are good for a plan**: they are safe integers above zero, so there is a
plan unless there are fewer records than a partition holds, or more partitions than a list can
hold. -/
structure Plannable (r : Request) (records perPartition : Nat) : Prop where
  recordCount : Plan.IsCount r.recordCount records
  insertCount : Plan.IsCount r.insertCountPerPartition perPartition
  /-- No count is refused by itself. -/
  positive : ∀ name value?,
    Plan.make r.recordCount r.insertCountPerPartition ≠ .error (.notPositive name value?)
  refused : ∀ f, (Plan.make r.recordCount r.insertCountPerPartition).mapError PlanError.toFailure
      = .error f ↔
    records < perPartition ∧ f = .reported .invalidConfiguration
        "Record count must not be smaller than the insert count per partition"
        (some (.record [("recordCount", .number (.ofNat records)),
          ("insertCountPerPartition", .number (.ofNat perPartition))])) none ∨
      Plan.maxPartitions < ceilQuotient records perPartition ∧
        f = .fault { sort := .outOfRange, message := "Invalid array length" }

theorem plannable_of_isCount {r : Request} {records perPartition : Nat}
    (hR : Plan.IsCount r.recordCount records)
    (hC : Plan.IsCount r.insertCountPerPartition perPartition) :
    Plannable r records perPartition := by
  have herror := fun e => Plan.make_eq_error_iff (e := e) hR hC
  refine ⟨hR, hC, ?_, ?_⟩
  · intro name value? hmake
    rcases (herror _).1 hmake with ⟨-, h⟩ | ⟨-, h⟩
    · cases h
    · cases h
  · intro f
    constructor
    · intro hf
      obtain ⟨e, hmake, rfl⟩ := Files.Tree.exists_of_mapError hf
      rcases (herror e).1 hmake with ⟨hlt, rfl⟩ | ⟨hmax, rfl⟩
      · exact .inl ⟨hlt, rfl⟩
      · exact .inr ⟨hmax, rfl⟩
    · rintro (⟨hlt, rfl⟩ | ⟨hmax, rfl⟩)
      · rw [(herror _).2 (.inl ⟨hlt, rfl⟩)]
        rfl
      · rw [(herror _).2 (.inr ⟨hmax, rfl⟩)]
        rfl

/-- The step and the operation of a report as they are handed on. -/
def ReportOptions.toSeries (o : ReportOptions) : Value :=
  .record [("deltaSeconds", .number o.delta), ("operation", o.operation.toValue)]

theorem ofValue_toSeries (o : ReportOptions) : Series.Options.ofValue (some o.toSeries)
    = Series.Options.resolve (some (.number o.delta)) (some o.operation.toValue) := rfl

theorem resolve_toSeries {o : ReportOptions} {n : Nat} (h : Plan.IsCount (some (.number o.delta)) n) :
    ∃ options, Series.Options.ofValue (some o.toSeries) = .ok options ∧
      options.delta = o.delta ∧ options.operation = o.operation.toValue := by
  obtain ⟨hinteger, hpos⟩ := isInteger_of_isCount h
  refine ⟨{ delta := o.delta, operation := o.operation.toValue, isInteger_delta := hinteger
            delta_pos := hpos }, ?_, rfl, rfl⟩
  rw [ofValue_toSeries]
  exact Series.resolve_of_given ⟨rfl, rfl⟩

/-- **Accepted options need no second look.**  Counts that the generating tool accepts are good for a
plan, and a step and an operation that the reporting tool accepts are the options of a series as they
are. -/
theorem ofArguments_suffices (arguments : List String) :
    (∀ o, GenerateOptions.ofArguments arguments = .ok (.ok o) →
      ∃ records perPartition, o.recordCount = .ofNat records ∧ o.insertCount = .ofNat perPartition ∧
        Plannable o.toRequest records perPartition) ∧
    (∀ o, ReportOptions.ofArguments arguments = .ok (.ok o) →
      ∃ options, Series.Options.ofValue (some o.toSeries) = .ok options ∧
        options.delta = o.delta ∧ options.operation = o.operation.toValue) := by
  constructor
  · intro o ho
    obtain ⟨fields, -, hfields⟩ := map_eq_ok_iff.1 ho
    obtain ⟨hrecord, -, hinsert, -⟩ := GenerateOptions.ofValue_eq_ok_iff.1 hfields
    obtain ⟨records, hR⟩ := exists_isCount_of_validate (by decide) (by decide) hrecord
    obtain ⟨perPartition, hC⟩ := exists_isCount_of_validate (by decide) (by decide) hinsert
    exact ⟨records, perPartition, Value.number.inj (Option.some.inj hR.1),
      Value.number.inj (Option.some.inj hC.1), plannable_of_isCount hR hC⟩
  · intro o ho
    obtain ⟨fields, -, hfields⟩ := map_eq_ok_iff.1 ho
    obtain ⟨-, hdelta, -⟩ := ReportOptions.ofValue_eq_ok_iff.1 hfields
    obtain ⟨n, hn⟩ := exists_isCount_of_validate (by decide) (by decide) hdelta
    exact resolve_toSeries hn

/-- A record count of five and the insert count that is the default are good for a plan, which is then
refused for their order; a step in exponent form is taken as it is. -/
theorem ofArguments_suffices_converted :
    (∃ o, GenerateOptions.ofArguments ["-t", "w", "--recordcount= 0x5"] = .ok (.ok o) ∧
      o.recordCount = .ofNat 5 ∧ o.insertCount = .ofNat 25000000 ∧
      ∃ records perPartition, o.recordCount = .ofNat records ∧ o.insertCount = .ofNat perPartition ∧
        Plannable o.toRequest records perPartition) ∧
    (∃ o, ReportOptions.ofArguments ["-f", "run.log", "-d1e1"] = .ok (.ok o) ∧
      o.delta = .ofNat 10 ∧
      ∃ options, Series.Options.ofValue (some o.toSeries) = .ok options ∧
        options.delta = o.delta ∧ options.operation = o.operation.toValue) := by
  constructor
  · obtain ⟨o, ho, hcounts⟩ := exists_accepted
      (x := GenerateOptions.ofArguments ["-t", "w", "--recordcount= 0x5"])
      (f := fun o => (o.recordCount, o.insertCount)) (b := (.ofNat 5, .ofNat 25000000))
      (by decide +kernel)
    exact ⟨o, ho, congrArg Prod.fst hcounts, congrArg Prod.snd hcounts,
      (ofArguments_suffices _).1 o ho⟩
  · obtain ⟨o, ho, hdelta⟩ := exists_accepted
      (x := ReportOptions.ofArguments ["-f", "run.log", "-d1e1"])
      (f := ReportOptions.delta) (b := .ofNat 10) (by decide +kernel)
    exact ⟨o, ho, hdelta, (ofArguments_suffices _).2 o ho⟩

end CommandLine

end LoadTest
