import LoadTest.Proofs.CommandLine.Judgement
import LoadTest.Proofs.CommandLine.Settings
import LoadTest.Proofs.StatusLog.Numeral
/-!
# Settings of the generating tool

Every option of the generating tool can be set by its long name.  What the tool makes of such
settings is said option by option here, for all texts and in any order, and without a look at how
arguments are cut or checked.

* `GenerateOptions.Offends`: the options that stand in the way of a request.
* `GenerateOptions.judged_ofValue`: the tool finds what offends, and else what was set.
* `IsComplete`, `settingsOf`: the requests that can be written as settings, and how they are.
* `GenerateOptions.ofArguments_settings`: settings are accepted unless an option offends, each goes
  into its own field, and a request that is written as settings is read back.
-/

namespace LoadTest

namespace CommandLine

open Binary64

-- Numbers of hundreds of digits: they are used through lemmas only.
attribute [local irreducible] unitsPerOne overflow

/-! ## Values of settings -/

namespace Settings

variable {specs : List OptionSpec} (g : Settings specs)

/-- The number that an option is set to, or its default. -/
def number (name : String) (default : Nat) : Binary64 :=
  match g.text? name with
  | some text => .ofText text.toList
  | none => .ofNat default

/-- The text that an option is set to, or its default. -/
def text (name default : String) : String := (g.text? name).getD default

variable {g}

/-! ## Judging them -/

/-- A count offends if the text that it is set to is that of no count. -/
theorem judged_count (name : String) (h : WellNamed specs) (default : Nat)
    (hname : ∃ s ∈ specs, s.name = name ∧ s.takesText = true) :
    Judged (g.number name default)
      (fun n => n = name ∧ ∃ text, g.text? name = some text ∧ ¬ IsCountText text)
      (validate g.record name count (.ok (.ofNat default))) := by
  refine judged_validate ?_
  rw [field?_of_takesText h hname, number]
  cases g.text? name with
  | none => exact .fine (by simp)
  | some text => simpa using finds_count text

/-- A text offends if it is set to nothing. -/
theorem judged_nonEmpty (name : String) (h : WellNamed specs) (default : String)
    (hname : ∃ s ∈ specs, s.name = name ∧ s.takesText = true) :
    Judged (g.text name default) (fun n => n = name ∧ g.text? name = some "")
      (validate g.record name nonEmpty (.ok default)) := by
  refine judged_validate ?_
  rw [field?_of_takesText h hname, text]
  cases g.text? name with
  | none => exact .fine (by simp)
  | some text => simpa using finds_nonEmpty text

/-- A text that has no default offends also if it is not set. -/
theorem judged_required (name : String) (h : WellNamed specs) (message : String)
    (hname : ∃ s ∈ specs, s.name = name ∧ s.takesText = true) :
    Judged (g.text name "") (fun n => n = name ∧ (g.text? name = some "" ∨ g.text? name = none))
      (validate g.record name (required message) (refuse [message])) := by
  refine judged_validate ?_
  rw [field?_of_takesText h hname, text]
  cases g.text? name with
  | none => exact .faulty (.inr rfl) (List.cons_ne_nil _ _)
  | some text => simpa using finds_required message text

/-- A flag never offends. -/
theorem judged_flag (name : String) (h : WellNamed specs)
    (hname : ∃ s ∈ specs, s.name = name ∧ s.takesText = false) :
    Judged (g.sets name) (fun n => n = name ∧ False)
      (validate g.record name flag (.ok false)) := by
  refine judged_validate ?_
  rw [field?_of_flag h hname]
  cases g.sets name with
  | false => exact .fine id
  | true => exact .fine id

end Settings

namespace GenerateOptions

/-! ## The options of the generating tool -/

theorem wellNamed_specs : WellNamed specs where
  ne_nil := by decide
  no_equals := by decide
  nodup := by decide

/-- The options that are counts. -/
def countNames : List String := ["recordcount", "operationcount", "insertcount", "threadcount"]

/-- The options that are texts. -/
def textNames : List String := ["hosts", "template", "output"]

/-- An option **offends** if it is set to the text of no count where it is one, if it is set to no
text where it is one, or if it is the template and not set. -/
inductive Offends (g : Settings specs) : String → Prop
  | notCount {name text : String} : name ∈ countNames → g.text? name = some text →
      ¬ IsCountText text → Offends g name
  | empty {name : String} : name ∈ textNames → g.text? name = some "" → Offends g name
  | missing : g.text? "template" = none → Offends g "template"

/-- The options that settings are meant for. -/
def ofSettings (g : Settings specs) : GenerateOptions where
  recordCount := g.number "recordcount" 500000000
  operationCount := g.number "operationcount" 10000000
  insertCount := g.number "insertcount" 25000000
  hosts := g.text "hosts" "queenbee"
  threadCount := g.number "threadcount" 100
  template := g.text "template" ""
  output := g.text "output" "workload"
  yes := g.sets "yes"

/-- **Settings are judged by the options that offend**: without any they are accepted as what they
are meant for. -/
theorem judged_ofValue (g : Settings specs) :
    Judged (ofSettings g) (Offends g) (ofValue (some g.record)) := by
  have h := wellNamed_specs
  -- one judgement after the other is added, in the order in which the options are checked
  have hrecord := (g.judged_count "recordcount" h 500000000 (by decide)).map mk
  have hoperation := hrecord.and
    (g.judged_count "operationcount" h 10000000 (by decide))
  have hinsert := hoperation.and (g.judged_count "insertcount" h 25000000 (by decide))
  have hhosts := hinsert.and (g.judged_nonEmpty "hosts" h "queenbee" (by decide))
  have hthread := hhosts.and (g.judged_count "threadcount" h 100 (by decide))
  have htemplate := hthread.and
    (g.judged_required "template" h templateMessage (by decide))
  have houtput := htemplate.and (g.judged_nonEmpty "output" h "workload" (by decide))
  have hyes := houtput.and (g.judged_flag "yes" h (by decide))
  refine hyes.congr fun name => ⟨?_, ?_⟩
  · rintro (((((((⟨rfl, text, htext, hnot⟩ | ⟨rfl, text, htext, hnot⟩) | ⟨rfl, text, htext, hnot⟩) |
      ⟨rfl, hempty⟩) | ⟨rfl, text, htext, hnot⟩) | ⟨rfl, hempty | hmissing⟩) | ⟨rfl, hempty⟩) |
      ⟨-, hflag⟩)
    · exact .notCount (by decide) htext hnot
    · exact .notCount (by decide) htext hnot
    · exact .notCount (by decide) htext hnot
    · exact .empty (by decide) hempty
    · exact .notCount (by decide) htext hnot
    · exact .empty (by decide) hempty
    · exact .missing hmissing
    · exact .empty (by decide) hempty
    · exact hflag.elim
  · intro hoffends
    cases hoffends with
    | notCount hname htext hnot =>
      simp only [countNames, List.mem_cons, List.not_mem_nil, or_false] at hname
      rcases hname with rfl | rfl | rfl | rfl
      · simp [htext, hnot]
      · simp [htext, hnot]
      · simp [htext, hnot]
      · simp [htext, hnot]
    | empty hname hempty =>
      simp only [textNames, List.mem_cons, List.not_mem_nil, or_false] at hname
      rcases hname with rfl | rfl | rfl
      · simp [hempty]
      · simp [hempty]
      · simp [hempty]
    | missing hmissing => simp [hmissing]

/-! ## Reading settings -/

theorem ofArguments_eq (g : Settings specs) :
    ofArguments g.arguments = .ok (ofValue (some g.record)) := by
  rw [ofArguments, Settings.values_arguments wellNamed_specs]
  rfl

/-- Records are checked by what is found in them. -/
theorem ofValue_congr {fields fields' : List (String × Value)}
    (h : ∀ name, (Value.record fields).field? name = (Value.record fields').field? name) :
    ofValue (some (.record fields)) = ofValue (some (.record fields')) := by
  simp only [ofValue, checkRecord, bind, Except.bind, validate, h]

/-- **The order of settings has no effect.** -/
theorem ofArguments_of_perm {g g' : Settings specs} (hperm : g'.list.Perm g.list) :
    ofArguments g'.arguments = ofArguments g.arguments := by
  rw [ofArguments_eq, ofArguments_eq]
  refine congrArg Except.ok (ofValue_congr fun name => ?_)
  have hfield := fun g : Settings specs => Settings.field?_record wellNamed_specs g name
  exact (hfield g').trans ((congrArg (Option.map Setting.value)
    (Settings.find?_of_perm wellNamed_specs hperm name)).trans (hfield g).symm)

/-! ## Writing a request as settings -/

/-- A request is **complete** if its counts are safe integers above zero and its texts are there and
not empty. -/
structure IsComplete (r : Request) : Prop where
  recordCount : ∃ n, Plan.IsCount r.recordCount n
  operationCount : ∃ n, Plan.IsCount r.operationCount n
  insertCount : ∃ n, Plan.IsCount r.insertCountPerPartition n
  threadCount : ∃ n, Plan.IsCount r.threadCount n
  hosts : ∃ text, text ≠ "" ∧ r.hosts = some (.text text)
  templatePath : r.templatePath ≠ ""
  outputPathPrefix : r.outputPathPrefix ≠ ""

/-- A parameter of a request as a text. -/
def printed (v? : Option Value) : String := String.ofList ((Value.textOf? v?).getD [])

/-- A request as settings, with the flag if no question is to be asked. -/
def settingsOf (r : Request) (yes : Bool) : List Setting :=
  [⟨⟨"recordcount", 'r', true⟩, printed r.recordCount⟩,
    ⟨⟨"operationcount", 'o', true⟩, printed r.operationCount⟩,
    ⟨⟨"insertcount", 'i', true⟩, printed r.insertCountPerPartition⟩,
    ⟨⟨"hosts", 'n', true⟩, printed r.hosts⟩,
    ⟨⟨"threadcount", 'c', true⟩, printed r.threadCount⟩,
    ⟨⟨"template", 't', true⟩, r.templatePath⟩,
    ⟨⟨"output", 'f', true⟩, r.outputPathPrefix⟩]
  ++ if yes then [⟨⟨"yes", 'y', false⟩, ""⟩] else []

theorem map_spec_settingsOf (r : Request) (yes : Bool) :
    (settingsOf r yes).map (·.spec) = specs.take (if yes then 8 else 7) := by
  cases yes <;> rfl

/-- Settings in any order of those of a request. -/
def ofPerm {r : Request} {yes : Bool} {settings : List Setting}
    (hperm : settings.Perm (settingsOf r yes)) : Settings specs where
  list := settings
  known := by
    intro s hs
    have hmem := List.mem_map_of_mem (f := Setting.spec) (hperm.mem_iff.1 hs)
    rw [map_spec_settingsOf] at hmem
    exact List.mem_of_mem_take hmem
  once := by
    rw [(hperm.map Setting.spec).nodup_iff, map_spec_settingsOf]
    exact List.Nodup.sublist (List.take_sublist ..) (by decide)

/-- A count is printed as a text that is read as what it was. -/
theorem ofText_printed {v? : Option Value} {n : Nat} (h : Plan.IsCount v? n) :
    Binary64.ofText (printed v?).toList = .ofNat n := by
  obtain ⟨rfl, -, hsafe⟩ := h
  have htext : Value.textOf? (some (.number (.ofNat n))) = some (Nat.toDigits 10 n) := by
    rw [Value.textOf?, Value.toText?, toText_ofNat hsafe]
  rw [printed, htext, Option.getD_some, String.toList_ofList, ofText_toDigits]

theorem isCountText_printed {v? : Option Value} {n : Nat} (h : Plan.IsCount v? n) :
    IsCountText (printed v?) :=
  ⟨n, h.2.1, h.2.2, ofText_printed h⟩

theorem printed_text (text : String) : printed (some (.text text)) = text := by
  rw [printed, Value.textOf?, Value.toText?, Option.getD_some, String.ofList_toList]

section ReadBack

variable {r : Request} {yes : Bool} {settings : List Setting}
  (hperm : settings.Perm (settingsOf r yes))

/-- What is set does not depend on the order in which a request is written. -/
theorem find?_ofPerm (name : String) :
    (ofPerm hperm).find? name = (settingsOf r yes).find? fun s => s.spec.name == name :=
  have hinOrder : (ofPerm hperm).list.Perm (ofPerm (List.Perm.refl (settingsOf r yes))).list := hperm
  Settings.find?_of_perm wellNamed_specs hinOrder name

theorem text?_ofPerm (name : String) : (ofPerm hperm).text? name
    = ((settingsOf r yes).find? fun s => s.spec.name == name).map (·.text) :=
  congrArg (Option.map Setting.text) (find?_ofPerm hperm name)

theorem sets_ofPerm : (ofPerm hperm).sets "yes" = yes := by
  rw [Settings.sets, find?_ofPerm]
  cases yes <;> rfl

/-- No option offends in a complete request. -/
theorem not_offends_ofPerm (h : IsComplete r) (name : String) : ¬ Offends (ofPerm hperm) name := by
  have hcount : ∀ {v? : Option Value} {text : String}, (∃ n, Plan.IsCount v? n) →
      some (printed v?) = some text → IsCountText text := by
    rintro v? text ⟨n, hn⟩ htext
    rw [← Option.some.inj htext]
    exact isCountText_printed hn
  intro hoffends
  cases hoffends with
  | notCount hname htext hnot =>
    rw [text?_ofPerm] at htext
    simp only [countNames, List.mem_cons, List.not_mem_nil, or_false] at hname
    rcases hname with rfl | rfl | rfl | rfl
    · exact hnot (hcount h.recordCount htext)
    · exact hnot (hcount h.operationCount htext)
    · exact hnot (hcount h.insertCount htext)
    · exact hnot (hcount h.threadCount htext)
  | empty hname hempty =>
    rw [text?_ofPerm] at hempty
    simp only [textNames, List.mem_cons, List.not_mem_nil, or_false] at hname
    rcases hname with rfl | rfl | rfl
    · obtain ⟨text, hne, hhosts⟩ := h.hosts
      have hprinted : printed r.hosts = "" := Option.some.inj hempty
      rw [hhosts, printed_text] at hprinted
      exact hne hprinted
    · exact h.templatePath (Option.some.inj hempty)
    · exact h.outputPathPrefix (Option.some.inj hempty)
  | missing hmissing =>
    rw [text?_ofPerm] at hmissing
    cases hmissing

/-- A count of a complete request is read back. -/
theorem number_ofPerm {v? : Option Value} {name : String} {default : Nat}
    (htext : (ofPerm hperm).text? name = some (printed v?)) (h : ∃ n, Plan.IsCount v? n) :
    some (.number ((ofPerm hperm).number name default)) = v? := by
  obtain ⟨n, hn⟩ := h
  rw [Settings.number, htext]
  exact (congrArg (some ∘ Value.number) (ofText_printed hn)).trans hn.1.symm

/-- A complete request is what its settings are meant for. -/
theorem toRequest_ofPerm (h : IsComplete r) : (ofSettings (ofPerm hperm)).toRequest = r := by
  have htext := text?_ofPerm hperm
  obtain ⟨text, -, hhosts⟩ := h.hosts
  have hhosts' : some (.text ((ofPerm hperm).text "hosts" "queenbee")) = r.hosts := by
    rw [Settings.text, htext, hhosts]
    exact congrArg (some ∘ Value.text) (by rw [← printed_text text, ← hhosts]; rfl)
  have htemplate : (ofPerm hperm).text "template" "" = r.templatePath := by
    rw [Settings.text, htext]
    rfl
  have houtput : (ofPerm hperm).text "output" "workload" = r.outputPathPrefix := by
    rw [Settings.text, htext]
    rfl
  rw [toRequest, ofSettings, number_ofPerm hperm (htext _) h.recordCount,
    number_ofPerm hperm (htext _) h.operationCount, number_ofPerm hperm (htext _) h.insertCount,
    number_ofPerm hperm (htext _) h.threadCount, hhosts', htemplate, houtput]

end ReadBack

/-! ## Faithful reading -/

/-- **Settings are read faithfully, completely and in any order.**

They are accepted if and only if no option offends.  Then every field of the request holds the value
of the option that is meant for it, as a number or as the text unchanged, or the default, and the
flag is raised if it is set.  If options offend, they are refused with a single failure, in which the
issues name the options that offend and no others.  The order has no effect, and a complete request
that is written as settings is read back. -/
theorem ofArguments_settings (g : Settings specs) :
    ((∃ o, ofArguments g.arguments = .ok (.ok o)) ↔ ∀ name, ¬ Offends g name) ∧
    (∀ o, ofArguments g.arguments = .ok (.ok o) →
      ∃ template, g.text? "template" = some template ∧
        o.toRequest =
          { recordCount := some (.number (g.number "recordcount" 500000000))
            operationCount := some (.number (g.number "operationcount" 10000000))
            insertCountPerPartition := some (.number (g.number "insertcount" 25000000))
            hosts := some (.text (g.text "hosts" "queenbee"))
            threadCount := some (.number (g.number "threadcount" 100))
            templatePath := template
            outputPathPrefix := g.text "output" "workload" } ∧
        o.yes = g.sets "yes") ∧
    ((∃ name, Offends g name) →
      ∃ issues, ofArguments g.arguments = .ok (.error (.issues issues)) ∧
        accept (ofArguments g.arguments) = .error (issuesFailure issues) ∧
        ∀ name, name ∈ issues.map Issue.path ↔ Offends g name) ∧
    (∀ g' : Settings specs, g'.list.Perm g.list →
      ofArguments g'.arguments = ofArguments g.arguments) ∧
    ∀ (r : Request) (yes : Bool) (settings : List Setting), IsComplete r →
      settings.Perm (settingsOf r yes) →
        ∃ o, ofArguments (settings.map Setting.written) = .ok (.ok o) ∧ o.toRequest = r ∧
          o.yes = yes := by
  have hargs := ofArguments_eq g
  have hjudged := judged_ofValue g
  refine ⟨⟨?_, ?_⟩, ?_, ?_, ?_, ?_⟩
  · rintro ⟨o, ho⟩
    rw [hargs] at ho
    rw [Except.ok.inj ho] at hjudged
    exact hjudged.of_ok.2
  · intro hnone
    exact ⟨ofSettings g, by rw [hargs, hjudged.eq_ok hnone]⟩
  · intro o ho
    rw [hargs] at ho
    rw [Except.ok.inj ho] at hjudged
    obtain ⟨rfl, hnone⟩ := hjudged.of_ok
    cases htemplate : g.text? "template" with
    | none => exact absurd (.missing htemplate) (hnone "template")
    | some template =>
      refine ⟨template, rfl, ?_, rfl⟩
      rw [toRequest, ofSettings, Settings.text, Settings.text, Settings.text, htemplate]
      rfl
  · intro hsome
    obtain ⟨issues, hissues, hpaths⟩ := hjudged.exists_issues hsome
    rw [hargs, hissues]
    exact ⟨issues, rfl, rfl, hpaths⟩
  · intro g' hperm
    exact ofArguments_of_perm hperm
  · intro r yes settings hcomplete hperm
    have hnone := not_offends_ofPerm hperm hcomplete
    have hread := ofArguments_eq (ofPerm hperm)
    rw [(judged_ofValue (ofPerm hperm)).eq_ok hnone] at hread
    exact ⟨_, hread, toRequest_ofPerm hperm hcomplete, sets_ofPerm hperm⟩

/-- A request with texts that hold a dash and an equals sign. -/
def dashedRequest : Request where
  recordCount := some (.number (.ofNat 9007199254740991))
  operationCount := some (.number (.ofNat 1))
  insertCountPerPartition := some (.number (.ofNat 25000000))
  hosts := some (.text "--yes")
  threadCount := some (.number (.ofNat 100))
  templatePath := "-t=a b"
  outputPathPrefix := "="

/-- No hosts are named, and no template. -/
def hostless : Settings specs where
  list := [⟨⟨"hosts", 'n', true⟩, ""⟩, ⟨⟨"yes", 'y', false⟩, ""⟩]
  known := by decide
  once := by decide

theorem ofArguments_dashedRequest :
    (IsComplete dashedRequest ∧
      ∃ o, ofArguments ["--yes", "--output==", "--template=-t=a b", "--threadcount=100",
          "--hosts=--yes", "--insertcount=25000000", "--operationcount=1",
          "--recordcount=9007199254740991"] = .ok (.ok o) ∧
        o.toRequest = dashedRequest ∧ o.yes = true) ∧
    Offends hostless "hosts" ∧
      ∃ issues, ofArguments ["--hosts=", "--yes"] = .ok (.error (.issues issues)) ∧
        ∀ name, name ∈ issues.map Issue.path ↔ Offends hostless name := by
  have hcomplete : IsComplete dashedRequest :=
    { recordCount := ⟨_, rfl, by decide, by decide⟩
      operationCount := ⟨_, rfl, by decide, by decide⟩
      insertCount := ⟨_, rfl, by decide, by decide⟩
      threadCount := ⟨_, rfl, by decide, by decide⟩
      hosts := ⟨_, by decide, rfl⟩
      templatePath := by decide
      outputPathPrefix := by decide }
  have hwritten : ((settingsOf dashedRequest true).reverse).map Setting.written
      = ["--yes", "--output==", "--template=-t=a b", "--threadcount=100", "--hosts=--yes",
        "--insertcount=25000000", "--operationcount=1", "--recordcount=9007199254740991"] := by
    decide +kernel
  have hoffends : Offends hostless "hosts" := .empty (by decide) (by decide +kernel)
  obtain ⟨-, -, hrefused, -, hreads⟩ := ofArguments_settings hostless
  obtain ⟨issues, hissues, -, hpaths⟩ := hrefused ⟨"hosts", hoffends⟩
  have hread := hreads dashedRequest true _ hcomplete (List.reverse_perm _)
  rw [hwritten] at hread
  have harguments : hostless.arguments = ["--hosts=", "--yes"] := by decide +kernel
  rw [harguments] at hissues
  exact ⟨⟨hcomplete, hread⟩, hoffends, issues, hissues, hpaths⟩

end GenerateOptions

end CommandLine

end LoadTest
