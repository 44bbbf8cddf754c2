import LoadTest.Proofs.CommandLine.Accepted
/-!
# What a check says of a text

Checks do not stop at the first value that is wrong.  So a checked record is described by the options
that offend: without any the values are what was meant, and if not the issues name those options and
no others.

* `IsCountText`, `finds_count`, `finds_nonEmpty`, `finds_required`: what each check finds wrong with
  a text.
* `Judged`: a checked value and the options that offend in it.
* `judged_validate`, `Judged.map`, `Judged.and`: how a judgement is put together from those of the
  single options.
-/

namespace LoadTest

namespace CommandLine

open Binary64

-- Numbers of hundreds of digits: they are used through lemmas only.
attribute [local irreducible] unitsPerOne overflow

variable {α β : Type}

/-! ## One check -/

/-- What a check **finds**: the value, or messages against it if there is a fault. -/
inductive Finds (a : α) (fault : Prop) : Except (Rejection String) α → Prop
  | fine : ¬ fault → Finds a fault (.ok a)
  | faulty {messages : List String} : fault → messages ≠ [] →
      Finds a fault (.error (.issues messages))

/-- The number that a text stands for is a safe integer above zero. -/
def IsCountText (text : String) : Prop :=
  ∃ n : Nat, 0 < n ∧ n ≤ maxSafe ∧ Binary64.ofText text.toList = .ofNat n

theorem isCountText_iff {text : String} :
    IsCountText text ↔ ∃ n, Plan.IsCount (some (.number (.ofText text.toList))) n := by
  refine exists_congr fun n => ⟨?_, ?_⟩
  · rintro ⟨hpos, hsafe, hx⟩
    exact ⟨by rw [hx], hpos, hsafe⟩
  · rintro ⟨hx, hpos, hsafe⟩
    exact ⟨hpos, hsafe, Value.number.inj (Option.some.inj hx)⟩

/-- A whole number is finite. -/
theorem isFinite_of_isInteger {x : Binary64} (h : x.isInteger = true) : x.isFinite = true := by
  cases x with
  | finite negative units fits small => rfl
  | infinity negative => cases h
  | nan => cases h

/-- A count passes its check. -/
theorem count_of_isCount {v : Value} {x : Binary64} {n : Nat} (hv : v.toNumber? = some x)
    (hx : Plan.IsCount (some (.number x)) n) : count v = .ok x := by
  obtain ⟨hinteger, hpos⟩ := isInteger_of_isCount hx
  obtain ⟨hnumber, -, hsafe⟩ := hx
  have hlarge : ¬ ofNat maxSafe < x := by
    rw [Value.number.inj (Option.some.inj hnumber),
      lt_iff_of_toInt? (toInt?_ofNat (by decide)) (toInt?_ofNat (hsafe.trans (by decide)))]
    omega
  simp only [count, hv, isFinite_of_isInteger hinteger, hinteger, hlarge, hpos, Bool.not_true,
    Bool.false_eq_true, if_false, if_true]

/-- The check of a count gives the number as it is, or messages against it. -/
theorem count_cases {v : Value} {x : Binary64} (hv : v.toNumber? = some x) :
    count v = .ok x ∨ ∃ messages, messages ≠ [] ∧ count v = .error (.issues messages) := by
  simp only [count, hv, refuse]
  split
  · exact .inr ⟨_, List.cons_ne_nil _ _, rfl⟩
  · split
    · exact .inr ⟨_, List.cons_ne_nil _ _, rfl⟩
    · split
      · exact .inr ⟨_, List.cons_ne_nil _ _, rfl⟩
      · split
        · exact .inl rfl
        · exact .inr ⟨_, List.append_ne_nil_of_right_ne_nil _ (List.cons_ne_nil _ _), rfl⟩

/-- **The check of a count** passes the texts of safe integers above zero, as numbers. -/
theorem finds_count (text : String) :
    Finds (Binary64.ofText text.toList) (¬ IsCountText text) (count (.text text)) := by
  have hv : Value.toNumber? (.text text) = some (.ofText text.toList) := by rw [Value.toNumber?]
  by_cases htext : IsCountText text
  · obtain ⟨n, hn⟩ := isCountText_iff.1 htext
    rw [count_of_isCount hv hn]
    exact .fine (not_not_intro htext)
  · rcases count_cases hv with hok | ⟨messages, hne, herror⟩
    · exact absurd (isCountText_iff.2 (exists_isCount_of_count hok)) htext
    · rw [herror]
      exact .faulty htext hne

/-- **The check of a text** passes every text but the empty one, as it is. -/
theorem finds_nonEmpty (text : String) : Finds text (text = "") (nonEmpty (.text text)) := by
  by_cases htext : text = ""
  · subst htext
    exact .faulty rfl (List.cons_ne_nil _ _)
  · have hok : nonEmpty (.text text) = .ok text := by
      simp only [nonEmpty, lengthIssues?, if_neg htext, if_true]
    rw [hok]
    exact .fine htext

/-- A message in place of others leaves what a check finds. -/
theorem finds_required (message text : String) :
    Finds text (text = "") (required message (.text text)) := by
  have h := finds_nonEmpty text
  rw [required]
  generalize nonEmpty (.text text) = result at h ⊢
  cases h with
  | fine hfine => exact .fine hfine
  | faulty hfault hne => exact .faulty hfault (by simpa using hne)

/-! ## All checks -/

/-- A checked value **is judged** by what offends: without anything it passes as what was meant, and
if not the issues against it are about what offends and about nothing else. -/
inductive Judged (a : α) (bad : String → Prop) : Validated α → Prop
  | passed : (∀ name, ¬ bad name) → Judged a bad (.ok a)
  | refused {issues : List Issue} : (∃ name, bad name) →
      (∀ name, name ∈ issues.map Issue.path ↔ bad name) → Judged a bad (.error (.issues issues))

variable {a : α} {bad : String → Prop} {values : Value} {name : String} {check : Check α}
  {missing : Except (Rejection String) α}

/-- The messages of one check become issues about its option. -/
theorem judged_of_finds {fault : Prop} {result : Except (Rejection String) α}
    (h : Finds a fault result) (name : String) :
    Judged a (fun n => n = name ∧ fault)
      (result.mapError fun e => e.map fun m => (⟨name, m⟩ : Issue)) := by
  cases h with
  | fine hfine => exact .passed fun n hn => hfine hn.2
  | faulty hfault hne =>
    refine .refused ⟨name, rfl, hfault⟩ fun n => ?_
    obtain ⟨m, ms, rfl⟩ := List.exists_cons_of_ne_nil hne
    rw [List.map_map]
    constructor
    · intro hn
      obtain ⟨m', -, rfl⟩ := List.mem_map.1 hn
      exact ⟨rfl, hfault⟩
    · rintro ⟨rfl, -⟩
      exact List.mem_cons_self

/-- **The value of an option** is judged by the fault that is found in it, or in its absence. -/
theorem judged_validate {fault : Prop}
    (h : Finds a fault (match values.field? name with | some v => check v | none => missing)) :
    Judged a (fun n => n = name ∧ fault) (validate values name check missing) :=
  judged_of_finds h name

theorem Judged.eq_ok {x : Validated α} (h : Judged a bad x) (hnone : ∀ name, ¬ bad name) :
    x = .ok a := by
  cases h with
  | passed _ => rfl
  | refused hsome _ =>
    obtain ⟨name, hname⟩ := hsome
    exact absurd hname (hnone name)

theorem Judged.of_ok {b : α} (h : Judged a bad (.ok b)) : b = a ∧ ∀ name, ¬ bad name := by
  cases h with
  | passed hnone => exact ⟨rfl, hnone⟩

theorem Judged.exists_issues {x : Validated α} (h : Judged a bad x) (hsome : ∃ name, bad name) :
    ∃ issues, x = .error (.issues issues) ∧ ∀ name, name ∈ issues.map Issue.path ↔ bad name := by
  cases h with
  | passed hnone =>
    obtain ⟨name, hname⟩ := hsome
    exact absurd hname (hnone name)
  | refused _ hpaths => exact ⟨_, rfl, hpaths⟩

theorem Judged.congr {x : Validated α} {bad' : String → Prop} (h : Judged a bad x)
    (hbad : ∀ name, bad name ↔ bad' name) : Judged a bad' x := by
  rwa [show bad' = bad from funext fun name => propext (hbad name).symm]

theorem Judged.map {x : Validated α} (h : Judged a bad x) (f : α → β) :
    Judged (f a) bad (x.map f) := by
  cases h with
  | passed hnone => exact .passed hnone
  | refused hsome hpaths => exact .refused hsome hpaths

/-- **Two checks** are judged by what offends in either. -/
theorem Judged.and {f : α → β} {x : Validated (α → β)} {y : Validated α} {bad' : String → Prop}
    (hx : Judged f bad x) (hy : Judged a bad' y) :
    Judged (f a) (fun name => bad name ∨ bad' name) (x.and y) := by
  cases hx with
  | passed hnone =>
    cases hy with
    | passed hnone' => exact .passed fun name => not_or.2 ⟨hnone name, hnone' name⟩
    | refused hsome' hpaths' =>
      obtain ⟨name, hname⟩ := hsome'
      exact .refused ⟨name, .inr hname⟩ fun name =>
        (hpaths' name).trans (or_iff_right (hnone name)).symm
  | refused hsome hpaths =>
    obtain ⟨name, hname⟩ := hsome
    cases hy with
    | passed hnone' =>
      exact .refused ⟨name, .inl hname⟩ fun name =>
        (hpaths name).trans (or_iff_left (hnone' name)).symm
    | refused hsome' hpaths' =>
      refine .refused ⟨name, .inl hname⟩ fun name => ?_
      rw [List.map_append, List.mem_append, hpaths, hpaths']

end CommandLine

end LoadTest
