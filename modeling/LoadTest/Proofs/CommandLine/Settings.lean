import Mathlib.Data.List.Nodup
import LoadTest.CommandLine.Arguments
/-!
# Settings

Options can be given by their long names alone, each at most once and with its text after an equals
sign.  Arguments of this form are taken apart again whatever the texts are, also if a text starts
with a dash or holds another equals sign, and their order has no effect.

* `WellNamed`: names that can stand before an equals sign and tell options apart.
* `Setting.cut_written`: one argument of this form is one option with its value.
* `Settings.values_arguments`: the arguments give the value of each option that was set.
* `Settings.field?_of_takesText`, `Settings.field?_of_flag`: what is found under the name of an
  option.
* `Settings.find?_of_perm`: what was set does not depend on the order.
-/

namespace LoadTest

namespace CommandLine

/-! ## Names -/

/-- The long names of options stand before an equals sign, and no two are the same. -/
structure WellNamed (specs : List OptionSpec) : Prop where
  ne_nil : ∀ s ∈ specs, s.name.toList ≠ []
  no_equals : ∀ s ∈ specs, '=' ∉ s.name.toList
  nodup : (specs.map (·.name)).Nodup

variable {specs : List OptionSpec} {spec : OptionSpec} {name : String}

namespace WellNamed

/-- An option is known by its name. -/
theorem eq_of_name (h : WellNamed specs) {s t : OptionSpec} (hs : s ∈ specs) (ht : t ∈ specs)
    (hname : s.name = t.name) : s = t :=
  List.inj_on_of_nodup_map h.nodup hs ht hname

theorem byName?_name (h : WellNamed specs) (hs : spec ∈ specs) :
    byName? specs spec.name.toList = some spec := by
  cases hfind : byName? specs spec.name.toList with
  | none => exact absurd (List.find?_eq_none.1 hfind spec hs) (by simp)
  | some t =>
    have hname := List.find?_some hfind
    rw [beq_iff_eq, String.toList_inj] at hname
    rw [h.eq_of_name (List.mem_of_find?_eq_some hfind) hs hname]

theorem longShape_text (h : WellNamed specs) (hs : spec ∈ specs) (text : List Char) :
    longShape specs (spec.name.toList ++ '=' :: text)
      = .valued (dashed ('-' :: spec.name.toList)) (some spec) (String.ofList text) := by
  obtain ⟨c, cs, hname⟩ := List.exists_cons_of_ne_nil (h.ne_nil spec hs)
  have hequals : ((spec.name.toList ++ '=' :: text).tail.contains '=') = true := by
    rw [hname, List.cons_append, List.tail_cons]
    simp
  have hletters : ∀ d ∈ spec.name.toList, (d != '=') = true := by
    intro d hd
    rw [bne_iff_ne]
    rintro rfl
    exact h.no_equals spec hs hd
  rw [longShape, if_pos hequals, List.takeWhile_append_of_pos hletters,
    List.dropWhile_append_of_pos hletters, List.takeWhile_cons_of_neg (by simp),
    List.dropWhile_cons_of_neg (by simp), List.append_nil]
  simp only [h.byName?_name hs, List.tail_cons]

theorem longShape_name (h : WellNamed specs) (hs : spec ∈ specs) :
    longShape specs spec.name.toList = .bare (dashed ('-' :: spec.name.toList)) (some spec) := by
  have hequals : ¬ (spec.name.toList.tail.contains '=') = true := by
    rw [List.contains_iff_mem]
    exact fun hmem => h.no_equals spec hs (List.mem_of_mem_tail hmem)
  rw [longShape, if_neg hequals, h.byName?_name hs]

end WellNamed

/-- An argument that is more than two dashes has the shape of what follows them. -/
theorem shape_of_dashes {argument : String} {text : List Char}
    (h : argument.toList = '-' :: '-' :: text) (hne : text ≠ []) :
    shape specs argument = longShape specs text := by
  obtain ⟨c, cs, rfl⟩ := List.exists_cons_of_ne_nil hne
  rw [shape, h]
  rfl

/-! ## One setting -/

/-- An option that is set, and its text.  The text of an option that takes none is not used. -/
structure Setting where
  spec : OptionSpec
  text : String

namespace Setting

/-- The argument of a setting: the long name, and the text after an equals sign. -/
def written (s : Setting) : String :=
  if s.spec.takesText then "--" ++ s.spec.name ++ "=" ++ s.text else "--" ++ s.spec.name

/-- The value that is set. -/
def value (s : Setting) : Value := if s.spec.takesText then .text s.text else .bool true

/-- The option of a setting as it stands on the command line. -/
def token (s : Setting) : Token :=
  if s.spec.takesText then
    .option (dashed ('-' :: s.spec.name.toList)) (some s.spec) (some s.text) true
  else .option (dashed ('-' :: s.spec.name.toList)) (some s.spec) none false

theorem toList_written (s : Setting) :
    s.written.toList = '-' :: '-' ::
      if s.spec.takesText then s.spec.name.toList ++ '=' :: s.text.toList
      else s.spec.name.toList := by
  rw [written]
  split <;> simp

/-- **An argument is cut as a whole**: it takes nothing from those after it. -/
theorem cut_written (h : WellNamed specs) {s : Setting} (hs : s.spec ∈ specs)
    (arguments : List String) :
    cut specs (s.written :: arguments) = s.token :: cut specs arguments := by
  have hname := h.ne_nil s.spec hs
  have hlist := s.toList_written
  rw [cut, token]
  cases htext : s.spec.takesText with
  | true =>
    rw [htext, if_pos rfl] at hlist
    rw [shape_of_dashes hlist (by simp), h.longShape_text hs, String.ofList_toList, if_pos rfl]
  | false =>
    rw [htext, if_neg Bool.false_ne_true] at hlist
    rw [shape_of_dashes hlist hname, h.longShape_name hs]
    simp only [wantsText, htext, Bool.false_eq_true, if_false]

theorem check_token (s : Setting) : s.token.check = .ok (s.spec.name, s.value) := by
  rw [token, value]
  cases htext : s.spec.takesText with
  | true => simp [Token.check, htext]
  | false => simp [Token.check, htext]

/-- What is found under a name among the values of settings. -/
theorem lookup_map (name : String) (settings : List Setting) :
    (settings.map fun s => (s.spec.name, s.value)).lookup name
      = (settings.find? fun s => s.spec.name == name).map value := by
  induction settings with
  | nil => rfl
  | cons s settings ih =>
    rw [List.map_cons, List.lookup_cons, List.find?_cons]
    by_cases hname : s.spec.name = name
    · simp [hname]
    · have hname' : (name == s.spec.name) = false := by simpa using Ne.symm hname
      have hname'' : (s.spec.name == name) = false := by simpa using hname
      rw [hname', hname'']
      exact ih

end Setting

/-! ## Settings of all options -/

/-- Settings of known options, each set at most once. -/
structure Settings (specs : List OptionSpec) where
  list : List Setting
  known : ∀ s ∈ list, s.spec ∈ specs
  once : (list.map (·.spec)).Nodup

namespace Settings

variable (g : Settings specs)

/-- The settings as arguments. -/
def arguments : List String := g.list.map Setting.written

/-- The setting of an option, by its name. -/
def find? (name : String) : Option Setting := g.list.find? fun s => s.spec.name == name

/-- The text that an option is set to. -/
def text? (name : String) : Option String := (g.find? name).map (·.text)

/-- The option is set. -/
def sets (name : String) : Bool := (g.find? name).isSome

variable {g}

theorem nodup_names (h : WellNamed specs) : (g.list.map (·.spec.name)).Nodup := by
  have hmap : g.list.map (·.spec.name) = (g.list.map (·.spec)).map (·.name) := by
    rw [List.map_map]
    rfl
  rw [hmap]
  refine List.Nodup.map_on (fun s hs t ht hname => ?_) g.once
  obtain ⟨a, ha, rfl⟩ := List.mem_map.1 hs
  obtain ⟨b, hb, rfl⟩ := List.mem_map.1 ht
  exact h.eq_of_name (g.known a ha) (g.known b hb) hname

theorem mem_of_find? {s : Setting} (hs : g.find? name = some s) :
    s ∈ g.list ∧ s.spec.name = name := by
  have hname := List.find?_some (p := fun t : Setting => t.spec.name == name) hs
  exact ⟨List.mem_of_find?_eq_some hs, beq_iff_eq.1 hname⟩

theorem find?_eq_some_iff (h : WellNamed specs) {s : Setting} :
    g.find? name = some s ↔ s ∈ g.list ∧ s.spec.name = name := by
  constructor
  · exact mem_of_find?
  · rintro ⟨hs, rfl⟩
    cases hfind : g.find? s.spec.name with
    | none => exact absurd (List.find?_eq_none.1 hfind s hs) (by simp)
    | some t =>
      obtain ⟨hmem, hname⟩ := mem_of_find? hfind
      rw [List.inj_on_of_nodup_map (nodup_names h) hmem hs hname]

/-- **The order has no effect**: each option is set to the same. -/
theorem find?_of_perm (h : WellNamed specs) {g' : Settings specs} (hperm : g.list.Perm g'.list)
    (name : String) : g.find? name = g'.find? name := by
  refine Option.ext fun s => ?_
  rw [find?_eq_some_iff h, find?_eq_some_iff h, hperm.mem_iff]

/-! ## Taking settings apart -/

theorem cut_arguments (h : WellNamed specs) : ∀ {settings : List Setting},
    (∀ s ∈ settings, s.spec ∈ specs) →
      cut specs (settings.map Setting.written) = settings.map Setting.token := by
  intro settings
  induction settings with
  | nil =>
    intro _
    rfl
  | cons s settings ih =>
    intro hknown
    obtain ⟨hs, hrest⟩ := List.forall_mem_cons.1 hknown
    rw [List.map_cons, Setting.cut_written h hs, ih hrest, List.map_cons]

theorem mapM_check (settings : List Setting) :
    (settings.map Setting.token).mapM Token.check
      = .ok (settings.map fun s => (s.spec.name, s.value)) := by
  induction settings with
  | nil => rfl
  | cons s settings ih =>
    rw [List.map_cons, List.mapM_cons, Setting.check_token, ih]
    rfl

/-- **Settings are read as what was set**, the last one first. -/
theorem values_arguments (h : WellNamed specs) (g : Settings specs) :
    values specs g.arguments = .ok (g.list.map fun s => (s.spec.name, s.value)).reverse := by
  rw [values, arguments, cut_arguments h g.known, mapM_check]
  rfl

/-- The values that settings are read as. -/
def record (g : Settings specs) : Value :=
  .record (g.list.map fun s => (s.spec.name, s.value)).reverse

/-- The settings in the opposite order. -/
def reverse (g : Settings specs) : Settings specs where
  list := g.list.reverse
  known := fun s hs => g.known s (List.mem_reverse.1 hs)
  once := by
    rw [List.map_reverse, List.nodup_reverse]
    exact g.once

theorem field?_record (h : WellNamed specs) (g : Settings specs) (name : String) :
    g.record.field? name = (g.find? name).map Setting.value := by
  -- the values come last first, which makes no difference where each option is set once
  have hperm : g.list.Perm g.reverse.list := (List.reverse_perm g.list).symm
  rw [find?_of_perm h hperm, record, ← List.map_reverse]
  exact Setting.lookup_map name g.list.reverse

/-- The setting found under the name of an option is one of that option. -/
theorem spec_of_find? (h : WellNamed specs) (hspec : spec ∈ specs) {s : Setting}
    (hs : g.find? spec.name = some s) : s.spec = spec := by
  obtain ⟨hmem, hname⟩ := mem_of_find? hs
  exact h.eq_of_name (g.known s hmem) hspec hname

/-- **The value of an option that takes a text** is the text that it is set to. -/
theorem field?_of_takesText (h : WellNamed specs)
    (hname : ∃ s ∈ specs, s.name = name ∧ s.takesText = true) :
    g.record.field? name = (g.text? name).map .text := by
  obtain ⟨spec, hspec, rfl, htext⟩ := hname
  rw [field?_record h, text?, Option.map_map]
  cases hs : g.find? spec.name with
  | none => rfl
  | some s =>
    rw [Option.map_some, Option.map_some, Setting.value, spec_of_find? h hspec hs, if_pos htext]
    rfl

/-- **The value of an option that takes none** is true if it is set. -/
theorem field?_of_flag (h : WellNamed specs)
    (hname : ∃ s ∈ specs, s.name = name ∧ s.takesText = false) :
    g.record.field? name = if g.sets name then some (.bool true) else none := by
  obtain ⟨spec, hspec, rfl, htext⟩ := hname
  rw [field?_record h, sets]
  cases hs : g.find? spec.name with
  | none => rfl
  | some s =>
    rw [Option.map_some, Setting.value, spec_of_find? h hspec hs, htext]
    rfl

end Settings

end CommandLine

end LoadTest
