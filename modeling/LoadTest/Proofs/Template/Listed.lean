import LoadTest.Proofs.Template.Occurrences
import LoadTest.Proofs.Template.Scan
/-!
# What the scan finds in a template

The scan for placeholders reads the bare text, and rendering reads the tags.  On a template that
keeps its delimiters they meet at every tag: what the scan finds before a tag ends there at the
latest.

* `letters_mem_names`: a variable tag of a common form is found, whatever other tags there are.
* `map_names_of_run`: if all variable tags are of a common form and no tag holds an opening delimiter
  then nothing else is found.
* `unresolved_of_keeps`: what this means for the list of names that a context lacks.
* `not_exactly_listed`: the list is not exact for other templates.
-/

namespace LoadTest

namespace Template

variable {cs text rest : List Char} {t : Tag} {o : Occurrence} {os : List Occurrence}

/-! ## The text of a tag -/

namespace Tag

/-- **What reading a tag can give**: its text leads to the content, as `split` says, and ends with
the closing delimiter; and what kind of tag it is depends on the kind that `split` finds. -/
theorem read?_cases {d : Delimiters} (h : read? d cs = some (t, text, rest)) :
    ∃ middle, text = (split cs).1 ++ (middle ++ d.closing) ∧
      ((∃ words, t = .delimiters words) ∨ (∃ name, t = .value name) ∨
        ∃ content, t = ofKind (split cs).2.1 content) := by
  unfold read? at h
  simp only [bind, pure] at h
  split at h
  · obtain ⟨⟨content, text₁, rest₁⟩, -, h⟩ := Option.bind_eq_some_iff.1 h
    obtain ⟨⟨dropped, rest₂⟩, -, h⟩ := Option.bind_eq_some_iff.1 h
    cases h
    exact ⟨text₁ ++ dropped, by simp, .inl ⟨_, rfl⟩⟩
  · split at h
    all_goals
      obtain ⟨⟨content, text₁, rest₁⟩, hcontent, h⟩ := Option.bind_eq_some_iff.1 h
      obtain ⟨⟨body, after⟩, -, hbody⟩ := Option.map_eq_some_iff.1 hcontent
      cases h
      cases hbody
    · exact ⟨body ++ ['\x7d'], by simp, .inr (.inl ⟨_, rfl⟩)⟩
    · exact ⟨body, rfl, .inr (.inr ⟨_, rfl⟩)⟩

/-- The kinds of tags that write no value and set no delimiters. -/
def isQuietKind (c : Char) : Bool := "#^/>!".toList.contains c

/-- A tag that writes no value, and is read to its closing delimiter alone, is of such a kind. -/
theorem exists_quietKind {kind? : Option Char} {content : String}
    (h : (ofKind kind? content).name? = none) :
    ∃ kind, kind? = some kind ∧ isQuietKind kind = true := by
  unfold ofKind at h
  split at h
  · rename_i hkind
    exact ⟨_, hkind, rfl⟩
  · split at h
    · rename_i hkind
      exact ⟨_, hkind, rfl⟩
    · split at h
      · rename_i hkind
        exact ⟨_, hkind, rfl⟩
      · split at h
        · rename_i hkind
          exact ⟨_, hkind, rfl⟩
        · split at h
          · rename_i hkind
            exact ⟨_, hkind, rfl⟩
          · cases h

/-- A kind stands in the text of its tag, after blanks perhaps. -/
theorem exists_lead_of_split {kind : Char} (h : (split cs).2.1 = some kind) :
    ∃ (b : Blanks) (more : List Char), (split cs).1 = b.text ++ kind :: more := by
  unfold split at h ⊢
  split at h
  · cases h
  · rename_i c tail hdrop
    by_cases hkind : isKind c = true
    · simp only [hkind, if_true, Option.some.injEq] at h ⊢
      subst h
      exact ⟨⟨cs.takeWhile Text.isBlank, fun _ hc => List.mem_takeWhile_imp hc⟩, _, rfl⟩
    · simp [hkind] at h

end Tag

/-- A tag that writes no value and sets no delimiters says so before anything but blanks. -/
theorem exists_lead (hread : Tag.read? .standard cs = some (t, text, rest))
    (hname : t.name? = none) (hkeeps : t.setsDelimiters = false) :
    ∃ (b : Blanks) (kind : Char) (more : List Char),
      text = b.text ++ kind :: more ∧ Tag.isQuietKind kind = true := by
  obtain ⟨middle, rfl, hcases⟩ := Tag.read?_cases hread
  rcases hcases with ⟨words, rfl⟩ | ⟨name, rfl⟩ | ⟨content, rfl⟩
  · cases hkeeps
  · cases hname
  · obtain ⟨kind, hkind, hquiet⟩ := Tag.exists_quietKind hname
    obtain ⟨b, more, hlead⟩ := Tag.exists_lead_of_split hkind
    refine ⟨b, kind, more ++ (middle ++ Delimiters.standard.closing), ?_, hquiet⟩
    rw [hlead, List.append_assoc, List.cons_append]

/-- The text of a tag ends in two braces. -/
theorem exists_closing (hread : Tag.read? .standard cs = some (t, text, rest)) :
    ∃ body, text = body ++ ['\x7d', '\x7d'] := by
  obtain ⟨middle, rfl, -⟩ := Tag.read?_cases hread
  exact ⟨(Tag.split cs).1 ++ middle, (List.append_assoc ..).symm⟩

namespace Placeholder

/-! ## Tags that write no value -/

theorem of_isQuietKind {c : Char} (h : Tag.isQuietKind c = true) :
    Text.isBlank c = false ∧ isNameChar c = false := by
  have hall : ("#^/>!".toList.all fun d => !Text.isBlank d && !isNameChar d) = true := by decide
  simpa using List.all_eq_true.1 hall c (List.contains_iff_mem.1 h)

/-- Where a tag says that it writes no value no placeholder starts. -/
theorem read?_quiet (b : Blanks) {kind : Char} (hkind : Tag.isQuietKind kind = true)
    (cs : List Char) : read? (['\x7b', '\x7b'] ++ (b.text ++ kind :: cs)) = none := by
  obtain ⟨hblank, hname⟩ := of_isQuietKind hkind
  have htrim : Text.trimStart (b.text ++ kind :: cs) = kind :: cs := b.dropWhile_append hblank cs
  rw [read?, Text.after?_self]
  simp only [bind, Option.bind_some]
  rw [skip_blanks b rfl (ne_of_class hkind rfl), htrim, skip_of_ne (ne_of_class hkind rfl),
    trimStart_of_not_isBlank hblank, List.takeWhile_cons_of_neg (by simp [hname])]
  rfl

/-- Nothing is found in a tag that writes no value if no opening delimiter is in it. -/
theorem names_quiet {body more : List Char} (b : Blanks) {kind : Char}
    (hkind : Tag.isQuietKind kind = true) (hlead : text = b.text ++ kind :: more)
    (hend : text = body ++ ['\x7d', '\x7d']) (hclear : ¬ ['\x7b', '\x7b'] <:+: text)
    (rest : List Char) : names (['\x7b', '\x7b'] ++ (text ++ rest)) = names rest := by
  have hread : read? ('\x7b' :: ('\x7b' :: text ++ rest)) = none := by
    rw [hlead, List.cons_append, List.append_assoc]
    exact read?_quiet b hkind (more ++ rest)
  -- The second brace of the opening delimiter is not the first brace of another one.
  have hopening : ¬ ['\x7b', '\x7b'] <:+: '\x7b' :: text := by
    rw [List.infix_cons_iff, not_or]
    refine ⟨?_, hclear⟩
    rintro ⟨tail, htail⟩
    rw [hlead] at htail
    rcases b.head_eq (List.cons.inj htail).2.symm with hblank | heq
    · cases hblank
    · exact ne_of_class hkind rfl heq.symm
  have hlast : ('\x7b' :: text).getLast? = some '\x7d' := by
    have hsplit : '\x7b' :: text = ('\x7b' :: body ++ ['\x7d']) ++ ['\x7d'] := by simp [hend]
    rw [hsplit, List.getLast?_concat]
  let l : Literal :=
    { text := '\x7b' :: text, noOpening := hopening, noHalfOpening := by simp [hlast] }
  exact (names_of_unread hread).trans (names_of_passes l.passes rest)

/-! ## Runs of tags -/

/-- **What is found up to the end of a tag** is followed by what is found in the rest alone. -/
theorem names_run_tag (l : Literal) {o : Occurrence}
    (hread : Tag.read? .standard (o.text ++ rest) = some (o.tag, o.text, rest)) :
    ∃ found, names (l.text ++ (['\x7b', '\x7b'] ++ (o.text ++ rest))) = found ++ names rest := by
  obtain ⟨body, hbody⟩ := exists_closing hread
  have hsplit : ['\x7b', '\x7b'] ++ (o.text ++ rest)
      = ['\x7b', '\x7b'] ++ body ++ '\x7d' :: '\x7d' :: rest := by
    rw [hbody]
    simp
  rw [names_of_passes l.passes, hsplit]
  exact names_append_closing rest _

/-- A tag as it stands in a text. -/
def Common.occurrence (t : Common) : Occurrence := ⟨.value t.name, t.body⟩

theorem names_occurrence (t : Common) (rest : List Char) :
    names (['\x7b', '\x7b'] ++ (t.occurrence.text ++ rest)) = t.letters :: names rest := by
  rw [← List.append_assoc]
  exact names_text t rest

/-- **A variable tag of a common form is found**, whatever other tags there are. -/
theorem letters_mem_names (h : Run cs os) (t : Common) (ht : t.occurrence ∈ os) :
    t.letters ∈ names cs := by
  induction h with
  | last h => cases ht
  | tag l hread hkeeps hrest ih =>
    rcases List.mem_cons.1 ht with rfl | ht
    · rw [names_of_passes l.passes, names_occurrence]
      exact List.mem_cons_self
    · obtain ⟨found, hfound⟩ := names_run_tag l hread
      rw [hfound]
      exact List.mem_append_right _ (ih ht)

end Placeholder

/-! ## Templates whose variable tags are common -/

namespace Occurrence

/-- A variable tag is written in one of the common forms; other tags may be as they are. -/
def IsCommon (o : Occurrence) : Prop :=
  ∀ name, o.tag.name? = some name → ∃ t : Placeholder.Common, t.occurrence = o

/-- No opening delimiter is in what is written in a tag. -/
def IsClear (o : Occurrence) : Prop := ¬ ['\x7b', '\x7b'] <:+: o.text

end Occurrence

theorem Placeholder.map_names_of_run (h : Run cs os) (hos : ∀ o ∈ os, o.IsCommon ∧ o.IsClear) :
    (names cs).map String.ofList = namesIn os := by
  induction h with
  | last h => rw [names_eq_nil h]; rfl
  | @tag l o rest os hread hkeeps hrest ih =>
    obtain ⟨⟨hcommon, hclear⟩, hothers⟩ := List.forall_mem_cons.1 hos
    rw [names_of_passes l.passes]
    cases hname : o.tag.name? with
    | some name =>
      obtain ⟨t, rfl⟩ := hcommon name hname
      rw [names_occurrence, List.map_cons, ih hothers]
      rfl
    | none =>
      obtain ⟨b, kind, more, hlead, hkind⟩ := exists_lead hread hname hkeeps
      obtain ⟨body, hbody⟩ := exists_closing hread
      rw [names_quiet b hkind hlead hbody hclear, ih hothers, namesIn, namesIn, List.filterMap_cons,
        hname]

/-- The tags of a template, up to the first one after which nothing can be read. -/
def tagsOf (template : String) : List Occurrence := occurrences .standard template.toList

/-- **What the list of unresolved names tells** of a template that is rendered and keeps its
delimiters, in any context.

* Each variable tag of a common form, at any depth and whatever other tags there are, is listed if
  the context has no such key.
* If all variable tags are of a common form then an empty list means that each of them has a key.
* If moreover no opening delimiter is in the text of any tag then the list is exact: it holds the
  names of the variable tags that have no key, each once, where it first appears. -/
theorem unresolved_of_keeps {template : String} {names : List String} (context : Context)
    (hnames : valueNames template = .ok names)
    (hkeeps : ∀ o ∈ tagsOf template, o.tag.setsDelimiters = false) :
    (∀ t : Placeholder.Common, t.occurrence ∈ tagsOf template → context.lookup t.name = none →
        t.name ∈ unresolved template context) ∧
      ((∀ o ∈ tagsOf template, o.IsCommon) → unresolved template context = [] →
        ∀ name ∈ names, context.lookup name ≠ none) ∧
      ((∀ o ∈ tagsOf template, o.IsCommon ∧ o.IsClear) →
        unresolved template context
          = (names.filter fun name => (context.lookup name).isNone).eraseDups) := by
  obtain ⟨rfl, hend⟩ := valueNames_eq hnames
  have hrun : Run template.toList (tagsOf template) := run_of_cut 0 [] hend hkeeps
  have hlisted : ∀ t : Placeholder.Common, t.occurrence ∈ tagsOf template →
      context.lookup t.name = none → t.name ∈ unresolved template context := by
    intro t ht hlookup
    rw [unresolved, List.mem_eraseDups, List.mem_filter, hlookup]
    exact ⟨List.mem_map_of_mem (Placeholder.letters_mem_names hrun t ht), rfl⟩
  refine ⟨hlisted, ?_, ?_⟩
  · intro hcommon hempty name hname hlookup
    obtain ⟨o, ho, hvalue⟩ := List.mem_filterMap.1 hname
    obtain ⟨t, rfl⟩ := hcommon o ho name hvalue
    cases hvalue
    have hmem := hlisted t ho hlookup
    rw [hempty] at hmem
    cases hmem
  · intro hos
    rw [unresolved, Placeholder.map_names_of_run hrun hos]
    rfl

/-- A template with a comment, two sections and a variable tag of each common form. -/
def settings : String :=
  "\x7b\x7b! where the data goes \x7d\x7d\n\x7b\x7b#tls\x7d\x7dhosts=\x7b\x7bhosts\x7d\x7d:\x7b\x7b\x7b port \x7d\x7d\x7d\x7b\x7b/tls\x7d\x7d"
    ++ "\x7b\x7b^tls\x7d\x7dname=\x7b\x7b & db.name \x7d\x7d\x7b\x7b/tls\x7d\x7d\n"

/-- The variable tags of that template. -/
def settingsTags : List Placeholder.Common :=
  let one : Blanks := ⟨[' '], List.forall_mem_singleton.2 rfl⟩
  [⟨.plain, .empty, .empty, "hosts".toList, .empty, by simp, List.all_eq_true.1 rfl, fun _ => rfl⟩,
    ⟨.braces, .empty, one, "port".toList, one, by simp, List.all_eq_true.1 rfl, fun _ => rfl⟩,
    ⟨.ampersand, one, one, "db.name".toList, one, by simp, List.all_eq_true.1 rfl,
      fun h => absurd rfl h⟩]

theorem unresolved_settings :
    valueNames settings = .ok ["hosts", "port", "db.name"] ∧
      (∀ o ∈ tagsOf settings, o.tag.setsDelimiters = false) ∧
      (∀ o ∈ tagsOf settings, o.IsCommon ∧ o.IsClear) ∧
      unresolved settings [("port", .text "9042")] = ["hosts", "db.name"] := by
  have hnames : valueNames settings = .ok ["hosts", "port", "db.name"] := by decide +kernel
  have hkeeps : ∀ o ∈ tagsOf settings, o.tag.setsDelimiters = false := by decide +kernel
  have hforms : ∀ o ∈ tagsOf settings, (o.tag.name? = none ∨
      o ∈ settingsTags.map Placeholder.Common.occurrence) ∧ ¬ ['\x7b', '\x7b'] <:+: o.text := by
    decide +kernel
  have hcommon : ∀ o ∈ tagsOf settings, o.IsCommon ∧ o.IsClear := by
    intro o ho
    obtain ⟨hform, hclear⟩ := hforms o ho
    refine ⟨fun name hname => ?_, hclear⟩
    rcases hform with hnone | hmem
    · rw [hnone] at hname
      cases hname
    · obtain ⟨t, -, ht⟩ := List.mem_map.1 hmem
      exact ⟨t, ht⟩
  have hlist := (unresolved_of_keeps [("port", .text "9042")] hnames hkeeps).2.2 hcommon
  exact ⟨hnames, hkeeps, hcommon, hlist.trans (by decide +kernel)⟩

/-- **The list is not exact for every template.**  A tag with other delimiters is not listed; one
that only stands in a comment is; and of the variable tags in two braces or three those are not
listed whose name holds another character than letters, digits, underscores and points, or that have
a blank before the third brace. -/
theorem not_exactly_listed :
    (valueNames "\x7b\x7b=<% %>=\x7d\x7d<%host%>" = .ok ["host"] ∧
        unresolved "\x7b\x7b=<% %>=\x7d\x7d<%host%>" [] = []) ∧
      (valueNames "\x7b\x7b! \x7b\x7bhost\x7d\x7d" = .ok [] ∧ unresolved "\x7b\x7b! \x7b\x7bhost\x7d\x7d" [] = ["host"]) ∧
      (valueNames "\x7b\x7bhost-list\x7d\x7d" = .ok ["host-list"] ∧ unresolved "\x7b\x7bhost-list\x7d\x7d" [] = []) ∧
      valueNames "\x7b\x7b \x7bhost\x7d\x7d\x7d" = .ok ["host"] ∧
        unresolved "\x7b\x7b \x7bhost\x7d\x7d\x7d" [] = [] := by
  decide +kernel

end Template

end LoadTest
