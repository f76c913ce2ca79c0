import Mathlib.Data.List.Nodup
import SourceBundle.Proofs.Glob.PatternSets
import SourceBundle.Settings.Merge

/-!
# Values that are checked

Some of the fields that overrides supply are checked (`CheckedField`): two names, two numbers and
the entries of two lists of patterns.  Each value is looked at by itself, so the issues of overrides
are those of their checked fields, one field after the other (`issues_eq_filterMap`).  No issue hides
another, and none is reported twice.

Overrides without issues give settings with the values that were supplied, and with the defaults
where nothing was (`IsMerged`).
-/

namespace SourceBundle

open Glob

/-! ## Checked fields -/

/-- The fields with checked values.  Each entry in a list of patterns is a field of its own. -/
inductive CheckedField where
  | style
  | topFilesLength
  | maxCommits
  | includePattern (index : Nat)
  | customPattern (index : Nat)
  | encoding
  deriving DecidableEq

/-- In a list of names in lower case, what was given is, up to case, a name of the choice. -/
def Names {α : Type} (names : List (String × α)) (given : Text) (choice : α) : Prop :=
  ∃ name, (name, choice) ∈ names ∧ name.toList = given.lower

namespace CheckedField

/-- What the value of a field can be before it is checked. -/
abbrev Value : CheckedField → Type
  | .topFilesLength | .maxCommits => Int
  | .style | .includePattern _ | .customPattern _ | .encoding => Text

/-- The dotted path of a field in a document of overrides. -/
def path : CheckedField → String
  | .style => "output.style"
  | .topFilesLength => "output.topFilesLength"
  | .maxCommits => "output.git.sortByChangesMaxCommits"
  | .includePattern index => "include." ++ toString index
  | .customPattern index => "ignore.customPatterns." ++ toString index
  | .encoding => "tokenCount.encoding"

/-- The values that are acceptable in a field. -/
def Accepts : (f : CheckedField) → f.Value → Prop
  | .style, given => ∃ style, Names Style.names given style
  | .topFilesLength, (n : Int) => 0 ≤ n
  | .maxCommits, (n : Int) => 1 ≤ n ∧ n ≤ Int.pow 2 32 - 1
  | .includePattern _, raw => isPattern (escapeBrackets raw)
  | .customPattern _, raw => isPattern raw
  | .encoding, given => ∃ encoding, Names Encoding.names given encoding

end CheckedField

namespace Overrides

/-- The value that overrides supply for a field. -/
def valueAt (o : Overrides) : (f : CheckedField) → Option f.Value
  | .style => o.output.bind OutputOverrides.style
  | .topFilesLength => o.output.bind OutputOverrides.topFilesLength
  | .maxCommits => (o.output.bind OutputOverrides.git).bind GitOverrides.maxCommits
  | .includePattern index => (o.includes.getD [])[index]?
  | .customPattern index => ((o.ignore.bind IgnoreOverrides.customPatterns).getD [])[index]?
  | .encoding => o.tokenCount.bind TokenCountOverrides.encoding

/-- A value is supplied for the field, and it is not acceptable. -/
def IsFaultyAt (o : Overrides) (f : CheckedField) : Prop :=
  ∃ v, o.valueAt f = some v ∧ ¬ f.Accepts v

/-- The checked fields of overrides in the order in which they are reported. -/
def checkedFields (o : Overrides) : List CheckedField :=
  [.style, .topFilesLength, .maxCommits] ++
    (List.range (o.includes.getD []).length).map .includePattern ++
    (List.range ((o.ignore.bind IgnoreOverrides.customPatterns).getD []).length).map
      .customPattern ++
    [.encoding]

end Overrides

/-! ## Merged settings -/

/-- The choice is the one that is named, or the default if no name is given. -/
def IsChosen {α : Type} (names : List (String × α)) (fallback : α) (given : Option Text)
    (choice : α) : Prop :=
  match given with
  | none => choice = fallback
  | some given => Names names given choice

/-- Each of the settings is the value that overrides supply, or the default if they supply none. -/
structure IsMerged (o : Overrides) (s : Settings) : Prop where
  style : IsChosen Style.names .markdown (o.output.bind OutputOverrides.style) s.output.style
  parsableStyle :
    s.output.parsableStyle = (o.output.bind OutputOverrides.parsableStyle).getD false
  headerText : s.output.headerText = o.output.bind OutputOverrides.headerText
  instructionText : s.output.instructionText = o.output.bind OutputOverrides.instructionText
  fileSummary : s.output.fileSummary = (o.output.bind OutputOverrides.fileSummary).getD true
  directoryStructure :
    s.output.directoryStructure = (o.output.bind OutputOverrides.directoryStructure).getD true
  removeComments :
    s.output.removeComments = (o.output.bind OutputOverrides.removeComments).getD false
  removeEmptyLines :
    s.output.removeEmptyLines = (o.output.bind OutputOverrides.removeEmptyLines).getD false
  compress : s.output.compress = (o.output.bind OutputOverrides.compress).getD false
  topFilesLength :
    (s.output.topFilesLength : Int) = (o.output.bind OutputOverrides.topFilesLength).getD 5
  showLineNumbers :
    s.output.showLineNumbers = (o.output.bind OutputOverrides.showLineNumbers).getD false
  includeEmptyDirectories :
    s.output.includeEmptyDirectories =
      (o.output.bind OutputOverrides.includeEmptyDirectories).getD false
  sortByChanges :
    s.output.git.sortByChanges =
      ((o.output.bind OutputOverrides.git).bind GitOverrides.sortByChanges).getD true
  maxCommits :
    (s.output.git.maxCommits : Int) =
      ((o.output.bind OutputOverrides.git).bind GitOverrides.maxCommits).getD 100
  includes : s.includes = o.includes.getD []
  useGitignore : s.ignore.useGitignore = (o.ignore.bind IgnoreOverrides.useGitignore).getD true
  useDefaultPatterns :
    s.ignore.useDefaultPatterns = (o.ignore.bind IgnoreOverrides.useDefaultPatterns).getD true
  customPatterns :
    s.ignore.customPatterns = (o.ignore.bind IgnoreOverrides.customPatterns).getD []
  enableSecurityCheck :
    s.security.enableSecurityCheck =
      (o.security.bind SecurityOverrides.enableSecurityCheck).getD true
  encoding :
    IsChosen Encoding.names .o200kBase (o.tokenCount.bind TokenCountOverrides.encoding)
      s.tokenCount.encoding

/-! ## Names -/

section Choices

variable {α : Type} {names : List (String × α)} {given : Text} {choice : α}

theorem choiceNamed?_eq_some (hkeys : (names.map Prod.fst).Nodup) :
    choiceNamed? names given = some choice ↔ Names names given choice := by
  rw [choiceNamed?, Option.map_eq_some_iff]
  constructor
  · rintro ⟨entry, hfind, rfl⟩
    have hname := List.find?_some hfind
    exact ⟨entry.1, List.mem_of_find?_eq_some hfind, eq_of_beq hname⟩
  · rintro ⟨name, hmem, hname⟩
    have hsome : (names.find? fun entry => entry.1.toList == given.lower).isSome := by
      rw [List.find?_isSome]
      exact ⟨_, hmem, beq_iff_eq.mpr hname⟩
    obtain ⟨entry, hfind⟩ := Option.isSome_iff_exists.mp hsome
    have hbeq := List.find?_some hfind
    have hentry : entry.1.toList = given.lower := eq_of_beq hbeq
    have hsame : entry = (name, choice) :=
      List.inj_on_of_nodup_map hkeys (List.mem_of_find?_eq_some hfind) hmem
        (String.toList_injective (hentry.trans hname.symm))
    exact ⟨entry, hfind, by rw [hsame]⟩

theorem isSome_choiceNamed? (hkeys : (names.map Prod.fst).Nodup) :
    (choiceNamed? names given).isSome ↔ ∃ choice, Names names given choice := by
  simp only [Option.isSome_iff_exists, choiceNamed?_eq_some hkeys]

end Choices

/-! ## Issues, field by field -/

/-- The issue of a value that a field is given, if it has one. -/
def CheckedField.issue? : (f : CheckedField) → f.Value → Option Issue
  | .style, given => if (Style.ofName? given).isSome then none else some (.unknownStyle given)
  | .topFilesLength, (n : Int) => if 0 ≤ n then none else some (.negativeTopFiles n)
  | .maxCommits, (n : Int) =>
    if 1 ≤ n ∧ n < Int.pow 2 32 then none else some (.maxCommitsOutOfRange n)
  | .includePattern index, raw =>
    (Overrides.patternFault? (escapeBrackets raw)).map (.invalidInclude index raw)
  | .customPattern index, raw =>
    (Overrides.patternFault? raw).map (.invalidCustomPattern index raw)
  | .encoding, given =>
    if (Encoding.ofName? given).isSome then none else some (.unknownEncoding given)

/-- The field whose value an issue is about. -/
def Issue.checkedField : Issue → CheckedField
  | .unknownStyle _ => .style
  | .negativeTopFiles _ => .topFilesLength
  | .maxCommitsOutOfRange _ => .maxCommits
  | .invalidInclude index _ _ => .includePattern index
  | .invalidCustomPattern index _ _ => .customPattern index
  | .unknownEncoding _ => .encoding

/-- The issue of overrides at a field, if they have one there. -/
def Overrides.issueAt? (o : Overrides) (f : CheckedField) : Option Issue :=
  (o.valueAt f).bind f.issue?

namespace Overrides

theorem patternFault?_eq_none {raw : Text} : patternFault? raw = none ↔ isPattern raw := by
  rw [patternFault?, isPattern]
  cases tokensAfter none raw <;> simp

theorem patternIssues_eq_filterMap (escape : Text → Text) (issue : Nat → Text → Fault → Issue)
    (index : Nat) (raws : List Text) :
    patternIssues escape issue index raws = (List.range raws.length).filterMap fun i =>
      raws[i]?.bind fun raw => (patternFault? (escape raw)).map (issue (index + i) raw) := by
  induction raws generalizing index with
  | nil => rfl
  | cons raw raws ih =>
    rw [patternIssues, ih, List.length_cons, List.range_succ_eq_map, List.filterMap_cons,
      List.filterMap_map]
    have hrest : ∀ i, index + 1 + i = index + (i + 1) := by omega
    cases hfault : patternFault? (escape raw) <;> simp [hfault, hrest]

/-- The entries of a list of patterns are checked one by one. -/
theorem patternIssues_eq_issuesAt (o : Overrides) (field : Nat → CheckedField)
    {escape : Text → Text} {issue : Nat → Text → Fault → Issue} {raws : List Text}
    (hfield : ∀ i, o.issueAt? (field i) =
      raws[i]?.bind fun raw => (patternFault? (escape raw)).map (issue i raw)) :
    patternIssues escape issue 0 raws =
      ((List.range raws.length).map field).filterMap o.issueAt? := by
  simp only [patternIssues_eq_filterMap, List.filterMap_map, Nat.zero_add, ← hfield]
  rfl

theorem toList_ite_none {p : Prop} [Decidable p] (issue : Issue) :
    (if p then none else some issue).toList = if p then [] else [issue] := by
  split <;> rfl

theorem filterMap_singleton (o : Overrides) (f : CheckedField) :
    [f].filterMap o.issueAt? = (o.issueAt? f).toList := by
  cases hissue : o.issueAt? f <;> simp [hissue]

/-- Overrides are checked field by field. -/
theorem issues_eq_filterMap (o : Overrides) : o.issues = o.checkedFields.filterMap o.issueAt? := by
  have hstyle : ∀ given, styleIssues given = (given.bind (CheckedField.issue? .style)).toList
    | none => rfl
    | some _ => (toList_ite_none _).symm
  have htop : ∀ given,
      topFilesIssues given = (given.bind (CheckedField.issue? .topFilesLength)).toList
    | none => rfl
    | some _ => (toList_ite_none _).symm
  have hcommits : ∀ given,
      maxCommitsIssues given = (given.bind (CheckedField.issue? .maxCommits)).toList
    | none => rfl
    | some _ => (toList_ite_none _).symm
  have hencoding : ∀ given,
      encodingIssues given = (given.bind (CheckedField.issue? .encoding)).toList
    | none => rfl
    | some _ => (toList_ite_none _).symm
  have hincludes : patternIssues escapeBrackets .invalidInclude 0 (o.includes.getD []) = _ :=
    patternIssues_eq_issuesAt o .includePattern fun _ => rfl
  have hcustom : patternIssues id .invalidCustomPattern 0
      ((o.ignore.bind IgnoreOverrides.customPatterns).getD []) = _ :=
    patternIssues_eq_issuesAt o .customPattern fun _ => rfl
  have hfront : [.style, .topFilesLength, .maxCommits].filterMap o.issueAt? =
      (o.issueAt? .style).toList ++ (o.issueAt? .topFilesLength).toList ++
        (o.issueAt? .maxCommits).toList := by
    rw [← filterMap_singleton, ← filterMap_singleton, ← filterMap_singleton,
      ← List.filterMap_append, ← List.filterMap_append]
    rfl
  rw [issues, hstyle, htop, hcommits, hencoding, hincludes, hcustom, checkedFields,
    List.filterMap_append, List.filterMap_append, List.filterMap_append, hfront,
    filterMap_singleton]
  rfl

end Overrides

namespace CheckedField

/-- A value has an issue exactly when it is not acceptable. -/
theorem issue?_eq_none {f : CheckedField} {v : f.Value} : f.issue? v = none ↔ f.Accepts v := by
  have hite : ∀ (p : Prop) [Decidable p] (issue : Issue),
      (if p then none else some issue) = none ↔ p := by simp
  cases f with
  | style => exact (hite _ _).trans (isSome_choiceNamed? (by decide))
  | topFilesLength => exact hite _ _
  | maxCommits => exact (hite _ _).trans (and_congr_right fun _ => Int.le_sub_one_iff.symm)
  | includePattern index => exact Option.map_eq_none_iff.trans Overrides.patternFault?_eq_none
  | customPattern index => exact Option.map_eq_none_iff.trans Overrides.patternFault?_eq_none
  | encoding => exact (hite _ _).trans (isSome_choiceNamed? (by decide))

/-- An issue is about the field of its value. -/
theorem checkedField_of_issue? {f : CheckedField} {v : f.Value} {issue : Issue}
    (h : f.issue? v = some issue) : issue.checkedField = f := by
  cases f with
  | includePattern index =>
    obtain ⟨fault, -, rfl⟩ := Option.map_eq_some_iff.mp h
    rfl
  | customPattern index =>
    obtain ⟨fault, -, rfl⟩ := Option.map_eq_some_iff.mp h
    rfl
  | _ =>
    obtain ⟨-, hissue⟩ := Option.ite_none_left_eq_some.mp h
    cases hissue
    rfl

/-- An issue names the field of its value. -/
theorem field_of_issue? {f : CheckedField} {v : f.Value} {issue : Issue}
    (h : f.issue? v = some issue) : issue.field = f.path := by
  rw [← checkedField_of_issue? h]
  cases issue <;> rfl

theorem toString_injective : Function.Injective (toString : Nat → String) := fun _ _ h =>
  Text.numeral_injective (String.ofList_injective h)

/-- Different fields have different paths. -/
theorem path_injective : Function.Injective path := by
  intro f g h
  have hbegins : ∀ {s lead t : String}, s = lead ++ t → lead.toList <+: s.toList := by
    rintro _ lead t rfl
    rw [String.toList_append]
    exact List.prefix_append _ _
  cases f <;> cases g
  case includePattern.includePattern i j =>
    rw [toString_injective ((String.append_right_inj _).mp h)]
  case customPattern.customPattern i j =>
    rw [toString_injective ((String.append_right_inj _).mp h)]
  case includePattern.customPattern i j =>
    rcases List.prefix_or_prefix_of_prefix (hbegins h) (hbegins rfl) with hlead | hlead
    · exact absurd hlead (by decide)
    · exact absurd hlead (by decide)
  case customPattern.includePattern i j =>
    rcases List.prefix_or_prefix_of_prefix (hbegins h) (hbegins rfl) with hlead | hlead
    · exact absurd hlead (by decide)
    · exact absurd hlead (by decide)
  -- Paths without an index are given, and none of them begins like one with an index.
  all_goals first
    | rfl
    | exact absurd h (by decide)
    | exact absurd (hbegins h) (by decide)
    | exact absurd (hbegins h.symm) (by decide)

end CheckedField

namespace Overrides

variable {o : Overrides} {f : CheckedField}

theorem issueAt?_eq_some {issue : Issue} :
    o.issueAt? f = some issue ↔ ∃ v, o.valueAt f = some v ∧ f.issue? v = some issue :=
  Option.bind_eq_some_iff

/-- Overrides have an issue at exactly the fields with a value that is not acceptable. -/
theorem isSome_issueAt? : (o.issueAt? f).isSome ↔ o.IsFaultyAt f := by
  rw [issueAt?, IsFaultyAt]
  cases o.valueAt f with
  | none => simp
  | some v =>
    rw [Option.bind_some, ← Option.ne_none_iff_isSome, Ne, CheckedField.issue?_eq_none]
    simp

instance (o : Overrides) (f : CheckedField) : Decidable (o.IsFaultyAt f) :=
  decidable_of_iff _ isSome_issueAt?

theorem checkedField_of_issueAt? {issue : Issue} (h : o.issueAt? f = some issue) :
    issue.checkedField = f := by
  obtain ⟨v, -, hissue⟩ := issueAt?_eq_some.mp h
  exact CheckedField.checkedField_of_issue? hissue

theorem field_of_issueAt? {issue : Issue} (h : o.issueAt? f = some issue) :
    issue.field = f.path := by
  obtain ⟨v, -, hissue⟩ := issueAt?_eq_some.mp h
  exact CheckedField.field_of_issue? hissue

/-- Every field with a value is looked at. -/
theorem mem_checkedFields {v : f.Value} (h : o.valueAt f = some v) : f ∈ o.checkedFields := by
  have hentry : ∀ {raws : List Text} {index : Nat} {raw : Text}, raws[index]? = some raw →
      index < raws.length := by
    intro raws index raw hraw
    exact (List.getElem?_eq_some_iff.mp hraw).1
  cases f with
  | includePattern index => simpa [checkedFields] using hentry h
  | customPattern index => simpa [checkedFields] using hentry h
  | _ => simp [checkedFields]

theorem nodup_checkedFields (o : Overrides) : o.checkedFields.Nodup := by
  have hincludes : ∀ n, ((List.range n).map CheckedField.includePattern).Nodup :=
    fun n => List.nodup_range.map fun i j h => CheckedField.includePattern.inj h
  have hcustom : ∀ n, ((List.range n).map CheckedField.customPattern).Nodup :=
    fun n => List.nodup_range.map fun i j h => CheckedField.customPattern.inj h
  simp [checkedFields, List.nodup_append, hincludes, hcustom, or_imp, forall_and]

/-- The issues are reported in the order of the fields. -/
theorem fields_issues (o : Overrides) :
    o.issues.map Issue.field = (o.checkedFields.filter (o.IsFaultyAt ·)).map CheckedField.path := by
  rw [issues_eq_filterMap]
  induction o.checkedFields with
  | nil => rfl
  | cons f fields ih =>
    have hfaulty := isSome_issueAt? (o := o) (f := f)
    cases hissue : o.issueAt? f with
    | none =>
      rw [hissue] at hfaulty
      rw [List.filterMap_cons_none hissue, ih, List.filter_cons_of_neg (by simpa using hfaulty)]
    | some issue =>
      rw [hissue] at hfaulty
      rw [List.filterMap_cons_some hissue, List.map_cons, ih, field_of_issueAt? hissue,
        List.filter_cons_of_pos (by simpa using hfaulty), List.map_cons]

theorem issues_eq_nil_iff : o.issues = [] ↔ ∀ f, ¬ o.IsFaultyAt f := by
  rw [← List.map_eq_nil_iff (f := Issue.field), fields_issues, List.map_eq_nil_iff,
    List.filter_eq_nil_iff]
  simp only [decide_eq_true_eq]
  refine ⟨?_, fun h f _ => h f⟩
  rintro h f ⟨v, hvalue, hv⟩
  exact h f (mem_checkedFields hvalue) ⟨v, hvalue, hv⟩

/-- Values are acceptable when there are no issues. -/
theorem accepts_of_issues (h : o.issues = []) (f : CheckedField) {v : f.Value}
    (hvalue : o.valueAt f = some v) : f.Accepts v :=
  by_contra fun hv => issues_eq_nil_iff.mp h f ⟨v, hvalue, hv⟩

end Overrides

/-! ## Merging -/

section Chosen

variable {α : Type} {names : List (String × α)} {fallback a b : α} {given : Option Text}

theorem isChosen_getD (fallback : α) (hkeys : (names.map Prod.fst).Nodup)
    (h : ∀ name, given = some name → ∃ choice, Names names name choice) :
    IsChosen names fallback given ((given.bind (choiceNamed? names)).getD fallback) := by
  cases given with
  | none => rfl
  | some name =>
    obtain ⟨choice, hchoice⟩ := h name rfl
    have hnamed := (choiceNamed?_eq_some hkeys).mpr hchoice
    rw [Option.bind_some, hnamed]
    exact hchoice

theorem IsChosen.unique (hkeys : (names.map Prod.fst).Nodup) (ha : IsChosen names fallback given a)
    (hb : IsChosen names fallback given b) : a = b := by
  cases given with
  | none => exact ha.trans hb.symm
  | some name =>
    have hnamed := (choiceNamed?_eq_some hkeys).mpr ha
    rw [(choiceNamed?_eq_some hkeys).mpr hb] at hnamed
    exact (Option.some.inj hnamed).symm

end Chosen

/-- A number that is not negative stays what it is. -/
theorem toNat_getD (fallback : Nat) {given : Option Int} (h : ∀ n, given = some n → 0 ≤ n) :
    (((given.map Int.toNat).getD fallback : Nat) : Int) = given.getD fallback := by
  cases given with
  | none => rfl
  | some n => exact Int.toNat_of_nonneg (h n rfl)

namespace Overrides

variable {o : Overrides}

theorem customPatterns_settings (o : Overrides) :
    o.settings.ignore.customPatterns = (o.ignore.bind IgnoreOverrides.customPatterns).getD [] := by
  obtain ⟨output, includes, ignore, security, tokenCount⟩ := o
  cases ignore <;> rfl

/-- Without issues the merged settings are those that the overrides supply. -/
theorem isMerged_settings (h : o.issues = []) : IsMerged o o.settings := by
  have hstyle := isChosen_getD Style.markdown (by decide) fun _ => accepts_of_issues h .style
  have hencoding :=
    isChosen_getD Encoding.o200kBase (by decide) fun _ => accepts_of_issues h .encoding
  have htop := toNat_getD 5 fun _ => accepts_of_issues h .topFilesLength
  have hcommits := toNat_getD 100 fun _ hn => Int.le_of_lt (accepts_of_issues h .maxCommits hn).1
  obtain ⟨output, includes, ignore, security, tokenCount⟩ := o
  constructor
  case style => cases output <;> exact hstyle
  case encoding => cases tokenCount <;> exact hencoding
  case topFilesLength => cases output <;> exact htop
  case maxCommits =>
    cases output with
    | none => rfl
    | some output =>
      obtain ⟨_, _, _, _, _, _, _, _, _, _, _, _, git⟩ := output
      cases git <;> exact hcommits
  case sortByChanges =>
    cases output with
    | none => rfl
    | some output =>
      obtain ⟨_, _, _, _, _, _, _, _, _, _, _, _, git⟩ := output
      cases git <;> rfl
  all_goals cases output <;> cases ignore <;> cases security <;> rfl

end Overrides

/-- Overrides determine all settings. -/
theorem IsMerged.unique {o : Overrides} {s s' : Settings} (h : IsMerged o s)
    (h' : IsMerged o s') : s = s' := by
  have hstyle := h.style.unique (by decide) h'.style
  have hencoding := h.encoding.unique (by decide) h'.encoding
  have htop := Int.ofNat.inj (h.topFilesLength.trans h'.topFilesLength.symm)
  have hcommits := Int.ofNat.inj (h.maxCommits.trans h'.maxCommits.symm)
  obtain ⟨⟨_, _, _, _, _, _, _, _, _, _, _, _, ⟨_, _⟩⟩, _, ⟨_, _, _⟩, ⟨_⟩, ⟨_⟩⟩ := s
  obtain ⟨⟨_, _, _, _, _, _, _, _, _, _, _, _, ⟨_, _⟩⟩, _, ⟨_, _, _⟩, ⟨_⟩, ⟨_⟩⟩ := s'
  cases h
  cases h'
  simp_all

namespace Overrides

theorem mergeUnder_eq_error {headline : Text} {o : Overrides} {r : Rejection} :
    o.mergeUnder headline = .error r ↔ o.issues ≠ [] ∧ r = ⟨headline, o.issues⟩ := by
  rw [mergeUnder]
  split
  · rename_i hissues
    exact iff_of_false nofun fun h => h.1 hissues
  · rename_i hissues
    rw [and_iff_right hissues, Except.error.injEq, eq_comm]

theorem mergeUnder_eq_ok {headline : Text} {o : Overrides} {s : Settings} :
    o.mergeUnder headline = .ok s ↔ o.issues = [] ∧ s = o.settings := by
  rw [mergeUnder]
  split
  · rename_i hissues
    rw [and_iff_right hissues, Except.ok.injEq, eq_comm]
  · rename_i hissues
    exact iff_of_false nofun fun h => hissues h.1

/-- Overrides that are accepted have no issues. -/
theorem issues_eq_nil {o : Overrides} {s : Settings} (h : o.merge = .ok s) :
    o.issues = [] ∧ s = o.settings := mergeUnder_eq_ok.mp h

/-- **Overrides are checked field by field.**  They are rejected exactly when some field has a value
that is not acceptable.  The report then has one issue for each such field and no other, under the
path of the field and in the order of the fields.  Otherwise each of the settings is the value that is
supplied, or the default if there is none.  Merging without a headline is the case of the usual one. -/
theorem mergeUnder_field_by_field (headline : Text) (o : Overrides) :
    ((∃ r, o.mergeUnder headline = .error r) ↔ ∃ f, o.IsFaultyAt f) ∧
    (∀ r, o.mergeUnder headline = .error r →
      r.headline = headline ∧
      r.issues.map Issue.field =
        (o.checkedFields.filter (o.IsFaultyAt ·)).map CheckedField.path ∧
      (∀ f, f.path ∈ r.issues.map Issue.field ↔ o.IsFaultyAt f) ∧
      (r.issues.map Issue.field).Nodup) ∧
    ∀ s, o.mergeUnder headline = .ok s ↔ (∀ f, ¬ o.IsFaultyAt f) ∧ IsMerged o s := by
  refine ⟨?_, ?_, fun s => ?_⟩
  · have hfaulty : (∃ f, o.IsFaultyAt f) ↔ o.issues ≠ [] := by
      rw [Ne, issues_eq_nil_iff, not_forall_not]
    simp [mergeUnder_eq_error, hfaulty]
  · intro r hr
    obtain ⟨-, rfl⟩ := mergeUnder_eq_error.mp hr
    refine ⟨rfl, fields_issues o, fun f => ?_, ?_⟩
    · rw [fields_issues, List.mem_map_of_injective CheckedField.path_injective, List.mem_filter,
        decide_eq_true_eq, and_iff_right_iff_imp]
      rintro ⟨v, hvalue, -⟩
      exact mem_checkedFields hvalue
    · rw [fields_issues]
      exact ((nodup_checkedFields o).filter _).map CheckedField.path_injective
  · rw [mergeUnder_eq_ok, ← issues_eq_nil_iff]
    refine and_congr_right fun h => ⟨?_, fun hs => hs.unique (isMerged_settings h)⟩
    rintro rfl
    exact isMerged_settings h

end Overrides

end SourceBundle
