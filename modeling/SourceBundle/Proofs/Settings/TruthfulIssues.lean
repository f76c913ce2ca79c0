import SourceBundle.Proofs.Glob.Faults
import SourceBundle.Proofs.Settings.CheckedFields

/-!
# What issues say

An issue says what is wrong with a value, in words.  What the words mean is told here without the
check that leads to them (`CheckedField.IsTrueOf`): a number is below the bound that is named, a name
is not known, a pattern text breaks the rule.

All issues but one are true of their values.  The number of commits has to fit into 32 bits, and one
that does not is reported as smaller than one (`isTruthful_iff`).
-/

namespace SourceBundle

open Glob

/-! ## The meaning of messages -/

/-- The message names a bound, and the number is below it. -/
def IsBelowBound (n : Int) (message : String) : Prop :=
  ∃ bound : Nat,
    message = "number must be greater than or equal to " ++ toString bound ∧ n < bound

/-- The words name a rule for patterns, and the text breaks it behind a front for which `reads`
holds. -/
inductive BreaksNamedRule (reads : Text → Prop) (raw : Text) : String → Prop
  | stars (h : Fault.Breaks reads raw .tooManyStars) :
    BreaksNamedRule reads raw "wildcards are either regular `*` or recursive `**`"
  | component (h : Fault.Breaks reads raw .looseRecursion) :
    BreaksNamedRule reads raw "recursive wildcards must form a single path component"
  | range (h : Fault.Breaks reads raw .openClass) :
    BreaksNamedRule reads raw "invalid range pattern"

/-- The message says what is wrong with the value of a field, and that is wrong with it.  In an
include pattern brackets are literal, so no range can be wrong there. -/
def CheckedField.IsTrueOf : (f : CheckedField) → f.Value → String → Prop
  | .style, given, message =>
    message = "expected one of 'xml' | 'markdown' | 'plain', received " ++
      String.ofList (Text.quoted given) ∧ ∀ style, ¬ Names Style.names given style
  | .topFilesLength, n, message => IsBelowBound n message
  | .maxCommits, n, message => IsBelowBound n message
  | .includePattern _, raw, message => ∃ rule,
    message = "invalid glob pattern " ++ String.ofList (Text.quoted raw) ++ ": " ++ rule ∧
      BreaksNamedRule (fun front => isPattern (escapeBrackets front)) raw rule ∧
      rule ≠ "invalid range pattern"
  | .customPattern _, raw, message => ∃ rule,
    message = "invalid glob pattern " ++ String.ofList (Text.quoted raw) ++ ": " ++ rule ∧
      BreaksNamedRule (isPattern ·) raw rule
  | .encoding, given, message =>
    message = "unknown encoding: " ++ String.ofList given ∧
      ∀ encoding, ¬ Names Encoding.names given encoding

/-- The issue names a field with a value, and what it says is true of the value. -/
def Overrides.IsTruthful (o : Overrides) (issue : Issue) : Prop :=
  ∃ f v, o.valueAt f = some v ∧ issue.field = f.path ∧ f.IsTrueOf v issue.message

/-! ## Issues are true -/

theorem breaksNamedRule {reads : Text → Prop} {raw : Text} {fault : Fault}
    (h : fault.Breaks reads raw) : BreaksNamedRule reads raw fault.message := by
  cases fault with
  | tooManyStars => exact .stars h
  | looseRecursion => exact .component h
  | openClass => exact .range h

theorem Overrides.patternFault?_eq_some {raw : Text} {fault : Fault} :
    patternFault? raw = some fault ↔ tokensAfter none raw = .error fault := by
  rw [patternFault?]
  cases tokensAfter none raw <;> simp

namespace CheckedField

variable {f : CheckedField} {issue : Issue}

/-- The bound of the number of commits is named, whatever is wrong with the number. -/
theorem isTrueOf_maxCommits {n : Int} (h : issue? .maxCommits n = some issue) :
    IsTrueOf .maxCommits n issue.message ↔ n < Int.pow 2 32 := by
  obtain ⟨hrange, hissue⟩ := Option.ite_none_left_eq_some.mp h
  cases hissue
  have hpow : Int.pow 2 32 = 4294967296 := by decide +kernel
  have hmessage : "number must be greater than or equal to 1" =
      "number must be greater than or equal to " ++ toString 1 := by decide +kernel
  change IsBelowBound n "number must be greater than or equal to 1" ↔ n < Int.pow 2 32
  rw [hmessage]
  constructor
  · rintro ⟨bound, hbound, hn⟩
    obtain rfl := toString_injective ((String.append_right_inj _).mp hbound)
    omega
  · intro hn
    exact ⟨1, rfl, by omega⟩

theorem isTrueOf_of_ne {v : f.Value} (hf : f ≠ .maxCommits) (h : f.issue? v = some issue) :
    f.IsTrueOf v issue.message := by
  cases f with
  | style =>
    obtain ⟨hunknown, hissue⟩ := Option.ite_none_left_eq_some.mp h
    cases hissue
    rw [Style.ofName?, isSome_choiceNamed? (by decide), not_exists] at hunknown
    refine ⟨?_, hunknown⟩
    have hchoices : "expected one of " ++ Issue.styleChoices ++ ", received " =
        "expected one of 'xml' | 'markdown' | 'plain', received " := by decide +kernel
    rw [← hchoices]
    rfl
  | topFilesLength =>
    obtain ⟨hnegative, hissue⟩ := Option.ite_none_left_eq_some.mp h
    cases hissue
    have hmessage : "number must be greater than or equal to 0" =
        "number must be greater than or equal to " ++ toString 0 := by decide +kernel
    exact ⟨0, hmessage, Int.not_le.mp hnegative⟩
  | maxCommits => exact absurd rfl hf
  | includePattern index =>
    obtain ⟨fault, hfault, rfl⟩ := Option.map_eq_some_iff.mp h
    obtain ⟨hne, hbreaks⟩ := breaks_of_escapeBrackets (Overrides.patternFault?_eq_some.mp hfault)
    refine ⟨fault.message, rfl, breaksNamedRule hbreaks, ?_⟩
    cases fault with
    | openClass => exact absurd rfl hne
    | _ => decide
  | customPattern index =>
    obtain ⟨fault, hfault, rfl⟩ := Option.map_eq_some_iff.mp h
    have hbreaks := breaks_of_tokensAfter (Overrides.patternFault?_eq_some.mp hfault)
    exact ⟨fault.message, rfl, breaksNamedRule hbreaks⟩
  | encoding =>
    obtain ⟨hunknown, hissue⟩ := Option.ite_none_left_eq_some.mp h
    cases hissue
    rw [Encoding.ofName?, isSome_choiceNamed? (by decide), not_exists] at hunknown
    exact ⟨rfl, hunknown⟩

end CheckedField

namespace Overrides

variable {o : Overrides} {issue : Issue}

/-- An issue is truthful when it is one of the value of its field. -/
theorem isTruthful_of_valueAt {f : CheckedField} {v : f.Value} (hvalue : o.valueAt f = some v)
    (hissue : f.issue? v = some issue) : o.IsTruthful issue ↔ f.IsTrueOf v issue.message := by
  have hfield := CheckedField.field_of_issue? hissue
  constructor
  · rintro ⟨f', v', hvalue', hfield', htrue⟩
    obtain rfl := CheckedField.path_injective (hfield'.symm.trans hfield)
    obtain rfl := Option.some.inj (hvalue'.symm.trans hvalue)
    exact htrue
  · exact fun htrue => ⟨f, v, hvalue, hfield, htrue⟩

theorem mem_issues :
    issue ∈ o.issues ↔ ∃ f v, o.valueAt f = some v ∧ f.issue? v = some issue := by
  rw [issues_eq_filterMap, List.mem_filterMap]
  constructor
  · rintro ⟨f, -, hissue⟩
    exact ⟨f, issueAt?_eq_some.mp hissue⟩
  · rintro ⟨f, v, hvalue, hissue⟩
    exact ⟨f, mem_checkedFields hvalue, issueAt?_eq_some.mpr ⟨v, hvalue, hissue⟩⟩

/-- **Issues are truthful unless commits overflow.**  Each issue of a report says of the value of its
field what is true of it, and only one of the number of commits does not, when that number is too
large.  So all that is reported is true exactly when no such number is supplied. -/
theorem isTruthful_iff {headline : Text} {r : Rejection} (h : o.mergeUnder headline = .error r) :
    (∀ issue ∈ r.issues, o.IsTruthful issue ↔
      (issue.field = CheckedField.path .maxCommits →
        ∀ n, o.valueAt .maxCommits = some n → n < Int.pow 2 32)) ∧
    ((∀ issue ∈ r.issues, o.IsTruthful issue) ↔
      ∀ n, o.valueAt .maxCommits = some n → n < Int.pow 2 32) := by
  obtain ⟨-, rfl⟩ := mergeUnder_eq_error.mp h
  have hissue : ∀ issue ∈ o.issues, o.IsTruthful issue ↔
      (issue.field = CheckedField.path .maxCommits →
        ∀ n, o.valueAt .maxCommits = some n → n < Int.pow 2 32) := by
    intro issue hmem
    obtain ⟨f, v, hvalue, hissue⟩ := mem_issues.mp hmem
    rw [isTruthful_of_valueAt hvalue hissue, CheckedField.field_of_issue? hissue,
      CheckedField.path_injective.eq_iff]
    by_cases hf : f = .maxCommits
    · subst hf
      rw [CheckedField.isTrueOf_maxCommits hissue]
      simp [hvalue]
    · exact iff_of_true (CheckedField.isTrueOf_of_ne hf hissue) fun h => absurd h hf
  refine ⟨hissue, ⟨fun htruthful n hn => ?_, fun hsmall issue hmem => ?_⟩⟩
  · by_contra hlarge
    have hout : CheckedField.issue? .maxCommits n = some (.maxCommitsOutOfRange n) :=
      if_neg fun hrange => hlarge hrange.2
    have hmem := mem_issues.mpr ⟨.maxCommits, n, hn, hout⟩
    exact hlarge ((hissue _ hmem).mp (htruthful _ hmem) rfl n hn)
  · exact (hissue issue hmem).mpr fun _ => hsmall

/-- Overrides with a value for each checked field, none of them acceptable. -/
def faultyOverrides (commits : Int) : Overrides where
  output := some
    { style := some "HTML".toList
      topFilesLength := some (-1)
      git := some { maxCommits := some commits } }
  includes := some ["[a**]".toList, "src/***".toList]
  ignore := some { customPatterns := some ["[*]/b**".toList, "[!]".toList] }
  tokenCount := some { encoding := some "o201k".toList }

/-- All that is said of them is true, but not when there are too many commits. -/
theorem isTruthful_faultyOverrides :
    (∃ r, (faultyOverrides 0).merge = .error r ∧ r.issues.length = 8 ∧
      ∀ issue ∈ r.issues, (faultyOverrides 0).IsTruthful issue) ∧
    ∃ r, (faultyOverrides (Int.pow 2 32)).merge = .error r ∧ r.issues.length = 8 ∧
      ∀ issue ∈ r.issues, (faultyOverrides (Int.pow 2 32)).IsTruthful issue ↔
        issue.field ≠ CheckedField.path .maxCommits := by
  have hzero : (faultyOverrides 0).merge =
      .error ⟨Rejection.defaultHeadline, (faultyOverrides 0).issues⟩ :=
    mergeUnder_eq_error.mpr ⟨by decide +kernel, rfl⟩
  have hlarge : (faultyOverrides (Int.pow 2 32)).merge =
      .error ⟨Rejection.defaultHeadline, (faultyOverrides (Int.pow 2 32)).issues⟩ :=
    mergeUnder_eq_error.mpr ⟨by decide +kernel, rfl⟩
  refine ⟨⟨_, hzero, by decide +kernel, (isTruthful_iff hzero).2.mpr ?_⟩,
    ⟨_, hlarge, by decide +kernel, fun issue hmem => ?_⟩⟩
  · intro n hn
    cases hn
    decide
  · rw [(isTruthful_iff hlarge).1 issue hmem]
    constructor
    · exact fun h hfield => absurd (h hfield (Int.pow 2 32) rfl) (by decide)
    · exact fun h hfield => absurd hfield h

/-- A number of commits that does not fit into 32 bits is reported as smaller than one. -/
def tooManyCommits : Overrides where
  output := some { git := some { maxCommits := some (Int.pow 2 32) } }

theorem not_isTruthful_tooManyCommits :
    ¬ ∀ o r, merge o = .error r → ∀ issue ∈ r.issues, o.IsTruthful issue := by
  intro htruthful
  have hmerge : tooManyCommits.merge =
      .error ⟨Rejection.defaultHeadline, [.maxCommitsOutOfRange (Int.pow 2 32)]⟩ := by decide +kernel
  have hissue : CheckedField.issue? .maxCommits (Int.pow 2 32) =
      some (.maxCommitsOutOfRange (Int.pow 2 32)) := by decide +kernel
  have htrue := htruthful tooManyCommits _ hmerge _ (List.mem_singleton_self _)
  rw [isTruthful_of_valueAt rfl hissue, CheckedField.isTrueOf_maxCommits hissue] at htrue
  exact absurd htrue (by decide)

end Overrides

end SourceBundle
