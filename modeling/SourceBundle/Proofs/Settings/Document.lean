import SourceBundle.Proofs.Json.Layouts
import SourceBundle.Proofs.Search.Patterns
import SourceBundle.Settings.Document

/-!
# Settings are overrides

The document of settings has the layout of overrides: its members are the fields of the layout, in
the same order, and each has a value that the field takes.  Read as overrides it gives every setting
(`Settings.toOverrides`), only a missing text stays missing.  These overrides have no issues when
those from which the settings were merged have none, and they are merged to the same settings again.

The number of top files has no upper bound in settings, but in a document it has to fit into 64 bits
with a sign.  It does when it comes from overrides that were read
(`Overrides.topFilesFit_of_ofText`).
-/

namespace SourceBundle

open Json Json.Reading

/-! ## Overrides that give every setting -/

/-- The overrides that give all settings of the version history. -/
def GitSettings.toOverrides (s : GitSettings) : GitOverrides where
  sortByChanges := some s.sortByChanges
  maxCommits := some s.maxCommits

/-- The overrides that give all settings of the document; only a missing text is left out. -/
def OutputSettings.toOverrides (s : OutputSettings) : OutputOverrides where
  style := some s.style.name.toList
  parsableStyle := some s.parsableStyle
  headerText := s.headerText
  instructionText := s.instructionText
  fileSummary := some s.fileSummary
  directoryStructure := some s.directoryStructure
  removeComments := some s.removeComments
  removeEmptyLines := some s.removeEmptyLines
  compress := some s.compress
  topFilesLength := some s.topFilesLength
  showLineNumbers := some s.showLineNumbers
  includeEmptyDirectories := some s.includeEmptyDirectories
  git := some s.git.toOverrides

/-- The overrides that give all settings of what is ignored. -/
def IgnoreSettings.toOverrides (s : IgnoreSettings) : IgnoreOverrides where
  useGitignore := some s.useGitignore
  useDefaultPatterns := some s.useDefaultPatterns
  customPatterns := some s.customPatterns

/-- The overrides that give all settings. -/
def Settings.toOverrides (s : Settings) : Overrides where
  output := some s.output.toOverrides
  includes := some s.includes
  ignore := some s.ignore.toOverrides
  security := some { enableSecurityCheck := some s.security.enableSecurityCheck }
  tokenCount := some { encoding := some s.tokenCount.encoding.name.toList }

/-! ## Reading the document -/

namespace Settings

theorem fieldTakes_optionalText {σ : Type} (t : Option Text) (name : String)
    (put : Option Text → σ → σ) :
    FieldTakes (.of name Reading.text put) (optionalText t) (put t) := by
  cases t with
  | none => exact fieldTakes_null _ _ _
  | some t => exact fieldTakes_of (takes_text t) _ _

theorem takes_gitJson {s : GitSettings} (h : s.maxCommits < Nat.pow 2 63) :
    Takes GitOverrides.layout (gitJson s) s.toOverrides := by
  refine takes_record ?_ (by decide)
  refine .cons (fieldTakes_of (takes_flag _) _ _) ?_
  refine .cons (fieldTakes_of (takes_whole h) _ _) ?_
  exact .nil

theorem takes_outputJson {s : OutputSettings} (htop : s.topFilesLength < Nat.pow 2 63)
    (hcommits : s.git.maxCommits < Nat.pow 2 63) :
    Takes OutputOverrides.layout (outputJson s) s.toOverrides := by
  refine takes_record ?_ (by decide)
  refine .cons (fieldTakes_of (takes_text _) _ _) ?_
  refine .cons (fieldTakes_of (takes_flag _) _ _) ?_
  refine .cons (fieldTakes_optionalText _ _ _) ?_
  refine .cons (fieldTakes_optionalText _ _ _) ?_
  refine .cons (fieldTakes_of (takes_flag _) _ _) ?_
  refine .cons (fieldTakes_of (takes_flag _) _ _) ?_
  refine .cons (fieldTakes_of (takes_flag _) _ _) ?_
  refine .cons (fieldTakes_of (takes_flag _) _ _) ?_
  refine .cons (fieldTakes_of (takes_flag _) _ _) ?_
  refine .cons (fieldTakes_of (takes_whole htop) _ _) ?_
  refine .cons (fieldTakes_of (takes_flag _) _ _) ?_
  refine .cons (fieldTakes_of (takes_flag _) _ _) ?_
  refine .cons (fieldTakes_of (takes_gitJson hcommits) _ _) ?_
  exact .nil

theorem takes_ignoreJson (s : IgnoreSettings) :
    Takes IgnoreOverrides.layout (ignoreJson s) s.toOverrides := by
  refine takes_record ?_ (by decide)
  refine .cons (fieldTakes_of (takes_flag _) _ _) ?_
  refine .cons (fieldTakes_of (takes_flag _) _ _) ?_
  refine .cons (fieldTakes_of (takes_texts _) _ _) ?_
  exact .nil

theorem takes_securityJson (s : SecuritySettings) :
    Takes SecurityOverrides.layout
      (.object [entry "enableSecurityCheck" (.bool s.enableSecurityCheck)])
      { enableSecurityCheck := some s.enableSecurityCheck } := by
  refine takes_record ?_ (by decide)
  refine .cons (fieldTakes_of (takes_flag _) _ _) ?_
  exact .nil

theorem takes_tokenCountJson (s : TokenCountSettings) :
    Takes TokenCountOverrides.layout (.object [entry "encoding" (.text s.encoding.name.toList)])
      { encoding := some s.encoding.name.toList } := by
  refine takes_record ?_ (by decide)
  refine .cons (fieldTakes_of (takes_text _) _ _) ?_
  exact .nil

theorem takes_toJson {s : Settings} (htop : s.output.topFilesLength < Nat.pow 2 63)
    (hcommits : s.output.git.maxCommits < Nat.pow 2 63) :
    Takes Overrides.layout s.toJson s.toOverrides := by
  refine takes_record ?_ (by decide)
  refine .cons (fieldTakes_of (takes_outputJson htop hcommits) _ _) ?_
  refine .cons (fieldTakes_of (takes_texts _) _ _) ?_
  refine .cons (fieldTakes_of (takes_ignoreJson _) _ _) ?_
  refine .cons (fieldTakes_of (takes_securityJson _) _ _) ?_
  refine .cons (fieldTakes_of (takes_tokenCountJson _) _ _) ?_
  exact .nil

end Settings

/-! ## Merging them again -/

theorem Style.ofName?_name (style : Style) : ofName? style.name.toList = some style := by
  cases style <;> decide

theorem Encoding.ofName?_name (encoding : Encoding) :
    ofName? encoding.name.toList = some encoding := by
  cases encoding <;> decide

theorem Settings.settings_toOverrides (s : Settings) : s.toOverrides.settings = s := by
  simp [Settings.toOverrides, OutputSettings.toOverrides, GitSettings.toOverrides,
    IgnoreSettings.toOverrides, Overrides.settings, Overrides.outputSettings,
    Overrides.gitSettings, Overrides.ignoreSettings, Overrides.securitySettings,
    Overrides.tokenCountSettings, Style.ofName?_name, Encoding.ofName?_name]

/-- The number of top files, if one is given, fits into 64 bits with its sign. -/
def OutputOverrides.TopFilesFit (o : OutputOverrides) : Prop :=
  ∀ n, o.topFilesLength = some n → n < Int.pow 2 63

/-- The number of top files, if one is given, fits into 64 bits with its sign. -/
def Overrides.TopFilesFit (o : Overrides) : Prop :=
  ∀ output, o.output = some output → output.TopFilesFit

theorem OutputOverrides.gives_topFilesFit : Gives layout TopFilesFit := by
  have hother : ∀ {α : Type} {layout : Layout α} {name : String}
      {put : Option α → OutputOverrides → OutputOverrides},
      (∀ v o, (put v o).topFilesLength = o.topFilesLength) →
        FieldKeeps (.of name layout put) TopFilesFit := by
    intro α layout name put hput
    refine fieldKeeps_of (gives_true layout) (fun v _ o ho n hn => ?_) name
    rw [hput] at hn
    exact ho n hn
  have hblank : TopFilesFit {} := fun n hn => by cases hn
  refine gives_record hblank ?_
  simp only [List.forall_mem_cons, List.not_mem_nil, false_implies, implies_true, and_true]
  refine ⟨?_, ?_, ?_, ?_, ?_, ?_, ?_, ?_, ?_, ?htop, ?_, ?_, ?_⟩
  case htop => exact fieldKeeps_of gives_whole (fun v hv o _ n hn => hv n hn) _
  all_goals exact hother fun _ _ => rfl

/-- In overrides that are read the number of top files fits. -/
theorem Overrides.topFilesFit_of_ofText {t : Text} {o : Overrides} (h : ofText t = .ok o) :
    o.TopFilesFit := by
  have hblank : TopFilesFit {} := fun output houtput => by cases houtput
  refine gives_of_document (gives_record hblank ?_) h
  simp only [List.forall_mem_cons, List.not_mem_nil, false_implies, implies_true, and_true]
  refine ⟨?houtput, ?_, ?_, ?_, ?_⟩
  case houtput => exact fieldKeeps_of OutputOverrides.gives_topFilesFit (fun v hv o _ => hv) _
  all_goals
    refine fieldKeeps_of (gives_true _) ?_ _
    exact fun v _ o ho => ho

namespace Overrides

theorem merge_of_issues {o : Overrides} (h : o.issues = []) : o.merge = .ok o.settings :=
  mergeUnder_eq_ok.mpr ⟨h, rfl⟩

theorem topFilesLength_lt {o : Overrides} (h : o.TopFilesFit) :
    o.settings.output.topFilesLength < Nat.pow 2 63 := by
  have hpow : Int.pow 2 63 = 9223372036854775808 := by decide +kernel
  have hpow' : Nat.pow 2 63 = 9223372036854775808 := by decide +kernel
  cases houtput : o.output with
  | none => simp [settings, houtput]
  | some output =>
    cases htop : output.topFilesLength with
    | none => simp [settings, outputSettings, houtput, htop]
    | some n =>
      have hn : n < Int.pow 2 63 := h output houtput n htop
      have htoNat : n.toNat < Nat.pow 2 63 := by omega
      simpa [settings, outputSettings, houtput, htop] using htoNat

/-- Accepted overrides give at least one commit, and fewer than fit into 32 bits. -/
theorem maxCommits_range {o : Overrides} (h : o.issues = []) :
    1 ≤ o.settings.output.git.maxCommits ∧
      (o.settings.output.git.maxCommits : Int) < Int.pow 2 32 := by
  have hpow : Int.pow 2 32 = 4294967296 := by decide +kernel
  have hmerged := (isMerged_settings h).maxCommits
  cases hcommits : (o.output.bind OutputOverrides.git).bind GitOverrides.maxCommits with
  | none =>
    rw [hcommits, Option.getD_none] at hmerged
    omega
  | some n =>
    obtain ⟨hpositive, hsmall⟩ := accepts_of_issues h .maxCommits hcommits
    rw [hcommits, Option.getD_some] at hmerged
    omega

/-- Overrides that give all the settings that were merged have no issues either. -/
theorem issues_toOverrides {o : Overrides} (h : o.issues = []) :
    o.settings.toOverrides.issues = [] := by
  obtain ⟨hpositive, hsmall⟩ := maxCommits_range h
  have hcommits : maxCommitsIssues (some (o.settings.output.git.maxCommits : Int)) = [] := by
    rw [maxCommitsIssues, if_pos ⟨by omega, hsmall⟩]
  have htop : topFilesIssues (some (o.settings.output.topFilesLength : Int)) = [] := by
    rw [topFilesIssues, if_pos (by omega)]
  have hstyle : styleIssues (some o.settings.output.style.name.toList) = [] := by
    simp [styleIssues, Style.ofName?_name]
  have hencoding : encodingIssues (some o.settings.tokenCount.encoding.name.toList) = [] := by
    simp [encodingIssues, Encoding.ofName?_name]
  simp only [issues, List.append_eq_nil_iff] at h ⊢
  obtain ⟨⟨⟨-, hincludes⟩, hcustom⟩, -⟩ := h
  rw [← customPatterns_settings] at hcustom
  exact ⟨⟨⟨⟨⟨hstyle, htop⟩, hcommits⟩, hincludes⟩, hcustom⟩, hencoding⟩

end Overrides

/-- The document of merged settings, in any of its texts, is read as the overrides that give every
setting, and these are accepted and give the same settings. -/
theorem Settings.ofText_toJson {o : Overrides} {s : Settings} (h : o.merge = .ok s)
    (hfit : o.TopFilesFit) :
    (∀ ⦃t gap gap' : Text⦄, Spells s.toJson t → IsGap gap → IsGap gap' →
      Overrides.ofText (gap ++ (t ++ gap')) = .ok s.toOverrides) ∧
      Overrides.ofText (compact s.toJson) = .ok s.toOverrides ∧
      Overrides.ofText (pretty s.toJson) = .ok s.toOverrides ∧
      s.toOverrides.merge = .ok s := by
  obtain ⟨hissues, rfl⟩ := Overrides.issues_eq_nil h
  have hcommits : o.settings.output.git.maxCommits < Nat.pow 2 63 := by
    have hpow : Int.pow 2 32 = 4294967296 := by decide +kernel
    have hpow' : Nat.pow 2 63 = 9223372036854775808 := by decide +kernel
    have hsmall := (Overrides.maxCommits_range hissues).2
    omega
  have htakes : Takes Overrides.layout o.settings.toJson o.settings.toOverrides :=
    takes_toJson (Overrides.topFilesLength_lt hfit) hcommits
  have hread : ∀ ⦃t gap gap' : Text⦄, Spells o.settings.toJson t → IsGap gap → IsGap gap' →
      Overrides.ofText (gap ++ (t ++ gap')) = .ok o.settings.toOverrides :=
    fun _ _ _ ht hgap hgap' => document_of_takes htakes ht hgap hgap'
  have hplain : ∀ {t : Text}, Spells o.settings.toJson t →
      Overrides.ofText t = .ok o.settings.toOverrides := by
    intro t ht
    have hbare := hread ht isGap_nil isGap_nil
    rwa [List.nil_append, List.append_nil] at hbare
  refine ⟨hread, hplain (spells_compact _), hplain (spells_pretty _), ?_⟩
  rw [Overrides.merge_of_issues (Overrides.issues_toOverrides hissues),
    Settings.settings_toOverrides]

/-- Overrides with synonyms for names, a header that has to be escaped, and no instruction. -/
def synonymOverrides : Overrides where
  output := some
    { style := some ['M', 'D']
      headerText := some ['"', '\\', '\n', Char.ofNat 1, 'x']
      topFilesLength := some 0
      git := some { maxCommits := some 12 } }
  includes := some [['a', '[', '*']]
  ignore := some { customPatterns := some [['*', '*', '/', 'b'], []] }
  tokenCount := some { encoding := some ['G', 'P', 'T', '2'] }

theorem ofText_toJson_synonyms :
    synonymOverrides.merge = .ok synonymOverrides.settings ∧ synonymOverrides.TopFilesFit ∧
      Overrides.ofText (pretty synonymOverrides.settings.toJson) =
        .ok synonymOverrides.settings.toOverrides ∧
      synonymOverrides.settings.toOverrides.merge = .ok synonymOverrides.settings ∧
      synonymOverrides.settings.toOverrides.tokenCount =
        some { encoding := some ['r', '5', '0', 'k', '_', 'b', 'a', 's', 'e'] } ∧
      synonymOverrides.settings.toOverrides.output.bind OutputOverrides.instructionText = none := by
  have hmerge : synonymOverrides.merge = .ok synonymOverrides.settings := by decide +kernel
  have hfit : synonymOverrides.TopFilesFit := by
    intro output houtput n hn
    cases houtput
    cases hn
    decide +kernel
  obtain ⟨-, -, hpretty, hagain⟩ := Settings.ofText_toJson hmerge hfit
  exact ⟨hmerge, hfit, hpretty, hagain, by decide +kernel, rfl⟩

end SourceBundle
