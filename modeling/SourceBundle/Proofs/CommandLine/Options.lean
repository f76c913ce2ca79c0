import SourceBundle.CommandLine.Run
import SourceBundle.Proofs.Settings.Document

/-!
# Options touch what they name

The options of the command that packs change the overrides of its file before these are checked
and merged.  Each option names one field of the settings and replaces its value; only ignore patterns
are added behind those of the file.  Every other field is what the file alone makes of it
(`Given.amend`).

The same holds of the issues when the overrides are rejected.  A checked field that options touch
has the issue of the value that they give, and none if that value is acceptable, whatever stands in
the file.  At the other fields the issues are those of the file alone, in the same order.

Options may make a section of the overrides that the file left out.  This changes nothing by
itself, since a missing section counts for an empty one (`bind_eq_getD`, `settings_eq_sections`).
-/

namespace SourceBundle

/-- The ignore patterns that overrides supply. -/
def Overrides.ignorePatterns (o : Overrides) : List Text :=
  (o.ignore.bind IgnoreOverrides.customPatterns).getD []

namespace CommandLine

namespace Given

/-- The overrides in the file that is named; without a file nothing is overridden. -/
def fileOverrides (g : Given) (tree : Folder) : Except Error Overrides :=
  match g.valueOf? "config" with
  | none => .ok {}
  | some path => readOverrides tree path

/-- Options touch a checked field of the overrides that a file supplies.  Include patterns take the
place of the whole list; ignore patterns stand behind those of the file. -/
def touches (g : Given) (o : Overrides) : CheckedField → Bool
  | .style => (g.valueOf? "style").isSome
  | .topFilesLength | .maxCommits => false
  | .includePattern _ => !(g.listOf "include").isEmpty
  | .customPattern index => !(g.listOf "ignore").isEmpty && o.ignorePatterns.length ≤ index
  | .encoding => (g.valueOf? "encoding").isSome

/-- The value that options give a checked field of the overrides that a file supplies. -/
def valueAt (g : Given) (o : Overrides) : (f : CheckedField) → Option f.Value
  | .style => g.valueOf? "style"
  | .topFilesLength | .maxCommits => none
  | .includePattern index => (g.listOf "include")[index]?
  | .customPattern index => (g.listOf "ignore")[index - o.ignorePatterns.length]?
  | .encoding => g.valueOf? "encoding"

/-- Settings in which the fields that options name have the values that they give. -/
def amend (g : Given) (s : Settings) : Settings :=
  { s with
    output :=
      { s.output with
        style := ((g.valueOf? "style").bind Style.ofName?).getD s.output.style
        parsableStyle := g.hasFlag "parsable" || s.output.parsableStyle
        compress := g.hasFlag "compress" || s.output.compress
        removeComments := g.hasFlag "remove-comments" || s.output.removeComments
        removeEmptyLines := g.hasFlag "remove-empty-lines" || s.output.removeEmptyLines
        showLineNumbers := g.hasFlag "line-numbers" || s.output.showLineNumbers
        headerText := (g.valueOf? "header").or s.output.headerText
        includeEmptyDirectories :=
          g.hasFlag "include-empty-directories" || s.output.includeEmptyDirectories }
    includes := if (g.listOf "include").isEmpty then s.includes else g.listOf "include"
    ignore :=
      { useGitignore := !g.hasFlag "no-gitignore" && s.ignore.useGitignore
        useDefaultPatterns := !g.hasFlag "no-default-patterns" && s.ignore.useDefaultPatterns
        customPatterns := s.ignore.customPatterns ++ g.listOf "ignore" }
    tokenCount :=
      { encoding :=
          ((g.valueOf? "encoding").bind Encoding.ofName?).getD s.tokenCount.encoding } }

end Given

/-- Overrides differ from those of a file in nothing but what options name. -/
structure Given.Amends (g : Given) (o o' : Overrides) : Prop where
  /-- A field that options touch has the issue of the value that they give, every other field that
  of the value in the file. -/
  issues :
    o'.issues = o'.checkedFields.filterMap fun f =>
      if g.touches o f then (g.valueAt o f).bind f.issue? else o.issueAt? f
  /-- The issues at the fields that options leave alone are those of the file, in the same order. -/
  others :
    (o'.issues.filter fun issue => !g.touches o issue.checkedField) =
      o.issues.filter fun issue => !g.touches o issue.checkedField
  /-- Where options give an acceptable value, the one in the file causes no issue. -/
  replaced : ∀ f, g.touches o f → (∀ v, g.valueAt o f = some v → f.Accepts v) →
    ∀ issue ∈ o'.issues, issue.checkedField ≠ f
  /-- Without issues the settings are those of the file with the values of the options. -/
  merge :
    o'.merge =
      if o'.issues = [] then .ok (g.amend o.settings)
      else .error ⟨Rejection.defaultHeadline, o'.issues⟩
  /-- A file that is accepted stays so with acceptable options. -/
  accepted : ∀ s, o.merge = .ok s →
    (∀ f v, g.touches o f → g.valueAt o f = some v → f.Accepts v) → o'.merge = .ok (g.amend s)

/-! ## Missing sections -/

/-- A section that is missing gives what a blank one gives. -/
theorem bind_eq_getD {α β : Type} (get : α → Option β) (blank : α) (h : get blank = none)
    (part : Option α) : part.bind get = get (part.getD blank) := by
  cases part with
  | none => exact h.symm
  | some part => rfl

end CommandLine

theorem Settings.eq_of_sections {s s' : Settings} (houtput : s.output = s'.output)
    (hincludes : s.includes = s'.includes) (hignore : s.ignore = s'.ignore)
    (hsecurity : s.security = s'.security) (htokenCount : s.tokenCount = s'.tokenCount) :
    s = s' := by
  cases s
  cases s'
  simp_all

namespace Overrides

/-- A section that is missing is merged like an empty one. -/
theorem settings_eq_sections (o : Overrides) :
    o.settings =
      { output := outputSettings (o.output.getD {})
        includes := o.includes.getD []
        ignore := ignoreSettings (o.ignore.getD {})
        security := securitySettings (o.security.getD {})
        tokenCount := tokenCountSettings (o.tokenCount.getD {}) } := by
  obtain ⟨output, includes, ignore, security, tokenCount⟩ := o
  cases output <;> cases ignore <;> cases security <;> cases tokenCount <;> rfl

theorem ignorePatterns_eq (o : Overrides) :
    o.ignorePatterns = ((o.ignore.getD {}).customPatterns).getD [] := by
  rw [ignorePatterns, CommandLine.bind_eq_getD IgnoreOverrides.customPatterns {} rfl]

/-! ## Issues at some of the fields -/

/-- The issues at the fields of a kind are found by looking at these fields alone. -/
theorem filter_issues (o : Overrides) (p : CheckedField → Bool) :
    (o.issues.filter fun issue => p issue.checkedField) =
      (o.checkedFields.filter p).filterMap o.issueAt? := by
  rw [issues_eq_filterMap, List.filter_filterMap, List.filterMap_filter]
  refine List.filterMap_congr fun f _ => ?_
  cases hissue : o.issueAt? f with
  | none => simp
  | some issue => simp [Option.filter, checkedField_of_issueAt? hissue]

end Overrides

namespace CommandLine

/-! ## Flags that options come to -/

variable {g : Given} {search : SearchFlags} {document : PackFlags} {o : Overrides}

theorem getD_flagOr_true (given : Bool) (old : Option Bool) (fallback : Bool) :
    (flagOr given true old).getD fallback = (given || old.getD fallback) := by
  cases given <;> rfl

theorem getD_flagOr_false (given : Bool) (old : Option Bool) (fallback : Bool) :
    (flagOr given false old).getD fallback = (!given && old.getD fallback) := by
  cases given <;> rfl

theorem searchFlags?_eq_some (h : searchFlags? g = some search) :
    search =
      { includes := g.listOf "include"
        ignores := g.listOf "ignore"
        noGitignore := g.hasFlag "no-gitignore"
        noDefaultPatterns := g.hasFlag "no-default-patterns"
        includeEmptyDirectories := g.hasFlag "include-empty-directories"
        config := g.valueOf? "config" } :=
  (Option.some.inj (Option.ite_none_right_eq_some.mp h).2).symm

/-- The style of a document is the one that is named. -/
theorem map_name_of_styleGiven? {style : Option Style} (h : styleGiven? g = some style) :
    (style.map fun s => s.name.toList) = g.valueOf? "style" := by
  rw [styleGiven?] at h
  cases hname : g.valueOf? "style" with
  | none =>
    rw [hname] at h
    cases h
    rfl
  | some name =>
    rw [hname] at h
    obtain ⟨s, hfind, rfl⟩ := Option.map_eq_some_iff.mp h
    have hsame := List.find?_some hfind
    exact congrArg some (eq_of_beq hsame)

theorem bind_ofName?_of_styleGiven? {style : Option Style} (h : styleGiven? g = some style) :
    (g.valueOf? "style").bind Style.ofName? = style := by
  rw [← map_name_of_styleGiven? h]
  cases style with
  | none => rfl
  | some s => exact Style.ofName?_name s

/-! ## Sections with options -/

theorem output_apply (hsearch : searchFlags? g = some search)
    (hdocument : packFlags? g = some document) (o : Overrides) :
    (document.apply (search.apply o)).output.getD {} =
      { o.output.getD {} with
        style := (g.valueOf? "style").or (o.output.getD {}).style
        parsableStyle := flagOr (g.hasFlag "parsable") true (o.output.getD {}).parsableStyle
        compress := flagOr (g.hasFlag "compress") true (o.output.getD {}).compress
        removeComments :=
          flagOr (g.hasFlag "remove-comments") true (o.output.getD {}).removeComments
        removeEmptyLines :=
          flagOr (g.hasFlag "remove-empty-lines") true (o.output.getD {}).removeEmptyLines
        showLineNumbers := flagOr (g.hasFlag "line-numbers") true (o.output.getD {}).showLineNumbers
        headerText := (g.valueOf? "header").or (o.output.getD {}).headerText
        includeEmptyDirectories :=
          flagOr (g.hasFlag "include-empty-directories") true
            (o.output.getD {}).includeEmptyDirectories } := by
  obtain rfl := searchFlags?_eq_some hsearch
  obtain ⟨style, hstyle, rfl⟩ := Option.map_eq_some_iff.mp hdocument
  rw [← map_name_of_styleGiven? hstyle]
  simp only [PackFlags.apply, SearchFlags.apply, Option.getD_some]
  cases g.hasFlag "include-empty-directories" <;> rfl

theorem includes_apply (hsearch : searchFlags? g = some search) (document : PackFlags)
    (o : Overrides) :
    (document.apply (search.apply o)).includes.getD [] =
      if (g.listOf "include").isEmpty then o.includes.getD [] else g.listOf "include" := by
  obtain rfl := searchFlags?_eq_some hsearch
  simp only [PackFlags.apply, SearchFlags.apply]
  split <;> rfl

theorem ignorePatterns_apply (hsearch : searchFlags? g = some search) (document : PackFlags)
    (o : Overrides) :
    (document.apply (search.apply o)).ignorePatterns = o.ignorePatterns ++ g.listOf "ignore" := by
  obtain rfl := searchFlags?_eq_some hsearch
  simp only [Overrides.ignorePatterns_eq, PackFlags.apply, SearchFlags.apply, Option.getD_some]
  cases g.listOf "ignore" with
  | nil => exact (List.append_nil _).symm
  | cons pattern patterns => rfl

theorem tokenCount_apply (search : SearchFlags) (hdocument : packFlags? g = some document)
    (o : Overrides) :
    ((document.apply (search.apply o)).tokenCount.getD {}).encoding =
      (g.valueOf? "encoding").or (o.tokenCount.getD {}).encoding := by
  obtain ⟨style, -, rfl⟩ := Option.map_eq_some_iff.mp hdocument
  simp only [PackFlags.apply, SearchFlags.apply]
  cases g.valueOf? "encoding" <;> rfl

/-! ## Values and settings with options -/

/-- The value of a checked field is the one that options give, if they touch the field, and the one
of the file otherwise. -/
theorem valueAt_apply (hsearch : searchFlags? g = some search)
    (hdocument : packFlags? g = some document) (o : Overrides) (f : CheckedField) :
    (document.apply (search.apply o)).valueAt f =
      if g.touches o f then g.valueAt o f else o.valueAt f := by
  have hor : ∀ {α : Type} (new old : Option α), new.or old = if new.isSome then new else old := by
    intro α new old
    cases new <;> rfl
  have houtput := output_apply hsearch hdocument o
  cases f with
  | style =>
    have hstyle : (document.apply (search.apply o)).output.bind OutputOverrides.style =
        (g.valueOf? "style").or (o.output.bind OutputOverrides.style) := by
      rw [bind_eq_getD OutputOverrides.style {} rfl, bind_eq_getD OutputOverrides.style {} rfl,
        houtput]
    exact hstyle.trans (hor _ _)
  | topFilesLength =>
    have htop : (document.apply (search.apply o)).output.bind OutputOverrides.topFilesLength =
        o.output.bind OutputOverrides.topFilesLength := by
      rw [bind_eq_getD OutputOverrides.topFilesLength {} rfl,
        bind_eq_getD OutputOverrides.topFilesLength {} rfl, houtput]
    exact htop
  | maxCommits =>
    have hgit : (document.apply (search.apply o)).output.bind OutputOverrides.git =
        o.output.bind OutputOverrides.git := by
      rw [bind_eq_getD OutputOverrides.git {} rfl, bind_eq_getD OutputOverrides.git {} rfl, houtput]
    exact congrArg (Option.bind · GitOverrides.maxCommits) hgit
  | includePattern index =>
    have hincludes := congrArg (fun raws => raws[index]?) (includes_apply hsearch document o)
    cases hempty : (g.listOf "include").isEmpty with
    | false => simpa [Overrides.valueAt, Given.touches, Given.valueAt, hempty] using hincludes
    | true => simpa [Overrides.valueAt, Given.touches, Given.valueAt, hempty] using hincludes
  | customPattern index =>
    change (document.apply (search.apply o)).ignorePatterns[index]? =
      if !(g.listOf "ignore").isEmpty && o.ignorePatterns.length ≤ index then
        (g.listOf "ignore")[index - o.ignorePatterns.length]?
      else o.ignorePatterns[index]?
    rw [ignorePatterns_apply hsearch, List.getElem?_append]
    cases hignore : g.listOf "ignore" with
    | nil => simp
    | cons pattern patterns =>
      by_cases hindex : index < o.ignorePatterns.length
      · simp [hindex, Nat.not_le.mpr hindex]
      · simp [hindex, Nat.le_of_not_lt hindex]
  | encoding =>
    have hencoding :
        (document.apply (search.apply o)).tokenCount.bind TokenCountOverrides.encoding =
          (g.valueOf? "encoding").or (o.tokenCount.bind TokenCountOverrides.encoding) := by
      rw [bind_eq_getD TokenCountOverrides.encoding {} rfl,
        bind_eq_getD TokenCountOverrides.encoding {} rfl, tokenCount_apply search hdocument]
    exact hencoding.trans (hor _ _)

theorem output_settings_apply (hsearch : searchFlags? g = some search)
    (hdocument : packFlags? g = some document) (o : Overrides) :
    (document.apply (search.apply o)).settings.output = (g.amend o.settings).output := by
  obtain ⟨style, hstyle, -⟩ := Option.map_eq_some_iff.mp hdocument
  have hchosen : ∀ old fallback, (((g.valueOf? "style").or old).bind Style.ofName?).getD fallback =
      ((g.valueOf? "style").bind Style.ofName?).getD ((old.bind Style.ofName?).getD fallback) := by
    intro old fallback
    rw [bind_ofName?_of_styleGiven? hstyle, ← map_name_of_styleGiven? hstyle]
    cases style with
    | none => rfl
    | some s => simp [Style.ofName?_name]
  simp only [Overrides.settings_eq_sections, output_apply hsearch hdocument,
    Overrides.outputSettings, Given.amend, hchosen, getD_flagOr_true]

theorem ignore_settings_apply (hsearch : searchFlags? g = some search) (document : PackFlags)
    (o : Overrides) :
    (document.apply (search.apply o)).settings.ignore = (g.amend o.settings).ignore := by
  have hpatterns := ignorePatterns_apply hsearch document o
  simp only [Overrides.ignorePatterns, ← Overrides.customPatterns_settings] at hpatterns
  obtain rfl := searchFlags?_eq_some hsearch
  rw [Given.amend, ← hpatterns]
  simp only [Overrides.settings_eq_sections, PackFlags.apply, SearchFlags.apply,
    Option.getD_some, Overrides.ignoreSettings, getD_flagOr_false]

/-- Overrides with options are merged to the settings of the file with the values of the options,
as long as the encoding that is named is one. -/
theorem settings_apply (hsearch : searchFlags? g = some search)
    (hdocument : packFlags? g = some document) (o : Overrides)
    (hencoding : ∀ name, g.valueOf? "encoding" = some name → (Encoding.ofName? name).isSome) :
    (document.apply (search.apply o)).settings = g.amend o.settings := by
  have houtput := output_settings_apply hsearch hdocument o
  have hignore := ignore_settings_apply hsearch document o
  have hincludes := includes_apply hsearch document o
  have htokenCount : (document.apply (search.apply o)).settings.tokenCount =
      (g.amend o.settings).tokenCount := by
    simp only [Overrides.settings_eq_sections, Overrides.tokenCountSettings,
      tokenCount_apply search hdocument, Given.amend]
    cases hname : g.valueOf? "encoding" with
    | none => rfl
    | some name =>
      obtain ⟨encoding, hchosen⟩ := Option.isSome_iff_exists.mp (hencoding name hname)
      simp [hchosen]
  exact Settings.eq_of_sections houtput (includes_apply hsearch document o) hignore rfl htokenCount

/-! ## Issues with options -/

theorem issueAt?_apply (hsearch : searchFlags? g = some search)
    (hdocument : packFlags? g = some document) (o : Overrides) (f : CheckedField) :
    (document.apply (search.apply o)).issueAt? f =
      if g.touches o f then (g.valueAt o f).bind f.issue? else o.issueAt? f := by
  rw [Overrides.issueAt?, valueAt_apply hsearch hdocument, apply_ite (Option.bind · f.issue?)]
  rfl

/-- Options add and take away only fields that they touch. -/
theorem filter_checkedFields_apply (hsearch : searchFlags? g = some search) (document : PackFlags)
    (o : Overrides) :
    ((document.apply (search.apply o)).checkedFields.filter fun f => !g.touches o f) =
      o.checkedFields.filter fun f => !g.touches o f := by
  have hincludes : ∀ raws : List Text, (g.listOf "include").isEmpty = false →
      (((List.range raws.length).map CheckedField.includePattern).filter
        fun f => !g.touches o f) = [] := by
    intro raws hgiven
    rw [List.filter_eq_nil_iff]
    intro f hf
    obtain ⟨index, -, rfl⟩ := List.mem_map.mp hf
    simp [Given.touches, hgiven]
  have hadded : (((List.range (g.listOf "ignore").length).map (o.ignorePatterns.length + ·)).map
      CheckedField.customPattern).filter (fun f => !g.touches o f) = [] := by
    rw [List.filter_eq_nil_iff, List.map_map]
    intro f hf
    obtain ⟨index, hindex, rfl⟩ := List.mem_map.mp hf
    have hgiven : (g.listOf "ignore").isEmpty = false := by
      cases hignore : g.listOf "ignore" with
      | nil => simp [hignore] at hindex
      | cons pattern patterns => rfl
    simp [Given.touches, hgiven]
  have hpatterns := ignorePatterns_apply hsearch document o
  rw [Overrides.ignorePatterns] at hpatterns
  simp only [Overrides.checkedFields, List.filter_append, includes_apply hsearch, hpatterns,
    List.length_append, List.range_add, List.map_append, hadded, List.append_nil]
  cases hgiven : (g.listOf "include").isEmpty with
  | false => simp only [hincludes _ hgiven, Bool.false_eq_true, if_false]; rfl
  | true => simp only [if_true]; rfl

/-- Options leave the issues alone of the fields that they do not touch. -/
theorem filter_issues_apply (hsearch : searchFlags? g = some search)
    (hdocument : packFlags? g = some document) (o : Overrides) :
    ((document.apply (search.apply o)).issues.filter
        fun issue => !g.touches o issue.checkedField) =
      o.issues.filter fun issue => !g.touches o issue.checkedField := by
  rw [Overrides.filter_issues _ fun f => !g.touches o f,
    Overrides.filter_issues _ fun f => !g.touches o f, filter_checkedFields_apply hsearch]
  refine List.filterMap_congr fun f hf => ?_
  have huntouched : g.touches o f = false := by simpa using (List.mem_filter.mp hf).2
  rw [issueAt?_apply hsearch hdocument, huntouched, if_neg Bool.false_ne_true]

/-- An acceptable value that options give leaves its field without an issue. -/
theorem issueAt?_apply_eq_none (hsearch : searchFlags? g = some search)
    (hdocument : packFlags? g = some document) {f : CheckedField} (htouched : g.touches o f)
    (haccepts : ∀ v, g.valueAt o f = some v → f.Accepts v) :
    (document.apply (search.apply o)).issueAt? f = none := by
  rw [issueAt?_apply hsearch hdocument, if_pos htouched, Option.bind_eq_none_iff]
  exact fun v hv => CheckedField.issue?_eq_none.mpr (haccepts v hv)

/-- Options with acceptable values bring no issue into overrides that have none. -/
theorem issues_apply_eq_nil (hsearch : searchFlags? g = some search)
    (hdocument : packFlags? g = some document) (hissues : o.issues = [])
    (haccepts : ∀ f v, g.touches o f → g.valueAt o f = some v → f.Accepts v) :
    (document.apply (search.apply o)).issues = [] := by
  rw [Overrides.issues_eq_filterMap, List.filterMap_eq_nil_iff]
  intro f _
  by_cases htouched : g.touches o f
  · exact issueAt?_apply_eq_none hsearch hdocument htouched fun v => haccepts f v htouched
  · have hfaulty := Overrides.issues_eq_nil_iff.mp hissues f
    rw [issueAt?_apply hsearch hdocument, if_neg htouched]
    rwa [← Overrides.isSome_issueAt?, Option.not_isSome_iff_eq_none] at hfaulty

/-- An encoding that is named and causes no issue is one. -/
theorem isSome_encoding_of_issues (hsearch : searchFlags? g = some search)
    (hdocument : packFlags? g = some document)
    (hissues : (document.apply (search.apply o)).issues = []) {name : Text}
    (hname : g.valueOf? "encoding" = some name) : (Encoding.ofName? name).isSome := by
  have hvalue : (document.apply (search.apply o)).valueAt .encoding = some name := by
    rw [valueAt_apply hsearch hdocument, Given.touches, hname]
    exact hname
  exact (isSome_choiceNamed? (by decide)).mpr
    (Overrides.accepts_of_issues hissues .encoding hvalue)

theorem merge_apply (hsearch : searchFlags? g = some search)
    (hdocument : packFlags? g = some document) (o : Overrides) :
    (document.apply (search.apply o)).merge =
      if (document.apply (search.apply o)).issues = [] then .ok (g.amend o.settings)
      else .error ⟨Rejection.defaultHeadline, (document.apply (search.apply o)).issues⟩ := by
  split
  · rename_i hissues
    have hencoding : ∀ name, g.valueOf? "encoding" = some name →
        (Encoding.ofName? name).isSome :=
      fun _ => isSome_encoding_of_issues hsearch hdocument hissues
    rw [Overrides.merge_of_issues hissues, settings_apply hsearch hdocument o hencoding]
  · rename_i hissues
    exact Overrides.mergeUnder_eq_error.mpr ⟨hissues, rfl⟩

theorem amends_apply (hsearch : searchFlags? g = some search)
    (hdocument : packFlags? g = some document) (o : Overrides) :
    g.Amends o (document.apply (search.apply o)) where
  issues := by
    simp only [Overrides.issues_eq_filterMap, issueAt?_apply hsearch hdocument]
  others := filter_issues_apply hsearch hdocument o
  replaced := by
    intro f htouched haccepts issue hissue hfield
    rw [Overrides.issues_eq_filterMap] at hissue
    obtain ⟨f', -, hf'⟩ := List.mem_filterMap.mp hissue
    obtain rfl : f' = f := (Overrides.checkedField_of_issueAt? hf').symm.trans hfield
    rw [issueAt?_apply_eq_none hsearch hdocument htouched haccepts] at hf'
    cases hf'
  merge := merge_apply hsearch hdocument o
  accepted := by
    intro s hs haccepts
    obtain ⟨hissues, rfl⟩ := Overrides.issues_eq_nil hs
    rw [merge_apply hsearch hdocument,
      if_pos (issues_apply_eq_nil hsearch hdocument hissues haccepts)]

/-- The settings of a command come from the overrides of its file. -/
theorem settingsFor_eq_bind (hsearch : searchFlags? g = some search)
    (change : Overrides → Overrides) (tree : Folder) :
    settingsFor tree search change =
      (g.fileOverrides tree).bind fun o =>
        (change (search.apply o)).merge.mapError .settingsRejected := by
  obtain rfl := searchFlags?_eq_some hsearch
  rw [settingsFor, SearchFlags.overrides, Given.fileOverrides]
  cases g.valueOf? "config" with
  | none => rfl
  | some path =>
    change ((readOverrides tree path).map _).bind _ = (readOverrides tree path).bind _
    cases readOverrides tree path <;> rfl

/-- The flags of the command that packs are those of the options that were given. -/
theorem packCommand?_eq_some {arguments roots : List Text} {output : Option Text} {json : Bool}
    (h : packCommand? arguments = some (.pack search document roots output json)) :
    ∃ g, readArguments? (verboseSpec :: packSpecs) .nothing none arguments = some g ∧
      searchFlags? g = some search ∧ packFlags? g = some document := by
  rw [packCommand?] at h
  obtain ⟨g, hg, h⟩ := Option.bind_eq_some_iff.mp h
  obtain ⟨search', hsearch, h⟩ := Option.bind_eq_some_iff.mp h
  obtain ⟨document', hdocument, h⟩ := Option.bind_eq_some_iff.mp h
  obtain ⟨roots', -, h⟩ := Option.bind_eq_some_iff.mp h
  obtain ⟨-, -, hcommand⟩ := Option.bind_eq_some_iff.mp h
  cases hcommand
  exact ⟨g, hg, hsearch, hdocument⟩

/-- **Options touch only what they name.**  The command that packs takes its settings from the
overrides of its file with the changes of its options.  Whatever the file supplies and whichever
options are given, these overrides differ from those of the file in the fields that options name,
and in no other. -/
theorem settingsFor_amends_file (tree : Folder) {arguments roots : List Text}
    {output : Option Text} {json : Bool}
    (h : packCommand? arguments = some (.pack search document roots output json)) :
    ∃ g, readArguments? (verboseSpec :: packSpecs) .nothing none arguments = some g ∧
      (settingsFor tree search document.apply =
        (g.fileOverrides tree).bind fun o =>
          (document.apply (search.apply o)).merge.mapError .settingsRejected) ∧
      ∀ o, g.Amends o (document.apply (search.apply o)) := by
  obtain ⟨g, hg, hsearch, hdocument⟩ := packCommand?_eq_some h
  exact ⟨g, hg, settingsFor_eq_bind hsearch document.apply tree, amends_apply hsearch hdocument⟩

/-- A directory with a file of overrides, of which neither the style nor the encoding exists. -/
def misnamedFolder : Folder :=
  [(['c'], .file (Charset.utf8Bytes
    ("\x7b\"output\":\x7b\"style\":\"html\",\"topFilesLength\":3\x7d," ++
      "\"ignore\":\x7b\"customPatterns\":[\"*.bak\"]\x7d," ++
      "\"tokenCount\":\x7b\"encoding\":\"x\"\x7d\x7d").toList))]

/-- The overrides in that file. -/
def misnamedOverrides : Overrides where
  output := some { style := some "html".toList, topFilesLength := some 3 }
  ignore := some { customPatterns := some ["*.bak".toList] }
  tokenCount := some { encoding := some ['x'] }

/-- Options replace both faulty values, and their patterns are added behind the one of the file. -/
theorem settingsFor_amends_misnamedFile :
    let search : SearchFlags :=
      { ignores := ["*.log".toList, "tmp".toList], config := some ['c'] }
    let document : PackFlags :=
      { style := some .xml, compress := true, encoding := some "gpt2".toList }
    packCommand? (["--config=c", "--ignore", "*.log,tmp", "--style=xml", "--compress",
        "--encoding", "gpt2"].map String.toList) =
      some (.pack search document [here] none false) ∧
    misnamedOverrides.issues = [.unknownStyle "html".toList, .unknownEncoding ['x']] ∧
    settingsFor misnamedFolder search document.apply =
      .ok
        { output := { style := .xml, compress := true, topFilesLength := 3 }
          ignore := { customPatterns := ["*.bak".toList, "*.log".toList, "tmp".toList] }
          tokenCount := { encoding := .r50kBase } } := by
  intro search document
  have h : packCommand? (["--config=c", "--ignore", "*.log,tmp", "--style=xml", "--compress",
        "--encoding", "gpt2"].map String.toList) =
      some (.pack search document [here] none false) := by decide
  have hfile : readOverrides misnamedFolder ['c'] = .ok misnamedOverrides := by
    have hread : (readOverrides misnamedFolder ['c']).toOption = some misnamedOverrides := by
      decide +kernel
    cases hfound : readOverrides misnamedFolder ['c'] with
    | error e =>
      rw [hfound] at hread
      cases hread
    | ok o =>
      rw [hfound] at hread
      exact congrArg Except.ok (Option.some.inj hread)
  refine ⟨h, by decide, ?_⟩
  obtain ⟨g, hg, hsettings, hamends⟩ := settingsFor_amends_file misnamedFolder h
  obtain rfl : g =
      ⟨[("config", some ['c']), ("ignore", some "*.log,tmp".toList), ("style", some "xml".toList),
        ("compress", none), ("encoding", some "gpt2".toList)], []⟩ :=
    Option.some.inj (hg.symm.trans (by decide))
  rw [hsettings, Given.fileOverrides]
  change ((readOverrides misnamedFolder ['c']).bind fun o =>
    (document.apply (search.apply o)).merge.mapError Error.settingsRejected) = _
  rw [hfile]
  change (document.apply (search.apply misnamedOverrides)).merge.mapError Error.settingsRejected = _
  rw [(hamends misnamedOverrides).merge, if_pos (by decide)]
  exact congrArg Except.ok (by decide)

end CommandLine

end SourceBundle
