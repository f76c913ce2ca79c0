import SourceBundle.Proofs.Outline.Excerpts

/-!
# Decorators above headers

In Python the rows right above a class or a function that begin with decorators belong to it, however
many they are and however far they are indented.  Looking back from a row stops at exactly these rows
(`DecoratorsAbove.drop_decoratorStart`), also at the start of the file.

An outline looks back from functions.  From classes it does not, so it keeps the header of a class
with its decorators only if there are none (`keptText?_decorated_iff`).
-/

namespace SourceBundle.Outline

/-- Behind its indentation the row begins with a decorator. -/
def IsDecorator (row : Text) : Prop := (Text.trimStart row).head? = some '@'

instance : DecidablePred IsDecorator := fun row =>
  inferInstanceAs (Decidable ((Text.trimStart row).head? = some '@'))

/-- The rows right above the given one that begin with decorators, all of them. -/
structure DecoratorsAbove (rows : List Text) (row : Nat) (decorators : List Text) : Prop where
  marked : ∀ text ∈ decorators, IsDecorator text
  /-- What stands above them, if anything, ends with another row. -/
  maximal : ∃ above, rows.take row = above ++ decorators ∧
    ∀ text ∈ above.getLast?, ¬ IsDecorator text

/-- The rows of a header: from that of the capture to that of the colon. -/
def Capture.headerSource (c : Capture) (rows : List Text) : List Text :=
  (rows.drop c.startRow).take (c.headerRow + 1 - c.startRow)

/-! ## Looking back -/

/-- Looking back counts the decorators and stops at the first other row. -/
theorem decoratorCount_append {decorators above : List Text}
    (hmarked : ∀ text ∈ decorators, IsDecorator text)
    (habove : ∀ text ∈ above.head?, ¬ IsDecorator text) :
    decoratorCount (decorators ++ above) = decorators.length := by
  induction decorators with
  | nil =>
    cases above with
    | nil => rfl
    | cons text above => exact if_neg (habove text rfl)
  | cons text decorators ih =>
    obtain ⟨htext, hrest⟩ := List.forall_mem_cons.mp hmarked
    have hfirst : (Text.trimStart text).head? = some '@' := htext
    rw [List.cons_append, decoratorCount, if_pos hfirst, ih hrest, List.length_cons]

section

variable {rows decorators : List Text} {row : Nat}

theorem DecoratorsAbove.decoratorStart_eq (h : DecoratorsAbove rows row decorators) :
    decoratorStart rows row = row - decorators.length := by
  obtain ⟨above, htake, hlast⟩ := h.maximal
  rw [decoratorStart, htake, List.reverse_append, decoratorCount_append, List.length_reverse]
  · exact fun text htext => h.marked text (List.mem_reverse.mp htext)
  · rwa [List.head?_reverse]

/-- From the first decorator on stand the decorators and then the row. -/
theorem DecoratorsAbove.drop_decoratorStart (h : DecoratorsAbove rows row decorators)
    (hrow : row ≤ rows.length) :
    decoratorStart rows row + decorators.length = row ∧
      rows.drop (decoratorStart rows row) = decorators ++ rows.drop row := by
  obtain ⟨above, htake, -⟩ := h.maximal
  have hlength := congrArg List.length htake
  rw [List.length_take, Nat.min_eq_left hrow, List.length_append] at hlength
  have hstart : decoratorStart rows row = above.length := by
    rw [h.decoratorStart_eq]
    omega
  have hrows : rows = above ++ (decorators ++ rows.drop row) := by
    rw [← List.append_assoc, ← htake, List.take_append_drop]
  refine ⟨by omega, ?_⟩
  rw [hstart]
  conv_lhs => rw [hrows, List.drop_left]

end

/-! ## What an outline keeps -/

section

variable {rows decorators : List Text} {c : Capture}

theorem headerSource_ne_nil (hrow : c.startRow < rows.length) (hcolon : c.startRow ≤ c.headerRow) :
    c.headerSource rows ≠ [] := by
  rw [Capture.headerSource, ne_eq, List.take_eq_nil_iff, List.drop_eq_nil_iff]
  omega

/-- The rows of the header are kept alone. -/
theorem selectRows?_header (hrow : c.startRow < rows.length) (hcolon : c.startRow ≤ c.headerRow) :
    selectRows? rows c.startRow c.headerRow = some (Text.unrows (c.headerSource rows)) := by
  rw [selectRows?_eq_unrows?, Nat.max_eq_left hcolon]
  exact unrows?_eq_some.mpr ⟨headerSource_ne_nil hrow hcolon, rfl⟩

/-- The rows of the header are kept behind the decorators. -/
theorem selectRows?_decorated (h : DecoratorsAbove rows c.startRow decorators)
    (hrow : c.startRow < rows.length) (hcolon : c.startRow ≤ c.headerRow) :
    selectRows? rows (decoratorStart rows c.startRow) c.headerRow =
      some (Text.unrows (decorators ++ c.headerSource rows)) := by
  obtain ⟨hstart, hdrop⟩ := h.drop_decoratorStart (Nat.le_of_lt hrow)
  have hcount : max c.headerRow (decoratorStart rows c.startRow) + 1 -
      decoratorStart rows c.startRow = decorators.length + (c.headerRow + 1 - c.startRow) := by
    omega
  rw [selectRows?_eq_unrows?, hdrop, hcount, List.take_length_add_append]
  refine unrows?_eq_some.mpr ⟨?_, rfl⟩
  exact List.append_ne_nil_of_right_ne_nil decorators (headerSource_ne_nil hrow hcolon)

/-- Rows that make the text of some of them are these. -/
theorem eq_nil_of_unrows_append_eq {front rest : List Text} (hrest : rest ≠ [])
    (hrows : ∀ row ∈ front ++ rest, '\n' ∉ row)
    (h : Text.unrows (front ++ rest) = Text.unrows rest) : front = [] := by
  have hall : front ++ rest = rest := by
    rw [← Text.rows_unrows (List.append_ne_nil_of_right_ne_nil front hrest) hrows, h,
      Text.rows_unrows hrest fun row hrow => hrows row (List.mem_append_right front hrow)]
  exact List.append_left_eq_self.mp hall

end

/-- Of a function an outline keeps the decorators right above it and its header, whatever their number
and indentation.  Of a class it keeps the header alone, which is the same only if no decorator stands
above it. -/
theorem keptText?_decorated_iff {t : Text} {c : Capture} {decorators : List Text}
    (hrole : c.isA "definition.class" = true ∨ c.isA "definition.function" = true)
    (hrow : ∃ row, (Text.rows t)[c.startRow]? = some row ∧ row ≠ [])
    (hcolon : c.startRow ≤ c.headerRow)
    (h : DecoratorsAbove (Text.rows t) c.startRow decorators) :
    keptText? (strategyFor .python) (Text.rows t) c =
        some (Text.unrows (decorators ++ c.headerSource (Text.rows t))) ↔
      (c.isA "definition.class" = true → decorators = []) := by
  obtain ⟨row, hrow, hne⟩ := hrow
  obtain ⟨d, u, rfl⟩ := List.exists_cons_of_ne_nil hne
  have hlength : c.startRow < (Text.rows t).length := (List.getElem?_eq_some_iff.mp hrow).1
  have hkept : keptText? (strategyFor .python) (Text.rows t) c = pythonText? (Text.rows t) c := by
    rw [keptText?, hrow]
    rfl
  rw [hkept, pythonText?]
  by_cases hclass : c.isA "definition.class" = true
  · rw [if_pos hclass, selectRows?_header hlength hcolon]
    constructor
    · intro heq _
      refine eq_nil_of_unrows_append_eq (headerSource_ne_nil hlength hcolon) ?_
        (Option.some.inj heq).symm
      obtain ⟨above, htake, -⟩ := h.maximal
      intro other hother
      refine Text.newline_not_mem_of_mem_rows (t := t) ?_
      rcases List.mem_append.mp hother with hother | hother
      · exact List.mem_of_mem_take (htake ▸ List.mem_append_right above hother)
      · exact List.mem_of_mem_drop (List.mem_of_mem_take hother)
    · intro hnone
      rw [hnone hclass, List.nil_append]
  · have hfunction := hrole.resolve_left hclass
    rw [if_neg hclass, if_pos hfunction, selectRows?_decorated h hlength hcolon]
    exact ⟨fun _ hclass' => absurd hclass' hclass, fun _ => rfl⟩

/-! ## A method and a class -/

/-- A method with two decorators and a header over three rows. -/
def cachedMethod : Text :=
  ("class A:\n    @staticmethod\n  \t@cache  # note\n    def run(\n        x: int,\n" ++
    "    ) -> int:\n        return x\n").toList

/-- What the grammar marks of the method. -/
def cachedCapture : Capture := ⟨"definition.function".toList, 3, 6, 16, some 5⟩

theorem keptText?_decorated_cachedMethod :
    let decorators : List Text := ["    @staticmethod".toList, "  \t@cache  # note".toList]
    cachedCapture.isA "definition.function" = true ∧
      (∃ row, (Text.rows cachedMethod)[cachedCapture.startRow]? = some row ∧ row ≠ []) ∧
      cachedCapture.startRow ≤ cachedCapture.headerRow ∧
      DecoratorsAbove (Text.rows cachedMethod) cachedCapture.startRow decorators ∧
      keptText? (strategyFor .python) (Text.rows cachedMethod) cachedCapture =
        some ("    @staticmethod\n  \t@cache  # note\n    def run(\n        x: int,\n" ++
          "    ) -> int:").toList := by
  intro decorators
  have hrole : cachedCapture.isA "definition.function" = true := by decide +kernel
  have hrow : ∃ row, (Text.rows cachedMethod)[cachedCapture.startRow]? = some row ∧ row ≠ [] :=
    ⟨"    def run(".toList, by decide +kernel, by decide⟩
  have hcolon : cachedCapture.startRow ≤ cachedCapture.headerRow := by decide
  have habove : DecoratorsAbove (Text.rows cachedMethod) cachedCapture.startRow decorators :=
    ⟨by decide +kernel, ["class A:".toList], by decide +kernel, by decide +kernel⟩
  have hclass : ¬ cachedCapture.isA "definition.class" = true := by decide +kernel
  have htext : Text.unrows (decorators ++ cachedCapture.headerSource (Text.rows cachedMethod)) =
      ("    @staticmethod\n  \t@cache  # note\n    def run(\n        x: int,\n" ++
        "    ) -> int:").toList := by decide +kernel
  have hkept := (keptText?_decorated_iff (.inr hrole) hrow hcolon habove).mpr fun hc =>
    absurd hc hclass
  exact ⟨hrole, hrow, hcolon, habove, htext ▸ hkept⟩

/-- A class with a decorator. -/
def decoratedClass : Text := "@dataclass\nclass A:\n    x: int\n".toList

/-- What the grammar marks in `decoratedClass`. -/
def decoratedClassCaptures : List Capture :=
  [⟨"definition.class".toList, 1, 2, 10, some 1⟩, ⟨"name.definition.class".toList, 1, 1, 7, none⟩]

/-- The outline has the header of the class without its decorator. -/
theorem keptText?_undecorated_class :
    ofText .python decoratedClass decoratedClassCaptures = "class A:".toList ∧
      ¬ ∀ (t : Text) (c : Capture) (decorators : List Text),
        c.isA "definition.class" = true ∨ c.isA "definition.function" = true →
          (∃ row, (Text.rows t)[c.startRow]? = some row ∧ row ≠ []) → c.startRow ≤ c.headerRow →
            DecoratorsAbove (Text.rows t) c.startRow decorators →
              keptText? (strategyFor .python) (Text.rows t) c =
                some (Text.unrows (decorators ++ c.headerSource (Text.rows t))) := by
  refine ⟨by decide +kernel, fun all => ?_⟩
  let c : Capture := ⟨"definition.class".toList, 1, 2, 10, some 1⟩
  have hrow : ∃ row, (Text.rows decoratedClass)[c.startRow]? = some row ∧ row ≠ [] :=
    ⟨"class A:".toList, by decide +kernel, by decide⟩
  have habove : DecoratorsAbove (Text.rows decoratedClass) c.startRow ["@dataclass".toList] :=
    ⟨by decide +kernel, [], by decide +kernel, by decide⟩
  have hkept := all decoratedClass c _ (.inl (by decide +kernel)) hrow (by decide) habove
  have hother : keptText? (strategyFor .python) (Text.rows decoratedClass) c ≠
      some (Text.unrows (["@dataclass".toList] ++ c.headerSource (Text.rows decoratedClass))) := by
    decide +kernel
  exact hother hkept

end SourceBundle.Outline
