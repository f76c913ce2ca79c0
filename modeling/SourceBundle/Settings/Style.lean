import SourceBundle.Text.Lowercase

/-!
# Named choices

Two settings are chosen by name: the style of the document and the token encoding.  Names are
recognised without regard to case, and each choice has one canonical name besides its synonyms.
-/

namespace SourceBundle

/-- The choice that a name stands for in a list of names in lower case. -/
def choiceNamed? {α : Type} (names : List (String × α)) (name : Text) : Option α :=
  (names.find? fun entry => entry.1.toList == name.lower).map Prod.snd

/-- The styles of a document. -/
inductive Style where
  | xml
  | markdown
  | plain
  deriving DecidableEq, Repr

namespace Style

/-- The canonical name of a style. -/
def name : Style → String
  | .xml => "xml"
  | .markdown => "markdown"
  | .plain => "plain"

/-- All styles, in the order in which they are offered. -/
def all : List Style := [.xml, .markdown, .plain]

/-- The names of the styles. -/
def names : List (String × Style) :=
  [("xml", .xml), ("markdown", .markdown), ("md", .markdown), ("plain", .plain), ("txt", .plain)]

/-- The style of the given name. -/
def ofName? (name : Text) : Option Style := choiceNamed? names name

/-- The wording for a name that is none of a style. -/
def unknownMessage (name : Text) : String := "unknown output style: " ++ String.ofList name

end Style

/-- The token encodings. -/
inductive Encoding where
  | o200kBase
  | cl100kBase
  | p50kBase
  | p50kEdit
  | r50kBase
  deriving DecidableEq, Repr

namespace Encoding

/-- The canonical name of an encoding. -/
def name : Encoding → String
  | .o200kBase => "o200k_base"
  | .cl100kBase => "cl100k_base"
  | .p50kBase => "p50k_base"
  | .p50kEdit => "p50k_edit"
  | .r50kBase => "r50k_base"

/-- All encodings. -/
def all : List Encoding := [.o200kBase, .cl100kBase, .p50kBase, .p50kEdit, .r50kBase]

/-- The names of the encodings. -/
def names : List (String × Encoding) :=
  [("o200k", .o200kBase), ("o200k_base", .o200kBase), ("cl100k", .cl100kBase),
   ("cl100k_base", .cl100kBase), ("p50k", .p50kBase), ("p50k_base", .p50kBase),
   ("p50k_edit", .p50kEdit), ("r50k", .r50kBase), ("r50k_base", .r50kBase), ("gpt2", .r50kBase)]

/-- The encoding of the given name. -/
def ofName? (name : Text) : Option Encoding := choiceNamed? names name

/-- The wording for a name that is none of an encoding. -/
def unknownMessage (name : Text) : String := "unknown encoding: " ++ String.ofList name

end Encoding

end SourceBundle
