import SourceBundle.Comments.Strip
import SourceBundle.Path.Extension

/-!
# Which comments a file has

The extension of a file tells the syntaxes of its comments.  Most files have one; components that
embed code in markup have two, which are applied one after the other.
-/

namespace SourceBundle.Comments

/-- The syntaxes by which the comments of a file are removed, in the order in which they are
applied. -/
abbrev Remover := List Syntax

/-- The text without the comments of all syntaxes. -/
def Remover.removeComments (remover : Remover) (t : Text) : Text :=
  remover.foldl (fun t s => s.removeComments t) t

/-- Extensions in lower case and the syntaxes that go with them. -/
def catalog : List (List String × Remover) :=
  [(["c", "h", "cc", "cpp", "cxx", "hpp", "hh", "hxx", "cs", "java", "kt", "kts", "scala",
     "swift", "dart", "go", "js", "jsx", "mjs", "cjs", "ts", "tsx", "mts", "cts", "php", "sol",
     "less", "scss", "sass", "groovy", "proto"], [.cStyle]),
   (["rs"], [.rust]),
   (["css"], [.css]),
   (["py", "pyi", "pyw"], [.python]),
   (["rb", "sh", "bash", "zsh", "fish", "r", "pl", "pm", "yaml", "yml", "toml", "ps1", "nim",
     "cmake", "dockerfile", "mk", "ex", "exs"], [.hash]),
   (["html", "htm", "xml", "svg", "xhtml", "md", "markdown"], [.markup]),
   (["sql"], [.sql]),
   (["lua"], [.lua]),
   (["hs", "lhs", "elm"], [.haskell]),
   (["vue", "svelte"], [.markup, .cStyle])]

/-- The syntaxes of files with the given extension. -/
def removerOfExtension? (extension : Text) : Option Remover :=
  let lower := Text.asciiLower extension
  (catalog.find? fun entry => entry.1.any fun e => e.toList == lower).map Prod.snd

/-- The syntaxes of the file at a path. -/
def removerOfPath? (path : Text) : Option Remover :=
  (Path.extension? path).bind removerOfExtension?

end SourceBundle.Comments
