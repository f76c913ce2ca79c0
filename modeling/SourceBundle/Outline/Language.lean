import SourceBundle.Path.Extension

/-!
# Languages with outlines

The languages whose files can be reduced to an outline, with their names and extensions.
-/

namespace SourceBundle

/-- A language for which outlines are made. -/
inductive Language where
  | javaScript
  | typeScript
  | tsx
  | c
  | cpp
  | python
  | rust
  | cSharp
  | java
  | php
  | swift
  | solidity
  | css
  | vue
  | ruby
  | go
  deriving DecidableEq, Repr

namespace Language

/-- All languages, in the order in which they are listed. -/
def all : List Language :=
  [.javaScript, .typeScript, .tsx, .c, .cpp, .python, .rust, .cSharp, .java, .php, .swift,
   .solidity, .css, .vue, .ruby, .go]

/-- The name of a language. -/
def name : Language → String
  | .javaScript => "javascript"
  | .typeScript => "typescript"
  | .tsx => "tsx"
  | .c => "c"
  | .cpp => "cpp"
  | .python => "python"
  | .rust => "rust"
  | .cSharp => "c_sharp"
  | .java => "java"
  | .php => "php"
  | .swift => "swift"
  | .solidity => "solidity"
  | .css => "css"
  | .vue => "vue"
  | .ruby => "ruby"
  | .go => "go"

/-- The name of a language in one word. -/
def wordName : Language → String
  | .cSharp => "csharp"
  | language => language.name

/-- The extensions of a language's files. -/
def extensions : Language → List String
  | .javaScript => ["js", "jsx", "mjs", "cjs"]
  | .typeScript => ["ts", "mts", "cts"]
  | .tsx => ["tsx"]
  | .c => ["c", "h"]
  | .cpp => ["cpp", "cc", "cxx", "hpp", "hh", "hxx"]
  | .python => ["py", "pyi"]
  | .rust => ["rs"]
  | .cSharp => ["cs"]
  | .java => ["java"]
  | .php => ["php"]
  | .swift => ["swift"]
  | .solidity => ["sol"]
  | .css => ["css"]
  | .vue => ["vue"]
  | .ruby => ["rb"]
  | .go => ["go"]

/-- The language of files with the given extension. -/
def ofExtension? (extension : Text) : Option Language :=
  let lower := Text.asciiLower extension
  all.find? fun language => language.extensions.any fun e => e.toList == lower

/-- The language of the file at a path. -/
def ofPath? (path : Text) : Option Language := (Path.extension? path).bind ofExtension?

end Language

end SourceBundle
