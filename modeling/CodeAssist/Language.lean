import CodeAssist.FilePath
import CodeAssist.Text.Blank

/-!
# Programming languages

The supported languages, how each one spells a comment, and the tables by which a request's
language is resolved: from the extension of the file name, and where that is unknown from the
identifier that the editor supplies. The text itself is never looked at.
-/

namespace CodeAssist

/-- A supported programming language. -/
inductive Language where
  | c | cpp | csharp | go | java | js | php | python | ruby | rust | scala | ts | kotlin
deriving DecidableEq, Repr, Inhabited

/-! ### Comments -/

/-- How a language spells a comment that fills one line. -/
inductive CommentStyle where
  /-- Two slashes before the text. -/
  | doubleSlash
  /-- A slash and a star before the text, a star and a slash behind it. -/
  | slashStar
  /-- A hash before the text. -/
  | hash
deriving DecidableEq, Repr

/-- The text as a comment. -/
def CommentStyle.render : CommentStyle → String → String
  | .doubleSlash, text => "// " ++ text
  | .slashStar, text => "/* " ++ text ++ " */"
  | .hash, text => "# " ++ text

namespace Language

/-! ### The languages -/

/-- Every language once. -/
def all : List Language :=
  [.c, .cpp, .csharp, .go, .java, .js, .php, .python, .ruby, .rust, .scala, .ts, .kotlin]

/-- The short name by which a language is reported. -/
def tag : Language → String
  | .c => "c"
  | .cpp => "cpp"
  | .csharp => "csharp"
  | .go => "go"
  | .java => "java"
  | .js => "js"
  | .php => "php"
  | .python => "python"
  | .ruby => "ruby"
  | .rust => "rust"
  | .scala => "scala"
  | .ts => "ts"
  | .kotlin => "kotlin"

/-- The language with a given short name. -/
def ofTag? (name : String) : Option Language :=
  all.find? fun language => language.tag = name

/-- No two languages share a short name. -/
theorem ofTag?_tag (language : Language) : ofTag? language.tag = some language := by
  cases language <;> rfl

/-- The name of a language in prose. -/
def proseName : Language → String
  | .c => "C"
  | .cpp => "C++"
  | .csharp => "C#"
  | .go => "Go"
  | .java => "Java"
  | .js => "JavaScript"
  | .php => "PHP"
  | .python => "Python"
  | .ruby => "Ruby"
  | .rust => "Rust"
  | .scala => "Scala"
  | .ts => "TypeScript"
  | .kotlin => "Kotlin"

/-- The comment style of a language. -/
def commentStyle : Language → CommentStyle
  | .c => .slashStar
  | .python | .ruby => .hash
  | _ => .doubleSlash

/-! ### Resolution -/

/-- The extensions of a language's files. Case matters: `C` and `H` mark C++. -/
def extensions : Language → List String
  | .c => ["c", "h"]
  | .cpp => ["cpp", "hpp", "c++", "h++", "cc", "hh", "C", "H"]
  | .csharp => ["cs"]
  | .go => ["go"]
  | .java => ["java"]
  | .js => ["js", "jsx"]
  | .php => ["php", "php3", "php4", "php5", "phps", "phpt"]
  | .python => ["py"]
  | .ruby => ["rb"]
  | .rust => ["rs"]
  | .scala => ["scala"]
  | .ts => ["ts", "tsx"]
  | .kotlin => ["kt", "kts"]

/-- The identifiers under which editors know a language. -/
def editorIds : Language → List String
  -- Editors spell two names out and mark the dialect of components apart.
  | .js => ["javascript", "javascriptreact"]
  | .ts => ["typescript", "typescriptreact"]
  | language => [language.tag]

/-- The language of a file, by the extension of its name. -/
def ofFileName? (fileName : String) : Option Language := do
  let extension ← FilePath.extension? fileName
  all.find? fun language => language.extensions.contains extension

/-- A name as identifiers are compared: without blanks at its ends and with small ASCII letters. -/
def foldName (name : String) : String :=
  String.ofList ((Text.trim name.toList).map Char.toLower)

/-- The language with a given editor identifier; blanks around it and the case of ASCII letters do
not matter. -/
def ofEditorId? (editorId : String) : Option Language :=
  all.find? fun language => language.editorIds.contains (foldName editorId)

/-- The language of a request. The file extension decides, and the editor's identifier only where
the extension is unknown. -/
def resolve? (fileName : String) (editorId : Option String) : Option Language :=
  (ofFileName? fileName).or (editorId.bind ofEditorId?)

end Language

end CodeAssist
