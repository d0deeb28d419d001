import CodeAssist.Language
import CodeAssist.Text.Replace

/-!
# Prompt templates

What is written around the code of a prompt: a comment that names the file, a fence as documents
mark code with, or a text of the user's own with placeholders. The placeholders are filled one
after the other, the code last: what is filled in for one of them is searched for the later ones.
-/

namespace CodeAssist.Prompt

/-- What is written around the code of a prompt. -/
inductive Template where
  /-- A comment that names the file and the language, above the code. -/
  | header
  /-- A fence with the name of the language around the code. -/
  | fence
  /-- A text with placeholders. -/
  | custom (text : String)
deriving DecidableEq, Repr

/-! ### What a template names -/

/-- The comment that names a file and its language. Without a language the comment is plain
text. -/
def fileComment (fileName : String) (language : Option Language) : String :=
  let opening := "This code has a filename of " ++ fileName
  match language with
  | some language =>
    language.commentStyle.render (opening ++ " and is written in " ++ language.proseName ++ ".")
  | none => opening

/-- What a fence names: the language, or the extension of a file whose language is unknown. -/
def fenceName (fileName : String) (language : Option Language) : String :=
  match language with
  | some language => language.tag
  | none => (FilePath.extension? fileName).getD ""

namespace Template

/-! ### Rendering -/

/-- A custom template where one is given, and another one otherwise. -/
def choose (fallback : Template) : Option String → Template
  | some text => custom text
  | none => fallback

/-- The placeholder for the name of the file. -/
def fileNamePlaceholder : List Char := "\x7bfile_name\x7d".toList

/-- The placeholder for the name of the language. -/
def languagePlaceholder : List Char := "\x7blanguage\x7d".toList

/-- The placeholder for the code. -/
def codePlaceholder : List Char := "\x7bprefix\x7d".toList

/-- What opens and closes a fence. -/
def fenceMark : String := "\x60\x60\x60"

/-- The template around some code. -/
def render (template : Template) (code fileName : String) (language : Option Language) : String :=
  match template with
  | header => fileComment fileName language ++ "\n" ++ code
  | fence =>
    fenceMark ++ fenceName fileName language ++ "\n" ++ code ++ "\n" ++ fenceMark
  | custom text =>
    let named := Text.replaceAll fileNamePlaceholder fileName.toList text.toList
    let told := Text.replaceAll languagePlaceholder
      ((language.map Language.proseName).getD "").toList named
    String.ofList (Text.replaceAll codePlaceholder code.toList told)

end Template

end CodeAssist.Prompt
