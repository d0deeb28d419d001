import CodeAssist.Tree.Syntax

/-!
# Parsing and its outcome

An analysis needs a parsed text. Where the language is unresolved or the parser gives no tree, the
analysis is skipped and its caller goes on with a fallback.
-/

namespace CodeAssist

open CodeAssist.Tree

/-! ### Parsing -/

/-- Why a text has no syntax tree. -/
inductive ParseError where
  | unsupportedLanguage
  | noTree (language : Language)
deriving DecidableEq, Repr

/-- The wording of a parse error. -/
def ParseError.message : ParseError → String
  | .unsupportedLanguage => "parse error: unsupported language (language: None)"
  | .noTree language => "parse error: no syntax tree (language: " ++ language.tag ++ ")"

/-- The syntax tree of a text. -/
def Tree.SyntaxTree.parse (parser : Parser) (source : String) (language : Option Language) :
    Except ParseError SyntaxTree :=
  match language with
  | none => .error .unsupportedLanguage
  | some language =>
    match parser language source with
    | none => .error (.noTree language)
    | some root => .ok ⟨source, language, root⟩

/-! ### Steps that can be skipped -/

/-- Why a step did not run. -/
inductive SkipCause where
  | unresolvedLanguage
  /-- The text has no syntax tree. -/
  | unparsed (cause : ParseError)
deriving DecidableEq, Repr

/-- The wording of a cause. -/
def SkipCause.message : SkipCause → String
  | unresolvedLanguage => "language unresolved"
  | unparsed cause => cause.message

/-- The outcome of a step that depends on a syntax tree. -/
inductive Outcome (α : Type) where
  | ready (value : α)
  /-- The step did not run. -/
  | skipped (cause : SkipCause)
deriving Repr

namespace Outcome

variable {α β : Type}

/-- Applies a function to a value that is ready. -/
def map (f : α → β) : Outcome α → Outcome β
  | ready value => ready (f value)
  | skipped cause => skipped cause

/-- The value, where it is ready. -/
def ready? : Outcome α → Option α
  | ready value => some value
  | skipped _ => none

/-- The value, or a fallback where the step was skipped. -/
def getD (outcome : Outcome α) (fallback : α) : α :=
  outcome.ready?.getD fallback

end Outcome

/-- Parses a text for a step that can be skipped. -/
def tryParse (parser : Parser) (source : String) (language : Option Language) :
    Outcome SyntaxTree :=
  match language with
  | none => .skipped .unresolvedLanguage
  | some _ =>
    match SyntaxTree.parse parser source language with
    | .ok tree => .ready tree
    | .error cause => .skipped (.unparsed cause)

end CodeAssist
