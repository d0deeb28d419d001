import CodeAssist.Language

/-!
# Node kinds of each language

The tables that tell the analyses which node kinds are imports, functions, classes and comments of
a language, where the body of a function is found, and which nodes a suffix may be cut to.
-/

namespace CodeAssist.Analysis

/-! ### The shape of a table -/

/-- How the body of a function is found among its children. -/
inductive BodyPlace where
  /-- The first child of one of these kinds. -/
  | kinds (kinds : List String)
  /-- The child that the grammar marks as the body. -/
  | marked
deriving DecidableEq, Repr

/-- A kind of function node and where its body is. -/
structure FunctionForm where
  kind : String
  body : BodyPlace
deriving DecidableEq, Repr

/-- The node kinds that matter in one language. -/
structure KindTable where
  imports : List String
  functions : List FunctionForm
  classes : List String
  comments : List String
  /-- Kinds that a suffix may be cut to, most relevant first. -/
  context : List String
deriving DecidableEq, Repr

namespace KindTable

/-- The kinds of function nodes. -/
def functionKinds (table : KindTable) : List String :=
  table.functions.map FunctionForm.kind

/-- How a kind of function node is taken apart. -/
def formOf? (table : KindTable) (kind : String) : Option FunctionForm :=
  table.functions.find? fun form => form.kind = kind

/-- The kinds that are counted as symbols. -/
def symbolKinds (table : KindTable) : List String :=
  table.imports ++ table.functionKinds ++ table.classes ++ table.comments

end KindTable

/-! ### The tables -/

/-- Functions whose body is the first child of one of the given kinds. -/
def functionsWith (kinds bodies : List String) : List FunctionForm :=
  kinds.map fun kind => ⟨kind, .kinds bodies⟩

/-- The table of each language. The imports of Ruby are calls, which no kind tells apart, and PHP
has no context kinds. -/
def kindTable : Language → KindTable
  | .c => {
      imports := ["preproc_include"]
      functions := functionsWith ["function_definition"] ["compound_statement"]
      classes := ["struct_specifier"]
      comments := ["comment"]
      context := ["function_definition"] }
  | .cpp => {
      imports := ["preproc_include"]
      functions := functionsWith ["function_definition"] ["compound_statement"]
      classes := ["class_specifier", "struct_specifier"]
      comments := ["comment"]
      context := ["class_specifier", "function_definition"] }
  | .csharp => {
      imports := ["using_directive"]
      functions := functionsWith ["method_declaration"] ["block"]
      classes := ["class_declaration", "interface_declaration"]
      comments := ["comment"]
      context := ["class_declaration", "method_declaration"] }
  | .go => {
      imports := ["import_declaration"]
      functions := functionsWith ["function_declaration", "method_declaration"] ["block"]
      classes := ["type_declaration"]
      comments := ["comment"]
      context := ["function_declaration", "method_declaration"] }
  | .java => {
      imports := ["import_declaration"]
      functions := functionsWith ["method_declaration"] ["block"]
      classes := ["class_declaration", "interface_declaration"]
      comments := ["line_comment", "block_comment"]
      context := ["class_declaration", "method_declaration"] }
  | .js => {
      imports := ["import_statement"]
      functions := functionsWith ["function_declaration", "generator_function_declaration"]
        ["statement_block"]
      classes := ["class_declaration"]
      comments := ["comment"]
      context := ["class_declaration", "lexical_declaration", "function_declaration",
        "generator_function_declaration"] }
  | .php => {
      imports := ["namespace_use_declaration"]
      functions := functionsWith ["function_definition"] ["compound_statement"]
      classes := ["class_declaration"]
      comments := ["comment"]
      context := [] }
  | .python => {
      imports := ["import_statement", "import_from_statement"]
      functions := functionsWith ["function_definition"] ["block"]
      classes := ["class_definition"]
      comments := ["comment"]
      context := ["class_definition", "function_definition", "module"] }
  | .ruby => {
      -- Imports are calls here, see `requireVisitor`.
      imports := []
      functions := functionsWith ["method"] ["body_statement", "end"]
      classes := ["class", "module"]
      comments := ["comment"]
      context := ["class", "module", "method"] }
  | .rust => {
      imports := ["use_declaration"]
      functions := functionsWith ["function_item"] ["block"]
      classes := ["struct_item", "enum_item", "trait_item", "impl_item"]
      comments := ["line_comment", "block_comment"]
      context := ["impl_item", "function_item"] }
  | .scala => {
      imports := ["import_declaration"]
      -- A body may be any expression, so it is found by its field.
      functions := [⟨"function_definition", .marked⟩]
      classes := ["class_definition", "object_definition", "trait_definition"]
      comments := ["comment", "block_comment"]
      context := ["class_definition", "object_definition", "function_definition"] }
  | .ts => {
      imports := ["import_statement"]
      functions := functionsWith ["function_declaration", "generator_function_declaration"]
        ["statement_block"]
      classes := ["class_declaration", "interface_declaration"]
      comments := ["comment"]
      context := ["class_declaration", "interface_declaration", "function_declaration",
        "generator_function_declaration", "call_expression", "program"] }
  | .kotlin => {
      imports := ["import_header"]
      functions := functionsWith ["function_declaration"] ["function_body"]
      classes := ["class_declaration", "object_declaration"]
      comments := ["line_comment", "multiline_comment", "comment"]
      context := ["class_declaration", "function_declaration"] }

end CodeAssist.Analysis
