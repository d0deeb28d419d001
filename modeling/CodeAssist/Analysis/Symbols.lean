import CodeAssist.Analysis.Kinds
import CodeAssist.Dictionary
import CodeAssist.Tree.Syntax
import CodeAssist.Tree.Walk

/-!
# Imports, signatures and symbol counts

Three analyses that collect what they meet on a depth-first walk. Imports are texts of import
nodes; a signature is the text of a function node up to its body; symbols are counted by node kind.
In Ruby an import is a call of `require`, so imports and counts have visitors of their own there.
-/

namespace CodeAssist.Analysis

open CodeAssist.Tree

/-- The ceiling of entered nodes that an analysis has where none is asked for. -/
def defaultCeiling : Nat := 1000

/-! ### Imports -/

/-- Collects the right-trimmed texts of nodes of some kinds and leaves out what lies below them. -/
def importVisitor (tree : SyntaxTree) (kinds : List String) : Visitor (List String) where
  kinds := some kinds
  -- An import can end with its line break.
  visit _ n found := found ++ [String.ofList (Text.trimEnd (tree.textOf n).toList)]
  skips _ n := kinds.contains n.kind

/-- Whether a node consists of the name `require` or `require_relative` and an argument list. -/
def isRequire (tree : SyntaxTree) (n : Node) : Bool :=
  match n.children with
  | [method, arguments] =>
    method.kind = "identifier" &&
      (tree.textOf method = "require" || tree.textOf method = "require_relative") &&
      arguments.kind = "argument_list"
  | _ => false

/-- Collects the texts of calls that require a file. -/
def requireVisitor (tree : SyntaxTree) : Visitor (List String) where
  kinds := some ["call"]
  visit _ n found := if isRequire tree n then found ++ [tree.textOf n] else found

/-- The import statements of a text, in order. -/
def imports (tree : SyntaxTree) (ceiling : Nat) : List String :=
  match tree.language with
  | .ruby => ((requireVisitor tree).depthFirst tree.root ceiling []).2
  | language =>
    ((importVisitor tree (kindTable language).imports).depthFirst tree.root ceiling []).2

/-! ### Signatures -/

/-- The body of a function node. -/
def body? (n : Node) : BodyPlace → Option Node
  | .kinds kinds => n.children.find? fun child => kinds.contains child.kind
  | .marked => n.children.find? Node.isBody

/-- The text of a function node up to its body, right-trimmed. -/
def header (tree : SyntaxTree) (n : Node) (form : FunctionForm) : String :=
  -- A declaration without a body is its own header.
  let stop := ((body? n form.body).map Node.start).getD n.stop
  String.ofList (Text.trimEnd (tree.textBetween n.start stop))

/-- Collects the headers of function nodes, those without text left out. -/
def signatureVisitor (tree : SyntaxTree) : Visitor (List String) where
  kinds := some (kindTable tree.language).functionKinds
  visit _ n found :=
    match (kindTable tree.language).formOf? n.kind with
    | none => found
    | some form => if header tree n form = "" then found else found ++ [header tree n form]

/-- The headers of all functions of a text, nested ones included, in order. -/
def signatures (tree : SyntaxTree) (ceiling : Nat) : List String :=
  ((signatureVisitor tree).depthFirst tree.root ceiling []).2

/-! ### Counts -/

/-- Adds one to the count of a name. -/
def countOne (counts : Dictionary Nat) (name : String) : Dictionary Nat :=
  counts.insert name ((counts.get? name).getD 0 + 1)

/-- Counts nodes by kind. -/
def countVisitor (kinds : List String) : Visitor (Dictionary Nat) where
  kinds := some kinds
  visit _ n counts := countOne counts n.kind

/-- The name under which a node is counted in Ruby. Only calls that require a file count, and the
keywords `class` and `module`, which share the kind of the nodes that they open, do not. -/
def rubySymbol? (tree : SyntaxTree) (n : Node) : Option String :=
  if n.kind = "call" then
    if isRequire tree n then some "require" else none
  else if (n.kind = "module" || n.kind = "class") && n.children.isEmpty then none
  else some n.kind

/-- Counts the symbols of a text in Ruby. -/
def rubyCountVisitor (tree : SyntaxTree) : Visitor (Dictionary Nat) where
  kinds := some ["comment", "call", "module", "class", "method"]
  visit _ n counts :=
    match rubySymbol? tree n with
    | some name => countOne counts name
    | none => counts

/-- The numbers of imports, functions, classes and comments of a text, by node kind. -/
def symbolCounts (tree : SyntaxTree) (ceiling : Nat) : Dictionary Nat :=
  match tree.language with
  | .ruby => ((rubyCountVisitor tree).depthFirst tree.root ceiling .empty).2
  | language =>
    ((countVisitor (kindTable language).symbolKinds).depthFirst tree.root ceiling .empty).2

end CodeAssist.Analysis
