/-!
# Syntax trees

A node has a kind, a place in the text, the fields it fills in its parent, and its children. Hidden
rules do not appear; the children of a hidden node stand in its place. The tree holds error nodes (a
stretch of text that could not be read) and missing nodes (a token that was expected and is not
there), and every node knows whether there is one of these in it. Trees are seen as
`collect_classes` and the other walks see them.
-/
namespace ClassAtlas.Syntax

/-- A place in the text. Row and column count from zero; the column counts bytes. -/
structure Place where
  offset : Nat
  row : Nat
  column : Nat
deriving BEq, DecidableEq, Repr, Inhabited

structure Node where
  kind : String
  named : Bool
  fields : List String
  start : Place
  /-- Offset behind the last character. -/
  stop : Nat
  isError : Bool
  isMissing : Bool
  hasError : Bool
deriving BEq, DecidableEq, Repr, Inhabited

/-- A syntax tree. -/
inductive Tree where
  | node (info : Node) (children : List Tree)
deriving Inhabited

namespace Tree

def info : Tree → Node
  | node i _ => i

def children : Tree → List Tree
  | node _ cs => cs

def kind (t : Tree) : String := t.info.kind

def isNamed (t : Tree) : Bool := t.info.named

/-- The children that are named nodes. -/
def namedChildren (t : Tree) : List Tree := t.children.filter (·.isNamed)

/-- The first child that fills a field. -/
def field? (t : Tree) (name : String) : Option Tree :=
  t.children.find? fun c => c.info.fields.contains name

theorem sizeOf_children_lt (t : Tree) : sizeOf t.children < sizeOf t := by
  cases t; simp only [children, node.sizeOf_spec]; omega

end Tree

/-- The text a tree was read from; offsets count characters. -/
structure Text where
  chars : Array Char
deriving Inhabited

/-- The text of a node. -/
def Text.of (s : Text) (t : Tree) : String :=
  String.ofList (s.chars.extract t.info.start.offset t.info.stop).toList

end ClassAtlas.Syntax
