import ClassAtlas.Parsing.Parser
import ClassAtlas.Syntax.Tree
/-!
# The syntax tree of a parse

Turns what the parser leaves on its stack into a syntax tree: hidden nodes give way to their
children, aliases replace kinds, and the fields of a production are put on its children. A field on
a hidden node belongs to the first visible node in it.
-/
namespace ClassAtlas.Parsing

open ClassAtlas.Grammar ClassAtlas.Lexing ClassAtlas.Syntax

namespace View

/-- A subtree to be shown, under an alias and with fields. -/
structure Pending where
  tree : Subtree
  shownAs : Option Alias
  fields : List String

/-- What is left to do: a subtree to show, or a node to close over the siblings found since; the
siblings before it come with it. -/
inductive Job where
  | open_ (p : Pending)
  | close (info : Node) (before : List Tree)

def place (src : Source) (i : Nat) : Place := ⟨i, src.row i, src.column i⟩

def nodeInfo (g : Productions) (src : Source) (p : Pending) : Node :=
  let t := p.tree
  let isError := t.isError g
  let symbol := g.symbols.getD t.symbol default
  let kind := if isError then "ERROR" else match p.shownAs with
    | some a => a.kind
    | none => symbol.kind
  let named := if isError then true else match p.shownAs with
    | some a => a.named
    | none => symbol.shape == .named
  { kind, named, fields := p.fields, start := place src t.start, stop := t.stop
    isError, isMissing := t.missing, hasError := t.errorCost > 0 }

def shows (p : Pending) : Bool := p.shownAs.isSome || p.tree.visible || p.tree.visibleChildren > 0

/-- The children of a subtree with the aliases and fields of its production. -/
def pendingChildren (g : Productions) (t : Subtree) : List Pending :=
  let isError := t.isError g || t.symbol == errorRepeatSymbol g
  let steps := (g.productions.getD t.production default).steps
  let found := t.children.foldl (fun (acc : List Pending × Nat) c =>
    if c.extra then (⟨c, none, []⟩ :: acc.1, acc.2)
    else if isError then (⟨c, none, []⟩ :: acc.1, acc.2 + 1)
    else
      let step := steps[acc.2]?
      (⟨c, step.bind (·.shownAs), (step.bind (·.field)).toList⟩ :: acc.1, acc.2 + 1)) ([], 0)
  found.1.reverse

/-- Hands fields down to the first entry that shows a node. -/
def handDown (fields : List String) : List Pending → List Pending
  | [] => []
  | p :: rest =>
    if shows p then { p with fields := fields ++ p.fields } :: rest else p :: handDown fields rest

/-- Works off the jobs; `fuel` bounds their number. -/
def run (g : Productions) (src : Source) : Nat → List Job → List Tree → List Tree
  | 0, _, done => done
  | _, [], done => done
  | fuel + 1, job :: jobs, done =>
    match job with
    | .close info before => run g src fuel jobs (.node info done.reverse :: before)
    | .open_ p =>
      let children := pendingChildren g p.tree
      if p.shownAs.isSome || p.tree.visible then
        run g src fuel (children.map .open_ ++ .close (nodeInfo g src p) done :: jobs) []
      else run g src fuel ((handDown p.fields children).map .open_ ++ jobs) done

end View

/-- The number of subtrees in a subtree; `fuel` bounds the number of steps. -/
def Subtree.count : Nat → List Subtree → Nat → Nat
  | 0, _, n => n
  | _, [], n => n
  | fuel + 1, t :: rest, n => count fuel (t.children.toList ++ rest) (n + 1)

/-- The syntax tree of a finished parse. -/
def Subtree.toTree (g : Productions) (src : Source) (t : Subtree) : Tree :=
  let size := Subtree.count (4096 * (src.size + 16)) [t] 0
  match View.run g src (2 * size + 2) [.open_ ⟨t, none, []⟩] [] with
  | r :: _ => r
  | [] => default

end ClassAtlas.Parsing
