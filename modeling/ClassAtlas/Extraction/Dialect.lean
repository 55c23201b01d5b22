import ClassAtlas.Grammar.TypeScript
import ClassAtlas.Parsing.View
import ClassAtlas.Path
/-!
# Dialects

The extension of a file picks the grammar it is read with. `Dialect.tree` gives the syntax tree of
every text; what cannot be read stands in it as errors.
-/
namespace ClassAtlas

open Grammar Parsing Lexing

/-- The languages that classes are read from. Mirrors `FileType`. -/
inductive Dialect where
  | typeScript
  | tsx
  | javaScript
deriving BEq, DecidableEq, Repr, Inhabited

namespace Dialect

def name : Dialect → String
  | .typeScript => "TypeScript"
  | .tsx => "Tsx"
  | .javaScript => "JavaScript"

def ofExtension? (extension : String) : Option Dialect :=
  if ["ts", "mts", "cts"].contains extension then some .typeScript
  else if extension == "tsx" then some .tsx
  else if ["js", "jsx", "mjs", "cjs"].contains extension then some .javaScript
  else none

/-- Mirrors `FileType::from_path` and `get_extractor`. -/
def ofPath? (p : FilePath) : Option Dialect := p.extension?.bind ofExtension?

def typeScriptParser : Parser := Parser.ofGrammar Grammar.typeScript .typed

def tsxParser : Parser := Parser.ofGrammar Grammar.tsx .typed

def javaScriptParser : Parser := Parser.ofGrammar Grammar.javaScript .plain

def parser : Dialect → Parser
  | .typeScript => typeScriptParser
  | .tsx => tsxParser
  | .javaScript => javaScriptParser

/-- The tree of a text that no reading leads to the end of: all of it is one error. -/
def unread (src : Source) : Syntax.Tree :=
  .node ⟨"ERROR", true, [], ⟨0, 0, 0⟩, src.size, true, false, true⟩ []

/-- The syntax tree of a text. Mirrors `parse_blocking` with the language of `get_language`. -/
def tree (d : Dialect) (text : String) : Syntax.Tree :=
  let src := Source.ofString text
  match d.parser.parse src with
  | (some t, p) => t.toTree p.automaton.grammar src
  | (none, _) => unread src

end Dialect
end ClassAtlas
