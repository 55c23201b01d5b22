import ClassAtlas.Extraction.Dialect
import ClassAtlas.Files.Disk
import ClassAtlas.Syntax.Classes
/-!
# The model of a file

`extract` reads the classes of a file from its path and bytes alone. A file that is no text, that
holds a syntax error, or whose extension belongs to no dialect gives an error instead, and the
first syntax error is told by its line and column.
-/
namespace ClassAtlas

/-- Why a file adds nothing to a model. Mirrors `ExtractError`. -/
inductive ExtractError where
  | unreadable (fault : Files.Fault)
  | notText
  /-- Line and column count from one, the column in bytes. -/
  | malformed (line column : Nat)
  | unsupported
deriving BEq, DecidableEq, Repr, Inhabited

def ExtractError.message : ExtractError → String
  | .unreadable f => "failed to read file: " ++ f.message
  | .notText => "file is not valid UTF-8"
  | .malformed line column =>
    "syntax error at line " ++ toString line ++ ", column " ++ toString column
  | .unsupported => "unsupported file type"

namespace Syntax

/-- The model of a tree, unless there is an error in it. Mirrors the end of `extract_with`. -/
def Tree.model (t : Tree) (text : Text) : Except ExtractError Model :=
  match t.firstError with
  | some e => .error (.malformed (e.info.start.row + 1) (e.info.start.column + 1))
  | none => .ok (text.model t)

end Syntax

namespace Dialect

/-- The model of a file's bytes. Mirrors `extract_with`. -/
def extract (d : Dialect) (content : ByteArray) : Except ExtractError Model :=
  match String.fromUTF8? content with
  | none => .error .notText
  | some text => (d.tree text).model ⟨text.toList.toArray⟩

end Dialect

/-- The model of a file, from its path and bytes. Mirrors `get_extractor` and
`LanguageExtractor::extract`. -/
def extract (path : FilePath) (content : ByteArray) : Except ExtractError Model :=
  match Dialect.ofPath? path with
  | none => .error .unsupported
  | some d => d.extract content

end ClassAtlas
