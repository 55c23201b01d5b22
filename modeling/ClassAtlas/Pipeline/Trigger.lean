import ClassAtlas.Path
/-!
# Triggers

What can ask for a new pass: a file that changed, a client that attached, or a request. A request
and a change always want a pass, an attached client only if the configuration says so. After a
change the pipeline may wait for further changes before it does anything.
-/
namespace ClassAtlas

/-- Mirrors `Trigger`. -/
inductive Trigger where
  | fileChanged (path : FilePath)
  | clientAttached (id : Nat)
  | requested
deriving BEq, DecidableEq, Repr, Inhabited

/-- Mirrors `PipelineConfig`. -/
structure PipelineConfig where
  /-- How many milliseconds to wait after a change; zero is not to wait. -/
  debounceMs : Nat
  recomputeOnAttach : Bool
deriving BEq, DecidableEq, Repr, Inhabited

namespace PipelineConfig

/-- Whether a trigger wants a pass. Mirrors `wants_pass`. -/
def wants (c : PipelineConfig) : Trigger → Bool
  | .clientAttached _ => c.recomputeOnAttach
  | .fileChanged _ | .requested => true

/-- Whether to wait after a trigger that comes first. -/
def pausesAfter (c : PipelineConfig) : Trigger → Bool
  | .fileChanged _ => c.debounceMs != 0
  | .clientAttached _ | .requested => false

end PipelineConfig
end ClassAtlas
