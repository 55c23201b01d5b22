import ClassAtlas.Command.Options
import ClassAtlas.Settings
/-!
# What can be asked for

The program serves a project, renders it once, or tells its version. Before the command stand the
options that hold for all of them: the root of the project, the current directory if none is given,
and a switch for more talk.
-/
namespace ClassAtlas.Command

/-- What takes the place of settings. Mirrors `ServeArgs`. -/
structure Overrides where
  port : Option Nat
  host : Option String
  project : Option FilePath
  debounceMs : Option Nat
deriving BEq, DecidableEq, Repr, Inhabited

/-- Mirrors `Commands`. -/
inductive Task where
  /-- Watch the project and serve its diagram. -/
  | serve (overrides : Overrides)
  /-- Print the diagram of a descriptor, or of that of the settings. -/
  | render (project : Option FilePath)
  | version
deriving BEq, DecidableEq, Repr, Inhabited

/-- Mirrors `Cli`. -/
structure Invocation where
  root : FilePath
  verbose : Bool
  task : Task
deriving BEq, DecidableEq, Repr, Inhabited

namespace Invocation

def topOptions : List Opt :=
  [⟨"verbose", some 'v', none⟩, ⟨"root", some 'r', some .path⟩]

def renderOptions : List Opt := [⟨"project", some 'p', some .path⟩]

def serveOptions : List Opt :=
  [⟨"port", some 'p', some (.number Settings.maxPort true)⟩, ⟨"host", none, some .text⟩,
    ⟨"project", none, some .path⟩, ⟨"debounce-ms", none, some (.number Settings.maxDebounce false)⟩]

def subcommands : List String := ["serve", "render", "version"]

/-- The options of a subcommand. -/
def optionsOf (subcommand : String) : List Opt :=
  if subcommand == "serve" then serveOptions
  else if subcommand == "render" then renderOptions
  else []

def value? (given : Given) (name : String) : Option String :=
  (given.find? (·.1 == name)).map (·.2)

def path? (given : Given) (name : String) : Option FilePath := (value? given name).map (⟨·⟩)

def number? (given : Given) (name : String) (most : Nat) (minusZero : Bool) : Option Nat :=
  (value? given name).bind (ValueKind.number? most minusZero)

/-- The task that a subcommand with options stands for. -/
def taskOf (subcommand : String) (given : Given) : Task :=
  if subcommand == "serve" then
    .serve ⟨number? given "port" Settings.maxPort true, value? given "host", path? given "project",
      number? given "debounce-ms" Settings.maxDebounce false⟩
  else if subcommand == "render" then .render (path? given "project")
  else .version

/-- What words ask for. -/
def ofWords (words : List String) : Except Stop Invocation := do
  match ← readLevel topOptions subcommands .start words with
  | (_, none) => .error .usage
  | (top, some (subcommand, rest)) =>
    let (own, _) ← readLevel (optionsOf subcommand) [] .start rest
    let task := taskOf subcommand (← own.settle).given
    let given := (← top.settle).given
    .ok ⟨(path? given "root").getD ⟨"."⟩, (value? given "verbose").isSome, task⟩

end Invocation

/-- The settings with what takes their place. Mirrors `ServeArgs::apply`. -/
def Overrides.apply (o : Overrides) (s : Settings) : Settings :=
  { s with
    port := o.port.getD s.port
    host := o.host.getD s.host
    descriptor := o.project.getD s.descriptor
    debounceMs := o.debounceMs.getD s.debounceMs }

end ClassAtlas.Command
