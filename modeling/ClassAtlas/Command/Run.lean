import ClassAtlas.Command.Arguments
import ClassAtlas.Diagram.Render
import ClassAtlas.Live.Service
import ClassAtlas.Version
import ClassAtlas.Watch.Watcher
/-!
# Carrying out a command

A command reads the disk and ends with an exit code, what it printed, the lines it logged and, if it
failed, a report of the error and of what lies behind it. To serve goes on for ever unless the
settings cannot be loaded, the root cannot be watched or the address cannot be used; whether it can
is for the caller to say.
-/
namespace ClassAtlas.Command

inductive LogLevel where
  | info
  | warn
deriving BEq, DecidableEq, Repr, Inhabited

def LogLevel.name : LogLevel → String
  | .info => "INFO"
  | .warn => "WARN"

/-- A line of the log. -/
structure LogLine where
  level : LogLevel
  text : String
deriving BEq, DecidableEq, Repr, Inhabited

/-- An error and what lies behind it. -/
structure Failure where
  message : String
  cause? : Option String
deriving BEq, DecidableEq, Repr, Inhabited

/-- Why an address cannot be used. -/
inductive BindFault where
  /-- It is not allowed to. -/
  | denied
  /-- There is no such address here. -/
  | unassignable
  /-- There is no network at all. -/
  | unsupported
deriving BEq, DecidableEq, Repr, Inhabited

def BindFault.message : BindFault → String
  | .denied => "Permission denied (os error 13)"
  | .unassignable => "Cannot assign requested address (os error 99)"
  | .unsupported => "Operation not supported (os error 95)"

/-- How a command ended. -/
inductive Ending where
  | done
  | failed (failure : Failure)
  /-- The command line was wrong. -/
  | misused
  /-- It goes on to serve. -/
  | serving (service : Live.Service) (watcher : Watch.Watcher)
deriving Inhabited

structure Outcome where
  printed : String
  logs : List LogLine
  ending : Ending
deriving Inhabited

namespace Failure

def ofSettings (e : SettingsError) : Failure := ⟨e.message, some e.cause⟩

def ofProject (e : ProjectError) : Failure := ⟨e.message, some e.cause⟩

/-- A root that is not there is told in words of its own. -/
def ofRoot (f : Files.Fault) : Failure :=
  match f with
  | .notFound => ⟨"No path was found.", none⟩
  | f => ⟨f.message, some f.message⟩

def ofBind (f : BindFault) : Failure := ⟨f.message, none⟩

/-- Four blanks before every line. -/
def indent (text : String) : String :=
  String.ofList (' ' :: ' ' :: ' ' :: ' ' :: text.toList.flatMap fun c =>
    if c == '\n' then ['\n', ' ', ' ', ' ', ' '] else [c])

/-- The report of an error. -/
def report (f : Failure) : String :=
  "Error: " ++ f.message ++ (match f.cause? with
    | some c => "\n\nCaused by:\n" ++ indent c
    | none => "") ++ "\n"

end Failure

namespace Outcome

def fail (logs : List LogLine) (f : Failure) : Outcome := ⟨"", logs, .failed f⟩

def exitCode (o : Outcome) : Nat :=
  match o.ending with
  | .done | .serving _ _ => 0
  | .failed _ => 1
  | .misused => 2

/-- The report of a failure. -/
def report? (o : Outcome) : Option String :=
  match o.ending with
  | .failed f => some f.report
  | _ => none

end Outcome

/-- The descriptor that a command works with: the one asked for, or else that of the settings.
Mirrors `descriptor_for`. -/
def descriptorFor (disk : Files.Disk) (root : FilePath) (project : Option FilePath) :
    Except SettingsError FilePath := do
  let settings ← Settings.load disk root
  .ok (({ settings with descriptor := project.getD settings.descriptor } : Settings).descriptorPath
    root)

/-- The lines about files that are missing. -/
def missingLines (failures : List FileFailure) : List LogLine :=
  if failures.isEmpty then []
  else ⟨.warn, toString failures.length ++ " files could not be parsed"⟩
    :: failures.map fun f => ⟨.warn, "Skipped " ++ f.message⟩

/-- The line about what was rendered. -/
def renderedLine (m : Model) : LogLine :=
  ⟨.info, "Rendered " ++ toString m.classes.length ++ " classes, "
    ++ toString m.relationships.length ++ " relationships"⟩

/-- Renders a project once. Mirrors `render`. -/
def render (disk : Files.Disk) (root : FilePath) (project : Option FilePath) : Outcome :=
  match descriptorFor disk root project with
  | .error e => .fail [] (.ofSettings e)
  | .ok descriptor =>
    let logs := [⟨.info, "Rendering " ++ descriptor.text⟩]
    match ((Coordinator.new descriptor).run disk).1 with
    | .error e => .fail logs (.ofProject e)
    | .ok e =>
      ⟨Diagram.render e.model ++ "\n", logs ++ missingLines e.failures ++ [renderedLine e.model],
        .done⟩

/-- The lines that a server begins with. -/
def servingLines (root descriptor : FilePath) : List LogLine :=
  [⟨.info, versionLine⟩, ⟨.info, "Project root: " ++ root.text⟩,
    ⟨.info, "Project descriptor: " ++ descriptor.text⟩]

/-- Serves a project; `bind` says whether an address can be used. Mirrors `serve`. -/
def serve (disk : Files.Disk) (bind : String → Nat → Except BindFault Unit) (root : FilePath)
    (overrides : Overrides) : Outcome :=
  match Settings.load disk root with
  | .error e => .fail [] (.ofSettings e)
  | .ok settings =>
    let settings := overrides.apply settings
    let descriptor := settings.descriptorPath root
    let logs := servingLines root descriptor
    let config : PipelineConfig := ⟨settings.debounceMs, settings.recomputeOnAttach⟩
    let (_, service) := Live.Service.start descriptor config disk
    match Watch.Watcher.start disk root with
    | .error f => .fail logs (.ofRoot f)
    | .ok watcher =>
      match bind settings.host settings.port with
      | .error f => .fail logs (.ofBind f)
      | .ok () => ⟨"", logs, .serving service.run watcher⟩

/-- What is printed for those who ask for help. -/
def helpText : String :=
  "Live class diagrams for TypeScript projects\n\nUsage: trellis [OPTIONS] <COMMAND>\n"

/-- Carries out what words ask for. Mirrors `main`. -/
def run (disk : Files.Disk) (bind : String → Nat → Except BindFault Unit) (words : List String) :
    Outcome :=
  match Invocation.ofWords words with
  | .error .help => ⟨helpText, [], .done⟩
  | .error .usage => ⟨"", [], .misused⟩
  | .ok i =>
    match i.task with
    | .version => ⟨versionLine ++ "\n", [], .done⟩
    | .render project => render disk i.root project
    | .serve overrides => serve disk bind i.root overrides

end ClassAtlas.Command
