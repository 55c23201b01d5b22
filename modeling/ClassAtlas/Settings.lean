import ClassAtlas.Files.Disk
import ClassAtlas.Toml.Document
/-!
# Settings

What the settings file of a project may say: where to serve, which descriptor to use, how long to
wait for further changes, and whether a client that attaches asks for a pass. Whatever the file
leaves out keeps its default; a file that is not there leaves out everything.
-/
namespace ClassAtlas

/-- The settings of a project. Mirrors `Settings`. -/
structure Settings where
  host : String
  port : Nat
  descriptor : FilePath
  debounceMs : Nat
  recomputeOnAttach : Bool
deriving BEq, DecidableEq, Repr, Inhabited

/-- Why settings cannot be loaded. Mirrors `SettingsError`. -/
inductive SettingsError where
  | read (path : FilePath) (fault : Files.Fault)
  | parse (path : FilePath) (reason : String)
deriving BEq, DecidableEq, Repr, Inhabited

namespace SettingsError

/-- What lies behind the error. -/
def cause : SettingsError → String
  | .read _ f => f.message
  | .parse _ reason => reason

def message (e : SettingsError) : String :=
  match e with
  | .read p _ => "failed to read " ++ p.text ++ ": " ++ e.cause
  | .parse p _ => "invalid settings in " ++ p.text ++ ": " ++ e.cause

end SettingsError

namespace Settings

/-- The name of the settings file in the root of a project. Mirrors `SETTINGS_FILE`. -/
def fileName : String := "trellis.toml"

def standard : Settings := ⟨"127.0.0.1", 7890, ⟨"tsconfig.json"⟩, 100, true⟩

/-- The largest port. -/
def maxPort : Nat := 0xFFFF

/-- The longest wait that can be written down. -/
def maxDebounce : Nat := 0xFFFFFFFFFFFFFFFF

open Toml

/-! ## Values of a known type -/

def wrongType (expected : String) (i : Item) : Error :=
  ⟨"invalid type: " ++ i.text ++ ", expected " ++ expected, i.span?⟩

def string : Item → Except Error String
  | .scalar (.string s) _ => .ok s
  | i => .error (wrongType "a string" i)

def path : Item → Except Error FilePath
  | .scalar (.string s) _ => .ok ⟨s⟩
  | i => .error (wrongType "path string" i)

def truth : Item → Except Error Bool
  | .scalar (.boolean b) _ => .ok b
  | i => .error (wrongType "a boolean" i)

def natural (name : String) (most : Nat) (i : Item) : Except Error Nat :=
  match i with
  | .scalar (.integer n) _ =>
    if 0 ≤ n && n ≤ most then .ok n.toNat
    else .error ⟨"invalid value: " ++ i.text ++ ", expected " ++ name, i.span?⟩
  | i => .error (wrongType name i)

/-! ## Sections -/

/-- A setting with a name, read into the settings. -/
structure Field where
  name : String
  read : Item → Settings → Except Error Settings

def serverFields : List Field :=
  [⟨"host", fun i s => do .ok { s with host := ← string i }⟩,
    ⟨"port", fun i s => do .ok { s with port := ← natural "u16" maxPort i }⟩]

def projectFields : List Field :=
  [⟨"descriptor", fun i s => do .ok { s with descriptor := ← path i }⟩,
    ⟨"debounce_ms", fun i s => do .ok { s with debounceMs := ← natural "u64" maxDebounce i }⟩,
    ⟨"recompute_on_attach", fun i s => do .ok { s with recomputeOnAttach := ← truth i }⟩]

/-- Reads the entry of a key; keys that name no field are passed over. An error about no place is
put at the entry, or else at its key. -/
def readEntry (fields : List Field) (s : Settings) (e : Key × Item) : Except Error Settings :=
  match fields.find? (·.name == e.1.name) with
  | none => .ok s
  | some f => (f.read e.2 s).mapError fun err =>
    { err with span := err.span <|> e.2.span? <|> some e.1.span }

/-- Reads a section: a table by its keys, an array by the order of the fields. -/
def readSection (name : String) (fields : List Field) (i : Item) (s : Settings) :
    Except Error Settings :=
  match i with
  | .table t => t.entries.foldlM (readEntry fields) s
  | .inlineTable t => t.entries.foldlM (readEntry fields) s
  | .array items _ => (fields.zip items).foldlM (fun s (f, i) => f.read i s) s
  | .tables ts => (fields.zip ts).foldlM (fun s (f, t) => f.read (.table t) s) s
  | i => .error (wrongType ("struct " ++ name) i)

def sections : List Field :=
  [⟨"server", readSection "ServerSettings" serverFields⟩,
    ⟨"project", readSection "ProjectSettings" projectFields⟩]

/-- The settings of a text. -/
def ofText (text : String) : Except String Settings :=
  match (do
      (← parse text).entries.foldlM (readEntry sections) standard : Except Error Settings) with
  | .ok s => .ok s
  | .error e => .error (e.render text)

/-- Whether settings say the same as the defaults. -/
def isStandard (s : Settings) : Bool :=
  s.descriptor.key == standard.descriptor.key
    && { s with descriptor := standard.descriptor } == standard

/-! ## Files -/

/-- The settings file of a root. Mirrors `settings_path`. -/
def filePath (root : FilePath) : FilePath := root.join ⟨fileName⟩

/-- The settings of a root. Mirrors `Settings::load`. -/
def load (disk : Files.Disk) (root : FilePath) : Except SettingsError Settings := do
  let p := filePath root
  if !disk.exists? p then .ok standard
  else
    let text ← (disk.readText p).mapError (.read p)
    (ofText text).mapError (.parse p)

/-- The descriptor, below the root unless it is absolute. Mirrors `Settings::descriptor_path`. -/
def descriptorPath (s : Settings) (root : FilePath) : FilePath := root.join s.descriptor

end Settings
end ClassAtlas
