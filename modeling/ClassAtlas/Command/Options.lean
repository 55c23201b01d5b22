/-!
# Options of a command

A level of a command line has options and subcommands. An option is written by its long name with
two dashes, `--root web` or `--root=web`, or by its letter with one, `-r web`, `-rweb` or `-r=web`;
letters of switches may stand together. No option may be given twice. After `--` nothing is an
option any more, and since no level takes operands, nothing may follow. `help` is known everywhere:
as a switch, and as a subcommand where there are subcommands.

A value that stands apart from its option is looked at only when the next option comes or the level
ends, after everything that belongs to a subcommand. This decides which of two things comes first,
an error or a call for help. `readLevel` reads a level of `Cli`.
-/
namespace ClassAtlas.Command

/-- What may be written as the value of an option. -/
inductive ValueKind where
  | text
  /-- A path is not empty. -/
  | path
  /-- A number up to a bound; it may have a plus sign, and zero also a minus sign if `minusZero`. -/
  | number (most : Nat) (minusZero : Bool)
deriving BEq, DecidableEq, Repr, Inhabited

/-- An option; a switch is one without a value. -/
structure Opt where
  long : String
  short? : Option Char
  value? : Option ValueKind
deriving BEq, DecidableEq, Repr, Inhabited

/-- Why a command line is not carried out. -/
inductive Stop where
  | help
  | usage
deriving BEq, DecidableEq, Repr, Inhabited

namespace ValueKind

/-- The number that digits denote. -/
def ofDigits? (cs : List Char) : Option Nat :=
  if !cs.isEmpty && cs.all Char.isDigit then
    some (cs.foldl (fun n c => 10 * n + (c.toNat - '0'.toNat)) 0)
  else none

/-- The number a text denotes. -/
def number? (most : Nat) (minusZero : Bool) (text : String) : Option Nat :=
  let n? := match text.toList with
    | '+' :: cs => ofDigits? cs
    | '-' :: cs => if minusZero then (ofDigits? cs).filter (· == 0) else none
    | cs => ofDigits? cs
  n?.filter (· ≤ most)

/-- Whether a text may be a value. -/
def accepts (text : String) : ValueKind → Bool
  | .text => true
  | .path => !text.isEmpty
  | .number most minusZero => (number? most minusZero text).isSome

end ValueKind

/-- The options of a level that were given, with the texts of their values. -/
abbrev Given := List (String × String)

/-- How far the reading of a level is. -/
structure Progress where
  given : Given
  /-- An option whose value is not looked at yet, and the value if it was there. -/
  pending : Option (Opt × Option String)
deriving BEq, DecidableEq, Repr, Inhabited

namespace Progress

def start : Progress := ⟨[], none⟩

/-- Notes an option with its value. -/
def give (p : Progress) (o : Opt) (value : String) : Except Stop Progress :=
  if p.given.any (·.1 == o.long) then .error .usage
  else if (o.value?.map (·.accepts value)).getD true then
    .ok { p with given := p.given ++ [(o.long, value)] }
  else .error .usage

/-- Looks at the value that waits. -/
def settle (p : Progress) : Except Stop Progress :=
  match p.pending with
  | none => .ok p
  | some (_, none) => .error .usage
  | some (o, some v) => { p with pending := none }.give o v

/-- Takes an option with what is attached to it. -/
def take (p : Progress) (o : Opt) (attached : Option String) : Except Stop Progress := do
  let p ← p.settle
  match o.value?, attached with
  | none, none => p.give o ""
  | none, some _ => .error .usage
  | some _, some v => p.give o v
  | some _, none => .ok { p with pending := some (o, none) }

/-- Asks for help, if nothing before it is wrong. -/
def help {α : Type} (p : Progress) : Except Stop α := do
  let _ ← p.settle
  .error .help

/-- Whether the next word is the value of an option. -/
def wantsValue (p : Progress) : Bool :=
  match p.pending with
  | some (_, none) => true
  | _ => false

end Progress

/-- Takes an option by its long name. -/
def takeLong (opts : List Opt) (p : Progress) (word : List Char) : Except Stop Progress :=
  let name := String.ofList (word.takeWhile (· != '='))
  let attached := match word.dropWhile (· != '=') with
    | _ :: value => some (String.ofList value)
    | [] => none
  if name == "help" then
    if attached.isSome then .error .usage else p.help
  else
    match opts.find? (·.long == name) with
    | some o => p.take o attached
    | none => .error .usage

/-- Takes options by their letters. -/
def takeShort (opts : List Opt) (p : Progress) : List Char → Except Stop Progress
  | [] => .ok p
  | c :: rest =>
    if c == 'h' then p.help
    else
      match opts.find? (·.short? == some c) with
      | none => .error .usage
      | some o =>
        match o.value?, rest with
        | none, rest => do takeShort opts (← p.take o none) rest
        | some _, [] => p.take o none
        | some _, '=' :: value => p.take o (some (String.ofList value))
        | some _, value => p.take o (some (String.ofList value))

/-- Whether words name subcommands one below the other; none of those here has any itself. -/
def isHelpTopic (subcommands : List String) : List String → Bool
  | [] => true
  | [topic] => topic == "help" || subcommands.contains topic
  | _ => false

/-- Reads a level up to its end or to a subcommand, which comes with the words after it. -/
def readLevel (opts : List Opt) (subcommands : List String) (p : Progress) :
    List String → Except Stop (Progress × Option (String × List String))
  | [] => .ok (p, none)
  | word :: rest =>
    if !p.wantsValue && subcommands.contains word then .ok (p, some (word, rest))
    else if !p.wantsValue && !subcommands.isEmpty && word == "help" then
      .error (if isHelpTopic subcommands rest then .help else .usage)
    else
      match word.toList with
      | ['-', '-'] => if rest.isEmpty then .ok (p, none) else .error .usage
      | '-' :: '-' :: name => do
        readLevel opts subcommands (← takeLong opts p name) rest
      | '-' :: c :: letters => do
        readLevel opts subcommands (← takeShort opts p (c :: letters)) rest
      | _ =>
        match p.pending with
        | some (o, none) =>
          readLevel opts subcommands { p with pending := some (o, some word) } rest
        | _ => .error .usage

end ClassAtlas.Command
