import ClassAtlas.Command.Run
/-!
# The program

Reads what a command may look at from the file system into a `Files.Disk`, carries the command out
on it, and prints what came of it. No server can be reached through this program, so every address
is refused.
-/
namespace ClassAtlas.Command

open Files (Disk Location)

/-- The text of a location. -/
def locationText (at_ : Location) : String := "/" ++ String.intercalate "/" at_

/-- The location a text from the file system stands for. -/
def locationOf (text : String) : Location := (FilePath.segments ⟨text⟩).filter (· != "")

/-- Puts the directories above a location on a disk. -/
def putAbove (d : Disk) (at_ : Location) : Disk :=
  (List.range (at_.length - 1)).foldl (fun d n =>
    if (d.node? (at_.take (n + 1))).isSome then d else d.put (at_.take (n + 1)) .directory) d

mutual

/-- Takes in what stands at a location in a directory, and what is below it or behind it. -/
partial def takeEntry (d : Disk) (above : Location) (name : String) : IO Disk := do
  let at_ := above ++ [name]
  if (d.node? at_).isSome && !d.isDirectoryAt at_ then return d
  let path := (← IO.FS.realPath (locationText above)) / name
  match (← path.symlinkMetadata).type with
  | .file => return d.put at_ (.file (← IO.FS.readBinFile path))
  | .dir =>
    let mut d := d.put at_ .directory
    for e in ← path.readDir do
      d ← takeEntry d at_ e.fileName
    return d
  | .symlink =>
    try
      let target := (← IO.FS.realPath path).toString
      takeTree (d.put at_ (.link target)) target
    catch _ => return d.put at_ (.link name)
  | .other => return d

/-- Takes in what stands at a path; if there is nothing, the disk stays as it is. -/
partial def takeTree (d : Disk) (path : String) : IO Disk := do
  try
    let real := (← IO.FS.realPath path).toString
    let at_ := locationOf real
    let entries ← (← IO.FS.realPath real).readDir
    let mut d := putAbove d (at_ ++ [""])
    for e in entries do
      d ← takeEntry d at_ e.fileName
    return d
  catch _ =>
    try
      let at_ := locationOf (← IO.FS.realPath path).toString
      takeEntry (putAbove d at_) at_.dropLast (at_.getLast?.getD "")
    catch _ => return d

end

/-- The disk that a command looks at: its root, and what lies beside its descriptor. -/
def takeFor (i : Invocation) : IO Disk := do
  let d := Disk.fresh (locationOf (← IO.currentDir).toString)
  let d ← takeTree d (d.absolute i.root).text
  let project := match i.task with
    | .render project => project
    | .serve overrides => overrides.project
    | .version => none
  match descriptorFor d i.root project with
  | .error _ => return d
  | .ok descriptor =>
    match (d.absolute descriptor).parent? with
    | some parent => takeTree d parent.text
    | none => return d

/-- Refuses every address. -/
def noAddress (_ : String) (_ : Nat) : Except BindFault Unit := .error .unsupported

/-- Prints what came of a command. -/
def report (o : Outcome) : IO Unit := do
  for l in o.logs do
    IO.eprintln (l.level.name ++ " " ++ l.text)
  IO.print o.printed
  if let some text := o.report? then IO.eprint text

end ClassAtlas.Command

def main (words : List String) : IO UInt32 := do
  let d ← match ClassAtlas.Command.Invocation.ofWords words with
    | .ok i => ClassAtlas.Command.takeFor i
    | .error _ => pure (ClassAtlas.Files.Disk.fresh [])
  let outcome := ClassAtlas.Command.run d ClassAtlas.Command.noAddress words
  ClassAtlas.Command.report outcome
  return outcome.exitCode.toUInt32
