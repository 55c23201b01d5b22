import ClassAtlas.Toml.Reader
/-!
# Reading TOML: documents

A document is read line by line. Entries go into the table of the last header; a header puts that
table where its path leads and opens the next one. `parse` is what `Settings::load` reads its file
with.
-/
namespace ClassAtlas.Toml

namespace Reader

/-- A document under way: the tables that are finished and the one that entries go into. -/
structure Progress where
  root : Table Item
  current : Table Item
  path : List Key
  /-- Whether the current table is an element of an array of tables. -/
  isElement : Bool
deriving Inhabited

def Progress.start : Progress :=
  ⟨⟨[], false, false, none⟩, ⟨[], false, false, none⟩, [], false⟩

/-- Puts a table under a key of its parent; it takes the place of one that was only implied. -/
def putTable (path : List Key) (k : Key) (t : Table Item) (parent : Table Item) :
    Except Conflict (Table Item) :=
  match entryOf? parent.entries k with
  | none => .ok { parent with entries := parent.entries ++ [(k, .table t)] }
  | some (.table old) =>
    if old.implied then .ok { parent with entries := putEntry parent.entries k (.table t) }
    else .error (.duplicateIn k.name path.dropLast)
  | some _ => .error (.duplicateIn k.name path.dropLast)

/-- Adds a table to the array of tables under a key of its parent. -/
def pushTable (path : List Key) (k : Key) (t : Table Item) (parent : Table Item) :
    Except Conflict (Table Item) :=
  match entryOf? parent.entries k with
  | none => .ok { parent with entries := parent.entries ++ [(k, .tables [t])] }
  | some (.tables ts) =>
    .ok { parent with entries := putEntry parent.entries k (.tables (ts ++ [t])) }
  | some _ => .error (.duplicateIn k.name path.dropLast)

/-- Puts the current table where its path leads. -/
def Progress.finish (p : Progress) : Except Conflict (Table Item) :=
  match p.path.getLast? with
  | none => .ok p.current
  | some k =>
    inTable false
      (if p.isElement then pushTable p.path k p.current else putTable p.path k p.current)
      [] p.root p.path.dropLast

/-- Removes the implied table that a header is about to define from its parent. -/
def takeImplied (path : List Key) (k : Key) (parent : Table Item) :
    Except Conflict (Table Item) :=
  match entryOf? parent.entries k with
  | none => .ok parent
  | some (.table old) =>
    if old.implied && !old.dotted then
      .ok { parent with entries := parent.entries.filter fun e => e.1.name != k.name }
    else .error (.duplicateIn k.name path.dropLast)
  | some _ => .error (.duplicateIn k.name path.dropLast)

/-- The table that a path leads to, if there is one. -/
def tableAt? (t : Table Item) : List Key → Option (Table Item)
  | [] => some t
  | k :: path =>
    match entryOf? t.entries k with
    | some (.table inner) => tableAt? inner path
    | some (.tables ts) => ts.getLast?.bind fun last => tableAt? last path
    | _ => none

/-- The header of a table opens it. -/
def Progress.openTable (p : Progress) (path : List Key) (span : Span) :
    Except Conflict Progress := do
  let root ← p.finish
  match path.getLast? with
  | none => .ok p
  | some k =>
    let old := tableAt? root path
    let root ← inTable false (takeImplied path k) [] root path.dropLast
    let entries := (old.map (·.entries)).getD []
    .ok ⟨root, ⟨entries, false, false, some span⟩, path, false⟩

/-- The header of an element of an array of tables opens it. -/
def Progress.openElement (p : Progress) (path : List Key) (span : Span) :
    Except Conflict Progress := do
  let root ← p.finish
  match path.getLast? with
  | none => .ok p
  | some k =>
    let check (parent : Table Item) : Except Conflict (Table Item) :=
      match entryOf? parent.entries k with
      | none => .ok { parent with entries := parent.entries ++ [(k, .tables [])] }
      | some (.tables _) => .ok parent
      | some _ => .error (.duplicateIn k.name path.dropLast)
    let root ← inTable false check [] root path.dropLast
    .ok ⟨root, ⟨[], false, false, some span⟩, path, true⟩

/-- An entry goes into the current table. -/
def Progress.addEntry (p : Progress) (path : List Key) (k : Key) (i : Item) :
    Except Conflict Progress := do
  let span := match p.current.span, i.span? with
    | some a, some b => some ⟨a.start, b.stop⟩
    | s, _ => s
  let current ← inTable true (Reader.addEntry (!path.isEmpty) (some p.path) k i) [] p.current path
  .ok { p with current := { current with span } }

/-- Reads the header of a table. -/
def header (p : Progress) (c : Cursor) : Except Fault (Progress × Cursor) :=
  let isElement := c.startsWith ['[', '[']
  let close := if isElement then [']', ']'] else [']']
  let out : Except Fault (Progress × Cursor) := do
    if c.rest.length < 2 then .error (Fault.at_ c.offset)
    let (path, d) ← key (c.skip close.length)
    if !d.startsWith close then
      .error ((Fault.at_ d.offset).wanting ["`.`", if isElement then "`]]`" else "`]`"])
    let d := d.skip close.length
    let span : Span := ⟨c.offset, d.offset⟩
    let d ← lineEnd d
    match if isElement then p.openElement path span else p.openTable path span with
    | .ok p => .ok (p, d)
    | .error e => .error (Fault.because c.offset e.message)
  out.mapError (·.named "table header")

/-- Reads a line with an entry. -/
def entry (p : Progress) (c : Cursor) : Except Fault (Progress × Cursor) := do
  let ((path, k, i), d) ← keyValue (value (maxDepth - 1)) c
  let d ← lineEnd d
  match p.addEntry path k i with
  | .ok p => .ok (p, d)
  | .error e => .error (Fault.because c.offset e.message)

/-- Reads lines up to the end; `fuel` bounds their number. -/
def lines : Nat → Progress → Cursor → Except Fault Progress
  | 0, p, _ => .ok p
  | fuel + 1, p, c => do
    let c := skipWs c
    match c.head? with
    | none => .ok p
    | some '#' => lines fuel p (← lineEnd c)
    | some '[' =>
      let (p, d) ← header p c
      lines fuel p d
    | some x =>
      match newline? c with
      | some d => lines fuel p d
      | none =>
        if x == '\r' then .error (Fault.at_ c.offset)
        else
          let (p, d) ← entry p c
          lines fuel p d

end Reader

/-- The place with some bytes before it. -/
def Cursor.atOffset (offset : Nat) (c : Cursor) : Cursor :=
  c.rest.foldl (fun c _ => if c.offset < offset then c.next else c) c

/-- The stretch a fault is shown at: the character there, or nothing at the end of the text. -/
def Fault.span (f : Fault) (text : String) : Span :=
  let rest := ((Cursor.ofText text).atOffset f.offset).rest
  ⟨f.offset, f.offset + (rest.head?.map Char.utf8Size).getD 0⟩

/-- Reads a document. -/
def parse (text : String) : Except Error (Table Item) :=
  let c := Cursor.ofText text
  let c := if c.head? == some '\uFEFF' then c.next else c
  match Reader.lines (c.rest.length + 1) .start c with
  | .error f => .error ⟨f.text, some (f.span text)⟩
  | .ok p =>
    match p.finish with
    | .ok t => .ok t
    | .error e => .error ⟨e.message, none⟩

end ClassAtlas.Toml
