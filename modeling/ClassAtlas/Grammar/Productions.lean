import Std.Data.HashMap
import ClassAtlas.Grammar.Rule
/-!
# Productions

The normal form of a grammar: numbered symbols, the tokens among them, and productions without
choices, repetitions or inlined rules. Every step of a production keeps the precedence, the alias
and the field that the rules gave it.

Symbols are numbered in one row: the end of the input, the word token, the other tokens in order of
first use, the tokens found by layout, and then the rules.
-/
namespace ClassAtlas.Grammar

open Std (HashMap)

/-- A symbol before the final numbering. -/
inductive Sym where
  | token (i : Nat)
  | layout (i : Nat)
  | variable (i : Nat)
deriving BEq, DecidableEq, Hashable, Inhabited

/-- A rule whose names and tokens are resolved. -/
inductive Body where
  | blank
  | sym (s : Sym)
  | seq (members : List Body)
  | choice (members : List Body)
  | repeat1 (body : Body)
  | prec (p : Precedence) (a : Option Associativity) (body : Body)
  | dynamic (n : Int) (body : Body)
  | field (name : String) (body : Body)
  | shownAs (a : Alias) (body : Body)
deriving BEq, Inhabited

/-- How a symbol shows in the tree: hidden, as an anonymous node or as a named one. -/
inductive Shape where
  | hidden
  | anonymous
  | named
deriving BEq, DecidableEq, Inhabited

/-- What a token matches. -/
inductive Lexeme where
  | text (s : String)
  | pattern (p : TokenPattern)
deriving BEq, Inhabited

/-- One step of a production. -/
structure Step where
  symbol : Sym
  precedence : Precedence
  associativity : Option Associativity
  shownAs : Option Alias
  field : Option String
deriving BEq, Inhabited

/-- The right-hand side of a production and its dynamic precedence. -/
structure Alternative where
  steps : List Step
  dynamic : Int
deriving BEq, Inhabited

/-! ## Tokens -/

/-- Tokens in order of first use, each with the number of its uses. -/
structure TokenTable where
  lexemes : Array Lexeme := #[]
  uses : Array Nat := #[]

def TokenTable.intern (t : TokenTable) (x : Lexeme) : Nat × TokenTable :=
  match t.lexemes.findIdx? (· == x) with
  | some i => (i, { t with uses := t.uses.modify i (· + 1) })
  | none => (t.lexemes.size, ⟨t.lexemes.push x, t.uses.push 1⟩)

/-- Names of rules and of layout tokens. -/
structure Names where
  nonterminals : HashMap String Nat
  layouts : HashMap String Nat

def Names.resolve (n : Names) (name : String) : Body :=
  match n.nonterminals[name]? with
  | some i => .sym (.variable i)
  | none =>
    match n.layouts[name]? with
    | some i => .sym (.layout i)
    | none => .choice []

mutual

/-- Resolves the names in a rule and gives its tokens numbers. -/
def resolve (n : Names) : Rule → StateM TokenTable Body
  | .blank => pure .blank
  | .text s => do pure (.sym (.token (← modifyGet (·.intern (.text s)))))
  | .pattern p => do pure (.sym (.token (← modifyGet (·.intern (.pattern p)))))
  | .ref name => pure (n.resolve name)
  | .seq ms => do pure (.seq (← resolveAll n ms))
  | .choice ms => do pure (.choice (← resolveAll n ms))
  | .repeat1 r => do pure (.repeat1 (← resolve n r))
  | .prec p a r => do pure (.prec p a (← resolve n r))
  | .dynamic d r => do pure (.dynamic d (← resolve n r))
  | .field f r => do pure (.field f (← resolve n r))
  | .shownAs a r => do pure (.shownAs a (← resolve n r))

def resolveAll (n : Names) : List Rule → StateM TokenTable (List Body)
  | [] => pure []
  | r :: rs => do
    let b ← resolve n r
    pure (b :: (← resolveAll n rs))

end

/-! ## Repetitions -/

/-- Rules made for repetitions, and the number of rules before them. -/
structure Repeats where
  offset : Nat
  names : Array String := #[]
  bodies : Array Body := #[]

/-- The rule for one or more copies of a body: it derives itself twice, or the body. -/
def Repeats.intern (t : Repeats) (owner : String) (body : Body) : Body × Repeats :=
  match t.bodies.findIdx? (· == body) with
  | some i => (.sym (.variable (t.offset + i)), t)
  | none =>
    let s := .sym (.variable (t.offset + t.bodies.size))
    (s, { t with names := t.names.push (owner ++ "_repeat"), bodies := t.bodies.push body })

mutual

/-- Replaces every repetition by a rule of its own. -/
def expandRepeats (owner : String) : Body → StateM Repeats Body
  | .blank => pure .blank
  | .sym s => pure (.sym s)
  | .seq ms => do pure (.seq (← expandRepeatsAll owner ms))
  | .choice ms => do pure (.choice (← expandRepeatsAll owner ms))
  | .repeat1 b => do
    let inner ← expandRepeats owner b
    modifyGet (·.intern owner inner)
  | .prec p a b => do pure (.prec p a (← expandRepeats owner b))
  | .dynamic n b => do pure (.dynamic n (← expandRepeats owner b))
  | .field f b => do pure (.field f (← expandRepeats owner b))
  | .shownAs a b => do pure (.shownAs a (← expandRepeats owner b))

def expandRepeatsAll (owner : String) : List Body → StateM Repeats (List Body)
  | [] => pure []
  | b :: bs => do
    let b ← expandRepeats owner b
    pure (b :: (← expandRepeatsAll owner bs))

end

/-! ## Alternatives -/

/-- What the decorations around a step give it. -/
structure Decoration where
  precedence : Precedence := .unset
  associativity : Option Associativity := none
  shownAs : Option Alias := none
  field : Option String := none

/-- Of two dynamic precedences the one of larger magnitude; of equal ones the first. -/
def strongerDynamic (a b : Int) : Int := if b.natAbs > a.natAbs then b else a

def Alternative.append (a b : Alternative) : Alternative :=
  ⟨a.steps ++ b.steps, strongerDynamic a.dynamic b.dynamic⟩

/-- Changes the last step. -/
def Alternative.mapLast (f : Step → Step) (a : Alternative) : Alternative :=
  match a.steps.reverse with
  | [] => a
  | s :: rest => { a with steps := (f s :: rest).reverse }

mutual

/-- The alternatives of a body. A precedence holds for the steps inside it, but for its last step
only if nothing follows it: what the end of a decorated part binds to is decided outside. -/
def alternatives (d : Decoration) (atEnd : Bool) : Body → List Alternative
  | .blank => [⟨[], 0⟩]
  | .sym s => [⟨[⟨s, d.precedence, d.associativity, d.shownAs, d.field⟩], 0⟩]
  | .seq ms => sequences d atEnd [⟨[], 0⟩] ms
  | .choice ms => choices d atEnd ms
  | .repeat1 _ => []
  | .prec p a b =>
    let inner := { d with
      precedence := if p == .unset then d.precedence else p
      associativity := a.or d.associativity }
    let outward (s : Step) : Step := { s with
      precedence := if p == .unset then s.precedence else d.precedence
      associativity := if a.isSome then d.associativity else s.associativity }
    (alternatives inner atEnd b).map fun x => if atEnd then x else x.mapLast outward
  | .dynamic n b =>
    (alternatives d atEnd b).map fun x => { x with dynamic := strongerDynamic n x.dynamic }
  | .field f b => alternatives { d with field := some f } atEnd b
  | .shownAs a b => alternatives { d with shownAs := some a } atEnd b

/-- Continuations of the given prefixes by a sequence. -/
def sequences (d : Decoration) (atEnd : Bool) (heads : List Alternative) :
    List Body → List Alternative
  | [] => heads
  | b :: bs =>
    let next := alternatives d (atEnd && bs.isEmpty) b
    sequences d atEnd (heads.flatMap fun h => next.map h.append) bs

def choices (d : Decoration) (atEnd : Bool) : List Body → List Alternative
  | [] => []
  | b :: bs => alternatives d atEnd b ++ choices d atEnd bs

end

/-- Keeps the first of equal entries. -/
def distinct {α : Type} [BEq α] (xs : List α) : List α :=
  (xs.foldl (fun kept x => if kept.contains x then kept else x :: kept) []).reverse

/-! ## Default aliases -/

/-- The aliases a symbol is used under, with their counts; `none` once it is used without one. -/
abbrev AliasCounts := HashMap Sym (Option (List (Alias × Nat)))

def countAlias (counts : AliasCounts) (s : Sym) (a : Option Alias) : AliasCounts :=
  match counts[s]?, a with
  | some none, _ => counts
  | _, none => counts.insert s none
  | none, some a => counts.insert s (some [(a, 1)])
  | some (some l), some a =>
    let l := if (l.lookup a).isSome then l.map fun (b, n) => if b == a then (b, n + 1) else (b, n)
      else l ++ [(a, 1)]
    counts.insert s (some l)

/-- The most frequent entry, the first one of equal frequency. -/
def mostFrequent : List (Alias × Nat) → Option Alias
  | [] => none
  | x :: xs => some (xs.foldl (fun best y => if y.2 > best.2 then y else best) x).1

/-! ## Inlining -/

/-- Puts an alternative of an inlined rule into the place of the step that names it. -/
def inlineStep (before : List Step) (step : Step) (after : List Step) (dynamic : Int)
    (inner : Alternative) : Alternative :=
  let steps := inner.steps.map fun s => { s with
    shownAs := step.shownAs.or s.shownAs
    field := step.field.or s.field }
  let inlined := (Alternative.mk steps 0).mapLast fun s => { s with
    precedence := if s.precedence == .unset then step.precedence else s.precedence
    associativity := s.associativity.or step.associativity }
  ⟨before ++ inlined.steps ++ after, strongerDynamic dynamic inner.dynamic⟩

/-- Alternatives without inlined rules; `fuel` bounds the number of replacements. -/
def inlineAll (isInlined : Nat → Bool) (table : Array (List Alternative)) :
    Nat → Alternative → List Alternative
  | 0, a => [a]
  | fuel + 1, a =>
    let isHit (s : Step) : Bool := match s.symbol with
      | .variable i => isInlined i
      | _ => false
    let before := a.steps.takeWhile fun s => !isHit s
    match a.steps.drop before.length with
    | [] => [a]
    | s :: after =>
      match s.symbol with
      | .variable i =>
        (table.getD i []).flatMap fun inner =>
          inlineAll isInlined table fuel (inlineStep before s after a.dynamic inner)
      | _ => [a]

/-! ## The normal form -/

/-- The rule or token a symbol stands for, and the kind and shape of its nodes. -/
structure SymbolInfo where
  rule : String
  kind : String
  shape : Shape
  auxiliary : Bool := false
deriving Inhabited

structure ProductionStep where
  symbol : Nat
  precedence : Precedence
  associativity : Option Associativity
  shownAs : Option Alias
  field : Option String
deriving BEq, Inhabited

structure Production where
  lhs : Nat
  steps : Array ProductionStep
  dynamic : Int
deriving BEq, Inhabited

/-- A grammar in normal form. Production 0 derives the start rule and is the one that accepts. -/
structure Productions where
  symbols : Array SymbolInfo
  /-- Symbols below this number are tokens. -/
  tokenCount : Nat
  /-- Symbols below this number are matched by a pattern. -/
  lexemeCount : Nat
  /-- What the symbols between 1 and `lexemeCount` match. -/
  lexemes : Array Lexeme
  word : Nat
  /-- The symbol of each layout token. -/
  layouts : Array Nat
  extras : List Nat
  blanks : CharSet
  productions : Array Production
  orderings : List (List Rank)
deriving Inhabited

/-- The symbol that ends every input. -/
def endSymbol : Nat := 0

/-- Rules with resolved names, before their tokens are moved out of the rules that are tokens. -/
structure Resolved where
  names : Names
  bodies : Array Body
  tokens : TokenTable

def RuleSet.resolved (g : RuleSet) : Resolved :=
  let names : Names := {
    nonterminals := HashMap.ofList (g.rules.zipIdx.map fun ((n, _), i) => (n, i))
    layouts := HashMap.ofList (g.externals.zipIdx.filterMap fun (r, i) => match r with
      | .ref n => some (n, i)
      | _ => none) }
  let (bodies, tokens) := (resolveAll names (g.rules.map (·.2))).run {}
  let (_, tokens) := (resolveAll names g.externals).run tokens
  ⟨names, bodies.toArray, tokens⟩

/-- A symbol whose nodes are named for its rule; a leading underscore hides them. -/
def SymbolInfo.ofRule (name : String) : SymbolInfo :=
  ⟨name, name, if name.startsWith "_" then .hidden else .named, false⟩

/-- The rules that are tokens themselves: their body is one token that no other rule uses. -/
def Resolved.tokenRules (r : Resolved) : HashMap Nat Nat :=
  (List.range r.bodies.size).foldl (fun found i =>
    match r.bodies.getD i .blank with
    | .sym (.token t) =>
      if i > 0 && r.tokens.uses.getD t 0 == 1 then found.insert i t else found
    | _ => found) {}

mutual

/-- Renames the symbols of a body. -/
def Body.rename (f : Sym → Sym) : Body → Body
  | .blank => .blank
  | .sym s => .sym (f s)
  | .seq ms => .seq (renameAll f ms)
  | .choice ms => .choice (renameAll f ms)
  | .repeat1 b => .repeat1 (b.rename f)
  | .prec p a b => .prec p a (b.rename f)
  | .dynamic n b => .dynamic n (b.rename f)
  | .field x b => .field x (b.rename f)
  | .shownAs a b => .shownAs a (b.rename f)

def renameAll (f : Sym → Sym) : List Body → List Body
  | [] => []
  | b :: bs => b.rename f :: renameAll f bs

end

/-- Brings a grammar into normal form. -/
def RuleSet.productions (g : RuleSet) : Productions := Id.run do
  let r := g.resolved
  let tokenRules := r.tokenRules
  let rename (s : Sym) : Sym := match s with
    | .variable i => match tokenRules[i]? with
      | some t => .token t
      | none => s
    | s => s
  let ruleNames := (g.rules.map (·.1)).toArray
  -- tokens
  let tokenInfo : Array SymbolInfo := Id.run do
    let mut info := r.tokens.lexemes.map fun x => match x with
      | .text s => SymbolInfo.mk s s .anonymous false
      | .pattern p => match p.regex with
        | .seq [.set ⟨[(a, _)]⟩] =>
          let s := String.singleton (Char.ofNat a)
          SymbolInfo.mk s s .anonymous false
        | _ => SymbolInfo.mk "" "" .hidden true
    for (i, t) in tokenRules.toList do
      let name := ruleNames.getD i ""
      info := info.set! t (SymbolInfo.ofRule name)
    return info
  -- repetitions
  let mut repeats : Repeats := { offset := r.bodies.size }
  let mut bodies : Array Body := #[]
  for i in [0:r.bodies.size] do
    let body := (r.bodies.getD i .blank).rename rename
    let (b, next) := (expandRepeats (ruleNames.getD i "") body).run repeats
    bodies := bodies.push b
    repeats := next
  for i in [0:repeats.bodies.size] do
    let s := Body.sym (.variable (repeats.offset + i))
    bodies := bodies.push (.choice [.seq [s, s], repeats.bodies.getD i .blank])
  let variableInfo : Array SymbolInfo :=
    ruleNames.map (fun n =>
      if g.supertypes.contains n then ⟨n, n, .hidden, false⟩ else SymbolInfo.ofRule n)
    ++ repeats.names.map fun n => ⟨n, n, .hidden, true⟩
  let inlinedSet : HashMap Nat Unit := HashMap.ofList
    (g.inlined.filterMap fun n => r.names.nonterminals[n]?.map fun i => (i, ()))
  let isInlined (i : Nat) : Bool := inlinedSet.contains i
  -- alternatives
  let mut table : Array (List Alternative) :=
    (Array.range bodies.size).map fun i =>
      if tokenRules.contains i then [] else distinct (alternatives {} true (bodies.getD i .blank))
  -- default aliases
  let extraSyms : List Sym := g.extras.filterMap fun x => match x with
    | .ref n => match r.names.resolve n with
      | .sym s => some (rename s)
      | _ => none
    | _ => none
  let mut counts : AliasCounts := {}
  for alts in table do
    for a in alts do
      for s in a.steps do
        let skip := match s.symbol with
          | .variable i => isInlined i
          | _ => false
        if !skip then counts := countAlias counts s.symbol s.shownAs
  for s in extraSyms do counts := countAlias counts s none
  let defaults : HashMap Sym Alias := counts.fold (fun acc s l =>
    match l.bind mostFrequent with
    | some a => acc.insert s a
    | none => acc) {}
  table := table.map fun alts =>
    alts.map fun a =>
      let steps := a.steps.zipIdx.map fun (s, j) =>
        match s.shownAs with
        | none => s
        | some x =>
          let needed := alts.any fun b => !(b == a) && match b.steps[j]? with
            | some t => t.shownAs == some x && !(defaults[t.symbol]? == some x)
            | none => false
          if defaults[s.symbol]? == some x && !needed then { s with shownAs := none } else s
      { a with steps }
  table := table.map fun alts =>
    distinct (alts.flatMap (inlineAll isInlined table 64))
  -- numbering
  let wordToken : Nat := match r.names.nonterminals[g.word]?.bind (tokenRules[·]?) with
    | some t => t
    | none => 0
  let tokenTotal := r.tokens.lexemes.size
  let tokenNumber (t : Nat) : Nat :=
    if t == wordToken then 1 else if t < wordToken then t + 2 else t + 1
  let mut layoutSymbols : Array Nat := #[]
  let mut layoutInfo : Array SymbolInfo := #[]
  for x in g.externals do
    match x with
    | .ref n =>
      match r.names.resolve n with
      | .sym s => match rename s with
        | .token t => layoutSymbols := layoutSymbols.push (tokenNumber t)
        | _ =>
          layoutSymbols := layoutSymbols.push (tokenTotal + 1 + layoutInfo.size)
          layoutInfo := layoutInfo.push (SymbolInfo.ofRule n)
      | _ => layoutSymbols := layoutSymbols.push 0
    | .text s =>
      let t := (r.tokens.lexemes.findIdx? (· == .text s)).getD 0
      layoutSymbols := layoutSymbols.push (tokenNumber t)
    | _ => layoutSymbols := layoutSymbols.push 0
  let tokenCount := tokenTotal + 1 + layoutInfo.size
  let mut variableNumbers : Array Nat := #[]
  let mut next := tokenCount
  for i in [0:bodies.size] do
    if tokenRules.contains i || isInlined i then
      variableNumbers := variableNumbers.push 0
    else
      variableNumbers := variableNumbers.push next
      next := next + 1
  let number (s : Sym) : Nat := match s with
    | .token t => tokenNumber t
    | .layout i => layoutSymbols.getD i 0
    | .variable i => variableNumbers.getD i 0
  let applyDefault (s : Sym) (info : SymbolInfo) : SymbolInfo :=
    match defaults[s]? with
    | some a => { info with kind := a.kind, shape := if a.named then .named else .anonymous }
    | none => info
  let mut symbols : Array SymbolInfo := Array.replicate next default
  symbols := symbols.set! 0 ⟨"end", "end", .hidden, false⟩
  for t in [0:tokenTotal] do
    symbols := symbols.set! (tokenNumber t) (applyDefault (.token t) (tokenInfo.getD t default))
  for (x, i) in g.externals.zipIdx do
    match x with
    | .ref n =>
      if layoutSymbols.getD i 0 > tokenTotal then
        symbols := symbols.set! (layoutSymbols.getD i 0)
          (applyDefault (.layout i) (SymbolInfo.ofRule n))
    | _ => pure ()
  let mut productions : Array Production := #[]
  for i in [0:bodies.size] do
    let lhs := variableNumbers.getD i 0
    if lhs > 0 then
      symbols := symbols.set! lhs (applyDefault (.variable i) (variableInfo.getD i default))
      for a in table.getD i [] do
        productions := productions.push ⟨lhs, (a.steps.map fun s =>
          ⟨number s.symbol, s.precedence, s.associativity, s.shownAs, s.field⟩).toArray, a.dynamic⟩
  let start : ProductionStep := ⟨variableNumbers.getD 0 0, .unset, none, none, none⟩
  let mut lexemes : Array Lexeme := Array.replicate (tokenTotal + 1) default
  for t in [0:tokenTotal] do
    lexemes := lexemes.set! (tokenNumber t) (r.tokens.lexemes.getD t default)
  return {
    symbols, tokenCount, lexemeCount := tokenTotal + 1, lexemes, word := 1
    layouts := layoutSymbols
    extras := extraSyms.map number
    blanks := g.blanks
    productions := #[⟨0, #[start], 0⟩] ++ productions
    orderings := g.orderings }

end ClassAtlas.Grammar
