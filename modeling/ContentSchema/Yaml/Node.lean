import ContentSchema.Keyed
import ContentSchema.Yaml.Token
/-!
# YAML documents

A document is a tree of nodes with the anchored nodes beside it; an alias is the number of an anchor,
so a node may refer to one that contains it. An anchor's number is how many different anchor names
stand before it, so a name that is used again takes a new number, and the next new name takes the
same one; of the nodes with one number the last counts.

`Document.ofTokens?` reads the one document that a stream holds. Tags matter for scalars only, but
every handle must be known.
-/

namespace ContentSchema.Yaml

/-- A node; an absent one is an empty plain scalar. -/
inductive Node where
  | scalar (text : String) (presentation : Presentation) (tag : Option String)
  | sequence (items : List Node)
  | mapping (entries : List (Node × Node))
  | alias (number : Nat)

namespace Node

instance : Inhabited Node := ⟨.scalar "" .plain none⟩

/-- The node where none is written. -/
def absent : Node := .scalar "" .plain none

end Node

/-- An anchored node with its number and its turn among all anchors. -/
structure Anchored where
  number : Nat
  turn : Nat
  node : Node

/-- A document. -/
structure Document where
  root : Node
  anchors : List Anchored

/-- The node of an anchor's number: of several the one anchored last. -/
def Document.anchored? (document : Document) (number : Nat) : Option Node :=
  let found := document.anchors.filter (·.number == number)
  (found.foldl
    (fun best next ↦
      match best with
      | none => some next
      | some best => if best.turn < next.turn then some next else some best)
    none).map (·.node)

/-- The node itself, or what an alias stands for. -/
def Document.resolve? (document : Document) : Node → Option Node
  | .alias number => document.anchored? number
  | node => some node

/-- The state while a document is read. -/
structure Composer where
  tokens : List Token
  /-- What tag handles stand for. -/
  handles : List (String × String)
  /-- The anchor names so far, with the number that each took last. -/
  names : Keyed Nat
  /-- How many anchors there are so far. -/
  turns : Nat
  anchors : List Anchored

namespace Composer

/-- The handles that every document knows. -/
def knownHandles : List (String × String) := [("!", "!"), ("!!", "tag:yaml.org,2002:")]

/-- Drops a token. -/
def drop (c : Composer) : Composer := { c with tokens := c.tokens.drop 1 }

/-- The properties of a node: an anchor and a tag, in either order. -/
structure Properties where
  anchor : Option String
  tag : Option String

/-- The text of a tag. -/
def tagText? (c : Composer) (handle suffix : String) : Option String :=
  if handle.isEmpty then some suffix else (c.handles.lookup handle).map (· ++ suffix)

/-- The properties at the front. -/
def properties? (c : Composer) : Option (Properties × Composer) :=
  match c.tokens with
  | .anchor name :: .tag handle suffix :: rest =>
    (c.tagText? handle suffix).map fun tag ↦ (⟨some name, some tag⟩, { c with tokens := rest })
  | .tag handle suffix :: .anchor name :: rest =>
    (c.tagText? handle suffix).map fun tag ↦ (⟨some name, some tag⟩, { c with tokens := rest })
  | .anchor name :: rest => some (⟨some name, none⟩, { c with tokens := rest })
  | .tag handle suffix :: rest =>
    (c.tagText? handle suffix).map fun tag ↦ (⟨none, some tag⟩, { c with tokens := rest })
  | _ => some (⟨none, none⟩, c)

/-- Gives an anchor its number and turn. -/
def register (c : Composer) (anchor : Option String) : Option (Nat × Nat) × Composer :=
  match anchor with
  | none => (none, c)
  | some name =>
    let number := c.names.length
    (some (number, c.turns), { c with names := c.names.insert name number, turns := c.turns + 1 })

/-- Records the node of an anchor. -/
def record (c : Composer) (anchor : Option (Nat × Nat)) (node : Node) : Node × Composer :=
  match anchor with
  | none => (node, c)
  | some (number, turn) => (node, { c with anchors := ⟨number, turn, node⟩ :: c.anchors })

/-- Whether a block's key or value is absent before a token. -/
def endsBlockPart : List Token → Bool
  | .key :: _ | .value :: _ | .blockEnd :: _ => true
  | _ => false

/-- Whether an item of a block sequence is absent before a token. -/
def endsBlockItem : List Token → Bool
  | .blockEntry :: _ | .blockEnd :: _ => true
  | _ => false

/-- Whether an item of a sequence at its key's column is absent before a token. -/
def endsKeyedItem : List Token → Bool
  | .blockEntry :: _ => true
  | tokens => endsBlockPart tokens

/-- Whether a value in a flow sequence is absent before a token. -/
def endsFlowItem : List Token → Bool
  | .flowEntry :: _ | .closeSequence :: _ => true
  | _ => false

/-- Whether a value in a flow mapping is absent before a token. -/
def endsFlowPart : List Token → Bool
  | .flowEntry :: _ | .closeMapping :: _ => true
  | _ => false

/-- What a parser of a node takes: any node, one in a block, or one after a key of a block. -/
inductive Context where
  | flow
  | block
  | afterKey
deriving DecidableEq, Repr

mutual

/-- A node. Each step down takes a token or at most two steps to one, which bounds the fuel. -/
def node? (fuel : Nat) (context : Context) (c : Composer) : Option (Node × Composer) :=
  match fuel with
  | 0 => none
  | fuel + 1 =>
    match c.tokens with
    | .alias name :: _ => (c.names.find? name).map fun number ↦ (.alias number, c.drop)
    | _ => do
      let (properties, c) ← c.properties?
      let (anchor, c) := c.register properties.anchor
      match c.tokens with
      | .scalar text presentation :: _ =>
        return c.drop.record anchor (.scalar text presentation properties.tag)
      | .openSequence :: _ => do
        let (items, c) ← flowItems? fuel true c.drop
        return c.record anchor (.sequence items)
      | .openMapping :: _ => do
        let (entries, c) ← flowEntries? fuel true c.drop
        return c.record anchor (.mapping entries)
      | token :: _ =>
        if context = .afterKey ∧ token = .blockEntry then do
          let (items, c) ← keyedItems? fuel c
          return c.record anchor (.sequence items)
        else if context ≠ .flow ∧ token = .blockSequence then do
          let (items, c) ← blockItems? fuel c.drop
          return c.record anchor (.sequence items)
        else if context ≠ .flow ∧ token = .blockMapping then do
          let (entries, c) ← blockEntries? fuel c.drop
          return c.record anchor (.mapping entries)
        else if properties.anchor.isSome || properties.tag.isSome then
          return c.record anchor (.scalar "" .plain properties.tag)
        else none
      | [] =>
        if properties.anchor.isSome || properties.tag.isSome then
          return c.record anchor (.scalar "" .plain properties.tag)
        else none

/-- A node, or an absent one. -/
def orAbsent? (fuel : Nat) (context : Context) (isAbsent : Bool) (c : Composer) :
    Option (Node × Composer) :=
  match fuel with
  | 0 => none
  | fuel + 1 => if isAbsent then some (.absent, c) else node? fuel context c

/-- The items of a block sequence, to its end. -/
def blockItems? (fuel : Nat) (c : Composer) : Option (List Node × Composer) :=
  match fuel with
  | 0 => none
  | fuel + 1 =>
    match c.tokens with
    | .blockEntry :: rest => do
      let (item, c) ← orAbsent? fuel .block (endsBlockItem rest) c.drop
      let (items, c) ← blockItems? fuel c
      return (item :: items, c)
    | .blockEnd :: _ => some ([], c.drop)
    | _ => none

/-- The items of a sequence at its key's column. -/
def keyedItems? (fuel : Nat) (c : Composer) : Option (List Node × Composer) :=
  match fuel with
  | 0 => none
  | fuel + 1 =>
    match c.tokens with
    | .blockEntry :: rest => do
      let (item, c) ← orAbsent? fuel .block (endsKeyedItem rest) c.drop
      let (items, c) ← keyedItems? fuel c
      return (item :: items, c)
    | _ => some ([], c)

/-- The entries of a block mapping, to its end. -/
def blockEntries? (fuel : Nat) (c : Composer) : Option (List (Node × Node) × Composer) :=
  match fuel with
  | 0 => none
  | fuel + 1 =>
    match c.tokens with
    | .key :: rest => do
      let (key, c) ← orAbsent? fuel .afterKey (endsBlockPart rest) c.drop
      let (value, c) ←
        match c.tokens with
        | .value :: rest => orAbsent? fuel .afterKey (endsBlockPart rest) c.drop
        | _ => some (.absent, c)
      let (entries, c) ← blockEntries? fuel c
      return ((key, value) :: entries, c)
    | .blockEnd :: _ => some ([], c.drop)
    | _ => none

/-- The items of a flow sequence, to its bracket; an entry with a key is a mapping of its own. -/
def flowItems? (fuel : Nat) (first : Bool) (c : Composer) : Option (List Node × Composer) :=
  match fuel with
  | 0 => none
  | fuel + 1 => do
    if let .closeSequence :: _ := c.tokens then return ([], c.drop)
    let c ←
      match first, c.tokens with
      | true, _ => some c
      | false, .flowEntry :: _ => some c.drop
      | false, _ => none
    match c.tokens with
    | .closeSequence :: _ => return ([], c.drop)
    | .key :: rest => do
      -- an absent key swallows the token that shows its absence
      let isAbsent := match rest with
        | .value :: _ => true
        | rest => endsFlowItem rest
      let (key, c) ← if isAbsent then some (.absent, c.drop.drop) else node? fuel .flow c.drop
      let (value, c) ←
        match c.tokens with
        | .value :: rest => orAbsent? fuel .flow (endsFlowItem rest) c.drop
        | _ => some (.absent, c)
      let (items, c) ← flowItems? fuel false c
      return (.mapping [(key, value)] :: items, c)
    | _ => do
      let (item, c) ← node? fuel .flow c
      let (items, c) ← flowItems? fuel false c
      return (item :: items, c)

/-- The entries of a flow mapping, to its brace; an entry without a key mark has no value. -/
def flowEntries? (fuel : Nat) (first : Bool) (c : Composer) :
    Option (List (Node × Node) × Composer) :=
  match fuel with
  | 0 => none
  | fuel + 1 => do
    if let .closeMapping :: _ := c.tokens then return ([], c.drop)
    let c ←
      match first, c.tokens with
      | true, _ => some c
      | false, .flowEntry :: _ => some c.drop
      | false, _ => none
    match c.tokens with
    | .closeMapping :: _ => return ([], c.drop)
    | .key :: rest => do
      let isAbsent := match rest with
        | .value :: _ => true
        | rest => endsFlowPart rest
      let (key, c) ← orAbsent? fuel .flow isAbsent c.drop
      let (value, c) ←
        match c.tokens with
        | .value :: rest => orAbsent? fuel .flow (endsFlowPart rest) c.drop
        | _ => some (.absent, c)
      let (entries, c) ← flowEntries? fuel false c
      return ((key, value) :: entries, c)
    | _ => do
      let (key, c) ← node? fuel .flow c
      let (entries, c) ← flowEntries? fuel false c
      return ((key, .absent) :: entries, c)

end

/-- Reads the directives at the front: a version that is 1.1 or 1.2, at most once, and handles, each
at most once. -/
def directives? (versions : Nat) (handles : List (String × String)) :
    List Token → Option (List (String × String) × List Token)
  | .version major minor :: rest =>
    if versions = 0 ∧ major = 1 ∧ (minor = 1 ∨ minor = 2) then directives? 1 handles rest else none
  | .tagDirective handle lead :: rest =>
    if (handles.lookup handle).isSome then none
    else directives? versions (handles ++ [(handle, lead)]) rest
  | rest => some (handles, rest)

end Composer

/-- Whether no content follows a document's start. -/
def endsDocument : List Token → Bool
  | [] | .documentStart :: _ | .documentEnd :: _ | .version .. :: _ | .tagDirective .. :: _ => true
  | _ => false

/-- The document of a stream: none for a stream without one, and no second may follow. -/
def Document.ofTokens? (tokens : List Token) : Option (Option Document) :=
  match tokens with
  | [] => some none
  | _ => do
    let (handles, rest) ← Composer.directives? 0 [] tokens
    let marked := match rest with
      | .documentStart :: _ => true
      | _ => false
    if !marked && rest.length ≠ tokens.length then none
    let c : Composer :=
      ⟨if marked then rest.drop 1 else rest, handles ++ Composer.knownHandles, [], 0, []⟩
    let (root, c) ←
      if marked && endsDocument c.tokens then some (.absent, c)
      else Composer.node? (4 * tokens.length + 8) .block c
    if (c.tokens.dropWhile (· = .documentEnd)).isEmpty then return some ⟨root, c.anchors⟩ else none

/-- The document that a text holds. -/
def parse? (text : String) : Option (Option Document) := (tokens? text).bind Document.ofTokens?

end ContentSchema.Yaml
