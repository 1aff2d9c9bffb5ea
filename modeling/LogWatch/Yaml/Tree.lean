import LogWatch.Yaml.Scanner

/-!
Documents: trees of scalars, sequences and mappings, in which a name may stand for a node that
bears it. An anchor is known by its number, which is how many different names came before it; of
several nodes with one number the one that started last is meant.
-/

namespace LogWatch.Yaml

inductive Tree where
  | scalar (text : String) (form : Form) (tag : Option String)
  | sequence (items : List Tree)
  | mapping (entries : List (Tree × Tree))
  | alias (anchor : Nat)
deriving Repr

def Tree.empty (tag : Option String) : Tree := .scalar "" .plain tag

/-- A node that bears an anchor: the anchor's number, how many such nodes started before it, and
the node. -/
structure Anchored where
  number : Nat
  started : Nat
  node : Tree

structure Document where
  root : Tree
  anchored : List Anchored

namespace Document

/-- The node that is meant: itself, or for a name the node that bears it. -/
def resolve (d : Document) : Tree → Tree
  | .alias n =>
    let candidates := d.anchored.filter (·.number == n)
    let last := candidates.foldl (fun best? a =>
      match best? with
      | some (b : Anchored) => if b.started < a.started then some a else some b
      | none => some a) none
    (last.map (·.node)).getD (.alias n)
  | n => n

end Document

/-- What is known while the tokens of a document are read. -/
structure Reading where
  tokens : List Token
  handles : List (List Char × List Char)
  /-- The anchors that have been given so far, with their numbers. -/
  names : List (List Char × Nat)
  started : Nat
  anchored : List Anchored

abbrev Read := StateT Reading (Except YamlError)

namespace Read

def peek : Read (Option Token) := return (← get).tokens.head?

def skip : Read Unit := modify fun r => { r with tokens := r.tokens.drop 1 }

/-- Gives an anchor its number. -/
def giveName (name : List Char) : Read (Nat × Nat) := do
  let r ← get
  let number := r.names.length
  let names := r.names.filter (·.1 ≠ name) ++ [(name, number)]
  set { r with names, started := r.started + 1 }
  return (number, r.started)

def tagText (handle rest : List Char) : Read String := do
  if handle.isEmpty then return String.ofList rest
  match (← get).handles.lookup handle with
  | some start => return String.ofList (start ++ rest)
  | none => throw .undefinedTag

/-- The anchor and the tag before a node, in either order, each at most once. -/
def properties : Read (Option (List Char) × Option String) := do
  let anchor? : Read (Option (List Char)) := do
    match ← peek with
    | some (.anchor name) => skip; return some name
    | _ => return none
  let tag? : Read (Option (List Char × List Char)) := do
    match ← peek with
    | some (.tag handle rest) => skip; return some (handle, rest)
    | _ => return none
  let first ← anchor?
  let tag ← tag?
  let anchor ← match first, tag with
    | none, some _ => anchor?
    | _, _ => pure first
  let tag ← match tag with
    | some (handle, rest) => some <$> tagText handle rest
    | none => pure none
  return (anchor, tag)

/-- Whether one of the tokens comes next, or none at all. -/
def comesOneOf (tokens : List Token) : Read Bool := do
  match ← peek with
  | some t => return tokens.contains t
  | none => return false

mutual

/-- Reads a node. Inside brackets there are no blocks; after a key or a colon the items of a
sequence may stand where the mapping stands. The number bounds how often readers call each other. -/
def node (block indentless : Bool) : Nat → Read Tree
  | 0 => throw .unexpectedToken
  | n + 1 => do
    match ← peek with
    | some (.alias name) =>
      skip
      match (← get).names.lookup name with
      | some number => return .alias number
      | none => throw .unknownAnchor
    | _ =>
      let (anchor, tag) ← properties
      let number ← anchor.mapM giveName
      let node ← match ← peek with
        | some .blockEntry =>
          if indentless then .sequence <$> indentlessItems n
          else if anchor.isSome || tag.isSome then pure (Tree.empty tag)
          else throw .unexpectedToken
        | some (.scalar text form) => do
          skip
          pure (.scalar (String.ofList text) form tag)
        | some .flowSequenceStart => do skip; .sequence <$> flowItems true n
        | some .flowMappingStart => do skip; .mapping <$> flowEntries true n
        | some .blockSequenceStart =>
          if block then do skip; .sequence <$> blockItems n
          else if anchor.isSome || tag.isSome then pure (Tree.empty tag)
          else throw .unexpectedToken
        | some .blockMappingStart =>
          if block then do skip; .mapping <$> blockEntries n
          else if anchor.isSome || tag.isSome then pure (Tree.empty tag)
          else throw .unexpectedToken
        | _ =>
          if anchor.isSome || tag.isSome then pure (Tree.empty tag) else throw .unexpectedToken
      if let some (number, started) := number then
        modify fun r => { r with anchored := ⟨number, started, node⟩ :: r.anchored }
      return node

/-- A node, unless one of the tokens shows that it is empty. -/
def nodeUnless (ends : List Token) (block indentless : Bool) : Nat → Read Tree
  | 0 => throw .unexpectedToken
  | n + 1 => do
    if ← comesOneOf ends then return .empty none
    else node block indentless n

def blockItems : Nat → Read (List Tree)
  | 0 => throw .unexpectedToken
  | n + 1 => do
    match ← peek with
    | some .blockEntry =>
      skip
      let item ← nodeUnless [.blockEntry, .blockEnd] true false n
      return item :: (← blockItems n)
    | some .blockEnd => skip; return []
    | _ => throw .unexpectedToken

def indentlessItems : Nat → Read (List Tree)
  | 0 => throw .unexpectedToken
  | n + 1 => do
    match ← peek with
    | some .blockEntry =>
      skip
      let item ← nodeUnless [.blockEntry, .key, .value, .blockEnd] true false n
      return item :: (← indentlessItems n)
    | _ => return []

def blockEntries : Nat → Read (List (Tree × Tree))
  | 0 => throw .unexpectedToken
  | n + 1 => do
    match ← peek with
    | some .key =>
      skip
      let ends := [.key, .value, .blockEnd]
      let key ← nodeUnless ends true true n
      let value ← match ← peek with
        | some .value => do skip; nodeUnless ends true true n
        | _ => pure (.empty none)
      return (key, value) :: (← blockEntries n)
    | some .blockEnd => skip; return []
    | _ => throw .unexpectedToken

/-- The value after a key inside brackets. -/
def flowValue (close : Token) : Nat → Read Tree
  | 0 => throw .unexpectedToken
  | n + 1 => do
    match ← peek with
    | some .value => skip; nodeUnless [.flowEntry, close] false false n
    | _ => return .empty none

def flowItems (first : Bool) : Nat → Read (List Tree)
  | 0 => throw .unexpectedToken
  | n + 1 => do
    if (← peek) == some .flowSequenceEnd then skip; return []
    if !first then
      if (← peek) == some .flowEntry then skip else throw .unexpectedToken
    match ← peek with
    | some .flowSequenceEnd => skip; return []
    | some .key =>
      skip
      let key ←
        if ← comesOneOf [.value, .flowEntry, .flowSequenceEnd] then do
          -- an empty key takes the token after it along
          skip
          pure (.empty none)
        else node false false n
      let value ← flowValue .flowSequenceEnd n
      return .mapping [(key, value)] :: (← flowItems false n)
    | _ =>
      let item ← node false false n
      return item :: (← flowItems false n)

def flowEntries (first : Bool) : Nat → Read (List (Tree × Tree))
  | 0 => throw .unexpectedToken
  | n + 1 => do
    if (← peek) == some .flowMappingEnd then skip; return []
    if !first then
      if (← peek) == some .flowEntry then skip else throw .unexpectedToken
    match ← peek with
    | some .flowMappingEnd => skip; return []
    | some .key =>
      skip
      let key ← nodeUnless [.value, .flowEntry, .flowMappingEnd] false false n
      let value ← flowValue .flowMappingEnd n
      return (key, value) :: (← flowEntries false n)
    | _ =>
      let key ← node false false n
      return (key, .empty none) :: (← flowEntries false n)

end

/-- The directives before a document. -/
def directives (version : Bool) (handles : List (List Char × List Char)) :
    List Token → Except YamlError (List (List Char × List Char) × List Token)
  | .version major minor :: ts =>
    if version || major != 1 || (minor != 1 && minor != 2) then .error .badDirective
    else directives true handles ts
  | .tagHandle handle start :: ts =>
    if (handles.lookup handle).isSome then .error .badDirective
    else directives version (handles ++ [(handle, start)]) ts
  | ts => .ok (handles, ts)

def standardHandles : List (List Char × List Char) :=
  [("!".toList, "!".toList), ("!!".toList, "tag:yaml.org,2002:".toList)]

/-- Tokens that a document without content is followed by. -/
def endsDocument : Option Token → Bool
  | none | some .documentStart | some .documentEnd | some (.version _ _)
  | some (.tagHandle _ _) => true
  | _ => false

end Read

/-- Reads the one document of a text; a text without any has an empty one. -/
def Document.ofTokens? (tokens : List Token) : Except YamlError Document := do
  if tokens.isEmpty then return ⟨.empty none, []⟩
  let (own, ts) ← Read.directives false [] tokens
  let handles := own ++ Read.standardHandles
  let isExplicit := Read.endsDocument tokens.head? && tokens.head? != some .documentEnd
  let ts ←
    if !isExplicit then pure ts
    else match ts with
      | .documentStart :: ts => pure ts
      | _ => throw YamlError.unexpectedToken
  let start : Reading := ⟨ts, handles, [], 0, []⟩
  let (root, r) ←
    if isExplicit && Read.endsDocument ts.head? then pure (.empty none, start)
    else (Read.node true false (4 * ts.length + 4)).run start
  match r.tokens.dropWhile (· == .documentEnd) with
  | [] => return ⟨root, r.anchored⟩
  | _ => throw .moreDocuments

def Document.parse (text : String) : Except YamlError Document := do
  Document.ofTokens? (← Token.scan text)

end LogWatch.Yaml
