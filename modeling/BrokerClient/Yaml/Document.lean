import BrokerClient.Yaml.Graph
import BrokerClient.Yaml.Token.Basic

/-!
# Documents

The tokens of a text become the graph of its only document. Where a node is expected and
nothing is written, the empty node stands. A node can have an anchor, under which later places
refer to it, and a tag; without a tag a plain scalar is resolved by its spelling.

The functions below take their tokens from the front. Their fuel bounds the nesting of calls;
`Document.ofTokens` supplies four units for every token.
-/
namespace BrokerClient.Yaml

/-- A graph with the node at which the document starts; a text without a document has none. -/
structure Document where
  graph : Graph
  root : Option NodeId

/-- Tokens that are partly made into nodes. -/
structure Parts where
  tokens : Tokens
  graph : Graph
  anchors : List (String × NodeId)
  handles : Handles

/-- Steps that take tokens and make nodes, and can fail. -/
abbrev Assembly := StateT Parts (Except Failure)

namespace Assembly

/-- The next token. -/
def peek : Assembly Token := do
  let tokens := (← get).tokens
  match tokens.known with
  | token :: _ => pure token
  | [] => throw tokens.failure

/-- Goes on behind the next token. -/
def advance : Assembly Unit :=
  modify fun p => { p with tokens := { p.tokens with known := p.tokens.known.drop 1 } }

/-- Adds a node, under an anchor if it has one. An anchor is used once. -/
def add (anchor : Option String) (node : Node) : Assembly NodeId := do
  let p ← get
  let id := p.graph.size
  match anchor with
  | none => set { p with graph := p.graph.push node }
  | some name =>
    if (p.anchors.lookup name).isSome then throw .malformed
    else set { p with graph := p.graph.push node, anchors := (name, id) :: p.anchors }
  pure id

/-- The empty node. -/
def addEmpty : Assembly NodeId := add none .empty

/-- The node of an anchor. -/
def anchored (name : String) : Assembly NodeId := do
  match (← get).anchors.lookup name with
  | some id => pure id
  | none => throw .malformed

/-- Gives a node its shape. -/
def reshape (id : NodeId) (shape : Shape) : Assembly Unit :=
  modify fun p => { p with graph := p.graph.reshape id shape }

/-- The full name of a written tag. -/
def nameOf (tag : WrittenTag) : Assembly String := do
  match tag.name? (← get).handles with
  | some name => pure name
  | none => throw .malformed

/-- The anchor that follows, if there is one. -/
def anchor? : Assembly (Option String) := do
  match ← peek with
  | .anchor name =>
    advance
    pure (some name)
  | _ => pure none

/-- The tag that follows, if there is one. -/
def tag? : Assembly (Option WrittenTag) := do
  match ← peek with
  | .tag tag =>
    advance
    pure (some tag)
  | _ => pure none

/-- The anchor and the name of the tag in front of a node, in any order. -/
def properties : Assembly (Option String × Option String) := do
  let early ← anchor?
  let tag ← tag?
  let late ← if early.isNone && tag.isSome then anchor? else pure none
  let name ← tag.mapM nameOf
  pure (early <|> late, name)

/-- The tag of a list or a mapping. -/
def tagOr (tag : Tag) : Option String → Tag
  | none | some "!" => tag
  | some name => .ofName name

/-- The tag of a scalar. -/
def scalarTag (name : Option String) (points : List Nat) (isPlain : Bool) : Tag :=
  match name with
  | none => if isPlain then .ofPlain points else .text
  | some "!" => .ofPlain points
  | some name => .ofName name

mutual

/-- A node. Lists and mappings in block notation are allowed if `inBlock`, a list at the
column of the mapping around it if `isLevel`. -/
def node : Nat → Bool → Bool → Assembly NodeId
  | 0, _, _ => throw .malformed
  | fuel + 1, inBlock, isLevel => do
    match ← peek with
    | .reference name =>
      advance
      anchored name
    | _ =>
      let (anchor, tag) ← properties
      match ← peek with
      | .scalar points isPlain =>
        advance
        add anchor ⟨scalarTag tag points isPlain, .scalar points⟩
      | .flowListStart =>
        advance
        list anchor tag (flowItems fuel true)
      | .flowMappingStart =>
        advance
        mapping anchor tag (flowPairs fuel true)
      | .item =>
        if isLevel then list anchor tag (levelItems fuel) else bare anchor tag
      | .listStart =>
        if inBlock then
          advance
          list anchor tag (blockItems fuel)
        else bare anchor tag
      | .mappingStart =>
        if inBlock then
          advance
          mapping anchor tag (blockPairs fuel)
        else bare anchor tag
      | _ => bare anchor tag
where
  /-- A node of which only the anchor or the tag is written. -/
  bare (anchor tag : Option String) : Assembly NodeId :=
    if anchor.isSome || tag.isSome then add anchor ⟨scalarTag tag [] true, .scalar []⟩
    else throw .malformed
  list (anchor tag : Option String) (items : Assembly (List NodeId)) : Assembly NodeId := do
    let id ← add anchor ⟨tagOr .list tag, .list []⟩
    reshape id (.list (← items))
    pure id
  mapping (anchor tag : Option String) (pairs : Assembly (List (NodeId × NodeId))) :
      Assembly NodeId := do
    let id ← add anchor ⟨tagOr .mapping tag, .mapping []⟩
    reshape id (.mapping (← pairs))
    pure id

/-- The items of a list in block notation, up to its end. -/
def blockItems : Nat → Assembly (List NodeId)
  | 0 => throw .malformed
  | fuel + 1 => do
    match ← peek with
    | .item =>
      advance
      let item ← match ← peek with
        | .item | .blockEnd => addEmpty
        | _ => node fuel true false
      pure (item :: (← blockItems fuel))
    | .blockEnd =>
      advance
      pure []
    | _ => throw .malformed

/-- The items of a list at the column of the mapping around it. -/
def levelItems : Nat → Assembly (List NodeId)
  | 0 => throw .malformed
  | fuel + 1 => do
    match ← peek with
    | .item =>
      advance
      let item ← match ← peek with
        | .item | .key | .value | .blockEnd => addEmpty
        | _ => node fuel true false
      pure (item :: (← levelItems fuel))
    | _ => pure []

/-- The pairs of a mapping in block notation, up to its end. -/
def blockPairs : Nat → Assembly (List (NodeId × NodeId))
  | 0 => throw .malformed
  | fuel + 1 => do
    match ← peek with
    | .key =>
      advance
      let name ← blockMember fuel
      let value ← match ← peek with
        | .value =>
          advance
          blockMember fuel
        | _ => addEmpty
      pure ((name, value) :: (← blockPairs fuel))
    | .blockEnd =>
      advance
      pure []
    | _ => throw .malformed

/-- A name or a value in block notation. -/
def blockMember : Nat → Assembly NodeId
  | 0 => throw .malformed
  | fuel + 1 => do
    match ← peek with
    | .key | .value | .blockEnd => addEmpty
    | _ => node fuel true true

/-- The items of a list in brackets, up to the closing one. Each but the first follows a
comma, and a pair stands for a mapping of its own. -/
def flowItems : Nat → Bool → Assembly (List NodeId)
  | 0, _ => throw .malformed
  | fuel + 1, isFirst => do
    match ← peek with
    | .flowListEnd =>
      advance
      pure []
    | _ =>
      if !isFirst then comma
      match ← peek with
      | .flowListEnd =>
        advance
        pure []
      | .key =>
        let id ← add none ⟨.mapping, .mapping []⟩
        advance
        let name ← flowMember fuel
        let value ← flowValue fuel
        reshape id (.mapping [(name, value)])
        pure (id :: (← flowItems fuel false))
      | _ =>
        let item ← node fuel false false
        pure (item :: (← flowItems fuel false))
where
  /-- A comma has to follow. -/
  comma : Assembly Unit := do
    match ← peek with
    | .comma => advance
    | _ => throw .malformed

/-- The pairs of a mapping in braces, up to the closing one. Each but the first follows a
comma. -/
def flowPairs : Nat → Bool → Assembly (List (NodeId × NodeId))
  | 0, _ => throw .malformed
  | fuel + 1, isFirst => do
    match ← peek with
    | .flowMappingEnd =>
      advance
      pure []
    | _ =>
      if !isFirst then
        match ← peek with
        | .comma => advance
        | _ => throw .malformed
      match ← peek with
      | .flowMappingEnd =>
        advance
        pure []
      | .key =>
        advance
        let name ← flowMember fuel
        let value ← flowValue fuel
        pure ((name, value) :: (← flowPairs fuel false))
      | _ =>
        let name ← node fuel false false
        let value ← addEmpty
        pure ((name, value) :: (← flowPairs fuel false))

/-- A name in flow notation. -/
def flowMember : Nat → Assembly NodeId
  | 0 => throw .malformed
  | fuel + 1 => do
    match ← peek with
    | .value | .comma | .flowListEnd | .flowMappingEnd => addEmpty
    | _ => node fuel false false

/-- The value behind a name in flow notation. -/
def flowValue : Nat → Assembly NodeId
  | 0 => throw .malformed
  | fuel + 1 => do
    match ← peek with
    | .value =>
      advance
      match ← peek with
      | .comma | .flowListEnd | .flowMappingEnd => addEmpty
      | _ => node fuel false false
    | _ => addEmpty

end

/-- Takes the directives that follow. There is one version at most, and a handle is given
once. -/
def directives : Nat → Bool → Handles → Assembly Handles
  | 0, _, _ => throw .malformed
  | fuel + 1, hasVersion, handles => do
    match ← peek with
    | .directive directive =>
      advance
      match directive with
      | .version major =>
        if hasVersion || major ≠ 1 then throw .malformed else directives fuel true handles
      | .handle handle start =>
        if (handles.lookup handle).isSome then throw .malformed
        else directives fuel hasVersion (handles ++ [(handle, start)])
      | .other => directives fuel hasVersion handles
    | _ => pure handles

/-- Passes over the end marks that follow. -/
def endMarks : Nat → Assembly Unit
  | 0 => throw .malformed
  | fuel + 1 => do
    match ← peek with
    | .documentEnd =>
      advance
      endMarks fuel
    | _ => pure ()

/-- Takes directives and the mark that starts a document. -/
def explicitStart (fuel : Nat) : Assembly Unit := do
  let handles ← directives fuel false []
  match ← peek with
  | .documentStart =>
    advance
    modify fun p => { p with handles := handles ++ .default }
  | _ => throw .malformed

/-- The root of the first document, if there is a document. -/
def firstRoot (fuel : Nat) : Assembly (Option NodeId) := do
  match ← peek with
  | .streamEnd => pure none
  | .directive _ | .documentStart =>
    explicitStart fuel
    match ← peek with
    | .directive _ | .documentStart | .documentEnd | .streamEnd => some <$> addEmpty
    | _ => some <$> node fuel true false
  | _ => some <$> node fuel true false

/-- The root of the only document. -/
def root (fuel : Nat) : Assembly (Option NodeId) := do
  match ← firstRoot fuel with
  | none => pure none
  | some id =>
    endMarks fuel
    match ← peek with
    | .streamEnd => pure (some id)
    | _ =>
      explicitStart fuel
      throw .malformed

end Assembly

/-- The only document in the tokens of a text. -/
def Document.ofTokens (tokens : Tokens) : Except Failure Document := do
  let fuel := 4 * tokens.known.length + 4
  let (root, parts) ← (Assembly.root fuel).run ⟨tokens, #[], [], .default⟩
  pure ⟨parts.graph, root⟩

end BrokerClient.Yaml
