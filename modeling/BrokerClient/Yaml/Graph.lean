import BrokerClient.Yaml.Moment
import BrokerClient.Yaml.Spelling

/-!
# Graphs of nodes

A document is a graph: its nodes are numbered, and a list or a mapping refers to its members
by number, because a node can be a member in several places, even within itself. A mapping is
flattened before its members are looked at: the pairs of the mappings that are to be merged
into it come first, and its own pairs follow.
-/
namespace BrokerClient.Yaml

/-- Nodes are numbered in the order in which they start. -/
abbrev NodeId := Nat

/-- What a node consists of. -/
inductive Shape where
  | scalar (points : List Nat)
  | list (items : List NodeId)
  | mapping (pairs : List (NodeId × NodeId))

/-- A node with its tag. -/
structure Node where
  tag : Tag
  shape : Shape

/-- The node that stands wherever nothing is written. -/
def Node.empty : Node := ⟨.null, .scalar []⟩

instance : Inhabited Node := ⟨.empty⟩

/-- The tag of a scalar by its spelling. A line feed at the end of other characters does not
count. Signs with a meaning of their own are nothing by themselves. -/
def Tag.ofPlain (points : List Nat) : Tag :=
  let chars := withoutBreak (Text.ofPoints points).toList
  let text := String.ofList chars
  if chars.isEmpty && !points.isEmpty then .text
  else if nullWords.contains text then .null
  else if truthWords.contains text then .truth
  else if isInteger chars then .integer
  else if numberWords.contains text || isPointed chars then .number
  else if isMoment chars then .moment
  else if text = "<<" then .merge
  else if text = "=" then .default
  else if ["!", "&", "*"].contains text then .unknown
  else .text

/-- The nodes of a document by number. -/
abbrev Graph := Array Node

namespace Graph

/-- The node of a number. -/
def node (g : Graph) (id : NodeId) : Node := g[id]?.getD .empty

/-- The pairs of a node, if it is a mapping. -/
def pairs? (g : Graph) (id : NodeId) : Option (List (NodeId × NodeId)) :=
  match (g.node id).shape with
  | .mapping pairs => some pairs
  | _ => none

/-- Gives a node another shape. -/
def reshape (g : Graph) (id : NodeId) (shape : Shape) : Graph :=
  g.setIfInBounds id { g.node id with shape := shape }

/-- Gives a node another tag. -/
def retag (g : Graph) (id : NodeId) (tag : Tag) : Graph :=
  g.setIfInBounds id { g.node id with tag := tag }

/-- How many members the nodes have in all. -/
def weight (g : Graph) : Nat :=
  (g.map fun node =>
    match node.shape with
    | .scalar _ => 0
    | .list items => items.length
    | .mapping pairs => pairs.length).foldl (· + ·) 1

mutual

/-- Flattens a mapping from its pair at `position` on; `merged` are the pairs that come from
other mappings so far. A name for the default value is an ordinary name. -/
def flattenFrom : Nat → NodeId → Nat → List (NodeId × NodeId) → Graph → Except Failure Graph
  | 0, _, _, _, _ => .error .malformed
  | fuel + 1, id, position, merged, g =>
    let pairs := (g.pairs? id).getD []
    match pairs[position]? with
    | none => .ok (g.reshape id (.mapping (merged ++ pairs)))
    | some (name, value) =>
      match (g.node name).tag with
      | .merge => do
        let (more, g) ← mergedPairs fuel value (g.reshape id (.mapping (pairs.eraseIdx position)))
        flattenFrom fuel id position (merged ++ more) g
      | .default => flattenFrom fuel id (position + 1) merged (g.retag name .text)
      | _ => flattenFrom fuel id (position + 1) merged g

/-- The pairs of a mapping that is to be merged, or of the mappings in a list, where those of
the last mapping come first. -/
def mergedPairs : Nat → NodeId → Graph → Except Failure (List (NodeId × NodeId) × Graph)
  | 0, _, _ => .error .malformed
  | fuel + 1, id, g =>
    match (g.node id).shape with
    | .mapping _ => do
      let g ← flattenFrom fuel id 0 [] g
      pure ((g.pairs? id).getD [], g)
    | .list items => mergedItems fuel items g
    | .scalar _ => .error .malformed

/-- The pairs of mappings in a list. -/
def mergedItems : Nat → List NodeId → Graph → Except Failure (List (NodeId × NodeId) × Graph)
  | 0, _, _ => .error .malformed
  | _ + 1, [], g => .ok ([], g)
  | fuel + 1, id :: rest, g =>
    match (g.node id).shape with
    | .mapping _ => do
      let g ← flattenFrom fuel id 0 [] g
      let pairs := (g.pairs? id).getD []
      let (more, g) ← mergedItems fuel rest g
      pure (more ++ pairs, g)
    | _ => .error .malformed

end

/-- Flattens a mapping. -/
def flatten (g : Graph) (id : NodeId) : Except Failure Graph :=
  flattenFrom (4 * (g.weight + 1) * (g.weight + 1)) id 0 [] g

end Graph

end BrokerClient.Yaml
