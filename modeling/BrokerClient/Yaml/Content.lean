import BrokerClient.Text.Lowercase
import BrokerClient.Yaml.Datum
import BrokerClient.Yaml.Document
import BrokerClient.Yaml.Number

/-!
# The content of a document

Data are made of nodes level by level: a scalar becomes a datum when it is met, the members
of a collection are looked at after everything that was met before the collection. So of
several nodes that stand for nothing the one nearest to the root is reported. A node is made
into a datum once, however often it is referred to.
-/
namespace BrokerClient.Yaml

/-- What a document holds: names with their values, if it holds a mapping. -/
inductive Content where
  | nothing
  | mapping (pairs : List (Datum × Value))
  | other

/-- Nodes that are partly made into data, and the collections whose members are still to be
looked at, last first. -/
structure Workbench where
  graph : Graph
  made : Array (Option Datum)
  waiting : List NodeId

/-- Steps that make data, and can fail. -/
abbrev Making := StateT Workbench (Except Failure)

namespace Making

/-- The code points of a node's text. A mapping with a default value has the text of that. -/
def pointsOf (g : Graph) : Nat → NodeId → Except Failure (List Nat)
  | 0, _ => .error .malformed
  | fuel + 1, id =>
    match (g.node id).shape with
    | .scalar points => .ok points
    | .list _ => .error .malformed
    | .mapping pairs =>
      match pairs.find? fun (name, _) => (g.node name).tag == .default with
      | some (_, value) => pointsOf g fuel value
      | none => .error .malformed

/-- The words for the truth values, in lower case. -/
def truths : List (String × Bool) :=
  [("yes", true), ("no", false), ("true", true), ("false", false), ("on", true), ("off", false)]

/-- The truth value that a text spells. -/
def truthOf (text : String) : Except Failure Bool :=
  let word := Text.lowercase text
  match truths.lookup word with
  | some b => .ok b
  | none => .error (.notTruth word)

/-- The digit that a character of encoded bytes stands for. -/
def sextet? (c : Char) : Option Nat :=
  if 'A' ≤ c && c ≤ 'Z' then some (c.toNat - 'A'.toNat)
  else if 'a' ≤ c && c ≤ 'z' then some (c.toNat - 'a'.toNat + 26)
  else if c.isDigit then some (c.toNat - '0'.toNat + 52)
  else if c = '+' then some 62
  else if c = '/' then some 63
  else none

/-- Bytes of groups of four digits; `place` says how many digits of the group were read, and
`left` holds those of their bits that no byte has yet. Two equal signs, or one behind three
digits, end the bytes, and other characters do not count. -/
def decodedFrom (place left pads : Nat) : List Char → Option (List UInt8)
  | [] => if place = 0 then some [] else none
  | c :: rest =>
    if c = '=' then
      if 2 ≤ place && 4 ≤ place + pads + 1 then some []
      else decodedFrom place left (if 2 ≤ place then pads + 1 else pads) rest
    else
      match sextet? c with
      | none => decodedFrom place left pads rest
      | some digit =>
        match place with
        | 0 => decodedFrom 1 digit 0 rest
        | 1 => (decodedFrom 2 (digit % 16) 0 rest).map ((left * 4 + digit / 16).toUInt8 :: ·)
        | 2 => (decodedFrom 3 (digit % 4) 0 rest).map ((left * 16 + digit / 4).toUInt8 :: ·)
        | _ => (decodedFrom 0 0 0 rest).map ((left * 64 + digit).toUInt8 :: ·)

/-- The bytes that a text encodes. -/
def bytesOf (points : List Nat) : Except Failure (List UInt8) :=
  if points.any (0x80 ≤ ·) then .error .malformed
  else
    match decodedFrom 0 0 0 (points.map Char.ofNat) with
    | some data => .ok data
    | none => .error .malformed

/-- The datum of a scalar of a tag. -/
def scalar (tag : Tag) (points : List Nat) : Except Failure Datum :=
  let text := Text.ofPoints points
  match tag with
  | .null => .ok (.value .null)
  | .truth => (fun b => .value (.bool b)) <$> truthOf text
  | .integer => (fun n => .value (.int n)) <$> integerOf text.toList
  | .number => (fun x => .value (.float x)) <$> numberOf text.toList
  | .moment => .moment <$> Moment.ofText text.toList
  | .bytes => (fun data => .value (.bytes data)) <$> bytesOf points
  | .text => .ok (.value (.ofPoints points))
  | _ => .error .malformed

/-- The collection at a node of a tag that has that many members. -/
def collection? (id : NodeId) (tag : Tag) (size : Nat) : Option Datum :=
  match tag with
  | .list | .pairs => some (.list id size)
  | .mapping => some (.mapping size)
  | .set => some (.set size)
  | _ => none

/-- How many members a node has. -/
def sizeOf : Shape → Nat
  | .scalar _ => 0
  | .list items => items.length
  | .mapping pairs => pairs.length

/-- Makes a node into a datum, unless that was done before. -/
def make (id : NodeId) : Making Datum := do
  let b ← get
  match b.made[id]?.join with
  | some datum => pure datum
  | none =>
    let node := b.graph.node id
    let (datum, waiting) ← match collection? id node.tag (sizeOf node.shape) with
      | some datum => pure (datum, id :: b.waiting)
      | none => do
        let datum ← scalar node.tag (← pointsOf b.graph (b.graph.size + 1) id)
        pure (datum, b.waiting)
    set { b with made := b.made.setIfInBounds id (some datum), waiting := waiting }
    pure datum

/-- Makes pairs. A name must not be a collection. -/
def makePairs : List (NodeId × NodeId) → List (Datum × Datum) → Making (List (Datum × Datum))
  | [], done => pure done
  | (name, value) :: rest, done => do
    let name ← make name
    if !name.isName then throw .malformed
    let value ← make value
    makePairs rest (putDatum done name value)

/-- Makes the only pair of a mapping. -/
def makePair (id : NodeId) : Making Unit := do
  match (← get).graph.pairs? id with
  | some [(name, value)] =>
    let _ ← make name
    let _ ← make value
  | _ => throw .malformed

/-- Makes the members of a collection; the pairs of a mapping are answered. -/
def makeMembers (id : NodeId) : Making (List (Datum × Datum)) := do
  let node := (← get).graph.node id
  match node.tag, node.shape with
  | .list, .list items =>
    items.forM fun item => discard (make item)
    pure []
  | .pairs, .list items =>
    items.forM makePair
    pure []
  | .mapping, .mapping _ | .set, .mapping _ =>
    let graph ← (← get).graph.flatten id
    modify fun b => { b with graph := graph }
    makePairs ((graph.pairs? id).getD []) []
  | _, _ => throw .malformed

/-- Makes the members of all collections that wait, and of those that come to wait. -/
def makeWaiting : Nat → List NodeId → Making Unit
  | 0, _ => throw .malformed
  | _ + 1, [] => pure ()
  | fuel + 1, ids => do
    modify fun b => { b with waiting := [] }
    ids.forM fun id => discard (makeMembers id)
    makeWaiting fuel (← get).waiting.reverse

/-- The value of a setting. Of a list its members are there, but not the members of these. -/
def valueOf (b : Workbench) : Datum → Value
  | .list id size =>
    match (b.graph.node id).shape with
    | .list items =>
      .arr (items.map fun item => ((b.made[item]?.join).map Datum.toValue).getD .null)
    | _ => (Datum.list id size).toValue
  | datum => datum.toValue

/-- Makes a root with everything that belongs to it. -/
def makeRoot (id : NodeId) : Making Content := do
  let datum ← make id
  match datum with
  | .value .null => pure .nothing
  | .mapping _ =>
    modify fun b => { b with waiting := [] }
    let pairs ← makeMembers id
    let b ← get
    makeWaiting (b.graph.size + 2) b.waiting.reverse
    let b ← get
    pure (.mapping (pairs.map fun (name, v) => (name, valueOf b v)))
  | _ =>
    let b ← get
    makeWaiting (b.graph.size + 2) b.waiting.reverse
    pure .other

end Making

/-- The content of a document. -/
def Document.content (document : Document) : Except Failure Content :=
  match document.root with
  | none => .ok .nothing
  | some id => do
    let g := document.graph
    let (content, _) ← (Making.makeRoot id).run ⟨g, Array.replicate g.size none, []⟩
    pure content

end BrokerClient.Yaml
