import IntentModel.Value.SetOrder
import IntentModel.Value.Tangle
import IntentModel.Yaml.Node

/-! # Values of a YAML text

`load` gives a text its value. Mappings take the entries of a key `<<` from other mappings, later
entries winning over earlier ones, and their keys have to be values that can be keys. Where the tag
of a mapping asks for a scalar, the entry of a key `=` stands for it.

Every collection is one cell, which is opened empty where the collection is met first and filled later
(`Filling`), so a collection can be a part of itself. Collections are filled in the order in which they are
opened, and the first fault on the way counts.
-/

namespace IntentModel.Yaml

namespace Node

def kind : Node → Kind
  | .scalar kind _ => kind
  | .sequence kind _ => kind
  | .mapping kind _ => kind

/-- An ordinary text in place of a key for the default value. -/
def ordinary : Node → Node
  | .scalar .default content => .scalar .str content
  | .sequence .default items => .sequence .str items
  | .mapping .default entries => .mapping .str entries
  | node => node

end Node

/-- The nodes of a text by their places. -/
abbrev Nodes := Array Node

namespace Nodes

def kindAt (nodes : Nodes) (place : Nat) : Kind :=
  (nodes[place]?.map Node.kind).getD .unknown

/-- The entries of the mapping at a place. -/
def entriesAt? (nodes : Nodes) (place : Nat) : Option (List (Nat × Nat)) :=
  match nodes[place]? with
  | some (.mapping _ entries) => some entries
  | _ => none

/-- Changes the entries of the mapping at a place. -/
def setEntries (nodes : Nodes) (place : Nat) (entries : List (Nat × Nat)) : Nodes :=
  nodes.modify place fun
    | .mapping kind _ => .mapping kind entries
    | node => node

/-- What a node writes where a scalar is needed: the content of a scalar; for a mapping, what the
value of its first key for the default value writes. The first argument bounds the length of the way. -/
def scalarContent (nodes : Nodes) : Nat → Nat → Except Fault Text
  | 0, _ => .error .tooDeep
  | steps + 1, place =>
    match nodes[place]? with
    | some (.scalar _ content) => .ok content
    | some (.mapping _ entries) =>
      match entries.find? fun entry => nodes.kindAt entry.1 == .default with
      | some entry => scalarContent nodes steps entry.2
      | none => .error .malformed
    | _ => .error .malformed

/-- The value of a node of a kind that scalars have. A point in time has to be written as a scalar
itself. -/
def scalarValue (nodes : Nodes) (kind : Kind) (place : Nat) : Except Fault Value := do
  let content ← nodes.scalarContent (nodes.size + 1) place
  if kind = .time && (nodes.entriesAt? place).isSome then throw .notScalar
  kind.scalarValue content

/-- What stands for a node in a collection: the value of a scalar, or the link to a collection. -/
def part (nodes : Nodes) (place : Nat) : Except Fault Value :=
  match (nodes.kindAt place).form? with
  | some form => .ok (.link form place)
  | none => nodes.scalarValue (nodes.kindAt place) place

/-- A pair, written as a mapping with one entry. -/
def pair (nodes : Nodes) (place : Nat) : Except Fault (Value × Value) :=
  match nodes.entriesAt? place with
  | some [(key, item)] => return (← nodes.part key, ← nodes.part item)
  | _ => .error .malformed

/-- An entry of a mapping, whose key may not be a collection. -/
def row (nodes : Nodes) (entry : Nat × Nat) : Except Fault (Value × Value) := do
  if (nodes.kindAt entry.1).form?.isSome then throw .malformed
  return (← nodes.part entry.1, ← nodes.part entry.2)

/-- How many entries all mappings have that ask for merging. -/
def merges (nodes : Nodes) : Nat :=
  nodes.foldl (fun count node =>
    match node with
    | .mapping _ entries => count + entries.countP fun entry => nodes.kindAt entry.1 == .merge
    | _ => count) 0

/-- The places of what a node offers for merging: itself, or the items of a sequence. -/
def sourcesAt (nodes : Nodes) (place : Nat) : Except Fault (List Nat) :=
  match nodes[place]? with
  | some (.mapping ..) => .ok [place]
  | some (.sequence _ items) => .ok items
  | _ => .error .malformed

/-- Takes the entries that ask for merging out of the mapping at a place, and puts what is merged before the
own entries: the entries of a mapping, or those of several mappings, of which the earlier ones win. The
mappings that are merged are treated so before. The third argument stands before the own entries already,
and the first one bounds the number of merges. -/
def flatten : Nat → Nat → List (Nat × Nat) → Nodes → Except Fault Nodes
  | 0, _, _, _ => .error .tooDeep
  | steps + 1, place, merged, nodes => do
    let some entries := nodes.entriesAt? place | throw .malformed
    let own := entries.takeWhile fun entry => nodes.kindAt entry.1 != .merge
    match entries.drop own.length with
    | [] =>
      let entries := merged ++ entries
      let nodes := entries.foldl (fun nodes entry => nodes.modify entry.1 Node.ordinary) nodes
      return nodes.setEntries place entries
    | (_, source) :: others =>
      let nodes := nodes.setEntries place (own ++ others)
      let (offers, nodes) ← (← nodes.sourcesAt source).foldlM
        (fun (offers, nodes) source => do
          let nodes ← flatten steps source [] nodes
          return ((nodes.entriesAt? source).getD [] :: offers, nodes))
        (([] : List (List (Nat × Nat))), nodes)
      flatten steps place (merged ++ offers.flatten) nodes

end Nodes

/-- A document while its collections are filled. -/
structure Filling where
  nodes : Nodes
  /-- Where the collections are that have been opened. -/
  opened : List Nat
  /-- Where those of them are that have to be filled, the first one first. -/
  waiting : List Nat
  cells : Cells
  /-- A place from which on there is nothing. -/
  free : Nat

namespace Filling

def start (nodes : Nodes) : Filling :=
  ⟨nodes, [], [], [], nodes.size⟩

/-- Opens the collection at a place if it is met for the first time. -/
def meetAt (filling : Filling) (place : Nat) : Filling :=
  if filling.opened.contains place then filling
  else { filling with opened := place :: filling.opened, waiting := filling.waiting ++ [place] }

/-- Opens the collections among some parts. -/
def meet (filling : Filling) (parts : List Value) : Filling :=
  (parts.flatMap Value.links).foldl meetAt filling

def put (filling : Filling) (place : Nat) (cell : Value) : Filling :=
  { filling with cells := (place, cell) :: filling.cells }

/-- Puts pairs at places of their own, and a list of them at a place. -/
def putPairs (filling : Filling) (place : Nat) (pairs : List (Value × Value)) : Filling :=
  let tuples := (pairs.zipIdx filling.free).map fun (pair, place) => (place, Value.tuple [pair.1, pair.2])
  { filling with
    cells := (place, .list (tuples.map fun tuple => .link .tuple tuple.1)) :: tuples ++ filling.cells
    free := filling.free + pairs.length }

/-- The entries of the mapping at a place, all of whose parts have been met. -/
def rows (filling : Filling) (place : Nat) : Except Fault (List (Value × Value) × Filling) := do
  let nodes ← filling.nodes.flatten (filling.nodes.merges + 1) place []
  let rows ← ((nodes.entriesAt? place).getD []).mapM nodes.row
  return (rows, { filling with nodes := nodes }.meet (rows.map Prod.snd))

/-- Fills the collection at a place. -/
def fill (filling : Filling) (place : Nat) : Except Fault Filling :=
  match filling.nodes[place]? with
  | some (.sequence .seq items) => do
    let parts ← items.mapM filling.nodes.part
    return (filling.meet parts).put place (.list parts)
  | some (.sequence .pairs items) => do
    let pairs ← items.mapM filling.nodes.pair
    return (filling.meet (pairs.flatMap fun pair => [pair.1, pair.2])).putPairs place pairs
  | some (.mapping .map _) => do
    let (rows, filling) ← filling.rows place
    return filling.put place (.map (Entries.ofList rows))
  | some (.mapping .set _) => do
    let (rows, filling) ← filling.rows place
    return filling.put place (.setOf ((Entries.ofList rows).map (·.1)))
  | _ => .error .malformed

/-- Fills all collections that are waiting and those that are met on the way. The first argument bounds their
number. -/
def finish : Nat → Filling → Except Fault Filling
  | 0, filling => .ok filling
  | steps + 1, filling =>
    match filling.waiting with
    | [] => .ok filling
    | place :: waiting => do finish steps (← { filling with waiting }.fill place)

end Filling

def Document.value (document : Document) : Except Fault Value := do
  let root ← Nodes.part document.nodes document.root
  let filling ← ((Filling.start document.nodes).meet [root]).finish document.nodes.size
  return root.fill filling.cells.settle .tangle

def Passage.value (passage : Passage) : Except Fault Value := do
  match ← Document.ofTokens? (tokenize passage) with
  | none => return .null
  | some document => document.value

def load (bytes : List UInt8) : Except Fault Value :=
  (Passage.ofBytes bytes).value

end IntentModel.Yaml
