import IntentModel.Value

/-! # Values that contain themselves

A collection can contain itself, at once or by way of others, and then it is no tree. Such a value is held as
one of several cells. A cell is a collection whose parts are links to other cells or to itself where they
are collections (`Cells`).

`Cells.settle` gives the value of the collection at a place: the tree that it is, or a tangle if a cycle can
be reached from it. A tangle is taken apart one level at a time by `Value.opened`, which leaves all other
values as they are. Where all of it is needed at once, it is unfolded into a tree up to the links that
lead back to a collection around them (`Cells.tree`).
-/

namespace IntentModel

/-- Collections at places. -/
abbrev Cells := List (Nat × Value)

namespace Value

section

variable (link : Form → Nat → Value) (tangle : Cells → Form → Nat → Value)

mutual

/-- Puts values in the place of the links and of the tangles in a value. Neither can be in a key or in a
member of a set. -/
def fill : Value → Value
  | .list items => .list (fillItems items)
  | .tuple items => .tuple (fillItems items)
  | .map entries => .map (fillEntries entries)
  | .link form place => link form place
  | .tangle cells form place => tangle cells form place
  | value => value

def fillItems : List Value → List Value
  | [] => []
  | item :: items => fill item :: fillItems items

def fillEntries : List (Value × Value) → List (Value × Value)
  | [] => []
  | (key, value) :: entries => (key, fill value) :: fillEntries entries

end

end

mutual

/-- Where the links in a value lead to. -/
def links : Value → List Nat
  | .list items => linksOfItems items
  | .tuple items => linksOfItems items
  | .map entries => linksOfEntries entries
  | .link _ place => [place]
  | _ => []

def linksOfItems : List Value → List Nat
  | [] => []
  | item :: items => links item ++ linksOfItems items

def linksOfEntries : List (Value × Value) → List Nat
  | [] => []
  | (_, value) :: entries => links value ++ linksOfEntries entries

end

end Value

namespace Cells

/-- The collection at a place, with the collections that its links lead to in it, and so on. A link back to
one of the places on the way is left as it is. The first argument bounds the length of the way. -/
def unfold (cells : Cells) : Nat → List Nat → Form → Nat → Value
  | 0, _, form, place => .link form place
  | steps + 1, way, form, place =>
    if way.contains place then .link form place
    else
      match cells.lookup place with
      | some cell => cell.fill (unfold cells steps (place :: way)) .tangle
      | none => .link form place

/-- The collection at a place as a tree, in which links lead to collections around them. -/
def tree (cells : Cells) : Form → Nat → Value :=
  cells.unfold (cells.length + 1) []

/-- The places that are reached from some places in a number of steps. -/
def reach (cells : Cells) : Nat → List Nat → List Nat
  | 0, places => places
  | steps + 1, places =>
    let next := (cells.filter fun cell => places.contains cell.1).flatMap (·.2.links)
    reach cells steps (places ++ next).eraseDups

/-- The cells that are reached from a place. -/
def within (cells : Cells) (place : Nat) : Cells :=
  let reached := cells.reach cells.length [place]
  cells.filter fun cell => reached.contains cell.1

/-- The value of the collection at a place. It is a tree if no link is left when all are followed. -/
def settle (cells : Cells) (form : Form) (place : Nat) : Value :=
  let tree := cells.tree form place
  if tree.links.isEmpty then tree else .tangle (cells.within place) form place

/-- The copy of a collection. A copy is made of each collection in it, but one that is met again within itself
stands for itself there. -/
def copy (cells : Cells) (form : Form) (place : Nat) : Value :=
  (cells.tree form place).fill cells.tree .tangle

end Cells

namespace Value

/-- A value whose parts can be looked at. -/
def opened : Value → Value
  | .tangle cells form place =>
    match cells.lookup place with
    | some cell => cell.fill (Cells.settle cells) .tangle
    | none => .link form place
  | value => value

/-- A value with all its parts; where one is within itself, a link is left. -/
def spread : Value → Value :=
  fill .link Cells.tree

/-- The copy of a value that is handed to a writer. Each of its links stands for a collection around it, and
writing such a collection has no end. -/
def dumped : Value → Value :=
  fill .link Cells.copy

end Value

end IntentModel
