import Concord.Access.Basic

/-!
The outline of a parsed script: the parts of its expressions and statements in their nesting, with
no more detail than is needed to find member reads and object keys and to tell whether what is
assigned to can be assigned to. Types leave nothing but the expressions in them.
-/
namespace Concord.Script

/-- What a part of a script is. Where parts have an order, they are listed in that order. -/
inductive Shape where
  /-- A plain name. -/
  | name (text : List Char)
  /-- `a.b` or `a?.b`; `behind` is the size of the text from `b` on. -/
  | member (property : List Char) (behind : Nat)
  /-- `a[b]` or `a.#b`. -/
  | element
  /-- A chain with a `?.` in it. -/
  | chain
  /-- `a as T`, `a satisfies T` or `a!`. -/
  | assertion
  /-- `a<T>`. -/
  | applied
  | parens
  | sequence
  | array (trailing : Bool)
  | hole
  | spread
  | object (trailing : Bool)
  /-- `key: value`; the key is missing if it is computed or a number. -/
  | property (key : Option (List Char))
  | method (key : Option (List Char))
  | shorthand (key : List Char)
  /-- `key = value`, which makes sense in a target only. -/
  | defaulted (key : List Char)
  | assign
  | update
  /-- `a += b` and the like. -/
  | modify
  /-- What a loop over values assigns to. -/
  | loopTarget
  | unary
  | logical (coalescing : Bool)
  | other
  deriving DecidableEq, Repr

/-- A part of a script and the parts in it. -/
inductive Node where
  | mk (shape : Shape) (parts : List Node)
  deriving Repr

namespace Node

def shape : Node → Shape
  | mk shape _ => shape

def parts : Node → List Node
  | mk _ parts => parts

/-- A part that holds nothing of interest. -/
def leaf : Node :=
  mk .other []

/-- Parts that stand beside each other. -/
def all (parts : List Node) : Node :=
  mk .other parts

def isName : Node → Bool
  | mk (.name _) _ => true
  | _ => false

mutual

/-- The member reads in a part of a text of `size` bytes. -/
def reads (size : Nat) : Node → List Access.Read
  | mk (.member property behind) [mk (.name object) _] => [⟨object, property, size - behind⟩]
  | mk _ parts => readsAll size parts

def readsAll (size : Nat) : List Node → List Access.Read
  | [] => []
  | part :: parts => reads size part ++ readsAll size parts

end

/-- The static key of an object's property. -/
def key? : Node → Option (List Char)
  | mk (.property key) _ | mk (.method key) _ => key
  | mk (.shorthand key) _ => some key
  | _ => none

/-- The expression inside any parentheses around it. -/
def stripParens : Node → Node
  | mk .parens [inner] => inner.stripParens
  | node => node

/-- The properties of an object in the order in which they stand, each with its static key. -/
def propertyKeys? (node : Node) : Option (List (Option (List Char))) :=
  match node.stripParens with
  | mk (.object _) properties => some (properties.map key?)
  | _ => none

/-! Targets -/

/-- How a part is used. -/
inductive Use where
  | value
  /-- Assigned to, directly or piece by piece. -/
  | target
  /-- Assigned to as one place. -/
  | place
  /-- Assigned to through an assertion, behind which no grouping of pieces can stand. -/
  | asserted
  /-- An item of an array that is assigned to piece by piece. -/
  | item
  /-- A property of an object that is assigned to piece by piece. -/
  | field
  deriving DecidableEq, Repr

/-- Whether only the last of the parts is a spread, and no comma follows it. -/
def spreadLast (trailing : Bool) : List Node → Bool
  | [] => true
  | [mk .spread _] => !trailing
  | mk .spread _ :: _ => false
  | _ :: parts => spreadLast trailing parts

/-- How the parts of a single place are used. -/
def placeUses (shape : Shape) (parts : List Node) : Option (List Use) :=
  let values := parts.map fun _ => Use.value
  match shape, values with
  | .name _, _ | .member _ _, _ | .element, _ => some values
  | .parens, _ => some [.place]
  | .assertion, _ :: types => some (.asserted :: types)
  | _, _ => none

/-- How the parts of a target are used. -/
def targetUses (shape : Shape) (parts : List Node) : Option (List Use) :=
  match shape with
  | .array trailing => if spreadLast trailing parts then some (parts.map fun _ => .item) else none
  | .object trailing => if spreadLast trailing parts then some (parts.map fun _ => .field) else none
  | shape => placeUses shape parts

/-- How the parts of a part are used if it is used as said; `none` if it cannot be. -/
def partUses (use : Use) (shape : Shape) (parts : List Node) : Option (List Use) :=
  match use, shape with
  | .value, .assign | .value, .modify => some [.target, .value]
  | .value, .update => some [.place]
  | .value, .loopTarget => some [.target]
  | .value, .defaulted _ => none
  | .value, _ => some (parts.map fun _ => .value)
  | .target, shape => targetUses shape parts
  | .place, shape => placeUses shape parts
  | .asserted, .parens => some [.asserted]
  | .asserted, shape => placeUses shape parts
  | .item, .hole => some []
  | .item, .spread => some [.target]
  | .item, .assign => some [.target, .value]
  | .item, shape => targetUses shape parts
  | .field, .spread => some [.place]
  | .field, .shorthand _ => some []
  | .field, .defaulted _ => some [.value]
  | .field, .property _ => some [.value, .item]
  | .field, _ => none

mutual

/-- Whether everything in a part that is assigned to can be, if the part itself is used as said. -/
def assignable : Use → Node → Bool
  | use, mk shape parts =>
    match partUses use shape parts with
    | none => false
    | some uses => assignableAll uses parts

def assignableAll : List Use → List Node → Bool
  | use :: uses, part :: parts => assignable use part && assignableAll uses parts
  | _, _ => true

end

end Node

end Concord.Script
