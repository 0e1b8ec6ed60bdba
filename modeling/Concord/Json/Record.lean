import Concord.Json.Reader

/-!
Readers for bounded numbers, optional values, named variants and records. A record is an object
whose other fields are ignored, or an array of its first fields in order.
-/
namespace Concord.Json

/-- A whole number below `limit`, written without a point or an exponent. -/
def readNat (limit : Nat) (text : List Char) : Except Problem (Nat × List Char) :=
  let text := skipSpace text
  match numeral .truncated text with
  | .ok (n, rest) =>
    if n.fraction.isEmpty && n.exponent.isEmpty && digitsValue n.whole < limit then
      .ok (digitsValue n.whole, rest)
    else .error (mismatchAt text)
  | .error _ => .error (mismatchAt text)

def readNull (text : List Char) : Except Problem (List Char) :=
  match skipSpace text with
  | 'n' :: rest => word "ull".toList rest
  | other => .error (mismatchAt other)

/-- A value, or nothing for `null`. -/
def readOptional {α : Type} (value : List Char → Except Problem (α × List Char))
    (text : List Char) : Except Problem (Option α × List Char) :=
  match skipSpace text with
  | 'n' :: rest => do return (none, ← word "ull".toList rest)
  | other => do
    let (value, rest) ← value other
    return (some value, rest)

/-- One of several named variants: its name, or an object with its name and `null`. -/
def readVariant {α : Type} (ofLabel? : String → Option α) (text : List Char) :
    Except Problem (α × List Char) :=
  let variant (text : List Char) : Except Problem (α × List Char) := do
    let (label, rest) ← readString text
    match ofLabel? label with
    | some value => return (value, rest)
    | none => .error .mismatch
  match skipSpace text with
  | [] => .error .truncated
  | '\x22' :: rest => variant ('\x22' :: rest)
  | '\x7b' :: rest => do
    let (value, rest) ← variant rest
    match skipSpace (← readNull (← colon rest)) with
    | [] => .error .truncated
    | '\x7d' :: rest => return (value, rest)
    | _ => .error .malformed
  | _ => .error .malformed

/-- How one field of a record is added to a draft of it. -/
structure FieldReader (δ : Type) where
  name : String
  isGiven : δ → Bool
  read : δ → List Char → Except Problem (δ × List Char)

section

variable {α β δ : Type}

/-- The reader of a field that a draft holds as an option. -/
def FieldReader.of (name : String) (get : δ → Option β) (set : δ → β → δ)
    (value : List Char → Except Problem (β × List Char)) : FieldReader δ where
  name := name
  isGiven draft := (get draft).isSome
  read draft text := do
    let (value, rest) ← value text
    return (set draft value, rest)

/-- A member of a record, from behind its name. Values of other members only have to be JSON. -/
def readMember (readers : List (FieldReader δ)) (draft : δ) (name : String) (text : List Char) :
    Except Problem (δ × List Char) :=
  match readers.find? fun reader => reader.name = name with
  | none => do return (draft, ← ignore (← colon text))
  | some reader =>
    if reader.isGiven draft then .error .mismatch else do reader.read draft (← colon text)

/-- The fields of the array form, through its closing bracket. -/
def readElements : List (FieldReader δ) → Bool → δ → List Char → Except Problem (δ × List Char)
  | [], _, draft, text =>
    match skipSpace text with
    | [] => .error .truncated
    | ']' :: rest => .ok (draft, rest)
    | _ => .error .malformed
  | reader :: later, opened, draft, text => do
    match ← nextItem opened text with
    | .done rest => return (draft, rest)
    | .item rest => do
      let (draft, rest) ← reader.read draft rest
      readElements later false draft rest

/-- A record: `complete?` tells what a draft comes to, unless a field is missing. -/
def readRecord (readers : List (FieldReader δ)) (empty : δ) (complete? : δ → Option α)
    (text : List Char) : Except Problem (α × List Char) := do
  let (draft, rest) ←
    match skipSpace text with
    | '\x7b' :: rest => fields (readMember readers) (rest.length + 1) true empty rest
    | '[' :: rest => readElements readers true empty rest
    | other => .error (mismatchAt other)
  match complete? draft with
  | some value => return (value, rest)
  | none => .error .mismatch

end

end Concord.Json
