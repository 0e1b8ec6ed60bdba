import Concord.Text.Basic

/-!
Reading JSON text from the left, with the first problem deciding. Typed readers ask for a value of
one kind and return the remaining text with it. A value of another kind is a mismatch if it is well
formed as far as its kind can be told, and malformed or truncated otherwise.
-/
namespace Concord.Json

open Concord.Text

inductive Problem where
  | malformed
  | truncated
  | mismatch
  deriving DecidableEq, Repr

def Problem.category : Problem → String
  | malformed => "syntax"
  | truncated => "eof"
  | mismatch => "data"

def isSpace (c : Char) : Bool :=
  c = ' ' || c = '\n' || c = '\t' || c = '\r'

def skipSpace (text : List Char) : List Char :=
  text.dropWhile isSpace

def hexValue? (c : Char) : Option Nat :=
  if c.isDigit then some (c.toNat - '0'.toNat)
  else if 'a' ≤ c && c ≤ 'f' then some (c.toNat - 'a'.toNat + 10)
  else if 'A' ≤ c && c ≤ 'F' then some (c.toNat - 'A'.toNat + 10)
  else none

/-- The number written by the four hexadecimal digits of an escape. -/
def hexEscape (text : List Char) : Except Problem (Nat × List Char) :=
  if byteSize text < 4 then .error .truncated
  else
    match text with
    | a :: b :: c :: d :: rest =>
      match hexValue? a, hexValue? b, hexValue? c, hexValue? d with
      | some a, some b, some c, some d => .ok (((a * 16 + b) * 16 + c) * 16 + d, rest)
      | _, _, _, _ => .error .malformed
    | _ => .error .malformed

/-- The character behind a `\u`. Surrogates come in pairs. -/
def unicodeEscape (text : List Char) : Except Problem (Char × List Char) := do
  let (high, rest) ← hexEscape text
  if 0xDC00 ≤ high && high ≤ 0xDFFF then .error .malformed
  else if high < 0xD800 || 0xDBFF < high then return (Char.ofNat high, rest)
  else
    match rest with
    | [] => .error .truncated
    | ['\\'] => .error .truncated
    | '\\' :: 'u' :: rest => do
      let (low, rest) ← hexEscape rest
      if 0xDC00 ≤ low && low ≤ 0xDFFF then
        return (Char.ofNat (0x10000 + (high - 0xD800) * 0x400 + (low - 0xDC00)), rest)
      else .error .malformed
    | _ => .error .malformed

/-- The character that a one-letter escape stands for. -/
def shortEscape? (c : Char) : Option Char :=
  match c with
  | '\x22' => some '\x22'
  | '\\' => some '\\'
  | '/' => some '/'
  | 'b' => some '\x08'
  | 'f' => some '\x0c'
  | 'n' => some '\n'
  | 'r' => some '\r'
  | 't' => some '\t'
  | _ => none

/-- The text of a string behind its opening quote; `fuel` bounds its characters. -/
def stringBody : Nat → List Char → Except Problem (List Char × List Char)
  | 0, _ => .error .truncated
  | fuel + 1, text =>
    match text with
    | [] => .error .truncated
    | '\x22' :: rest => .ok ([], rest)
    | '\\' :: rest => do
      let (c, rest) ←
        match rest with
        | [] => .error .truncated
        | 'u' :: rest => unicodeEscape rest
        | e :: rest =>
          match shortEscape? e with
          | some c => .ok (c, rest)
          | none => .error .malformed
      let (more, rest) ← stringBody fuel rest
      return (c :: more, rest)
    | c :: rest =>
      if c.toNat < 0x20 then .error .malformed
      else do
        let (more, rest) ← stringBody fuel rest
        return (c :: more, rest)

/-- Steps over the rest of a string whose text does not matter: lone surrogates may stand in it. -/
def skipStringBody : Nat → List Char → Except Problem (List Char)
  | 0, _ => .error .truncated
  | fuel + 1, text =>
    match text with
    | [] => .error .truncated
    | '\x22' :: rest => .ok rest
    | '\\' :: rest =>
      match rest with
      | [] => .error .truncated
      | 'u' :: rest => do
        let (_, rest) ← hexEscape rest
        skipStringBody fuel rest
      | e :: rest => if (shortEscape? e).isSome then skipStringBody fuel rest else .error .malformed
    | c :: rest => if c.toNat < 0x20 then .error .malformed else skipStringBody fuel rest

def string (text : List Char) : Except Problem (List Char × List Char) :=
  stringBody (text.length + 1) text

/-- Steps over the letters of a fixed word. -/
def word : List Char → List Char → Except Problem (List Char)
  | [], text => .ok text
  | _ :: _, [] => .error .truncated
  | expected :: more, c :: text => if c = expected then word more text else .error .malformed

/-! Numbers -/

def digitsValue (digits : List Char) : Nat :=
  digits.foldl (fun n c => n * 10 + (c.toNat - '0'.toNat)) 0

/-- Digits of a number: before the point, after it, and in the exponent with its sign. -/
structure Numeral where
  whole : List Char
  fraction : List Char
  exponentNegative : Bool
  exponent : List Char
  deriving DecidableEq, Repr

/-- The numeral at the front; `atEnd` is the problem of a text that ends where a digit must
stand. -/
def numeral (atEnd : Problem) (text : List Char) : Except Problem (Numeral × List Char) := do
  let need (rest : List Char) : Except Problem (List Char × List Char) :=
    match rest with
    | [] => .error atEnd
    | c :: _ =>
      if c.isDigit then .ok (rest.takeWhile Char.isDigit, rest.dropWhile Char.isDigit)
      else .error .malformed
  let (whole, rest) ← need text
  if whole.head? = some '0' && whole.length > 1 then .error .malformed
  else
    let (fraction, rest) ←
      match rest with
      | '.' :: rest => need rest
      | rest => .ok ([], rest)
    match rest with
    | e :: rest =>
      if e = 'e' || e = 'E' then
        let (negative, rest) :=
          match rest with
          | '+' :: rest => (false, rest)
          | '-' :: rest => (true, rest)
          | rest => (false, rest)
        let (exponent, rest) ← need rest
        return (⟨whole, fraction, negative, exponent⟩, rest)
      else return (⟨whole, fraction, false, []⟩, e :: rest)
    | [] => return (⟨whole, fraction, false, []⟩, [])

/-- The numeral is too large for a double: it is at least halfway from the largest one to its
successor. -/
def Numeral.overflows (n : Numeral) : Bool :=
  let digits := digitsValue (n.whole ++ n.fraction)
  let exponent : Int :=
    (if n.exponentNegative then -(digitsValue n.exponent : Int) else digitsValue n.exponent)
      - n.fraction.length
  let limit := Nat.pow 2 1024 - Nat.pow 2 970
  let width := n.whole.length + n.fraction.length
  if digits = 0 then false
  else if exponent > 400 then true
  else if exponent ≥ 0 then limit ≤ digits * Nat.pow 10 exponent.toNat
  else if exponent.natAbs > width then false
  else limit * Nat.pow 10 exponent.natAbs ≤ digits

/-! Values of any kind -/

/-- Steps over the numeral of an ignored value. -/
def skipNumber (text : List Char) : Except Problem (List Char) := do
  let (_, rest) ← numeral .malformed text
  return rest

mutual

/-- Steps over one value. Nothing is asked of it but its form. -/
def skipValue : Nat → List Char → Except Problem (List Char)
  | 0, _ => .error .truncated
  | fuel + 1, text =>
    match skipSpace text with
    | [] => .error .truncated
    | 'n' :: rest => word "ull".toList rest
    | 't' :: rest => word "rue".toList rest
    | 'f' :: rest => word "alse".toList rest
    | '\x22' :: rest => skipStringBody (rest.length + 1) rest
    | '-' :: rest => skipNumber rest
    | '[' :: rest =>
      match skipSpace rest with
      | ']' :: rest => .ok rest
      | [] => .error .truncated
      | rest => skipItems fuel rest
    | '\x7b' :: rest =>
      match skipSpace rest with
      | '\x7d' :: rest => .ok rest
      | rest => skipFields fuel rest
    | c :: rest => if c.isDigit then skipNumber (c :: rest) else .error .malformed

/-- The items of an array up to its closing bracket. -/
def skipItems : Nat → List Char → Except Problem (List Char)
  | 0, _ => .error .truncated
  | fuel + 1, text => do
    match skipSpace (← skipValue fuel text) with
    | [] => .error .truncated
    | ',' :: rest => skipItems fuel rest
    | ']' :: rest => .ok rest
    | _ => .error .malformed

/-- The fields of an object up to its closing bracket. -/
def skipFields : Nat → List Char → Except Problem (List Char)
  | 0, _ => .error .truncated
  | fuel + 1, text =>
    match skipSpace text with
    | [] => .error .truncated
    | '\x22' :: rest => do
      match skipSpace (← skipStringBody (rest.length + 1) rest) with
      | [] => .error .truncated
      | ':' :: rest =>
        match skipSpace (← skipValue fuel rest) with
        | [] => .error .truncated
        | ',' :: rest => skipFields fuel rest
        | '\x7d' :: rest => .ok rest
        | _ => .error .malformed
      | _ => .error .malformed
    | _ => .error .malformed

end

def ignore (text : List Char) : Except Problem (List Char) :=
  skipValue (2 * text.length + 2) text

/-! Values of one kind -/

/-- The problem of a value that is not of the kind asked for. -/
def mismatchAt (text : List Char) : Problem :=
  let settle (outcome : Except Problem (List Char)) : Problem :=
    match outcome with
    | .ok _ => .mismatch
    | .error problem => problem
  let number (text : List Char) : Problem :=
    match numeral .truncated text with
    | .error problem => problem
    | .ok (n, _) => if n.overflows then .malformed else .mismatch
  match text with
  | 'n' :: rest => settle (word "ull".toList rest)
  | 't' :: rest => settle (word "rue".toList rest)
  | 'f' :: rest => settle (word "alse".toList rest)
  | '-' :: rest => number rest
  | '\x22' :: rest => settle ((string rest).map Prod.snd)
  | '[' :: _ => .mismatch
  | '\x7b' :: _ => .mismatch
  | [] => .truncated
  | c :: rest => if c.isDigit then number (c :: rest) else .malformed

def readBool (text : List Char) : Except Problem (Bool × List Char) := do
  match skipSpace text with
  | 't' :: rest => return (true, ← word "rue".toList rest)
  | 'f' :: rest => return (false, ← word "alse".toList rest)
  | other => .error (mismatchAt other)

def readString (text : List Char) : Except Problem (String × List Char) :=
  match skipSpace text with
  | '\x22' :: rest => do
    let (chars, rest) ← string rest
    return (String.ofList chars, rest)
  | other => .error (mismatchAt other)

/-- Where an array goes on: behind its closing bracket, or at an item. -/
inductive Next where
  | done (rest : List Char)
  | item (rest : List Char)

/-- Steps to the next item of an array; `opened` tells that none was read yet. -/
def nextItem (opened : Bool) (text : List Char) : Except Problem Next :=
  match skipSpace text with
  | [] => .error .truncated
  | ']' :: rest => .ok (.done rest)
  | ',' :: rest =>
    if opened then .ok (.item (',' :: rest))
    else
      match skipSpace rest with
      | ']' :: _ => .error .malformed
      | [] => .error .truncated
      | rest => .ok (.item rest)
  | rest => if opened then .ok (.item rest) else .error .malformed

/-- The items of an array from the next one on. -/
def items {α : Type} (item : List Char → Except Problem (α × List Char)) :
    Nat → Bool → List Char → Except Problem (List α × List Char)
  | 0, _, _ => .error .truncated
  | fuel + 1, opened, text => do
    match ← nextItem opened text with
    | .done rest => return ([], rest)
    | .item rest => do
      let (value, rest) ← item rest
      let (more, rest) ← items item fuel false rest
      return (value :: more, rest)

def readList {α : Type} (item : List Char → Except Problem (α × List Char)) (text : List Char) :
    Except Problem (List α × List Char) :=
  match skipSpace text with
  | '[' :: rest => items item (rest.length + 1) true rest
  | other => .error (mismatchAt other)

/-- The name of the next field, or `none` at the closing bracket. -/
def fieldName (opened : Bool) (text : List Char) : Except Problem (Option String × List Char) := do
  let name (rest : List Char) : Except Problem (Option String × List Char) := do
    let (chars, rest) ← string rest
    return (some (String.ofList chars), rest)
  match skipSpace text with
  | [] => .error .truncated
  | '\x7d' :: rest => .ok (none, rest)
  | ',' :: rest =>
    if opened then .error .malformed
    else
      match skipSpace rest with
      | '\x22' :: rest => name rest
      | [] => .error .truncated
      | _ => .error .malformed
  | '\x22' :: rest => if opened then name rest else .error .malformed
  | _ => .error .malformed

/-- The colon behind a field name. -/
def colon (text : List Char) : Except Problem (List Char) :=
  match skipSpace text with
  | [] => .error .truncated
  | ':' :: rest => .ok rest
  | _ => .error .malformed

/-- The fields of an object, each added to `value` by `field`, which reads from behind the name. -/
def fields {α : Type} (field : α → String → List Char → Except Problem (α × List Char)) :
    Nat → Bool → α → List Char → Except Problem (α × List Char)
  | 0, _, _, _ => .error .truncated
  | fuel + 1, opened, value, text => do
    match ← fieldName opened text with
    | (none, rest) => return (value, rest)
    | (some name, rest) => do
      let (value, rest) ← field value name rest
      fields field fuel false value rest

/-- Only space is left. -/
def finish (text : List Char) : Except Problem Unit :=
  match skipSpace text with
  | [] => .ok ()
  | _ => .error .malformed

end Concord.Json
