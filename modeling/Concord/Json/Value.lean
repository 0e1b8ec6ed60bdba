/-!
JSON values and their compact text. Fields keep the order they are given in.
-/
namespace Concord.Json

inductive Value where
  | null
  | bool (value : Bool)
  | number (value : Nat)
  | string (text : String)
  | array (items : List Value)
  | object (fields : List (String × Value))
  deriving Repr

/-- The hexadecimal digit of a number below 16. -/
def hexDigit (n : Nat) : Char :=
  if n < 10 then Char.ofNat ('0'.toNat + n) else Char.ofNat ('a'.toNat + (n - 10))

/-- Quotes, back slashes and the characters below a space are escaped; all others stand for
themselves. -/
def escape (c : Char) : List Char :=
  if c = '\x22' then ['\\', '\x22']
  else if c = '\\' then ['\\', '\\']
  else if c = '\x08' then ['\\', 'b']
  else if c = '\t' then ['\\', 't']
  else if c = '\n' then ['\\', 'n']
  else if c = '\x0c' then ['\\', 'f']
  else if c = '\r' then ['\\', 'r']
  else if c.toNat < 0x20 then
    ['\\', 'u', '0', '0', hexDigit (c.toNat / 16), hexDigit (c.toNat % 16)]
  else [c]

def quote (text : List Char) : List Char :=
  '\x22' :: (text.flatMap escape ++ ['\x22'])

/-- Texts with a comma between them. -/
def commaSeparated : List (List Char) → List Char
  | [] => []
  | [text] => text
  | text :: rest => text ++ ',' :: commaSeparated rest

mutual

/-- The compact text of a value. -/
def Value.render : Value → List Char
  | .null => "null".toList
  | .bool true => "true".toList
  | .bool false => "false".toList
  | .number value => Nat.toDigits 10 value
  | .string text => quote text.toList
  | .array items => '[' :: (commaSeparated (renderItems items) ++ [']'])
  | .object fields => '\x7b' :: (commaSeparated (renderFields fields) ++ ['\x7d'])

def renderItems : List Value → List (List Char)
  | [] => []
  | item :: rest => item.render :: renderItems rest

def renderFields : List (String × Value) → List (List Char)
  | [] => []
  | (name, value) :: rest => (quote name.toList ++ ':' :: value.render) :: renderFields rest

end

end Concord.Json
