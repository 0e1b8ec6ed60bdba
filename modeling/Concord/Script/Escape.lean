import Concord.Json.Reader
import Concord.Unicode.Property

/-!
Escapes in words, strings and templates. An escape is read behind its backslash and gives what it
stands for together with the number of characters that it takes, so the readers are plain recursions
over the text that skip as many.
-/
namespace Concord.Script

open Concord.Json (hexValue?)
open Concord.Unicode (isIdentifierStart isIdentifierPart)

def isLineBreak (c : Char) : Bool :=
  c = '\n' || c = '\r' || c = '\u2028' || c = '\u2029'

/-- The value of the hexadecimal digits, none of them missing. -/
def hexNumber? (digits : List Char) : Option Nat :=
  digits.foldlM (fun n c => (hexValue? c).map (n * 16 + ·)) 0

/-- The code behind `\u`: four digits, or any number of them in braces up to the last code point. -/
def codeEscape? : List Char → Option (Nat × Nat)
  | '\x7b' :: rest => do
    let digits := rest.takeWhile (· ≠ '\x7d')
    let code ← hexNumber? digits
    if digits.isEmpty || code > 0x10FFFF || digits.length = rest.length then none
    else some (code, digits.length + 2)
  | a :: b :: c :: d :: _ => (hexNumber? [a, b, c, d]).map (·, 4)
  | _ => none

/-! Words -/

/-- The character that an escape inside a word stands for. -/
def wordEscape? (text : List Char) : Option (Char × Nat) :=
  match text with
  | 'u' :: rest => do
    let (code, taken) ← codeEscape? rest
    if code.isValidChar then some (Char.ofNat code, taken + 1) else none
  | _ => none

/-- The characters of a word and what stands behind them. The first `skip` characters belong to an
escape that was read already. -/
def wordBody : (skip : Nat) → List Char → Option (List Char × List Char)
  | _, [] => some ([], [])
  | skip + 1, _ :: rest => wordBody skip rest
  | 0, '\\' :: rest => do
    let (c, taken) ← wordEscape? rest
    if isIdentifierPart c then (wordBody taken rest).map fun (word, tail) => (c :: word, tail)
    else none
  | 0, c :: rest =>
    if isIdentifierPart c then (wordBody 0 rest).map fun (word, tail) => (c :: word, tail)
    else some ([], c :: rest)

/-- The word at the front, which starts as a word must. -/
def word? (text : List Char) : Option (List Char × List Char) := do
  let (word, rest) ← wordBody 0 text
  if (word.head?.map isIdentifierStart).getD false then some (word, rest) else none

/-! Strings -/

def octalValue? (c : Char) : Option Nat :=
  if '0' ≤ c && c ≤ '7' then some (c.toNat - '0'.toNat) else none

/-- The value and length of an octal escape: up to three digits, below 256. -/
def octalEscape (digits : List Char) : Nat × Nat :=
  match digits.map octalValue? with
  | some a :: some b :: some c :: _ =>
    if a < 4 then ((a * 8 + b) * 8 + c, 3) else (a * 8 + b, 2)
  | some a :: some b :: _ => (a * 8 + b, 2)
  | some a :: _ => (a, 1)
  | _ => (0, 0)

/-- The codes that an escape in a string stands for. Behind a backslash every character without a
meaning stands for itself and a line break for nothing. -/
def stringEscape? (text : List Char) : Option (List Nat × Nat) :=
  match text with
  | [] => none
  | 'n' :: _ => some ([10], 1)
  | 't' :: _ => some ([9], 1)
  | 'r' :: _ => some ([13], 1)
  | 'b' :: _ => some ([8], 1)
  | 'f' :: _ => some ([12], 1)
  | 'v' :: _ => some ([11], 1)
  | 'x' :: a :: b :: _ => (hexNumber? [a, b]).map ([·], 3)
  | 'x' :: _ => none
  | 'u' :: rest => (codeEscape? rest).map fun (code, taken) => ([code], taken + 1)
  | '\r' :: '\n' :: _ => some ([], 2)
  | c :: _ =>
    if isLineBreak c then some ([], 1)
    else if (octalValue? c).isSome then
      let (code, taken) := octalEscape (text.take 3)
      some ([code], taken)
    else some ([c.toNat], 1)

/-- The codes of a string's text. -/
def stringCodes : (skip : Nat) → List Char → Option (List Nat)
  | _, [] => some []
  | skip + 1, _ :: rest => stringCodes skip rest
  | 0, '\\' :: rest => do
    let (codes, taken) ← stringEscape? rest
    (stringCodes taken rest).map (codes ++ ·)
  | 0, c :: rest => (stringCodes 0 rest).map (c.toNat :: ·)

def isHighSurrogate (code : Nat) : Bool :=
  0xD800 ≤ code && code ≤ 0xDBFF

def isLowSurrogate (code : Nat) : Bool :=
  0xDC00 ≤ code && code ≤ 0xDFFF

/-- Surrogates that stand in pairs become one code. -/
def joinSurrogates : List Nat → List Nat
  | high :: low :: rest =>
    if isHighSurrogate high && isLowSurrogate low then
      (0x10000 + (high - 0xD800) * 0x400 + (low - 0xDC00)) :: joinSurrogates rest
    else high :: joinSurrogates (low :: rest)
  | rest => rest

def fourDigits (code : Nat) : List Char :=
  let digits := Nat.toDigits 16 code
  List.replicate (4 - digits.length) '0' ++ digits

/-- The characters of the codes. Where a surrogate stands alone, it is written as the replacement
character and four digits, and so is the replacement character itself. -/
def textOfCodes (codes : List Nat) : List Char :=
  let codes := joinSurrogates codes
  if codes.all Nat.isValidChar then codes.map Char.ofNat
  else
    codes.flatMap fun code =>
      if code.isValidChar && code ≠ 0xFFFD then [Char.ofNat code]
      else '\ufffd' :: fourDigits code

/-- A template has no octal escapes: behind a `\0` no digit may stand, and no other digit at all. -/
def templateValid : (skip : Nat) → List Char → Bool
  | _, [] => true
  | skip + 1, _ :: rest => templateValid skip rest
  | 0, '\\' :: rest =>
    match stringEscape? rest with
    | none => false
    | some (_, taken) =>
      match rest with
      | '0' :: c :: _ => !c.isDigit && templateValid taken rest
      | c :: _ => (!c.isDigit || c = '0') && templateValid taken rest
      | [] => false
  | 0, _ :: rest => templateValid 0 rest

end Concord.Script
