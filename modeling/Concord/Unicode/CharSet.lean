/-!
Sets of code points as ranges, in ascending order with a gap between any two. Tables are written as
text: hexadecimal code points and ranges with blanks between them.
-/
namespace Concord.Unicode

/-- The largest code point. -/
def maxCode : Nat := 0x10FFFF

structure CharSet where
  ranges : List (Nat × Nat)
  deriving DecidableEq, Repr

namespace CharSet

/-- Puts a range in front of ranges that start no earlier, joining what touches. -/
def join (range : Nat × Nat) : List (Nat × Nat) → List (Nat × Nat)
  | [] => [range]
  | next :: rest =>
    if next.1 ≤ range.2 + 1 then join (range.1, max range.2 next.2) rest else range :: next :: rest

/-- The set that ranges in any order cover. -/
def ofRanges (ranges : List (Nat × Nat)) : CharSet :=
  let sorted := ranges.mergeSort fun a b => a.1 ≤ b.1
  ⟨sorted.foldr join []⟩

def empty : CharSet :=
  ⟨[]⟩

def single (code : Nat) : CharSet :=
  ⟨[(code, code)]⟩

def range (low high : Nat) : CharSet :=
  ⟨[(low, high)]⟩

def full : CharSet :=
  ⟨[(0, maxCode)]⟩

def containsCode (set : CharSet) (code : Nat) : Bool :=
  set.ranges.any fun (low, high) => low ≤ code && code ≤ high

def contains (set : CharSet) (c : Char) : Bool :=
  set.containsCode c.toNat

def union (a b : CharSet) : CharSet :=
  ofRanges (a.ranges ++ b.ranges)

/-- The gaps of ascending ranges from `start` to `last`. -/
def gaps (last : Nat) : Nat → List (Nat × Nat) → List (Nat × Nat)
  | start, [] => if start ≤ last then [(start, last)] else []
  | start, (low, high) :: rest =>
    if start < low then (start, low - 1) :: gaps last (high + 1) rest else gaps last (high + 1) rest

/-- The code points up to `last` that are not in the set. -/
def complementUpTo (last : Nat) (set : CharSet) : CharSet :=
  ⟨gaps last 0 set.ranges⟩

def complement (set : CharSet) : CharSet :=
  set.complementUpTo maxCode

def inter (a b : CharSet) : CharSet :=
  (a.complement.union b.complement).complement

def diff (a b : CharSet) : CharSet :=
  a.inter b.complement

def symmDiff (a b : CharSet) : CharSet :=
  (a.diff b).union (b.diff a)

def unions (sets : List CharSet) : CharSet :=
  ofRanges (sets.flatMap CharSet.ranges)

/-- No code point of the set is above `last`. -/
def within (last : Nat) (set : CharSet) : Bool :=
  set.ranges.all fun (_, high) => high ≤ last

end CharSet

def hexDigitValue (c : Char) : Nat :=
  if c.isDigit then c.toNat - '0'.toNat else c.toNat - 'A'.toNat + 10

def hexNumber (digits : List Char) : Nat :=
  digits.foldl (fun n c => n * 16 + hexDigitValue c) 0

/-- The pieces of a text between the characters that `cut` picks, none of them empty. -/
def pieces (cut : Char → Bool) (text : List Char) : List (List Char) :=
  let (piece, rest) := text.foldr
    (fun c (piece, rest) =>
      if cut c then ([], if piece.isEmpty then rest else piece :: rest) else (c :: piece, rest))
    ([], [])
  if piece.isEmpty then rest else piece :: rest

/-- Reads a table. -/
def CharSet.ofText (text : String) : CharSet :=
  CharSet.ofRanges <| (pieces Char.isWhitespace text.toList).map fun piece =>
    match pieces (· = '-') piece with
    | [low, high] => (hexNumber low, hexNumber high)
    | _ => (hexNumber piece, hexNumber piece)

/-- Reads groups of code points: blanks between groups, `/` inside them. -/
def readGroups (text : String) : List (List Nat) :=
  (pieces Char.isWhitespace text.toList).map fun piece => (pieces (· = '/') piece).map hexNumber

end Concord.Unicode
