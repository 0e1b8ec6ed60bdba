/-!
Texts are lists of characters. Positions count the bytes of the UTF-8 form and lines count line
breaks from one; both are read off the list, so a position is always a sum of whole characters.
-/
namespace Concord.Text

/-- Bytes of the UTF-8 form. -/
def byteSize : List Char → Nat
  | [] => 0
  | c :: rest => c.utf8Size + byteSize rest

def lineBreaks (text : List Char) : Nat :=
  text.count '\n'

/-- Line breaks that start before a byte position. -/
def breaksBefore : List Char → Nat → Nat
  | [], _ => 0
  | c :: rest, offset =>
    if offset = 0 then 0
    else (if c = '\n' then 1 else 0) + breaksBefore rest (offset - c.utf8Size)

/-- Line of a byte position. Positions past the end lie on the last line. -/
def lineAt (text : List Char) (offset : Nat) : Nat :=
  breaksBefore text offset + 1

/-- The characters that start before a byte position. -/
def takeBytes : List Char → Nat → List Char
  | [], _ => []
  | c :: rest, offset => if offset = 0 then [] else c :: takeBytes rest (offset - c.utf8Size)

/-- The byte at a position of the UTF-8 form. -/
def byteAt? : List Char → Nat → Option UInt8
  | [], _ => none
  | c :: rest, offset =>
    if offset < c.utf8Size then (String.utf8EncodeChar c)[offset]?
    else byteAt? rest (offset - c.utf8Size)

/-- Removes one `mark` from the front. -/
def dropMark? (mark : Char) : List Char → Option (List Char)
  | [] => none
  | c :: rest => if c = mark then some rest else none

/-- Removes one `mark` from the end. -/
def dropLastMark? (mark : Char) (text : List Char) : Option (List Char) :=
  (dropMark? mark text.reverse).map List.reverse

/-- The pieces between the occurrences of `mark`: one more than there are occurrences. -/
def splitAt (mark : Char) : List Char → List (List Char)
  | [] => [[]]
  | c :: rest =>
    if c = mark then [] :: splitAt mark rest
    else
      match splitAt mark rest with
      | [] => [[c]]
      | piece :: pieces => (c :: piece) :: pieces

@[simp] theorem byteSize_append (front back : List Char) :
    byteSize (front ++ back) = byteSize front + byteSize back := by
  induction front with
  | nil => simp [byteSize]
  | cons c rest ih => simp [byteSize, ih, Nat.add_assoc]

@[simp] theorem lineBreaks_append (front back : List Char) :
    lineBreaks (front ++ back) = lineBreaks front + lineBreaks back :=
  List.count_append

theorem takeBytes_length_le (text : List Char) (offset : Nat) :
    (takeBytes text offset).length ≤ text.length := by
  induction text generalizing offset with
  | nil => simp [takeBytes]
  | cons c rest ih =>
    rw [takeBytes]
    split
    · simp
    · simpa using ih (offset - c.utf8Size)

theorem dropMark?_length_lt {mark : Char} {text rest : List Char}
    (dropped : dropMark? mark text = some rest) : rest.length < text.length := by
  cases text with
  | nil => simp [dropMark?] at dropped
  | cons c tail =>
    simp only [dropMark?] at dropped
    split at dropped
    · simp only [Option.some.injEq] at dropped
      simp [dropped]
    · simp at dropped

theorem dropLastMark?_length_lt {mark : Char} {text rest : List Char}
    (dropped : dropLastMark? mark text = some rest) : rest.length < text.length := by
  simp only [dropLastMark?, Option.map_eq_some_iff] at dropped
  obtain ⟨tail, front, rfl⟩ := dropped
  simpa using dropMark?_length_lt front

end Concord.Text
