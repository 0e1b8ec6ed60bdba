import Concord.Access.Basic
import Concord.Scan.Mask
import Concord.Text.Blank
import Concord.Text.Identifier
import Concord.Unicode.Property

/-!
Member reads of a script that does not parse, searched in its mask from the left. A read is a name
that no word character, `$` or `.` precedes, then a dot with an optional `?` in front, then the
member's name; blanks may stand around the dot. The search goes on behind each read.
-/
namespace Concord.Access

open Concord.Scan Concord.Text

/-- A character that continues a name. -/
def isNamePart (c : Char) : Bool :=
  Unicode.isWordCharacter c || c = '$'

/-- A name at the front and the rest: it starts with an ASCII letter, `_` or `$`. -/
def name? : List Char → Option (List Char × List Char)
  | [] => none
  | c :: rest =>
    if isPlainStart c then some (c :: rest.takeWhile isNamePart, rest.dropWhile isNamePart)
    else none

/-- A dot between blanks, optionally behind a `?`: its text and the rest. -/
def dot? (text : List Char) : Option (List Char × List Char) :=
  let rest := text.dropWhile isBlank
  let rest := (dropMark? '?' rest).getD rest
  (dropMark? '.' rest).map fun rest =>
    let rest := rest.dropWhile isBlank
    (text.take (text.length - rest.length), rest)

/-- A read at the front, at byte position `offset`, and the rest. -/
def readAt? (offset : Nat) (text : List Char) : Option (Read × List Char) := do
  let (object, rest) ← name? text
  let (gap, rest) ← dot? rest
  let (member, rest) ← name? rest
  return (⟨object, member, offset + byteSize object + byteSize gap⟩, rest)

theorem name?_length_lt {text name rest : List Char} (found : name? text = some (name, rest)) :
    rest.length < text.length := by
  cases text with
  | nil => simp [name?] at found
  | cons c tail =>
    simp only [name?] at found
    split at found
    · simp only [Option.some.injEq, Prod.mk.injEq] at found
      have := dropWhile_length_le isNamePart tail
      simp only [← found.2, List.length_cons]
      omega
    · simp at found

theorem dot?_length_lt {text gap rest : List Char} (found : dot? text = some (gap, rest)) :
    rest.length < text.length := by
  simp only [dot?, Option.map_eq_some_iff, Prod.mk.injEq] at found
  obtain ⟨behind, dropped, -, rfl⟩ := found
  have first := dropWhile_length_le isBlank text
  have last := dropWhile_length_le isBlank behind
  have middle := dropMark?_length_lt dropped
  have mark : ((dropMark? '?' (text.dropWhile isBlank)).getD (text.dropWhile isBlank)).length
      ≤ (text.dropWhile isBlank).length := by
    cases h : dropMark? '?' (text.dropWhile isBlank) with
    | none => simp
    | some tail => exact Nat.le_of_lt (dropMark?_length_lt h)
  omega

theorem readAt?_length_lt {offset : Nat} {text rest : List Char} {read : Read}
    (found : readAt? offset text = some (read, rest)) : rest.length < text.length := by
  simp only [readAt?, Option.bind_eq_bind, Option.bind_eq_some_iff, Prod.exists, Option.pure_def,
    Option.some.injEq, Prod.mk.injEq] at found
  obtain ⟨object, afterObject, first, gap, afterDot, second, member, afterMember, third, -, rfl⟩ :=
    found
  have := name?_length_lt first
  have := dot?_length_lt second
  have := name?_length_lt third
  omega

/-- A character that may stand in front of a read. -/
def mayPrecede (c : Char) : Bool :=
  !(isNamePart c || c = '.')

/-- A read at byte position `offset`: right here if the text starts here, or behind one character
that may precede it. -/
def nextRead? (front : Bool) (offset : Nat) (text : List Char) : Option (Read × List Char) :=
  let here := if front then readAt? offset text else none
  let behind :=
    match text with
    | [] => none
    | c :: tail => if mayPrecede c then readAt? (offset + c.utf8Size) tail else none
  here.or behind

theorem nextRead?_length_lt {front : Bool} {offset : Nat} {text rest : List Char} {read : Read}
    (found : nextRead? front offset text = some (read, rest)) : rest.length < text.length := by
  simp only [nextRead?, Option.or_eq_some_iff] at found
  rcases found with found | ⟨-, found⟩
  · split at found
    · exact readAt?_length_lt found
    · simp at found
  · split at found
    · simp at found
    · split at found
      · have := readAt?_length_lt found
        simp only [List.length_cons]
        omega
      · simp at found

/-- The reads from byte position `offset` on; `front` tells that the text starts here. -/
def readsFrom (front : Bool) (offset : Nat) (text : List Char) : List Read :=
  match _found : nextRead? front offset text with
  | some (read, rest) =>
    read :: readsFrom false (offset + byteSize (text.take (text.length - rest.length))) rest
  | none =>
    match text with
    | [] => []
    | c :: tail => readsFrom false (offset + c.utf8Size) tail
  termination_by text.length
  decreasing_by
    · exact nextRead?_length_lt _found
    · simp

/-- The reads found in the mask of a text. -/
def tolerantReads (text : List Char) : List Read :=
  readsFrom true 0 (mask text)

end Concord.Access
