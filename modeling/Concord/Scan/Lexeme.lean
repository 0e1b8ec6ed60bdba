import Concord.Scan.Cursor
import Concord.Scan.Imbalance
import Concord.Text.Blank

/-!
The smallest units of script text. `Cursor.lexeme?` reads the one at a cursor: a blank, a comment, a
literal, a word, a bracket, a back quote or any other single character. Every lexeme is a
non-empty front part of what is left, so reading lexemes ends.
-/
namespace Concord.Scan

open Concord.Text

inductive Lexeme where
  | blank
  | comment
  | openComment
  | literal
  | word
  | opener (bracket : Bracket)
  | closer (bracket : Bracket)
  | backquote
  | mark
  deriving DecidableEq, Repr

/-- Text and remainder after an opening quote. A raw line break ends the literal as well, so one
stray quote cannot swallow a file. -/
def quoted (quote : Char) : List Char → List Char × List Char
  | [] => ([], [])
  | '\\' :: c :: rest =>
    let (text, tail) := quoted quote rest
    ('\\' :: c :: text, tail)
  | c :: rest =>
    if c = '\n' then ([], c :: rest)
    else if c = quote then ([c], rest)
    else
      let (text, tail) := quoted quote rest
      (c :: text, tail)

/-- Text and remainder after the `/` that opens a regular expression, flags included. A `/` inside a
character class does not close it; a raw line break does. -/
def regexBody (inClass : Bool) : List Char → List Char × List Char
  | [] => ([], [])
  | '\\' :: c :: rest =>
    let (text, tail) := regexBody inClass rest
    ('\\' :: c :: text, tail)
  | c :: rest =>
    if c = '\n' then ([], c :: rest)
    else if c = '/' && !inClass then (c :: rest.takeWhile isWordPart, rest.dropWhile isWordPart)
    else
      let inClass := if c = '[' then true else if c = ']' then false else inClass
      let (text, tail) := regexBody inClass rest
      (c :: text, tail)

/-- Text and remainder of a block comment after its opening; `none` if it never ends. -/
def blockComment : List Char → Option (List Char × List Char)
  | [] => none
  | '*' :: '/' :: rest => some (['*', '/'], rest)
  | c :: rest => (blockComment rest).map fun (text, tail) => (c :: text, tail)

namespace Cursor

/-- The lexeme at the cursor and the cursor behind it. -/
def lexeme? (c : Cursor) : Option (Lexeme × Cursor) :=
  match c.rest with
  | [] => none
  | '/' :: '/' :: rest =>
    some (.comment, c.advance ('/' :: '/' :: rest.takeWhile (· ≠ '\n')) (rest.dropWhile (· ≠ '\n'))
      c.regexOk)
  | '/' :: '*' :: rest =>
    match blockComment rest with
    | none => some (.openComment, c.advance ('/' :: '*' :: rest) [] c.regexOk)
    | some (text, tail) => some (.comment, c.advance ('/' :: '*' :: text) tail c.regexOk)
  | x :: rest =>
    if isAsciiBlank x then some (.blank, c.advance [x] rest c.regexOk)
    else if x = '\x27' || x = '\x22' then
      let (text, tail) := quoted x rest
      some (.literal, c.advance (x :: text) tail false)
    else if x = '/' && c.regexOk then
      let (text, tail) := regexBody false rest
      some (.literal, c.advance (x :: text) tail false)
    else if isWordStart x then
      let word := x :: rest.takeWhile isWordPart
      some (.word, c.advance word (rest.dropWhile isWordPart) (regexMayFollowWord word))
    else
      let kind :=
        if x = '\x60' then .backquote
        else
          match Bracket.ofOpener? x, Bracket.ofCloser? x with
          | some b, _ => .opener b
          | _, some b => .closer b
          | _, _ => .mark
      some (kind, c.advance [x] rest (regexMayFollow x))

end Cursor

theorem quoted_append (quote : Char) (text : List Char) :
    (quoted quote text).1 ++ (quoted quote text).2 = text := by
  fun_induction quoted quote text with
  | case1 => rfl
  | case2 c rest first tail eq ih => simp_all
  | case3 => rfl
  | case4 => simp
  | case5 c rest _ _ _ first tail eq ih => simp_all

theorem regexBody_append (inClass : Bool) (text : List Char) :
    (regexBody inClass text).1 ++ (regexBody inClass text).2 = text := by
  fun_induction regexBody inClass text with
  | case1 => rfl
  | case2 inClass c rest first tail eq ih => simp_all
  | case3 => rfl
  | case4 => simp
  | case5 inClass c rest _ _ _ first tail eq ih => simp_all

theorem blockComment_append {text front tail : List Char}
    (read : blockComment text = some (front, tail)) : front ++ tail = text := by
  fun_induction blockComment text generalizing front with
  | case1 => simp at read
  | case2 rest =>
    simp only [Option.some.injEq, Prod.mk.injEq] at read
    simp [← read.1, ← read.2]
  | case3 c rest _ ih =>
    simp only [Option.map_eq_some_iff, Prod.mk.injEq, Prod.exists] at read
    obtain ⟨first, last, found, rfl, rfl⟩ := read
    simp [ih found]

/-- A lexeme is a non-empty front part of the text, and the cursor moves exactly over it. -/
theorem Cursor.lexeme?_eq_some {c next : Cursor} {kind : Lexeme}
    (read : c.lexeme? = some (kind, next)) :
    ∃ text, text ≠ [] ∧ c.rest = text ++ next.rest ∧
      next = c.advance text next.rest next.regexOk := by
  simp only [lexeme?] at read
  split at read
  · simp at read
  next rest h =>
    simp only [Option.some.injEq, Prod.mk.injEq] at read
    obtain ⟨-, rfl⟩ := read
    exact ⟨_, by simp, by simp [advance, h, List.takeWhile_append_dropWhile], rfl⟩
  next rest h =>
    split at read <;> simp only [Option.some.injEq, Prod.mk.injEq] at read <;>
      obtain ⟨-, rfl⟩ := read
    · exact ⟨_, by simp, by simp [advance, h], rfl⟩
    next text tail found =>
      exact ⟨_, by simp, by simp [advance, h, blockComment_append found], rfl⟩
  next x rest _ _ h =>
    split at read
    · simp only [Option.some.injEq, Prod.mk.injEq] at read
      obtain ⟨-, rfl⟩ := read
      exact ⟨[x], by simp, by simp [advance, h], rfl⟩
    · split at read
      · simp only [Option.some.injEq, Prod.mk.injEq] at read
        obtain ⟨-, rfl⟩ := read
        exact ⟨_, by simp, by simp [advance, h, quoted_append], rfl⟩
      · split at read
        · simp only [Option.some.injEq, Prod.mk.injEq] at read
          obtain ⟨-, rfl⟩ := read
          exact ⟨_, by simp, by simp [advance, h, regexBody_append], rfl⟩
        · split at read
          · simp only [Option.some.injEq, Prod.mk.injEq] at read
            obtain ⟨-, rfl⟩ := read
            exact ⟨_, by simp, by simp [advance, h, List.takeWhile_append_dropWhile], rfl⟩
          · simp only [Option.some.injEq, Prod.mk.injEq] at read
            obtain ⟨-, rfl⟩ := read
            exact ⟨[x], by simp, by simp [advance, h], rfl⟩

theorem Cursor.lexeme?_length_lt {c next : Cursor} {kind : Lexeme}
    (read : c.lexeme? = some (kind, next)) : next.rest.length < c.rest.length := by
  obtain ⟨text, nonempty, split, -⟩ := lexeme?_eq_some read
  have := List.length_pos_iff.mpr nonempty
  rw [split, List.length_append]
  omega

end Concord.Scan
