import Concord.Proofs.BalancedRuns
import Concord.Proofs.MaskedLexemes

/-!
Texts without their comments. Clearing a comment puts spaces in place of it and keeps its line
breaks. A unit of the scanner is told by its own characters and by what stands directly behind it,
and there a comment that is cleared makes no difference: the slash it starts with and the space it
leaves both end what stands in front. So every unit outside the comments is read as before.
-/
namespace Concord.Scan

open Concord.Text

/-- Spaces in place of a text, byte for byte; line breaks stay. -/
def cleared (text : List Char) : List Char :=
  text.flatMap blanked

theorem isAsciiBlank_of_mem_cleared {text : List Char} {x : Char} (member : x ∈ cleared text) :
    isAsciiBlank x = true := by
  obtain ⟨y, -, member⟩ := List.mem_flatMap.mp member
  rw [blanked] at member
  split at member
  · rw [List.mem_singleton.mp member]
    rfl
  · rw [List.eq_of_mem_replicate member]
    rfl

@[simp] theorem lineBreaks_cleared (text : List Char) :
    lineBreaks (cleared text) = lineBreaks text := by
  induction text with
  | nil => rfl
  | cons x text ih =>
    have split : x :: text = [x] ++ text := rfl
    rw [split, cleared, List.flatMap_append, lineBreaks_append, lineBreaks_append,
      List.flatMap_singleton, lineBreaks_blanked]
    rw [cleared] at ih
    rw [ih]

/-- A comment stands ahead: `//` or `/*` outside template text. -/
def commentAhead (top : Option Enclosure) (text : List Char) : Bool :=
  top ≠ some .template && (['/', '/'].isPrefixOf text || ['/', '*'].isPrefixOf text)

theorem commentAhead_iff {top : Option Enclosure} {text : List Char} :
    commentAhead top text = true ↔
      top ≠ some .template ∧ ∃ tail, text = '/' :: tail ∧ opensComment tail := by
  simp only [commentAhead, Bool.and_eq_true, decide_eq_true_eq, Bool.or_eq_true,
    List.isPrefixOf_iff_prefix]
  refine and_congr_right fun _ => ⟨?_, ?_⟩
  · rintro (⟨tail, rfl⟩ | ⟨tail, rfl⟩)
    · exact ⟨_, rfl, Or.inl rfl⟩
    · exact ⟨_, rfl, Or.inr rfl⟩
  · rintro ⟨tail, rfl, slash | star⟩
    · obtain ⟨tail, rfl⟩ := List.head?_eq_some_iff.mp slash
      exact Or.inl ⟨tail, rfl⟩
    · obtain ⟨tail, rfl⟩ := List.head?_eq_some_iff.mp star
      exact Or.inr ⟨tail, rfl⟩

theorem punctuation_ne {kind : Lexeme} (quiet : kind.quiet = true) (other : kind ≠ .mark)
    (x : Char) : punctuation x ≠ kind := by
  intro same
  rw [punctuation] at same
  split at same
  · rw [← same] at quiet
    cases quiet
  · split at same
    · rw [← same] at quiet
      cases quiet
    · rw [← same] at quiet
      cases quiet
    · exact other same.symm

theorem Lexes.blank_flag {flag after : Bool} {unit rest : List Char}
    (lexes : Lexes flag .blank unit rest after) : after = flag := by
  generalize named : Lexeme.blank = kind at lexes
  cases lexes with
  | blank => rfl
  | mark => exact absurd named.symm (punctuation_ne rfl (by simp) _)
  | _ => cases named

/-- A comment starts with a slash and leaves the flag as it is. -/
theorem Lexes.comment_text {flag after : Bool} {unit rest : List Char}
    (lexes : Lexes flag .comment unit rest after) :
    after = flag ∧ ∃ tail, unit = '/' :: tail ∧ opensComment (tail ++ rest) := by
  generalize named : Lexeme.comment = kind at lexes
  cases lexes with
  | lineComment => exact ⟨rfl, _, rfl, Or.inl rfl⟩
  | blockComment => exact ⟨rfl, _, rfl, Or.inr rfl⟩
  | mark => exact absurd named.symm (punctuation_ne rfl (by simp) _)
  | _ => cases named

/-- Of the lexemes that leave the nesting alone, comments are those with a comment ahead. -/
theorem Lexes.eq_comment {flag after : Bool} {kind : Lexeme} {unit rest tail : List Char}
    (lexes : Lexes flag kind unit rest after) (closed : kind ≠ .openComment)
    (ahead : unit ++ rest = '/' :: tail) (opens : opensComment tail) : kind = .comment := by
  -- any other kind begins with another character, or is ruled out by the comment ahead
  cases lexes with
  | lineComment | blockComment => rfl
  | openComment => exact absurd rfl closed
  | blank blank =>
    obtain ⟨rfl, -⟩ := List.cons.inj ahead
    cases blank
  | quoted quotes =>
    obtain ⟨rfl, -⟩ := List.cons.inj ahead
    rcases quotes with quote | quote <;> cases quote
  | regex code =>
    obtain ⟨-, rfl⟩ := List.cons.inj ahead
    exact absurd opens code
  | word starts =>
    obtain ⟨rfl, -⟩ := List.cons.inj ahead
    cases starts
  | mark _ _ _ divides =>
    obtain ⟨rfl, rfl⟩ := List.cons.inj ahead
    exact absurd opens (divides rfl).2

theorem commentAhead_of_lexes {top : Option Enclosure} {flag after : Bool} {unit rest : List Char}
    (code : top ≠ some .template) (lexes : Lexes flag .comment unit rest after) :
    commentAhead top (unit ++ rest) = true := by
  obtain ⟨-, tail, rfl, opens⟩ := lexes.comment_text
  exact commentAhead_iff.mpr ⟨code, _, rfl, opens⟩

/-- The unit is a comment where one stands ahead. -/
theorem Moves.lexes_comment {top : Option Enclosure} {flag after : Bool} {unit rest : List Char}
    {change : Change} (moves : Moves top flag unit rest change after)
    (ahead : commentAhead top (unit ++ rest) = true) :
    change = .stay ∧ after = flag ∧ Lexes flag .comment unit rest flag := by
  obtain ⟨outside, tail, text, opens⟩ := commentAhead_iff.mp ahead
  cases moves with
  | quiet _ lexes quiet =>
    obtain rfl := lexes.eq_comment (by rintro rfl; cases quiet) text opens
    obtain ⟨rfl, -⟩ := lexes.comment_text
    exact ⟨rfl, rfl, lexes⟩
  | opener _ lexes | backquote _ lexes | closer lexes =>
    cases lexes.eq_comment (by simp) text opens
  | escape | substitution | templateEnd | templateText => exact absurd rfl outside

/-- A text that starts with no comment starts with none when it is cut. -/
theorem commentAhead_cut {top : Option Enclosure} {text tail : List Char}
    (code : commentAhead top (text ++ tail) = false) : commentAhead top text = false := by
  match text with
  | [] => simp [commentAhead, List.isPrefixOf]
  | [x] => simp [commentAhead, List.isPrefixOf]
  | x :: y :: text => exact code

namespace Cursor

/-- The rest of a text with its comments cleared. -/
def uncomment (frames : List Frame) (c : Cursor) : List Char :=
  match _read : c.step frames with
  | .moved later next =>
    let unit := c.upTo next
    (if commentAhead (frames.head?.map Frame.enclosure) c.rest then cleared unit else unit) ++
      next.uncomment later
  | _ => c.rest
  termination_by c.rest.length
  decreasing_by exact step_length_lt _read

theorem uncomment_of_atEnd {frames : List Frame} {c : Cursor} (text : c.rest = []) :
    c.uncomment frames = [] := by
  rw [uncomment]
  split
  next moved =>
    have shorter := step_length_lt moved
    simp [text] at shorter
  · exact text

theorem uncomment_of_moved {frames later : List Frame} {c next : Cursor}
    (moved : c.step frames = .moved later next) :
    c.uncomment frames =
      (if commentAhead (frames.head?.map Frame.enclosure) c.rest then cleared (c.upTo next)
        else c.upTo next) ++ next.uncomment later := by
  rw [uncomment]
  split
  next same =>
    cases moved.symm.trans same
    rfl
  next other => exact absurd moved (other later next)

end Cursor

/-- A text with its comments cleared, as the scanner tells them. -/
def uncomment (text : List Char) : List Char :=
  (Cursor.start text).uncomment []

/-! What follows a unit -/

/-- The second text starts as the first does, but for a slash that is a space. -/
def SameFront (rest rest' : List Char) : Prop :=
  rest'.head? = rest.head? ∨ rest.head? = some '/' ∧ rest'.head? = some ' '

namespace SameFront

variable {rest rest' : List Char}

theorem eq_nil (same : SameFront rest rest') (none : rest = []) : rest' = [] := by
  subst none
  rcases same with same | ⟨slash, -⟩
  · exact List.head?_eq_none_iff.mp same
  · cases slash

theorem forall_head? (same : SameFront rest rest') {p : Char → Prop} (space : p ' ')
    (all : ∀ x ∈ rest.head?, p x) : ∀ x ∈ rest'.head?, p x := by
  rcases same with same | ⟨-, blank⟩
  · rwa [same]
  · rw [blank]
    intro x member
    rwa [← Option.some.inj member]

theorem head?_eq (same : SameFront rest rest') {x : Char} (other : x ≠ '/')
    (first : rest.head? = some x) : rest'.head? = some x := by
  rcases same with same | ⟨slash, -⟩
  · rwa [same]
  · exact absurd (Option.some.inj (first.symm.trans slash)) other

theorem head?_ne (same : SameFront rest rest') {x : Char} (other : x ≠ ' ')
    (differs : rest.head? ≠ some x) : rest'.head? ≠ some x := by
  rcases same with same | ⟨-, blank⟩
  · rwa [same]
  · rw [blank]
    exact fun eq => other (Option.some.inj eq).symm

theorem opensComment (same : SameFront rest rest') (opens : opensComment rest') :
    Scan.opensComment rest := by
  rcases same with same | ⟨slash, -⟩
  · rwa [Scan.opensComment, ← same]
  · exact Or.inl slash

end SameFront

theorem quoted_swap {quote : Char} {text rest rest' : List Char}
    (closed : quoted quote (text ++ rest) = (text, rest)) (same : SameFront rest rest') :
    quoted quote (text ++ rest') = (text, rest') := by
  generalize whole : text ++ rest = all at closed
  fun_induction quoted quote all generalizing text with
  | case1 =>
    obtain ⟨rfl, rfl⟩ := List.append_eq_nil_iff.mp whole
    rw [same.eq_nil rfl]
    rfl
  | case2 x after front back read ih =>
    obtain ⟨rfl, rfl⟩ := Prod.mk.inj closed
    simp only [List.cons_append, List.cons.injEq, true_and] at whole
    simp [quoted, ih whole read]
  | case3 after escapes =>
    -- a line break ends the literal, and no comment starts with one
    obtain ⟨rfl, rfl⟩ := Prod.mk.inj closed
    obtain ⟨behind, rfl⟩ := List.head?_eq_some_iff.mp (same.head?_eq (by decide) rfl)
    rw [List.nil_append, quoted_cons (fun back => absurd back (by decide)), if_pos rfl]
  | case4 after escapes newline =>
    obtain ⟨rfl, rfl⟩ := Prod.mk.inj closed
    rw [List.cons_append, List.nil_append, quoted_cons, if_neg newline, if_pos rfl]
    exact fun back => same.eq_nil (eq_nil_of_no_escape escapes back)
  | case5 x after escapes newline other front back read ih =>
    obtain ⟨rfl, rfl⟩ := Prod.mk.inj closed
    simp only [List.cons_append, List.cons.injEq, true_and] at whole
    rw [List.cons_append, quoted_cons, if_neg newline, if_neg other, ih whole read]
    -- a backslash that escapes nothing ends the text
    intro back
    rw [eq_nil_of_no_escape escapes back, List.append_eq_nil_iff] at whole
    rw [whole.1, same.eq_nil whole.2, List.append_nil]

theorem regexBody_swap {inClass : Bool} {text rest rest' : List Char}
    (closed : regexBody inClass (text ++ rest) = (text, rest)) (same : SameFront rest rest') :
    regexBody inClass (text ++ rest') = (text, rest') := by
  generalize whole : text ++ rest = all at closed
  fun_induction regexBody inClass all generalizing text with
  | case1 =>
    obtain ⟨rfl, rfl⟩ := List.append_eq_nil_iff.mp whole
    rw [same.eq_nil rfl]
    rfl
  | case2 inClass x after front back read ih =>
    obtain ⟨rfl, rfl⟩ := Prod.mk.inj closed
    simp only [List.cons_append, List.cons.injEq, true_and] at whole
    simp [regexBody, ih whole read]
  | case3 inClass after escapes =>
    obtain ⟨rfl, rfl⟩ := Prod.mk.inj closed
    obtain ⟨behind, rfl⟩ := List.head?_eq_some_iff.mp (same.head?_eq (by decide) rfl)
    rw [List.nil_append, regexBody_cons (fun back => absurd back (by decide)), if_pos rfl]
  | case4 inClass x after escapes newline slash =>
    obtain ⟨rfl, rfl⟩ := Prod.mk.inj closed
    -- the flags behind the last slash end in front of a comment as in front of a space
    have ends : ∀ y ∈ rest'.head?, isWordPart y = false :=
      same.forall_head? (by decide) (head?_dropWhile_forall isWordPart after)
    obtain ⟨front, back⟩ := takeWhile_append_of
      (fun y (member : y ∈ after.takeWhile isWordPart) => List.mem_takeWhile_imp member) ends
    have notBack : x ≠ '\\' := by
      simp only [Bool.and_eq_true, decide_eq_true_eq] at slash
      rw [slash.1]
      decide
    rw [List.cons_append, regexBody_cons (fun back => absurd back notBack), if_neg newline,
      if_pos slash, front, back]
  | case5 inClass x after escapes newline slash inClass' front back read =>
    rename_i ih
    obtain ⟨rfl, rfl⟩ := Prod.mk.inj closed
    simp only [List.cons_append, List.cons.injEq, true_and] at whole
    rw [List.cons_append, regexBody_cons, if_neg newline, if_neg slash]
    · simp only
      rw [ih whole read]
    · intro back
      rw [eq_nil_of_no_escape escapes back, List.append_eq_nil_iff] at whole
      rw [whole.1, same.eq_nil whole.2, List.append_nil]

/-- A lexeme that is no comment is read alike in front of both texts. -/
theorem Lexes.swap {flag after : Bool} {kind : Lexeme} {text rest rest' : List Char}
    (lexes : Lexes flag kind text rest after) (code : kind ≠ .comment)
    (same : SameFront rest rest') : Lexes flag kind text rest' after := by
  cases lexes with
  | lineComment | blockComment => exact absurd rfl code
  | blank blank => exact .blank blank
  | openComment unclosed =>
    rw [same.eq_nil rfl]
    exact .openComment unclosed
  | quoted quotes closed => exact .quoted quotes (quoted_swap closed same)
  | @regex text _ code closed =>
    -- a slash alone is no comment there if it is none here
    refine .regex (fun opens => code ?_) (regexBody_swap closed same)
    cases text with
    | nil => exact same.opensComment opens
    | cons x text => exact opens
  | word starts inside ends => exact .word starts inside (same.forall_head? (by decide) ends)
  | mark notBlank notQuote notWord divides =>
    refine .mark notBlank notQuote notWord fun slash => ⟨(divides slash).1, fun opens => ?_⟩
    exact (divides slash).2 (same.opensComment opens)

/-- A unit that is no comment is read alike in front of both texts. -/
theorem Moves.swap {top : Option Enclosure} {flag after : Bool} {unit rest rest' : List Char}
    {change : Change} (moves : Moves top flag unit rest change after)
    (code : commentAhead top (unit ++ rest) = false) (same : SameFront rest rest') :
    Moves top flag unit rest' change after := by
  cases moves with
  | @quiet _ _ _ kind _ _ outside lexes quiet =>
    refine .quiet outside (lexes.swap ?_ same) quiet
    rintro rfl
    rw [commentAhead_of_lexes outside lexes] at code
    cases code
  | opener outside lexes => exact .opener outside (lexes.swap (by simp) same)
  | closer lexes => exact .closer (lexes.swap (by simp) same)
  | backquote outside lexes => exact .backquote outside (lexes.swap (by simp) same)
  | escape x => exact .escape x
  | substitution => exact .substitution
  | templateEnd => exact .templateEnd
  | templateText notTick noEscape noOpen =>
    exact .templateText notTick (fun escape => same.eq_nil (noEscape escape))
      fun dollar => same.head?_ne (by decide) (noOpen dollar)

/-! Runs that clear comments -/

/-- Read in front of `rest`, the units of the first text lead from the enclosures `around` to
`later`, and the second text is the first with its comments cleared. -/
inductive Clears : List Enclosure → Bool → List Char → List Char → List Char → List Enclosure →
    Bool → Prop
  | done {around : List Enclosure} {flag : Bool} {rest : List Char} :
      Clears around flag [] [] rest around flag
  | kept {around later : List Enclosure} {flag after last : Bool} {unit text text' rest : List Char}
      {change : Change} (moves : Moves around.head? flag unit (text ++ rest) change after)
      (code : commentAhead around.head? (unit ++ (text ++ rest)) = false)
      (more : Clears (change.on around) after text text' rest later last) :
      Clears around flag (unit ++ text) (unit ++ text') rest later last
  | comment {around later : List Enclosure} {flag last : Bool} {unit text text' rest : List Char}
      (outside : around.head? ≠ some .template)
      (lexes : Lexes flag .comment unit (text ++ rest) flag)
      (more : Clears around flag text text' rest later last) :
      Clears around flag (unit ++ text) (cleared unit ++ text') rest later last

namespace Clears

variable {around middle later : List Enclosure} {flag after last : Bool}
  {first first' text text' rest tail : List Char}

theorem trans (front : Clears around flag first first' (text ++ rest) middle after)
    (back : Clears middle after text text' rest later last) :
    Clears around flag (first ++ text) (first' ++ text') rest later last := by
  generalize whole : text ++ rest = all at front
  induction front with
  | done => exact back
  | kept moves code _ ih =>
    subst whole
    rw [List.append_assoc, List.append_assoc]
    exact .kept (by simpa using moves) (by simpa using code) (ih back rfl)
  | comment outside lexes _ ih =>
    subst whole
    rw [List.append_assoc, List.append_assoc]
    exact .comment outside (by simpa using lexes) (ih back rfl)

theorem cut (clears : Clears around flag text text' (rest ++ tail) later last) :
    Clears around flag text text' rest later last := by
  generalize whole : rest ++ tail = all at clears
  induction clears with
  | done => exact .done
  | kept moves code _ ih =>
    subst whole
    rw [← List.append_assoc] at moves code
    rw [← List.append_assoc] at code
    rw [List.append_assoc _ _ rest] at code
    exact .kept moves.cut (commentAhead_cut code) (ih rfl)
  | comment outside lexes _ ih =>
    subst whole
    rw [← List.append_assoc] at lexes
    exact .comment outside lexes.cut (ih rfl)

/-- What stands in front of the text does not see the clearing. -/
theorem sameFront (clears : Clears around flag text text' [] later last) :
    SameFront text text' := by
  cases clears with
  | done => exact Or.inl rfl
  | kept moves =>
    obtain ⟨x, unit, rfl⟩ := List.exists_cons_of_ne_nil moves.ne_nil
    exact Or.inl rfl
  | comment _ lexes =>
    obtain ⟨-, unit, rfl, -⟩ := lexes.comment_text
    exact Or.inr ⟨rfl, rfl⟩

theorem ne_nil (clears : Clears around flag text text' rest [] last) (inside : around ≠ []) :
    text ≠ [] := by
  cases clears with
  | done => exact absurd rfl inside
  | kept moves => simp [moves.ne_nil]
  | comment _ lexes => simp [lexes.ne_nil]

end Clears

/-- Clearing the comments of a text that balances. -/
theorem Cursor.clears_uncomment {frames : List Frame} {c : Cursor}
    (balanced : c.imbalance? frames = none) :
    ∃ last,
      Clears (frames.map Frame.enclosure) c.regexOk c.rest (c.uncomment frames) [] [] last := by
  fun_induction Cursor.imbalance? frames c with
  | case1 frames c ended =>
    obtain ⟨rfl, text⟩ := eq_nil_of_ended ended
    rw [uncomment_of_atEnd text, text]
    exact ⟨_, .done⟩
  | case2 => cases balanced
  | case3 frames c later next moved ih =>
    obtain ⟨last, more⟩ := ih balanced
    obtain ⟨unit, change, split, -, moves, rfl⟩ := moves_of_step moved
    rw [Change.map_frames] at more
    refine ⟨last, ?_⟩
    rw [uncomment_of_moved moved, upTo_eq split, ← List.head?_map]
    rw [← List.head?_map] at moves
    -- each move is a comment that is blanked or code that is kept
    by_cases ahead : commentAhead (frames.map Frame.enclosure).head? c.rest = true
    · rw [if_pos ahead, split]
      rw [split] at ahead
      obtain ⟨rfl, same, lexes⟩ := moves.lexes_comment ahead
      rw [same] at more
      exact .comment (commentAhead_iff.mp ahead).1 (by simpa using lexes) more
    · rw [if_neg ahead, split]
      rw [split] at ahead
      exact .kept (by simpa using moves) (by simpa using ahead) more

/-- Clearing has one outcome. -/
theorem Clears.eq_uncomment {frames : List Frame} {c : Cursor} {text' : List Char} {last : Bool}
    (clears : Clears (frames.map Frame.enclosure) c.regexOk c.rest text' [] [] last) :
    text' = c.uncomment frames := by
  generalize enclosed : frames.map Frame.enclosure = around at clears
  generalize flagged : c.regexOk = flag at clears
  generalize left : c.rest = text at clears
  generalize ended : ([] : List Char) = rest at clears
  generalize closed : ([] : List Enclosure) = later at clears
  -- by induction over the clearing, whose every move is the one step that the cursor takes there
  induction clears generalizing frames c with
  | done => rw [Cursor.uncomment_of_atEnd left]
  | kept moves code _ ih =>
    subst enclosed flagged ended
    rw [List.append_nil] at moves code
    rw [List.head?_map] at moves code
    have stepped := Cursor.step_of_moves moves left
    rw [Cursor.uncomment_of_moved stepped, Cursor.upTo_eq left, left, code, if_neg (by decide)]
    exact congrArg _ (ih (Change.map_frames _ _ _) rfl rfl rfl closed)
  | comment outside lexes _ ih =>
    subst enclosed flagged ended
    rw [List.append_nil] at lexes
    rw [List.head?_map] at outside
    have stepped := Cursor.step_of_moves (.quiet outside lexes rfl) left
    rw [Cursor.uncomment_of_moved stepped, Cursor.upTo_eq left, left,
      if_pos (commentAhead_of_lexes outside lexes)]
    exact congrArg _ (ih (Change.map_frames .stay _ _) rfl rfl rfl closed)

end Concord.Scan
