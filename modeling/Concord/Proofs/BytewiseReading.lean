import Concord.Proofs.ClearedTokens
import Concord.Proofs.MaskedBytes
import Concord.Scan.Operation

/-!
Reading byte by byte. A cursor can as well go over the UTF-8 bytes of a text, one byte at a time and
without knowing where a character ends; an escape then steps over one byte. Beside a cursor that
reads characters it always comes to the same place: what it leaves unread are the bytes of whole
characters.
-/
namespace Concord.Scan

open Concord.Text

/-! The bytes of a text -/

theorem mem_latin {x : Char} (narrow : isWide x = false) {text : List Char} :
    x ∈ latin text ↔ x ∈ text := by
  induction text with
  | nil => rfl
  | cons c rest ih =>
    rw [latin_cons, List.mem_append, ih, List.mem_cons]
    rcases latin_singleton c with ⟨wide, y, more, whole, all⟩ | ⟨-, whole⟩
    · have here : x ∉ latin [c] := by
        intro member
        rw [all x (whole ▸ member)] at narrow
        cases narrow
      have other : x ≠ c := by
        rintro rfl
        rw [wide] at narrow
        cases narrow
      simp [here, other]
    · rw [whole, List.mem_singleton]

theorem latin_eq_nil_iff {text : List Char} : latin text = [] ↔ text = [] := by
  cases text with
  | nil => rfl
  | cons c rest =>
    rcases latin_singleton c with ⟨-, y, more, whole, -⟩ | ⟨-, whole⟩ <;>
      simp [latin_cons c rest, whole]

/-- An ASCII character in front is the first byte. -/
theorem head?_latin_eq {text : List Char} (narrow : ∀ x ∈ text.head?, isWide x = false) :
    (latin text).head? = text.head? := by
  cases text with
  | nil => rfl
  | cons c rest => rw [latin_narrow (narrow c rfl), List.head?_cons, List.head?_cons]

theorem narrow_of_not_isWordPart {c : Char} (other : isWordPart c = false) :
    isWide c = false := by
  rw [← Bool.not_eq_true]
  intro wide
  rw [isWordPart_of_isWide wide] at other
  cases other

theorem lineBreaks_latin (text : List Char) : lineBreaks (latin text) = lineBreaks text := by
  induction text with
  | nil => rfl
  | cons c rest ih =>
    rw [latin_cons, lineBreaks_append, ih]
    rcases latin_singleton c with ⟨wide, y, more, whole, all⟩ | ⟨-, whole⟩
    · have none : lineBreaks (latin [c]) = 0 := by
        rw [lineBreaks, List.count_eq_zero, whole]
        intro member
        exact absurd (all _ member) (by decide)
      have other : lineBreaks (c :: rest) = lineBreaks rest :=
        List.count_cons_of_ne (Masking.ne_of_isWide wide rfl)
      rw [none, other, Nat.zero_add]
    · rw [whole, ← lineBreaks_append]
      rfl

theorem dropWhile_latin (text : List Char) :
    (latin text).dropWhile isWordPart = latin (text.dropWhile isWordPart) := by
  have whole := congrArg latin (List.takeWhile_append_dropWhile (p := isWordPart) (l := text))
  rw [latin_append, ← takeWhile_latin] at whole
  have bytes := List.takeWhile_append_dropWhile (p := isWordPart) (l := latin text)
  exact List.append_cancel_left (bytes.trans whole.symm)

/-! Literals and comments -/

/-- Wide characters inside quotes are passed over. -/
theorem quoted_wide {quote : Char} (narrow : isWide quote = false) {front : List Char}
    (wide : ∀ x ∈ front, isWide x = true) (rest : List Char) :
    quoted quote (front ++ rest) = (front ++ (quoted quote rest).1, (quoted quote rest).2) := by
  induction front with
  | nil => rfl
  | cons x front ih =>
    have here : isWide x = true := wide x List.mem_cons_self
    have plain : x ≠ '\\' := Masking.ne_of_isWide here rfl
    rw [List.cons_append, quoted_cons (fun escape => absurd escape plain),
      if_neg (Masking.ne_of_isWide here rfl), if_neg (Masking.ne_of_isWide here narrow),
      ih (List.forall_mem_of_forall_mem_cons wide)]
    rfl

/-- A literal of bytes ends where the literal of characters does. -/
theorem quoted_latin {quote : Char} (narrow : isWide quote = false) (text : List Char) :
    quoted quote (latin text) = (latin (quoted quote text).1, latin (quoted quote text).2) := by
  fun_induction quoted quote text with
  | case1 => rfl
  | case2 c rest front tail read ih =>
    rw [@latin_narrow '\\' rfl, @latin_narrow '\\' rfl, latin_cons c rest, latin_cons c front]
    rw [read] at ih
    -- the bytes behind the one that is escaped are inert
    rcases latin_singleton c with ⟨-, x, more, whole, all⟩ | ⟨-, whole⟩
    · rw [whole, List.cons_append, quoted,
        quoted_wide narrow (List.forall_mem_of_forall_mem_cons all), ih]
      rfl
    · rw [whole, List.singleton_append, quoted, ih]
      rfl
  | case3 rest escapes =>
    rw [latin_narrow rfl, quoted_cons (by simp), if_pos rfl]
    rfl
  | case4 rest escapes newline =>
    rw [latin_narrow narrow, quoted_cons, if_neg newline, if_pos rfl, latin_narrow narrow]
    · rfl
    · intro escape
      rw [eq_nil_of_no_escape escapes escape]
      rfl
  | case5 c rest escapes newline other front tail read ih =>
    rw [latin_cons c rest, latin_cons c front]
    rw [read] at ih
    rcases latin_singleton c with ⟨-, x, more, whole, all⟩ | ⟨-, whole⟩
    · rw [whole, quoted_wide narrow all, ih]
    · rw [whole, List.singleton_append, quoted_cons, if_neg newline, if_neg other, ih]
      · rfl
      · intro escape
        rw [eq_nil_of_no_escape escapes escape]
        rfl

theorem regexBody_wide (inClass : Bool) {front : List Char} (wide : ∀ x ∈ front, isWide x = true)
    (rest : List Char) : regexBody inClass (front ++ rest) =
      (front ++ (regexBody inClass rest).1, (regexBody inClass rest).2) := by
  induction front with
  | nil => rfl
  | cons x front ih =>
    have other {y : Char} (narrow : isWide y = false) : x ≠ y :=
      Masking.ne_of_isWide (wide x List.mem_cons_self) narrow
    have body := ih (List.forall_mem_of_forall_mem_cons wide)
    have escape : x ≠ '\\' := other rfl
    have slash : x ≠ '/' := other rfl
    rw [List.cons_append, regexBody_cons (fun same => absurd same escape), if_neg (other rfl),
      if_neg (by simp [slash]), if_neg (other rfl), if_neg (other rfl), body]
    rfl

theorem regexBody_latin (inClass : Bool) (text : List Char) : regexBody inClass (latin text) =
    (latin (regexBody inClass text).1, latin (regexBody inClass text).2) := by
  fun_induction regexBody inClass text with
  | case1 => rfl
  -- an escape and the character behind it; of a wide one the other bytes are read as plain
  -- characters of the body
  | case2 inClass c rest front tail read ih =>
    rw [@latin_narrow '\\' rfl, @latin_narrow '\\' rfl, latin_cons c rest, latin_cons c front]
    rw [read] at ih
    rcases latin_singleton c with ⟨-, x, more, whole, all⟩ | ⟨-, whole⟩
    · rw [whole, List.cons_append, regexBody,
        regexBody_wide inClass (List.forall_mem_of_forall_mem_cons all), ih]
      rfl
    · rw [whole, List.singleton_append, regexBody, ih]
      rfl
  | case3 inClass rest escapes =>
    rw [latin_narrow rfl, regexBody_cons (by simp), if_pos rfl]
    rfl
  -- the closing slash and the flags behind it, which are a run of word characters in both
  | case4 inClass c rest escapes newline closes =>
    have slash : c = '/' := by
      rw [Bool.and_eq_true, decide_eq_true_eq] at closes
      exact closes.1
    subst slash
    rw [latin_narrow rfl, regexBody_cons (by simp), if_neg (by decide), if_pos closes,
      takeWhile_latin, dropWhile_latin, latin_narrow rfl]
  | case5 inClass c rest escapes newline other now front tail read ih =>
    rw [latin_cons c rest, latin_cons c front]
    rw [read] at ih
    rcases latin_singleton c with ⟨wide, x, more, whole, all⟩ | ⟨-, whole⟩
    · -- neither bracket of a character class is wide
      have stays : now = inClass := by
        have opener : c ≠ '[' := Masking.ne_of_isWide wide rfl
        have closer : c ≠ ']' := Masking.ne_of_isWide wide rfl
        simp [now, opener, closer]
      rw [stays] at ih
      rw [whole, regexBody_wide inClass all, ih]
    · rw [whole, List.singleton_append, regexBody_cons, if_neg newline, if_neg other]
      · exact congrArg (fun body => (c :: body.1, body.2)) ih
      · intro escape
        rw [eq_nil_of_no_escape escapes escape]
        rfl

theorem blockComment_wide {front : List Char} (wide : ∀ x ∈ front, isWide x = true)
    (rest : List Char) : blockComment (front ++ rest) =
      (blockComment rest).map fun (text, tail) => (front ++ text, tail) := by
  induction front with
  | nil => simp
  | cons x front ih =>
    have inside : ¬ (x = '*' ∧ (front ++ rest).head? = some '/') := fun closes =>
      Masking.ne_of_isWide (wide x List.mem_cons_self) rfl closes.1
    rw [List.cons_append, blockComment_cons inside,
      ih (List.forall_mem_of_forall_mem_cons wide), Option.map_map]
    rfl

/-- A block comment of bytes ends where the one of characters does. -/
theorem blockComment_latin (text : List Char) :
    blockComment (latin text) = (blockComment text).map (Prod.map latin latin) := by
  fun_induction blockComment text with
  | case1 => rfl
  -- `*/` closes both, and in front of it every byte of a wide character is inside
  | case2 rest =>
    rw [latin_narrow rfl, latin_narrow rfl, blockComment]
    rfl
  | case3 c rest inside ih =>
    rw [latin_cons, Option.map_map]
    rcases latin_singleton c with ⟨-, x, more, whole, all⟩ | ⟨-, whole⟩
    · rw [whole, blockComment_wide all, ih, Option.map_map]
      congr 1
      funext closed
      simp only [Function.comp_apply, Prod.map]
      rw [latin_cons c, whole]
    · rw [whole, List.singleton_append, blockComment_cons, ih, Option.map_map]
      · congr 1
        funext closed
        simp only [Function.comp_apply, Prod.map]
        rw [latin_cons c, whole, List.singleton_append]
      -- a character that begins no `*/` begins none among the bytes either
      · rintro ⟨rfl, slash⟩
        rw [head?_latin rfl] at slash
        obtain ⟨tail, rfl⟩ := List.head?_eq_some_iff.mp slash
        exact inside tail rfl rfl

theorem opensComment_latin (rest : List Char) : opensComment (latin rest) ↔ opensComment rest := by
  rw [opensComment, opensComment, head?_latin rfl, head?_latin rfl]

/-- The bytes of a lexeme are a lexeme in front of the bytes that follow. -/
theorem Lexes.bytewise {flag after : Bool} {kind : Lexeme} {text rest : List Char}
    (lexes : Lexes flag kind text rest after) :
    Lexes flag kind (latin text) (latin rest) after := by
  cases lexes with
  | @blank _ x _ blank =>
    -- blanks, quotes and marks are narrow, so each is its own single byte
    have narrow : isWide x = false := by
      simp only [isAsciiBlank, Bool.or_eq_true, decide_eq_true_eq] at blank
      rcases blank with (((rfl | rfl) | rfl) | rfl) | rfl <;> rfl
    rw [latin_narrow narrow]
    exact .blank blank
  -- a comment ends in front of a line break, and no byte of a wide character is one
  | @lineComment _ text _ inside ends =>
    rw [latin_narrow rfl, latin_narrow rfl]
    refine .lineComment ?_ ?_
    · rintro x member rfl
      exact inside _ ((mem_latin rfl).mp member) rfl
    · rwa [head?_latin_eq fun x first => by rw [ends x first]; rfl]
  | @blockComment _ text _ closed =>
    rw [latin_narrow rfl, latin_narrow rfl]
    apply Lexes.blockComment
    rw [← latin_append, blockComment_latin, closed]
    rfl
  | @openComment _ text unclosed =>
    rw [latin_narrow rfl, latin_narrow rfl]
    apply Lexes.openComment
    rw [blockComment_latin, unclosed]
    rfl
  | @quoted _ quote text _ quotes closed =>
    have narrow : isWide quote = false := by rcases quotes with rfl | rfl <;> rfl
    rw [latin_narrow narrow]
    refine .quoted quotes ?_
    rw [← latin_append, quoted_latin narrow, closed]
  | @regex text _ code closed =>
    rw [latin_narrow rfl]
    refine .regex ?_ ?_
    · rwa [← latin_append, opensComment_latin]
    · rw [← latin_append, regexBody_latin, closed]
  -- every byte of a wide character is a part of a word, so a word ends where its bytes do
  | @word _ x text _ starts inside ends =>
    have behind : ∀ y ∈ (latin rest).head?, isWordPart y = false := by
      rwa [head?_latin_eq fun y first => narrow_of_not_isWordPart (ends y first)]
    have within : ∀ y ∈ latin text, isWordPart y = true := by
      have run := takeWhile_latin text
      rw [List.takeWhile_eq_self_iff.mpr inside] at run
      exact List.takeWhile_eq_self_iff.mp run
    rw [latin_cons]
    rcases latin_singleton x with ⟨wide, y, more, whole, all⟩ | ⟨-, whole⟩
    · -- a wide character starts a word of wide bytes, and neither is a keyword
      have first : isWordStart y = true := by
        have wide := all y List.mem_cons_self
        rw [isWide] at wide
        simp [isWordStart, wide]
      rw [whole, regexMayFollowWord_wide List.mem_cons_self wide,
        ← regexMayFollowWord_wide List.mem_cons_self (all y List.mem_cons_self)]
      refine .word first (fun z member => ?_) behind
      rcases List.mem_append.mp member with member | member
      · exact isWordPart_of_isWide (all z (List.mem_cons_of_mem y member))
      · exact within z member
    · rw [whole, ← regexMayFollowWord_latin]
      exact .word starts within behind
  | @mark _ x _ notBlank notQuote notWord divides =>
    have narrow : isWide x = false := by
      rw [isWordStart, Bool.or_eq_false_iff] at notWord
      exact notWord.2
    rw [latin_narrow narrow]
    refine .mark notBlank notQuote notWord fun slash => ?_
    rw [opensComment_latin]
    exact divides slash

/-- A wide character is no mark of a template. -/
theorem Moves.wideText {flag : Bool} {x : Char} {rest : List Char} (wide : isWide x = true) :
    Moves (some .template) flag [x] rest .stay false := by
  have other {y : Char} (narrow : isWide y = false) : x ≠ y := Masking.ne_of_isWide wide narrow
  apply Moves.templateText (other rfl)
  · exact fun escape => absurd escape (other rfl)
  · exact fun dollar => absurd dollar (other rfl)

/-! Cursors -/

namespace Cursor

/-- `b` leaves the bytes of what `c` leaves, on the same line. The offset of `b` counts each byte as
the character it stands for, so what is left tells its place. -/
structure Bytewise (c b : Cursor) : Prop where
  rest : b.rest = latin c.rest
  line : b.line = c.line
  regexOk : b.regexOk = c.regexOk

/-- Two readings go on to the same place, or stop at the same place. -/
inductive BothCome : Except Halt Cursor → Except Halt Cursor → Prop
  | ok {next next' : Cursor} (place : next.Bytewise next') : BothCome (.ok next) (.ok next')
  | error {halt halt' : Halt} (place : halt.cursor.Bytewise halt'.cursor) :
      BothCome (.error halt) (.error halt')

theorem close_template {line : Nat} {below : List Frame} {c : Cursor} {text rest : List Char}
    {change : Change} {after : Bool}
    (moves : Moves (some .template) c.regexOk text rest change after)
    (split : c.rest = text ++ rest) :
    close (.template line :: below) c =
      close (change.frames c.line (.template line :: below)) (c.advance text rest after) := by
  apply close_of_moved
  exact @step_of_moves (.template line :: below) _ _ _ _ _ moves split

/-- Wide characters of a template are text. -/
theorem close_template_wide {line : Nat} {below : List Frame} {c : Cursor}
    {front rest : List Char} (split : c.rest = front ++ rest)
    (wide : ∀ x ∈ front, isWide x = true) (flag : c.regexOk = false) :
    close (.template line :: below) c =
      close (.template line :: below) (c.advance front rest false) := by
  induction front generalizing c with
  | nil =>
    rw [List.nil_append] at split
    rw [← flag, advance_nil split]
  | cons x front ih =>
    have moves : Moves (some .template) c.regexOk [x] (front ++ rest) .stay false :=
      .wideText (wide x List.mem_cons_self)
    rw [close_template moves split, Change.frames,
      ih rfl (List.forall_mem_of_forall_mem_cons wide) rfl, advance_append]
    rfl

namespace Bytewise

variable {c b next : Cursor}

theorem start (text : List Char) : (Cursor.start text).Bytewise (Cursor.start (latin text)) :=
  ⟨rfl, rfl, rfl⟩

theorem advance (same : c.Bytewise b) (text rest : List Char) (flag : Bool) :
    (c.advance text rest flag).Bytewise (b.advance (latin text) (latin rest) flag) := by
  refine ⟨rfl, ?_, rfl⟩
  simp only [Cursor.advance]
  rw [lineBreaks_latin, same.line]

theorem lexeme (same : c.Bytewise b) {kind : Lexeme} (read : c.lexeme? = some (kind, next)) :
    ∃ next', b.lexeme? = some (kind, next') ∧ next.Bytewise next' := by
  obtain ⟨text, split, moved, lexes⟩ := lexeme?_lexes read
  have bytes := lexes.bytewise
  rw [← same.regexOk] at bytes
  refine ⟨_, lexeme?_of_lexes bytes ?_, ?_⟩
  · rw [same.rest, split, latin_append]
  · rw [moved]
    exact same.advance _ _ _

theorem no_lexeme (same : c.Bytewise b) (unread : c.lexeme? = none) : b.lexeme? = none := by
  rw [lexeme?_eq_none_iff, same.rest, latin_eq_nil_iff, ← lexeme?_eq_none_iff]
  exact unread

/-- In a template an escape takes a character here and a byte there. The bytes behind that are
text. -/
theorem close_escape (same : c.Bytewise b) (line : Nat) (below : List Frame) {x : Char}
    {rest : List Char} (text : c.rest = '\\' :: x :: rest) :
    Cursor.close (.template line :: below) b = Cursor.close (.template line :: below)
      (b.advance (latin ['\\', x]) (latin rest) false) := by
  have split := same.rest
  rw [text, latin_narrow rfl, latin_cons] at split
  rw [latin_narrow rfl]
  rcases latin_singleton x with ⟨-, y, more, whole, all⟩ | ⟨-, whole⟩
  · rw [whole] at split ⊢
    rw [close_template (.escape y) split, Change.frames,
      close_template_wide rfl (List.forall_mem_of_forall_mem_cons all) rfl,
      advance_append]
    rfl
  · rw [whole] at split ⊢
    exact close_template (.escape x) split

/-- A character of a template that is no mark is text, and so are its bytes. -/
theorem close_templateText (same : c.Bytewise b) (line : Nat) (below : List Frame) {x : Char}
    {rest : List Char} (text : c.rest = x :: rest) (notTick : x ≠ '\x60')
    (noEscape : x = '\\' → rest = []) (noOpen : x = '$' → rest.head? ≠ some '\x7b') :
    Cursor.close (.template line :: below) b = Cursor.close (.template line :: below)
      (b.advance (latin [x]) (latin rest) false) := by
  have split := same.rest
  rw [text, latin_cons] at split
  -- by the width of the character: the bytes of a wide one are passed together, a narrow one is
  -- itself
  rcases latin_singleton x with ⟨-, y, more, whole, all⟩ | ⟨-, whole⟩
  · rw [whole] at split ⊢
    have moves : Moves (some .template) b.regexOk [y] (more ++ latin rest) .stay false :=
      .wideText (all y List.mem_cons_self)
    rw [close_template moves split, Change.frames,
      close_template_wide rfl (List.forall_mem_of_forall_mem_cons all) rfl,
      advance_append]
    rfl
  · rw [whole] at split ⊢
    have moves : Moves (some .template) b.regexOk [x] (latin rest) .stay false := by
      apply Moves.templateText notTick
      · exact fun escape => latin_eq_nil_iff.mpr (noEscape escape)
      · exact fun dollar opens => noOpen dollar ((head?_latin rfl rest).mp opens)
    exact close_template moves split

/-- What is open is closed in both, or in neither. -/
theorem close (same : c.Bytewise b) (frames : List Frame) :
    BothCome (Cursor.close frames c) (Cursor.close frames b) := by
  fun_induction Cursor.close frames c generalizing b with
  -- inside a group lexemes are read, so the same one is read in both; the frames go the same way
  | case1 c =>
    rw [Cursor.close]
    exact .ok same
  | case2 bracket line frames c read =>
    rw [Cursor.close, same.no_lexeme read]
    exact .error same
  | case3 bracket line frames c next read =>
    obtain ⟨next', read', place⟩ := same.lexeme read
    rw [Cursor.close, read']
    exact .error place
  | case4 bracket line frames c inner next read ih =>
    obtain ⟨next', read', place⟩ := same.lexeme read
    have closed : Cursor.close (.group bracket line :: frames) b =
        Cursor.close (.group inner b.line :: .group bracket line :: frames) next' := by
      rw [Cursor.close, read']
    rw [closed, same.line]
    exact ih place
  | case5 line frames c other next read ih =>
    obtain ⟨next', read', place⟩ := same.lexeme read
    have closed : Cursor.close (.group other line :: frames) b = Cursor.close frames next' := by
      rw [Cursor.close, read']
      exact if_pos rfl
    rw [closed]
    exact ih place
  | case6 bracket line frames c other next read differ =>
    obtain ⟨next', read', place⟩ := same.lexeme read
    rw [Cursor.close, read']
    dsimp only
    rw [if_neg differ]
    exact .error same
  | case7 bracket line frames c next read ih =>
    obtain ⟨next', read', place⟩ := same.lexeme read
    have closed : Cursor.close (.group bracket line :: frames) b =
        Cursor.close (.template b.line :: .group bracket line :: frames) next' := by
      rw [Cursor.close, read']
    rw [closed, same.line]
    exact ih place
  | case8 bracket line frames c kind next noComment noOpener noCloser noTick read ih =>
    obtain ⟨next', read', place⟩ := same.lexeme read
    have closed : Cursor.close (.group bracket line :: frames) b =
        Cursor.close (.group bracket line :: frames) next' := by
      rw [Cursor.close, read']
      cases kind <;> simp_all
    rw [closed]
    exact ih place
  -- inside a template single characters are read, and only the mark, the escape and `$` matter, all
  -- of them narrow
  | case9 line frames c text =>
    have ended : b.rest = [] := by rw [same.rest, text]; rfl
    rw [Cursor.close, ended]
    exact .error same
  | case10 line frames c x rest text ih =>
    rw [same.close_escape line frames text]
    exact ih (same.advance ['\\', x] rest false)
  | case11 line frames c rest text ih =>
    have split : b.rest = ['$', '\x7b'] ++ latin rest := by
      rw [same.rest, text, latin_narrow rfl, latin_narrow rfl]
      rfl
    rw [close_template .substitution split, Change.frames, same.line]
    exact ih (same.advance ['$', '\x7b'] rest true)
  | case12 line frames c rest escape opens text ih =>
    have split : b.rest = ['\x60'] ++ latin rest := by
      rw [same.rest, text, latin_narrow rfl]
      rfl
    rw [close_template .templateEnd split]
    exact ih (same.advance ['\x60'] rest false)
  | case13 line frames c x rest escape opens text other ih =>
    rw [same.close_templateText line frames text other (eq_nil_of_no_escape escape)]
    · exact ih (same.advance [x] rest false)
    · intro dollar shown
      obtain ⟨tail, rfl⟩ := List.head?_eq_some_iff.mp shown
      exact opens tail dollar rfl

theorem skipTrivia (same : c.Bytewise b) : BothCome c.skipTrivia b.skipTrivia := by
  fun_induction Cursor.skipTrivia c generalizing b with
  | case1 c next read ih =>
    obtain ⟨next', read', place⟩ := same.lexeme read
    rw [skipTrivia_of_trivia read' (Or.inl rfl)]
    exact ih place
  | case2 c next read ih =>
    obtain ⟨next', read', place⟩ := same.lexeme read
    rw [skipTrivia_of_trivia read' (Or.inr rfl)]
    exact ih place
  | case3 c next read =>
    obtain ⟨next', read', place⟩ := same.lexeme read
    rw [Cursor.skipTrivia, read']
    exact .error place
  -- no trivia in one text, so none in the other: a lexeme keeps its kind
  | case4 c noBlank noComment noOpen =>
    have stays : b.skipTrivia = .ok b := by
      cases read : c.lexeme? with
      | none => rw [Cursor.skipTrivia, same.no_lexeme read]
      | some found =>
        obtain ⟨kind, next⟩ := found
        obtain ⟨next', read', -⟩ := same.lexeme read
        apply skipTrivia_of_token read'
        · rintro rfl
          exact noBlank next read
        · rintro rfl
          exact noComment next read
        · rintro rfl
          exact noOpen next read
    rw [stays]
    exact .ok same

theorem skipGroup (same : c.Bytewise b) : BothCome c.skipGroup b.skipGroup := by
  rw [Cursor.skipGroup, Cursor.skipGroup]
  cases read : c.lexeme? with
  | none =>
    rw [same.no_lexeme read]
    exact .error same
  | some found =>
    obtain ⟨kind, next⟩ := found
    obtain ⟨next', read', place⟩ := same.lexeme read
    rw [read', same.line]
    cases kind with
    | opener bracket => exact place.close [.group bracket c.line]
    | blank | comment | openComment | literal | word | closer | backquote | mark =>
      exact .error same

theorem skipToken (same : c.Bytewise b) : BothCome c.skipToken b.skipToken := by
  rw [Cursor.skipToken, Cursor.skipToken]
  cases read : c.lexeme? with
  | none =>
    rw [same.no_lexeme read]
    exact .ok same
  | some found =>
    obtain ⟨kind, next⟩ := found
    obtain ⟨next', read', place⟩ := same.lexeme read
    rw [read', same.line]
    cases kind with
    | comment => exact same.skipTrivia
    | openComment => exact .error place
    | opener bracket => exact place.close [.group bracket c.line]
    | backquote => exact place.close [.template c.line]
    | closer => exact .error same
    | blank | literal | word | mark => exact .ok place

/-- Both read a word, or neither does. -/
theorem word? (same : c.Bytewise b) :
    (c.word? = none ∧ b.word? = none) ∨
      ∃ word word' next next', c.word? = some (word, next) ∧ b.word? = some (word', next') ∧
        next.Bytewise next' := by
  rw [Cursor.word?, Cursor.word?]
  cases read : c.lexeme? with
  | none =>
    rw [same.no_lexeme read]
    exact Or.inl ⟨rfl, rfl⟩
  | some found =>
    obtain ⟨kind, next⟩ := found
    obtain ⟨next', read', place⟩ := same.lexeme read
    rw [read']
    cases kind with
    | word => exact Or.inr ⟨_, _, next, next', rfl, rfl, place⟩
    | blank | comment | openComment | literal | opener | closer | backquote | mark =>
      exact Or.inl ⟨rfl, rfl⟩

/-- Both eat the mark, or neither does: an ASCII character in front is the first byte. -/
theorem eat? (same : c.Bytewise b) {mark : Char} (ascii : isWide mark = false) :
    (c.eat? mark = none ∧ b.eat? mark = none) ∨
      ∃ next next', c.eat? mark = some next ∧ b.eat? mark = some next' ∧ next.Bytewise next' := by
  rw [Cursor.eat?, Cursor.eat?, same.rest]
  cases c.rest with
  | nil => exact Or.inl ⟨rfl, rfl⟩
  | cons x rest =>
    rw [latin_cons]
    rcases latin_singleton x with ⟨wide, y, more, whole, all⟩ | ⟨-, whole⟩
    · have here : x ≠ mark := Masking.ne_of_isWide wide ascii
      have there : y ≠ mark := Masking.ne_of_isWide (all y List.mem_cons_self) ascii
      rw [whole]
      exact Or.inl ⟨if_neg here, if_neg there⟩
    · rw [whole, List.singleton_append, same.regexOk]
      by_cases here : x = mark
      · refine Or.inr ⟨_, _, if_pos here, if_pos here, ?_⟩
        have place := same.advance [x] rest (if isAsciiBlank x then c.regexOk else regexMayFollow x)
        rwa [whole] at place
      · exact Or.inl ⟨if_neg here, if_neg here⟩

end Bytewise

end Cursor

theorem Cursor.BothCome.ofSkip {result result' : Except Halt Cursor}
    (both : BothCome result result') (answer answer' : Cursor → Answer) :
    (Outcome.ofSkip answer result).cursor.Bytewise (Outcome.ofSkip answer' result').cursor := by
  cases both with
  | ok place => exact place
  | error place => exact place

/-- Whatever is asked, both come to the same place. -/
theorem Operation.on_bytewise {c b : Cursor} (operation : Operation) (same : c.Bytewise b) :
    (operation.on c).cursor.Bytewise (operation.on b).cursor := by
  -- each operation moves by the readers above, and those come to the same place
  cases operation with
  | skipTrivia | crossLines => exact same.skipTrivia.ofSkip _ _
  | skipToken => exact same.skipToken.ofSkip _ _
  | skipGroup => exact same.skipGroup.ofSkip _ _
  | readWord =>
    rw [on, on]
    rcases same.word? with ⟨none, none'⟩ | ⟨word, word', next, next', read, read', place⟩
    · rw [none, none']
      exact same
    · rw [read, read']
      exact place
  | peekWord => exact same
  | eat mark ascii =>
    have narrow : isWide mark = false := decide_eq_false (Nat.not_le.mpr ascii)
    rw [on, on]
    rcases same.eat? narrow with ⟨none, none'⟩ | ⟨next, next', eaten, eaten', place⟩
    · rw [none, none']
      exact same
    · rw [eaten, eaten']
      exact place

theorem Cursor.Bytewise.after {c b : Cursor} (same : c.Bytewise b) (operations : List Operation) :
    (c.after operations).Bytewise (b.after operations) := by
  induction operations generalizing c b with
  | nil => exact same
  | cons operation rest ih => exact ih (operation.on_bytewise same)

end Concord.Scan
