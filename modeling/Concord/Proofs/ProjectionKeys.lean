import Concord.Access.Collect
import Concord.Proofs.Assignments
import Concord.Proofs.FirstReturns
import Concord.Script.Reads

/-!
The object literal that a projection gives. Parentheses around an expression are taken off one pair
after the other. A function gives the literal that stands behind the first `return` at the depth of
its body, so what the statements in front of it return or hold in braces does not count.
-/
namespace Concord.Access

open Concord.Scan Concord.Text
open Concord.Export (Word Gap Group Fragment stops_cons)

/-! Syntax -/

/-- Statements that a `return` can follow, with no `return` among their own tokens. -/
structure Prelude where
  text : List Char
  fits : isPrelude text = true := by decide +kernel

/-- What stands in front of the body of a function: the keyword and the name of a declaration with
its parameters, or the parameters and the arrow of an arrow function. -/
inductive Header where
  | declaration (name : Word) (before : Gap) (parameters : Group .round) (after : Gap)
  | arrow (parameters : Group .round) (before after : Gap)

def Header.text (body : List Char) : Header → List Char
  | declaration name before parameters after =>
    "function ".toList ++
      (name.text ++ (before.text ++ (parameters.text ++ (after.text ++ body))))
  | arrow parameters before after =>
    parameters.text ++ (before.text ++ ("=>".toList ++ (after.text ++ body)))

def Header.isArrow : Header → Bool
  | declaration _ _ _ _ => false
  | arrow _ _ _ => true

/-- The text in pairs of parentheses. -/
def wrapped : Nat → List Char → List Char
  | 0, text => text
  | pairs + 1, text => '(' :: (wrapped pairs text ++ [')'])

/-- A block that returns the expression between other statements. -/
def returning (before : Prelude) (expression : List Char) (behind : Fragment) : List Char :=
  '\x7b' :: ' ' :: (before.text ++
    (" return ".toList ++ (expression ++ (';' :: ' ' :: (behind.text ++ [' ', '\x7d'])))))

/-- What stands between the braces of a body. -/
def interior (body : Group .curly) : List Char :=
  body.text.tail.dropLast

/-- What a text starts with, behind trivia and opening parentheses. -/
def leadMark? (text : List Char) : Option Char :=
  match _trivia : (Cursor.start text).skipTrivia with
  | .error _ => none
  | .ok here =>
    match _first : here.rest with
    | [] => none
    | x :: rest => if x = '(' then leadMark? rest else some x
  termination_by text.length
  decreasing_by
    have ahead := (Cursor.skipTrivia_reaches _trivia).length_le
    rw [_first] at ahead
    exact ahead

/-! Groups -/

section

variable {bracket : Bracket} {text rest : List Char} {c : Cursor}

/-- At an opener, the token is the group. -/
theorem skipGroup_eq_skipToken (opens : c.rest.head? = some bracket.opener) :
    c.skipGroup = c.skipToken := by
  obtain ⟨rest, split⟩ := List.head?_eq_some_iff.mp opens
  have read := Cursor.lexeme?_of_lexes (.openerMark c.regexOk bracket rest)
    (show c.rest = [bracket.opener] ++ rest from split)
  rw [Cursor.skipGroup, Cursor.skipToken, read]

/-- A token that starts with an opener is a group. -/
theorem isGroup_of_isToken {last : Bool} (token : IsToken true text [] last)
    (opens : text.head? = some bracket.opener) : isGroup bracket text = true := by
  have split : (Cursor.start text).rest = text ++ [] := (List.append_nil text).symm
  rw [isGroup, skipGroup_eq_skipToken opens, (token.skips split).2, opens]
  simp [Cursor.advance, Cursor.atEnd]

/-- Behind trivia, a literal is the group there or stands in it. -/
theorem literalOf?_of_skipGroup {here stop : Cursor}
    (trivia : (Cursor.start text).skipTrivia = .ok here) (group : here.skipGroup = .ok stop) :
    literalOf? text =
      if (here.upTo stop).head? = some '\x7b' then some (here.upTo stop)
      else if (here.upTo stop).head? = some '(' then literalOf? (here.upTo stop).tail.dropLast
      else none := by
  rw [literalOf?]
  split
  next failed => cases trivia.symm.trans failed
  next same =>
    cases trivia.symm.trans same
    simp only [group]
    split <;> rfl

/-- The literal that a group behind blanks gives. -/
theorem literalOf?_group (group : isGroup bracket text = true) (gap : Gap) (rest : List Char) :
    literalOf? (gap.text ++ (text ++ rest)) =
      match bracket with
      | .curly => some text
      | .round => literalOf? text.tail.dropLast
      | .square => none := by
  let here := (Cursor.start (gap.text ++ (text ++ rest))).advance gap.text (text ++ rest) true
  obtain ⟨last, token⟩ := isToken_of_isGroup group here.regexOk rest
  obtain ⟨stays, skipped⟩ := token.skips (show here.rest = text ++ rest from rfl)
  -- the group is a token of its own, so the literal is cut from behind the blanks to its closer
  have opens : text.head? = some bracket.opener := by
    rw [isGroup, Bool.and_eq_true, decide_eq_true_eq] at group
    exact group.1
  have trivia : (Cursor.start (gap.text ++ (text ++ rest))).skipTrivia = .ok here := by
    rw [Cursor.skipTrivia_blanks rfl (List.all_eq_true.mp gap.blank)]
    exact stays
  have closed : here.skipGroup = .ok (here.advance text rest last) := by
    rw [← skipped]
    exact @skipGroup_eq_skipToken bracket _ (by simp [here, Cursor.advance, opens])
  -- braces are the literal, parentheses are opened once more, and brackets give none
  rw [literalOf?_of_skipGroup trivia closed, @Cursor.upTo_eq here _ text rfl, opens]
  cases bracket <;> rfl

/-- Any number of parentheses around a group are a group again. -/
theorem isGroup_wrapped (pairs : Nat) (literal : Group .curly) :
    isGroup (if pairs = 0 then .curly else .round) (wrapped pairs literal.text) = true := by
  induction pairs with
  | zero => exact literal.whole
  | succ pairs ih =>
    obtain ⟨last, token⟩ := isToken_of_isGroup ih true [Bracket.round.closer]
    have inside : Reads true [.token (wrapped pairs literal.text)] [Bracket.round.closer] last :=
      .token token .done
    have whole := @Reads.isToken .round last _ [] inside true
    rw [Item.source_cons, Item.source_nil, List.append_nil] at whole
    rw [if_neg (Nat.succ_ne_zero pairs)]
    exact isGroup_of_isToken whole rfl

/-- The literal in any number of parentheses is found, whatever stands behind it. -/
theorem literalOf?_wrapped (pairs : Nat) (literal : Group .curly) (gap : Gap) (rest : List Char) :
    literalOf? (gap.text ++ (wrapped pairs literal.text ++ rest)) = some literal.text := by
  induction pairs generalizing gap rest with
  | zero => rw [wrapped, literalOf?_group literal.whole]
  | succ pairs ih =>
    -- what stands in the outer pair is the text with one pair less, and nothing around it
    have round := isGroup_wrapped (pairs + 1) literal
    rw [if_neg (Nat.succ_ne_zero pairs)] at round
    have inner := ih .empty []
    rw [Gap.empty, List.nil_append, List.append_nil] at inner
    rw [literalOf?_group round]
    simpa [wrapped] using inner

end

/-! What an expression starts with -/

section

variable {bracket : Bracket} {text literal : List Char} {c c' here : Cursor}

/-- Trivia in front of an opener stay the same with more text behind it. -/
theorem skipTrivia_append (trivia : c.skipTrivia = .ok here)
    (opens : here.rest.head? = some bracket.opener) {tail : List Char}
    (longer : c'.rest = c.rest ++ tail) (flag : c'.regexOk = c.regexOk) :
    ∃ here', c'.skipTrivia = .ok here' ∧ here'.rest = here.rest ++ tail := by
  obtain ⟨inner, starts⟩ := List.head?_eq_some_iff.mp opens
  have step {c c' next : Cursor} {kind : Lexeme} (read : c.lexeme? = some (kind, next))
      (blank : kind = .blank ∨ kind = .comment) (trivia : next.skipTrivia = .ok here)
      (ih : ∀ {c' : Cursor}, c'.rest = next.rest ++ tail → c'.regexOk = next.regexOk →
        ∃ here', c'.skipTrivia = .ok here' ∧ here'.rest = here.rest ++ tail)
      (longer : c'.rest = c.rest ++ tail) (flag : c'.regexOk = c.regexOk) :
      ∃ here', c'.skipTrivia = .ok here' ∧ here'.rest = here.rest ++ tail := by
    obtain ⟨text, split, -, lexes⟩ := Cursor.lexeme?_lexes read
    obtain ⟨lead, ahead, -⟩ := Cursor.skipTrivia_reaches trivia
    -- something follows the lexeme already, and the tail is further behind
    have exchanges : Exchanges text next.rest (next.rest ++ tail) := by
      have nonempty : next.rest ≠ [] := by simp [ahead, starts]
      obtain ⟨x, rest, shown⟩ := List.exists_cons_of_ne_nil nonempty
      rw [shown]
      exact ⟨id, id, id, id, fun none => by cases none⟩
    have same := lexes.exchange (by rcases blank with rfl | rfl <;> simp) exchanges
    rw [← flag] at same
    have read' := Cursor.lexeme?_of_lexes same (by rw [longer, split, List.append_assoc])
    rw [Cursor.skipTrivia_of_trivia read' blank]
    exact ih rfl rfl
  fun_induction Cursor.skipTrivia c generalizing c' with
  | case1 c next read ih => exact step read (Or.inl rfl) trivia (ih trivia) longer flag
  | case2 c next read ih => exact step read (Or.inr rfl) trivia (ih trivia) longer flag
  | case3 => cases trivia
  | case4 c =>
    cases trivia
    have read := Cursor.lexeme?_of_lexes (.openerMark c'.regexOk bracket (inner ++ tail))
      (show c'.rest = [bracket.opener] ++ (inner ++ tail) by rw [longer, starts]; rfl)
    exact ⟨c', Cursor.skipTrivia_of_token read (by simp) (by simp) (by simp), longer⟩

theorem leadMark?_of_skipTrivia {x : Char} {rest : List Char}
    (trivia : (Cursor.start text).skipTrivia = .ok here) (shown : here.rest = x :: rest) :
    leadMark? text = if x = '(' then leadMark? rest else some x := by
  rw [leadMark?]
  split
  next failed => cases trivia.symm.trans failed
  next same =>
    cases trivia.symm.trans same
    split
    next ended => cases shown.symm.trans ended
    next same =>
      cases shown.symm.trans same
      rfl

/-- A brace at the start stays there with more text behind it. -/
theorem leadMark?_append (found : leadMark? text = some '\x7b') (tail : List Char) :
    leadMark? (text ++ tail) = some '\x7b' := by
  fun_induction leadMark? text with
  | case1 | case2 => cases found
  | case3 text here trivia rest shown ih =>
    obtain ⟨here', trivia', longer⟩ := @skipTrivia_append .round _
      (Cursor.start (text ++ tail)) _ trivia (by rw [shown]; rfl) tail rfl rfl
    rw [leadMark?_of_skipTrivia trivia' (by rw [longer, shown]; rfl), if_pos rfl]
    exact ih found
  | case4 text here trivia x rest shown other =>
    obtain rfl := Option.some.inj found
    obtain ⟨here', trivia', longer⟩ := @skipTrivia_append .curly _
      (Cursor.start (text ++ tail)) _ trivia (by rw [shown]; rfl) tail rfl rfl
    rw [leadMark?_of_skipTrivia trivia' (by rw [longer, shown]; rfl), if_neg other]

/-- Only what starts with a brace, parentheses aside, gives a literal. -/
theorem leadMark?_of_literalOf? (found : literalOf? text = some literal) :
    leadMark? text = some '\x7b' := by
  fun_induction literalOf? text with
  | case1 | case2 | case5 => cases found
  | case3 text here trivia stop closed group curly =>
    obtain ⟨inner, shown⟩ := List.head?_eq_some_iff.mp curly
    obtain ⟨later, split⟩ : ∃ later, here.rest = group ++ later :=
      ⟨_, (List.take_append_drop _ _).symm⟩
    rw [shown, List.cons_append] at split
    rw [leadMark?_of_skipTrivia trivia split, if_neg (by decide)]
  | case4 text here trivia stop closed group other round ih =>
    obtain ⟨inner, shown⟩ := List.head?_eq_some_iff.mp round
    obtain ⟨later, split⟩ : ∃ later, here.rest = group ++ later :=
      ⟨_, (List.take_append_drop _ _).symm⟩
    rw [shown, List.cons_append] at split
    have starts := ih found
    rw [shown, List.tail_cons] at starts
    -- what stands in the parentheses starts what stands behind the first of them
    obtain ⟨closer, whole⟩ := List.dropLast_prefix inner
    rw [leadMark?_of_skipTrivia trivia split, if_pos rfl, ← whole, List.append_assoc]
    exact leadMark?_append starts _

end

/-! The body of a function -/

section

variable {front : List Token} {t : Token}

/-- Nothing in front of the last tokens counts, if no `=` is in it. -/
theorem lastGroup_past (plain : ∀ u ∈ front, u.is '=' = false) {tokens : List Token}
    (more : tokens ≠ []) (last : Option (Token × Bool)) :
    ∃ last', lastGroup false last (front ++ tokens) = lastGroup false last' tokens := by
  induction front generalizing last with
  | nil => exact ⟨last, rfl⟩
  | cons u front ih =>
    obtain ⟨v, rest, shown⟩ := List.exists_cons_of_ne_nil
      (List.append_ne_nil_of_right_ne_nil front more)
    have other := plain u List.mem_cons_self
    obtain ⟨last', later⟩ := ih (fun v member => plain v (List.mem_cons_of_mem _ member))
      (if u.group?.isSome then some (u, false) else last)
    refine ⟨last', ?_⟩
    rw [List.cons_append, shown, lastGroup, other, Bool.false_and, if_neg (by decide), ← shown,
      later]

theorem lastGroup_single (arrow : Bool) (last : Option (Token × Bool)) {bracket : Bracket}
    (group : t.group? = some bracket) : lastGroup arrow last [t] = some (t, arrow) := by
  simp [lastGroup, group]

/-- A group at the end is the last one. -/
theorem lastGroup_concat (plain : ∀ u ∈ front, u.is '=' = false) {bracket : Bracket}
    (group : t.group? = some bracket) : lastGroup false none (front ++ [t]) = some (t, false) := by
  obtain ⟨last, same⟩ := lastGroup_past plain (List.cons_ne_nil t []) none
  rw [same, lastGroup_single false last group]

/-- A group behind an arrow at the end is the last one, with the arrow in front of it. -/
theorem lastGroup_arrow (plain : ∀ u ∈ front, u.is '=' = false) {equals angle : Token}
    (assigned : equals.text = ['=']) (glued : angle.isGlued '>' = true) {bracket : Bracket}
    (group : t.group? = some bracket) :
    lastGroup false none (front ++ [equals, angle, t]) = some (t, true) := by
  obtain ⟨last, same⟩ := lastGroup_past plain (List.cons_ne_nil equals [angle, t]) none
  have arrow : (equals.is '=' && angle.isGlued '>') = true := by simp [Token.is, assigned, glued]
  rw [same, lastGroup, if_pos arrow, lastGroup_single true last group]

end

namespace Header

/-- What stands in front of an arrow, or of the body. -/
def front : Header → List Item
  | declaration name before parameters after =>
    .token "function".toList :: (Gap.space.items ++ .token name.text ::
      (before.items ++ .token parameters.text :: after.items))
  | arrow parameters before _ => .token parameters.text :: before.items

/-- The arrow, with what stands behind it. -/
def back : Header → List Item
  | declaration _ _ _ _ => []
  | arrow _ _ after => .token ['='] :: .token ['>'] :: after.items

variable (header : Header) {bracket : Bracket} (body : Group bracket)

theorem source_items (text : List Char) :
    Item.source (header.front ++ (header.back ++ [.token text])) = header.text text := by
  cases header with
  | declaration name before parameters after =>
    show _ = ("function".toList ++ Gap.space.text) ++
      (name.text ++ (before.text ++ (parameters.text ++ (after.text ++ text))))
    simp only [front, back, List.nil_append, List.cons_append, List.append_assoc, Item.source_cons,
      Item.source_nil, Gap.source_items, Item.text, List.append_nil]
  | arrow parameters before after =>
    show _ = parameters.text ++ (before.text ++ (['='] ++ (['>'] ++ (after.text ++ text))))
    simp only [front, back, List.cons_append, Item.source_cons, Item.source_nil, Gap.source_items,
      Item.text, List.append_nil]

theorem readable :
    Readable (header.front ++ (header.back ++ [.token body.text])) [] := by
  have last : Readable [.token body.text] [] := .group body.whole .nil
  cases header with
  | declaration name before parameters after =>
    simp only [front, back, List.nil_append, List.cons_append, List.append_assoc]
    have group := Readable.group parameters.whole (after.readable last)
    refine Word.readable_gap { text := "function".toList } .space
      (fun none => absurd none Gap.space_ne_nil) (name.readable_gap before ?_ group)
    intro _ x first
    rw [Item.source_cons, Item.text, List.head?_append, parameters.head_text] at first
    cases first
    decide
  | arrow parameters before after =>
    simp only [front, back, List.cons_append]
    exact .group parameters.whole (before.readable
      (.mark (by decide) (.mark (by decide) (after.readable last))))

theorem plain_front {lead : List Char} {line : Nat} :
    ∀ u ∈ Item.tokens lead line header.front, u.is '=' = false := by
  intro u member
  refine decide_eq_false fun shown => ?_
  have listed := Item.token_mem_of_mem_tokens member
  rw [shown] at listed
  have noGroup (group : Group .round) : group.text ≠ ['='] := by
    intro same
    have opens := group.head_text
    rw [same] at opens
    cases opens
  cases header with
  | declaration name before parameters after =>
    have noName : name.text ≠ ['='] := name.ne_mark (by decide)
    simp [front, Gap.items, (noGroup parameters).symm, noName.symm] at listed
  | arrow parameters before after =>
    simp [front, Gap.items, (noGroup parameters).symm] at listed

/-- The body of a function is its last group. -/
theorem exists_lastGroup :
    (scan (header.text body.text)).stop = .finished ∧
      ∃ t, t.text = body.text ∧
        lastGroup false none (scan (header.text body.text)).tokens = some (t, header.isArrow) := by
  obtain ⟨last, reads⟩ := header.readable body true
  obtain ⟨stop, tokens⟩ := reads.scan
  rw [header.source_items] at stop tokens
  refine ⟨stop, ?_⟩
  rw [tokens, Item.tokens_append]
  generalize Item.trail [] header.front = lead
  generalize 1 + lineBreaks (Item.source header.front) = line
  have plain := @header.plain_front [] 1
  -- nothing in front of the arrow holds an `=`, so the arrow is the last one as well
  cases header with
  | declaration =>
    exact ⟨_, rfl, lastGroup_concat plain (body.group?_eq rfl)⟩
  | arrow parameters before after =>
    rw [back, List.cons_append, List.cons_append, Item.tokens, Item.tokens, after.tokens_items]
    exact ⟨_, rfl, lastGroup_arrow plain rfl rfl (body.group?_eq rfl)⟩

/-- A function with a block gives the literal that stands behind the first `return` of it. -/
theorem returnedLiteral?_block (body : Group .curly) :
    returnedLiteral? (header.text body.text) =
      (afterReturn? (Cursor.start (interior body))).bind literalOf? := by
  obtain ⟨stop, t, shown, last⟩ := header.exists_lastGroup body
  simp only [returnedLiteral?, stop, Stop.imbalance?, last, body.group?_eq shown, Token.interior,
    shown, interior]
  rfl

/-- An arrow function gives the literal in the parentheses behind the arrow. -/
theorem returnedLiteral?_concise (isArrow : header.isArrow = true) (body : Group .round) :
    returnedLiteral? (header.text body.text) = literalOf? body.text := by
  obtain ⟨stop, t, shown, last⟩ := header.exists_lastGroup body
  simp only [returnedLiteral?, stop, Stop.imbalance?, last, body.group?_eq shown, isArrow, shown]
  rfl

end Header

/-! A returned expression -/

section

variable {bracket : Bracket} {expression : List Char}

/-- A block that returns a group is made of the items in front of the `return`, which hold no other
one, and of those behind it. -/
theorem exists_reads_returning (before : Prelude) (group : isGroup bracket expression = true)
    (behind : Fragment) :
    ∃ front later, returning before expression behind =
        '\x7b' :: (Item.source (front ++ .token "return".toList :: later) ++ ['\x7d']) ∧
      Item.source later =
        Gap.space.text ++ (expression ++ (';' :: ' ' :: (behind.text ++ [' ']))) ∧
      .token "return".toList ∉ front ∧
      ∀ {rest : List Char}, (∀ x ∈ rest.head?, isStopper x = true) →
        ∃ last, Reads true (front ++ .token "return".toList :: later) rest last := by
  -- the prelude has a reading of its own in front of any stopper, and so has what stands behind
  obtain ⟨items, source, never, reads⟩ := reads_of_isPrelude before.fits
  obtain ⟨inner, source', -, -, reads'⟩ := reads_of_isContained behind.contained
  refine ⟨.gap [' '] :: (items ++ [.gap [' ']]),
    .gap [' '] :: .token expression :: .token [';'] :: .gap [' '] :: (inner ++ [.gap [' ']]),
    ?_, ?_, ?_, fun {rest} stops => ?_⟩
  · show '\x7b' :: ' ' :: (before.text ++ ((' ' :: ("return".toList ++ [' '])) ++ _)) = _
    generalize "return".toList = word
    simp [source, source', Item.text]
  · simp [source', Item.text, Gap.space]
  · simpa using never
  · -- the statements behind the `;` are read as they are read alone
    obtain ⟨last, statements⟩ := @reads' (' ' :: rest) (stops_cons (by decide) rest)
    have tail : Reads last [.gap [' ']] rest last := .gap (.blank (by decide)) (Or.inl rfl) .done
    have after : Reads true (.gap [' '] :: (inner ++ [.gap [' ']])) rest last :=
      .gap (.blank (by decide)) (Or.inl rfl) (statements.trans tail)
    have ended : Readable (.token [';'] :: .gap [' '] :: (inner ++ [.gap [' ']])) rest :=
      fun flag => ⟨last, .token (.separator (by decide) flag _) after⟩
    -- the word, the group and the semicolon stand between them
    have returned := Word.readable { text := "return".toList }
      (by rintro _ ⟨⟩; decide) (Readable.space (.group group ended))
    obtain ⟨middle, front⟩ := @reads (Item.source (.gap [' '] :: .token "return".toList ::
      .gap [' '] :: .token expression :: .token [';'] :: .gap [' '] :: (inner ++ [.gap [' ']])) ++
        rest) (stops_cons (by decide) _)
    obtain ⟨last', back⟩ := Readable.space returned middle
    rw [List.cons_append, List.append_assoc]
    exact ⟨last', .gap (.blank (by decide)) (Or.inl rfl) (front.trans back)⟩

/-- What stands behind the `return` of a block is found. -/
theorem exists_body_returning (before : Prelude) (group : isGroup bracket expression = true)
    (behind : Fragment) :
    ∃ body : Group .curly, body.text = returning before expression behind ∧
      afterReturn? (Cursor.start (interior body)) =
        some (Gap.space.text ++ (expression ++ (';' :: ' ' :: (behind.text ++ [' '])))) := by
  obtain ⟨front, later, text, source, first, reads⟩ := exists_reads_returning before group behind
  obtain ⟨last, inside⟩ := @reads [Bracket.curly.closer] (stops_cons (by decide) [])
  obtain ⟨last', alone⟩ := @reads [] (by simp)
  have block := @isGroup_of_isToken .curly _ _ (inside.isToken true) rfl
  refine ⟨⟨_, block⟩, text.symm, ?_⟩
  rw [interior, List.tail_cons, List.dropLast_concat, afterReturn?_of_reads alone first, source]

end

/-- The literal of a projection is what its first `return` gives: any number of parentheses around
it come off, and what the statements around the `return` hold does not count. A concise arrow
function and a value give theirs in the same way. Without a `return` at the depth of the body, or
with something else behind the first one, a function gives no literal. -/
theorem projectionKeys?_firstReturn [ScriptParser] :
    (∀ (literal : Group .curly) (pairs : Nat),
      (∀ (header : Header) (before : Prelude) (behind : Fragment),
        projectionKeys? .function (String.ofList
            (header.text (returning before (wrapped pairs literal.text) behind))) =
          some (literalKeys literal.text)) ∧
      (∀ (parameters : Group .round) (before after : Gap),
        projectionKeys? .function (String.ofList
            ((Header.arrow parameters before after).text (wrapped (pairs + 1) literal.text))) =
          some (literalKeys literal.text)) ∧
      ∀ type : List Char,
        projectionKeys? .value (String.ofList
            (wrapped pairs literal.text ++ (" as ".toList ++ type))) =
          some (literalKeys literal.text)) ∧
    ∀ (header : Header) (body : Group .curly),
      ((∀ t ∈ (scan (interior body)).tokens, t.isWord "return" = false) →
        projectionKeys? .function (String.ofList (header.text body.text)) = none) ∧
      ∀ (front later : List Token) (t : Token) (behind : List Char),
        (scan (interior body)).tokens = front ++ t :: later →
        (∀ u ∈ front, u.isWord "return" = false) → t.isWord "return" = true →
        interior body = Token.source (front ++ [t]) ++ behind →
        leadMark? behind ≠ some '\x7b' →
        projectionKeys? .function (String.ofList (header.text body.text)) = none := by
  refine ⟨fun literal pairs => ⟨fun header before behind => ?_, fun parameters before after => ?_,
    fun type => ?_⟩, fun header body => ⟨fun never => ?_, ?_⟩⟩
  · -- a block
    obtain ⟨body, text, found⟩ :=
      exists_body_returning before (isGroup_wrapped pairs literal) behind
    rw [← text, projectionKeys?, String.toList_ofList, projectionLiteral?,
      header.returnedLiteral?_block, found, Option.bind_some, literalOf?_wrapped, Option.map_some]
  · -- a concise arrow function
    have round := isGroup_wrapped (pairs + 1) literal
    rw [if_neg (Nat.succ_ne_zero pairs)] at round
    have inner := literalOf?_wrapped (pairs + 1) literal .empty []
    rw [Gap.empty, List.nil_append, List.append_nil] at inner
    rw [projectionKeys?, String.toList_ofList, projectionLiteral?,
      (Header.arrow parameters before after).returnedLiteral?_concise rfl ⟨_, round⟩, inner,
      Option.map_some]
  · -- a value
    have found := literalOf?_wrapped pairs literal .empty (" as ".toList ++ type)
    rw [Gap.empty, List.nil_append] at found
    rw [projectionKeys?, String.toList_ofList, projectionLiteral?, found, Option.map_some]
  · -- no `return`
    rw [projectionKeys?, String.toList_ofList, projectionLiteral?, header.returnedLiteral?_block,
      afterReturn?_eq_none never, Option.bind_none, Option.map_none]
  · -- something else behind the first `return`
    intro front later t behind tokens first returns whole other
    have unread : literalOf? behind = none := by
      by_contra found
      obtain ⟨literal, found⟩ := Option.ne_none_iff_exists'.mp found
      exact other (leadMark?_of_literalOf? found)
    rw [projectionKeys?, String.toList_ofList, projectionLiteral?, header.returnedLiteral?_block,
      afterReturn?_eq_some tokens first returns whole, Option.bind_some, unread, Option.map_none]

/-- A declaration whose first statements return and hold other literals, in a closure, in a
template, in a comment and in a regular expression; a body whose only `return` stands in a closure;
and one whose first `return` gives no literal. -/
theorem projectionKeys?_firstReturn_nested :
    let header : Header :=
      .declaration { text := "view".toList } .empty { text := "(s)".toList } .space
    let before : Prelude := { text := "g(() => \x7b return \x7b a: 1 \x7d \x7d, ".toList ++
      "`$\x7b \x7b b \x7d \x7d return`, /* return \x7b */ /return \x7b/);".toList }
    let literal : Group .curly :=
      { text := "\x7b c: s.c, d() \x7b return \x7b\x7d \x7d \x7d".toList }
    let behind : Fragment := { text := "return \x7b e \x7d;".toList }
    let silent : Group .curly :=
      { text := "\x7b s(() => \x7b return \x7b a \x7d \x7d) \x7d".toList }
    let other : Group .curly := { text := "\x7b return ((s.a, \x7b b \x7d)); \x7d".toList }
    let source := header.text (returning before (wrapped 2 literal.text) behind)
    source = "function view(s) \x7b g(() => \x7b return \x7b a: 1 \x7d \x7d, ".toList ++
      "`$\x7b \x7b b \x7d \x7d return`, /* return \x7b */ /return \x7b/); ".toList ++
      "return ((\x7b c: s.c, d() \x7b return \x7b\x7d \x7d \x7d)); ".toList ++
      "return \x7b e \x7d; \x7d".toList ∧
    projectionKeys? .function (String.ofList source) = some ["c", "d"] ∧
    projectionKeys? .function (String.ofList (header.text silent.text)) = none ∧
    leadMark? " ((s.a, \x7b b \x7d)); ".toList = some 's' ∧
    projectionKeys? .function (String.ofList (header.text other.text)) = none := by
  intro header before literal behind silent other source
  obtain ⟨found, unfound⟩ := projectionKeys?_firstReturn
  have keys : literalKeys literal.text = ["c", "d"] := by decide +kernel
  refine ⟨by decide +kernel, ?_, ?_, by decide +kernel, ?_⟩
  · rw [← keys]
    exact (found literal 2).1 header before behind
  · exact (unfound header silent).1 (by decide +kernel)
  · refine (unfound header other).2 [] (scan (interior other)).tokens.tail
      ⟨[' '], "return".toList, 1⟩ " ((s.a, \x7b b \x7d)); ".toList ?_ (by simp) ?_ ?_ ?_
    all_goals decide +kernel

end Concord.Access
