import Concord.Proofs.JoinedExports
import Concord.Proofs.WordsAndGroups

/-!
What stands behind a declared name or pattern: perhaps a type, and an initializer. Both are texts of
their own, and wherever they stand their tokens are the same. The type is skipped up to the `=`
behind it, and the initializer is taken up to the `,` or `;` that ends it.
-/
namespace Concord.Export

open Concord.Scan Concord.Text

/-! Syntax -/

/-- Behind `angle` open angle brackets, the tokens close all of them; a comma, a semicolon and an
`=` that is no arrow stand between brackets only. -/
def isAngled (angle : Nat) : List Token → Bool
  | [] => angle = 0
  | t :: rest =>
    if t.is '<' then isAngled (angle + 1) rest
    else if t.is '>' then isAngled (angle - 1) rest
    else if t.is '=' then
      match rest with
      | [] => false
      | u :: later =>
        if u.isGlued '>' then isAngled angle later else 0 < angle && isAngled angle (u :: later)
    else if t.is ',' || t.is ';' then 0 < angle && isAngled angle rest
    else isAngled angle rest

/-- A type, with the blanks around it. -/
structure Ascription extends Fragment where
  before : Gap
  after : Gap
  angled : isAngled 0 (scan text).tokens = true := by decide +kernel

def Ascription.text? : Option Ascription → List Char
  | none => []
  | some a => ':' :: (a.before.text ++ (a.text ++ a.after.text))

/-- The token stands on the line of the one before it, and it ends no expression. -/
def continuing (t : Token) : Bool :=
  !(t.is ',' || t.is ';' || t.freshLine)

/-- An initializer starts and ends with its tokens, which stand on one line, and none of them ends
it. -/
structure Initializer extends Fragment where
  covered : Token.span (scan text).tokens = text := by decide +kernel
  first : (text.head?.all fun x => !isBlank x) = true := by decide +kernel
  last : (text.getLast?.all fun x => !isBlank x) = true := by decide +kernel
  unbroken : (scan text).tokens.all continuing = true := by decide +kernel

/-- A type, if there is one, and an initializer, with the blanks behind the `=` and at the end. -/
structure Assignment where
  ascription : Option Ascription
  afterEquals : Gap
  value : Initializer
  afterValue : Gap
  noArrow : afterEquals.text ≠ [] ∨ value.text.head? ≠ some '>' := by decide +kernel

def Assignment.text (a : Assignment) : List Char :=
  Ascription.text? a.ascription ++
    '=' :: (a.afterEquals.text ++ (a.value.text ++ a.afterValue.text))

/-! Types -/

/-- A type ends in front of an `=` behind it. -/
theorem skipType_of_isAngled {angle : Nat} {tokens later : List Token} {equals next : Token}
    (angled : isAngled angle tokens = true) (shown : equals.text = ['='])
    (apart : next.isGlued '>' = false) :
    skipType angle (tokens ++ equals :: next :: later) = (0, equals :: next :: later) := by
  have is (mark : Char) : equals.is mark = decide ('=' = mark) := by simp [Token.is, shown]
  -- along the cases of `isAngled`, which asks of a token what `skipType` asks of it
  fun_induction isAngled angle tokens with
  | case1 angle =>
    obtain rfl : angle = 0 := by simpa using angled
    simp [skipType, is, apart]
  | case2 angle t rest opens ih =>
    rw [List.cons_append, skipType.eq_def]
    simp only [opens, if_true, ih angled]
  | case3 angle t rest notOpen closes ih =>
    rw [List.cons_append, skipType.eq_def]
    simp only [notOpen, closes, Bool.false_eq_true, if_true, if_false, ih angled]
  | case4 => cases angled
  | case5 angle t notOpen notClose assigned u rest arrow ih =>
    rw [List.cons_append, List.cons_append, skipType.eq_def]
    simp only [notOpen, notClose, assigned, arrow, Bool.false_eq_true, if_true, if_false,
      ih angled]
  | case6 angle t notOpen notClose assigned u rest noArrow ih =>
    -- this `=` would end the type, but a bracket is open
    simp only [Bool.and_eq_true, decide_eq_true_eq] at angled
    have inside : angle ≠ 0 := Nat.ne_of_gt angled.1
    have later := ih angled.2
    rw [List.cons_append] at later
    rw [List.cons_append, List.cons_append, skipType.eq_def]
    simp only [notOpen, notClose, assigned, noArrow, inside, Bool.false_eq_true, if_true, if_false,
      later]
  | case7 angle t rest notOpen notClose unassigned ends ih =>
    simp only [Bool.and_eq_true, decide_eq_true_eq] at angled
    have inside : angle ≠ 0 := Nat.ne_of_gt angled.1
    rw [List.cons_append, skipType.eq_def]
    simp only [notOpen, notClose, unassigned, inside, decide_false, Bool.false_and,
      Bool.false_eq_true, if_false, ih angled.2]
  | case8 angle t rest notOpen notClose unassigned other ih =>
    rw [List.cons_append, skipType.eq_def]
    simp only [Bool.not_eq_true] at other
    simp only [notOpen, notClose, unassigned, Bool.or_comm (t.is ';'), other, Bool.and_false,
      Bool.false_eq_true, if_false, ih angled]

theorem isAngled_lower (angle down : Nat) (tokens : List Token) :
    isAngled angle (tokens.map (Token.lower down)) = isAngled angle tokens := by
  fun_induction isAngled angle tokens with
  | case1 => rfl
  | _ =>
    rw [List.map_cons, isAngled.eq_def]
    simp_all

/-! Tokens in their place -/

/-- The tokens with more trivia in front of the first one. -/
def behind (lead : List Char) : List Token → List Token
  | [] => []
  | t :: rest => { t with lead := lead ++ t.lead } :: rest

theorem tokens_behind (lead front : List Char) (line : Nat) (items : List Item) :
    Item.tokens (lead ++ front) line items = behind lead (Item.tokens front line items) := by
  induction items generalizing front line with
  | nil => rfl
  | cons item items ih =>
    cases item with
    | gap text => rw [Item.tokens, List.append_assoc, ih, Item.tokens]
    | token text => rfl

/-- Wherever it stands, a fragment has its own tokens, further down and with what stands in front
of it. -/
theorem tokens_placed {text : List Char} {items : List Item}
    (alone : (scan text).tokens = Item.tokens [] 1 items) (lead : List Char) (down : Nat) :
    Item.tokens lead (1 + down) items =
      behind lead ((scan text).tokens.map (Token.lower down)) := by
  have placed := tokens_behind lead [] (1 + down) items
  rw [List.append_nil] at placed
  rw [placed, tokens_lower, alone]

theorem isAngled_behind (angle : Nat) (lead : List Char) (tokens : List Token) :
    isAngled angle (behind lead tokens) = isAngled angle tokens := by
  cases tokens with
  | nil => rfl
  | cons t rest =>
    rw [behind, isAngled.eq_def angle (_ :: rest), isAngled.eq_def angle (t :: rest)]
    rfl

/-! Initializers -/

theorem takeExpression_unbroken {last : Char} {tokens later : List Token} {stop : Token}
    (unbroken : tokens.all continuing = true) (ends : (stop.is ',' || stop.is ';') = true) :
    takeExpression last (tokens ++ stop :: later) = (tokens, stop :: later) := by
  induction tokens generalizing last with
  | nil => simp only [List.nil_append, takeExpression, ends, if_true]
  | cons t tokens ih =>
    rw [List.all_cons, Bool.and_eq_true, continuing] at unbroken
    simp only [Bool.not_eq_true', Bool.or_eq_false_iff] at unbroken
    obtain ⟨⟨⟨comma, semicolon⟩, inline⟩, others⟩ := unbroken
    simp [takeExpression, comma, semicolon, inline, ih others]

namespace Initializer

variable (value : Initializer) (lead : List Char) (down : Nat) {stop : Token}

/-- The tokens of an initializer are taken as a whole, up to the one that ends it. -/
theorem take (later : List Token) (ends : (stop.is ',' || stop.is ';') = true) :
    ∃ taken stop', takeInitializer
        (behind lead ((scan value.text).tokens.map (Token.lower down)) ++ stop :: later) =
      (taken, stop' :: later) ∧ Token.span taken = value.text ∧ stop'.text = stop.text := by
  have covered := value.covered
  have unbroken := value.unbroken
  generalize (scan value.text).tokens = tokens at covered unbroken
  cases tokens with
  | nil =>
    refine ⟨[], { stop with lead := [] }, ?_, covered, rfl⟩
    exact @takeExpression_unbroken '=' [] later { stop with lead := [] } rfl ends
  | cons t tokens =>
    rw [List.all_cons, Bool.and_eq_true] at unbroken
    -- a line break in front of the first token does not count
    let first : Token := ⟨[], t.text, t.line + down⟩
    have bare : continuing first = true := by
      simp only [continuing, Bool.not_eq_true', Bool.or_eq_false_iff] at unbroken ⊢
      exact ⟨unbroken.1.1, rfl⟩
    have each : (first :: tokens.map (Token.lower down)).all continuing = true := by
      rw [List.all_cons, bare, List.all_map, Bool.true_and, ← unbroken.2]
      rfl
    refine ⟨first :: tokens.map (Token.lower down), stop, takeExpression_unbroken each ends, ?_,
      rfl⟩
    rw [← covered]
    exact Token.span_lower down (t :: tokens)

/-- An initializer has nothing to trim. -/
theorem trim : Text.trim value.text = value.text := by
  have first := value.first
  have last := value.last
  generalize value.text = text at first last
  rcases List.eq_nil_or_concat text with rfl | ⟨front, x, rfl⟩
  · rfl
  · rw [List.concat_eq_append] at *
    rw [trim_of_shown, trimEnd_of_shown (by simpa using last)]
    cases front <;> simpa using first

/-- The token behind the `=` of an initializer makes no other mark of the `=`, if blanks or the
initializer keep that mark away. -/
theorem exists_next (later : List Token) :
    ∃ next rest, behind lead ((scan value.text).tokens.map (Token.lower down)) ++ stop :: later =
      next :: rest ∧ ∀ mark, stop.is mark = false → (lead ≠ [] ∨ value.text.head? ≠ some mark) →
        next.isGlued mark = false := by
  have covered := value.covered
  generalize (scan value.text).tokens = tokens at covered
  cases tokens with
  | nil =>
    refine ⟨stop, later, rfl, fun mark other _ => ?_⟩
    simp [Token.isGlued, other]
  | cons t tokens =>
    refine ⟨_, _, rfl, fun mark _ apart => ?_⟩
    rw [Token.isGlued, Bool.and_eq_false_iff]
    rcases apart with spaced | other
    · exact Or.inl (by simp [spaced])
    · refine Or.inr (decide_eq_false fun shown => other ?_)
      rw [← covered, Token.span, show t.text = [mark] from shown]
      rfl

end Initializer

/-- Items that are read in front of some mark are an initializer, if they start and end with a token
and no token among them ends an expression. -/
theorem initializer_of_items {text rest : List Char} {items : List Item} {x : Char} {flag : Bool}
    (reads : Reads true (.token text :: items) (x :: rest) flag) (notBreak : x ≠ '\n')
    (ended : Item.trail [] items = [])
    (first : ∀ y ∈ (text ++ Item.source items).head?, isBlank y = false)
    (last : ∀ y ∈ (text ++ Item.source items).getLast?, isBlank y = false)
    (unbroken : ∀ t ∈ Item.tokens [] 1 (.token text :: items), continuing t = true) :
    ∃ value : Initializer, value.text = text ++ Item.source items := by
  -- the items are read alone as they are in front of the mark, and followed by a semicolon they are
  -- a script of their own
  have alone := (reads.exchange (@Exchanges.stopper _ _ [] _ notBreak (by simp))).scan.2
  have source : Item.source (.token text :: items) = text ++ Item.source items := rfl
  have ahead : Reads true (.token text :: items ++ [.token [';']]) [] (regexMayFollow ';') := by
    refine Reads.trans ?_ (.token (.separator (by decide) flag _) .done)
    exact reads.exchange (.stopper notBreak (stops_cons (by decide) _))
  obtain ⟨stop, tokens⟩ := ahead.scan
  have covers := Item.source_tokens [] 1 (.token text :: items ++ [.token [';']])
  rw [Item.trail_append, Item.source_append] at covers
  rw [source] at alone
  refine ⟨{ text := text ++ Item.source items, contained := ?_, covered := ?_, first := ?_
            last := ?_, unbroken := ?_ }, rfl⟩
  · have semi (lead : List Char) (line : Nat) :
        Item.tokens lead line [.token [';']] = [⟨lead, [';'], line⟩] := rfl
    rw [Item.source_append] at stop tokens
    have last : (Item.tokens [] 1 (.token text :: items ++ [.token [';']])).getLast?.any
        (fun t => t.is ';') = true := by
      rw [Item.tokens_append, semi, List.getLast?_concat]
      rfl
    simp only [isContained, Bool.and_eq_true, decide_eq_true_eq]
    exact ⟨⟨stop, tokens ▸ by simpa [Item.trail, Item.text] using covers⟩, tokens ▸ last⟩
  · rw [alone, Item.span_tokens ended]
  -- neither end of the text is blank
  · cases shown : (text ++ Item.source items).head? with
    | none => rfl
    | some y => simp [first y shown]
  · cases shown : (text ++ Item.source items).getLast? with
    | none => rfl
    | some y => simp [last y shown]
  · rw [alone, List.all_eq_true]
    exact unbroken

/-! Clauses -/

theorem initializer_value (value : Initializer) (lead : List Char) (down : Nat)
    {equals stop : Token} (later : List Token) (shown : equals.text = ['='])
    (ends : (stop.is ',' || stop.is ';') = true) :
    ∃ stop', initializer .finished
        (equals :: (behind lead ((scan value.text).tokens.map (Token.lower down)) ++
          stop :: later)) =
      .ok (some value.text, stop' :: later) ∧ stop'.text = stop.text := by
  obtain ⟨taken, stop', read, span, ended⟩ := value.take lead down later ends
  refine ⟨stop', ?_, ended⟩
  rw [initializer, if_pos (by simp [Token.is, shown])]
  simp only [read, checkStop_finished, span, value.trim]
  rfl

theorem typeClause_ascription (ascription : Ascription) (lead : List Char) (down : Nat)
    {colon equals next : Token} {later : List Token} (shown : colon.text = [':'])
    (assigned : equals.text = ['=']) (apart : next.isGlued '>' = false) :
    typeClause .finished (colon ::
        (behind lead ((scan ascription.text).tokens.map (Token.lower down)) ++
          equals :: next :: later)) =
      .ok (true, equals :: next :: later) := by
  have angled : isAngled 0 (behind lead ((scan ascription.text).tokens.map (Token.lower down))) =
      true := by
    rw [isAngled_behind, isAngled_lower, ascription.angled]
  rw [typeClause, if_pos (by simp [Token.is, shown])]
  simp only [skipType_of_isAngled angled assigned apart, checkStop_finished]
  rfl

/-! Reading -/

theorem Gap.readable (gap : Gap) {items : List Item} {rest : List Char}
    (later : Readable items rest) : Readable (gap.items ++ items) rest := by
  intro flag
  obtain ⟨last, reads⟩ := later flag
  exact ⟨last, gap.reads reads⟩

theorem Gap.tokens_items (gap : Gap) (lead : List Char) (line : Nat) (items : List Item) :
    Item.tokens lead line (gap.items ++ items) =
      Item.tokens (lead ++ gap.text) (line + lineBreaks gap.text) items := by
  obtain ⟨blanks, blank⟩ := gap
  induction blanks generalizing lead line with
  | nil => simp [Gap.items, lineBreaks]
  | cons x blanks ih =>
    rw [List.all_cons, Bool.and_eq_true] at blank
    have later := ih (lead ++ [x]) (line + lineBreaks [x]) blank.2
    rw [List.append_assoc, Nat.add_assoc, ← lineBreaks_append] at later
    exact later

/-- A word is read in front of blanks, or of what continues no word. -/
theorem Word.readable_gap (word : Word) (gap : Gap) {items : List Item}
    (ends : gap.text = [] → ∀ x ∈ (Item.source items).head?, isWordPart x = false)
    (later : Readable items []) : Readable (.token word.text :: (gap.items ++ items)) [] := by
  refine word.readable ?_ (gap.readable later)
  intro x first
  rw [Option.mem_def, List.append_nil, Gap.source_items, List.head?_append,
    Option.or_eq_some_iff] at first
  rcases first with blank | ⟨none, first⟩
  · exact isWordPart_of_isStopper (gap.stops_alone x blank)
  · exact ends (List.head?_eq_none_iff.mp none) x first

/-- One `export` gives what its clause gives, if nothing behind the clause is exported. -/
theorem extract_of_clause {gap : Gap} {items : List Item} {found : List Export} {left : List Token}
    (ends : gap.text = [] → ∀ x ∈ (Item.source items).head?, isWordPart x = false)
    (readable : Readable items [])
    (clause : exportClause .finished (Item.tokens gap.text (1 + lineBreaks gap.text) items) =
      .ok (found, left)) (done : ∀ t ∈ left, t.isWord "export" = false) :
    extract ("export".toList ++ (gap.text ++ Item.source items)) = .ok found := by
  obtain ⟨last, whole⟩ := Word.readable_gap { text := "export".toList } gap ends readable true
  obtain ⟨stop, tokens⟩ := whole.scan
  have text : Item.source (.token "export".toList :: (gap.items ++ items)) =
      "export".toList ++ (gap.text ++ Item.source items) := by
    rw [Item.source_cons, Gap.source_items, Item.text]
  have unbroken : lineBreaks "export".toList = 0 := rfl
  have listed : Item.tokens [] 1 (.token "export".toList :: (gap.items ++ items)) =
      ⟨[], "export".toList, 1⟩ :: Item.tokens gap.text (1 + lineBreaks gap.text) items := by
    rw [Item.tokens, Gap.tokens_items, unbroken, List.nil_append, Nat.add_zero]
  rw [← text, extract_eq, stop, tokens, listed,
    exportsFrom_export rfl clause (exportsFrom_of_no_export done ';'), List.append_nil]

/-- A fragment between blanks is read behind a mark and in front of a stopper, and keeps its
tokens. -/
theorem Fragment.reads_between (fragment : Fragment) (before after : Gap) {items : List Item}
    (later : Readable items []) (stops : ∀ x ∈ (Item.source items).head?, isStopper x = true) :
    ∃ all, before.text ++ (fragment.text ++ (after.text ++ Item.source items)) = Item.source all ∧
      (∃ last, Reads true all [] last) ∧
      ∀ (lead : List Char) (down : Nat), ∃ lead' down',
        Item.tokens lead (1 + down) all =
          behind (lead ++ before.text) ((scan fragment.text).tokens.map (Token.lower down')) ++
            Item.tokens lead'
              (1 + (down + lineBreaks (before.text ++ (fragment.text ++ after.text)))) items := by
  -- the fragment's own items, read in front of any stopper, stand between the items of the two gaps
  obtain ⟨inner, source, -, alone, reads⟩ := reads_of_isContained fragment.contained
  obtain ⟨middle, front⟩ := @reads (Item.source (after.items ++ items) ++ []) (by
    rw [List.append_nil, Gap.source_items]
    exact after.stops stops)
  obtain ⟨last, back⟩ := after.readable later middle
  refine ⟨before.items ++ (inner ++ (after.items ++ items)), ?_,
    ⟨last, before.reads (front.trans back)⟩, fun lead down => ?_⟩
  · rw [Gap.source_items, Item.source_append, Gap.source_items, ← source]
  -- its tokens are those of the fragment alone, moved down by the lines in front of it
  · have placed := tokens_placed alone (lead ++ before.text) (down + lineBreaks before.text)
    refine ⟨Item.trail (lead ++ before.text) inner ++ after.text, down + lineBreaks before.text,
      ?_⟩
    rw [Gap.tokens_items, Item.tokens_append, Gap.tokens_items, ← placed, source]
    simp only [lineBreaks_append, Nat.add_assoc]

namespace Assignment

variable (a : Assignment) {x : Char} {items : List Item}

/-- Behind the `=` the initializer is read up to the mark that ends it, and its first token makes
no other mark of the `=`. -/
theorem reads_value (later : ∃ last, Reads true items [] last) (ends : x = ',' ∨ x = ';') :
    ∃ inner, a.afterEquals.text ++ (a.value.text ++ (a.afterValue.text ++
        x :: Item.source items)) = Item.source inner ∧ Readable (.token ['='] :: inner) [] ∧
      ∀ (lead : List Char) (down : Nat), ∃ next tokens stop,
        Item.tokens [] (1 + down) inner = next :: tokens ∧
        (∀ mark, mark ≠ x → a.afterEquals.text ≠ [] ∨ a.value.text.head? ≠ some mark →
          next.isGlued mark = false) ∧
        initializer .finished (⟨lead, ['='], 1 + down⟩ :: next :: tokens) =
          .ok (some a.value.text, stop :: Item.tokens [] (1 + (down + lineBreaks
            (a.afterEquals.text ++ (a.value.text ++ a.afterValue.text)))) items) ∧
        stop.text = [x] := by
  have separates : isSeparator x = true := by rcases ends with rfl | rfl <;> decide
  have stops : isStopper x = true := by rcases ends with rfl | rfl <;> decide
  have unbroken : lineBreaks [x] = 0 := by rcases ends with rfl | rfl <;> decide
  -- the mark is a separator, so it is a token whatever stands behind it
  have marked : Readable (.token [x] :: items) [] := by
    intro flag
    obtain ⟨last, later⟩ := later
    have follows : regexMayFollow x = true := by rcases ends with rfl | rfl <;> decide
    exact ⟨last, .token (.separator separates flag _) (by rwa [follows])⟩
  obtain ⟨inner, source, ⟨last, reads⟩, tokens⟩ := a.value.reads_between a.afterEquals a.afterValue
    marked (stops_cons stops _)
  refine ⟨inner, source, ?_, fun lead down => ?_⟩
  · intro flag
    exact ⟨last, .token (.separator (by decide) flag _) reads⟩
  · -- the tokens behind the `=` are those of the initializer, and the mark that ends it
    obtain ⟨lead', down', listed⟩ := tokens [] down
    rw [Item.tokens, unbroken, Nat.add_zero] at listed
    let stop : Token := ⟨lead', [x], 1 + (down + lineBreaks
      (a.afterEquals.text ++ (a.value.text ++ a.afterValue.text)))⟩
    have ended : (stop.is ',' || stop.is ';') = true := by
      rcases ends with rfl | rfl <;> simp [stop, Token.is]
    obtain ⟨next, more, shown, apart⟩ :=
      @Initializer.exists_next a.value a.afterEquals.text down' stop (Item.tokens [] _ items)
    obtain ⟨stop', read, same⟩ := @initializer_value a.value a.afterEquals.text down'
      ⟨lead, ['='], 1 + down⟩ stop (Item.tokens [] _ items) rfl ended
    refine ⟨next, more, stop', listed.trans shown, fun mark other => ?_, ?_, same⟩
    · exact apart mark (decide_eq_false fun same => other (List.cons.inj same).1.symm)
    · rw [← shown]
      exact read

/-- The type is read, if there is one, and the initializer, up to the mark that ends it. An `=`
that is not doubled starts the initializer. -/
theorem reads (later : ∃ last, Reads true items [] last) (ends : x = ',' ∨ x = ';') :
    ∃ y inner, (y = ':' ∨ y = '=') ∧ a.text ++ x :: Item.source items = y :: Item.source inner ∧
      Readable (.token [y] :: inner) [] ∧
      ∀ (lead : List Char) (down : Nat), ∃ tokens stop,
        typeClause .finished (Item.tokens lead (1 + down) (.token [y] :: inner)) =
          .ok (a.ascription.isSome, tokens) ∧
        (a.afterEquals.text ≠ [] ∨ a.value.text.head? ≠ some '=' →
          startsInitializer tokens = true) ∧
        initializer .finished tokens =
          .ok (some a.value.text, stop :: Item.tokens [] (1 + (down + lineBreaks a.text)) items) ∧
        stop.text = [x] := by
  obtain ⟨inner, source, reads, listed⟩ := a.reads_value later ends
  have noArrow : '>' ≠ x := by rcases ends with rfl | rfl <;> decide
  have notDoubled : '=' ≠ x := by rcases ends with rfl | rfl <;> decide
  -- an `=` to which no other is glued starts the initializer
  have starts {lead : List Char} {line : Nat} {next : Token} {tokens : List Token}
      (apart : next.isGlued '=' = false) :
      startsInitializer (⟨lead, ['='], line⟩ :: next :: tokens) = true := by
    simp [startsInitializer, Token.is, apart]
  let value := a.afterEquals.text ++ (a.value.text ++ a.afterValue.text)
  rcases typed : a.ascription with _ | ascription
  · -- an `=` opens no type
    have text : a.text = '=' :: value := by
      rw [Assignment.text, typed]
      rfl
    refine ⟨'=', inner, Or.inr rfl, ?_, reads, fun lead down => ?_⟩
    · rw [← source, text]
      simp [value]
    · obtain ⟨next, tokens, stop, same, apart, read, ended⟩ := listed lead down
      have breaks : lineBreaks a.text = lineBreaks value := by
        rw [text]
        rfl
      rw [Item.tokens, show lineBreaks ['='] = 0 by decide, Nat.add_zero, same, breaks]
      exact ⟨_, stop, rfl, fun single => starts (apart '=' notDoubled single), read, ended⟩
  · let type := ascription.before.text ++ (ascription.text ++ ascription.after.text)
    have text : a.text = ':' :: (type ++ '=' :: value) := by
      rw [Assignment.text, typed]
      rfl
    have equals : ∀ y ∈ (Item.source (.token ['='] :: inner)).head?, isStopper y = true :=
      stops_cons (by decide) _
    -- with a type, its fragment is read up to the `=`, and from there on it is the case above
    obtain ⟨all, whole, ⟨last, front⟩, tokens⟩ :=
      ascription.reads_between ascription.before ascription.after reads equals
    refine ⟨':', all, Or.inl rfl, ?_, ?_, fun lead down => ?_⟩
    · rw [← whole, Item.source_cons, ← source, text]
      simp [Item.text, type, value]
    · intro flag
      exact ⟨last, .token (.separator (by decide) flag _) front⟩
    · obtain ⟨lead', down', placed⟩ := tokens [] down
      obtain ⟨next, more, stop, same, apart, read, ended⟩ := listed lead' (down + lineBreaks type)
      have breaks : lineBreaks a.text = lineBreaks type + lineBreaks value := by
        rw [text, ← List.singleton_append, lineBreaks_append, lineBreaks_append]
        exact Nat.zero_add _
      rw [Item.tokens, show lineBreaks [':'] = 0 by decide, Nat.add_zero, placed, Item.tokens,
        show lineBreaks ['='] = 0 by decide, Nat.add_zero, same, breaks, ← Nat.add_assoc down]
      refine ⟨_, stop, ?_, fun single => starts (apart '=' notDoubled single), read, ended⟩
      exact typeClause_ascription ascription _ down' rfl rfl (apart '>' noArrow a.noArrow)

end Assignment

end Concord.Export
