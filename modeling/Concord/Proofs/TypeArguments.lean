import Concord.Proofs.DeclaratorLists
import Concord.Proofs.TypeExpressions

/-!
Initializers with type arguments. An expression ends at the first comma among its tokens, and angle
brackets are no groups, so a comma between type arguments ends the initializer. The names behind it
are read as further declarators, as long as a comma follows each. An initializer is recovered whole
exactly if no list of type arguments in it has a second member.
-/
namespace Concord.Export

open Concord.Scan Concord.Text

/-! Syntax -/

mutual

/-- Every list of type arguments has one member. -/
def TypeExpr.single {objects : Bool} : TypeExpr objects → Bool
  | .name _ => true
  | .generic _ arguments => arguments.single
  | .object _ _ => true
  | .array element => element.single
  | .union left right => left.single && right.single

def TypeList.single {objects : Bool} : TypeList objects → Bool
  | .one type => type.single
  | .more _ _ => false

end

/-- A declarator whose initializer calls or constructs something with type arguments. -/
structure GenericCall where
  name : Word
  isNew : Bool
  callee : Identifier
  members : List Identifier
  arguments : TypeList false
  group : Group .round

def newKeyword : Identifier where
  text := "new".toList

/-- The names whose declarators stand in front of the items, and the name in the declarator that
goes on with them. -/
def straying : List Item → List (List Char)
  | .token name :: .token [','] :: .gap _ :: more => name :: straying more
  | .token name :: _ => [name]
  | _ => []

/-- The item ends an expression. -/
def endsExpression (item : Item) : Bool :=
  item = .token [','] || item = .token [';']

namespace GenericCall

variable (c : GenericCall)

/-- What is called, up to the angle bracket. -/
def front : List Char :=
  (if c.isNew then "new ".toList else []) ++
    (c.callee.text ++ c.members.flatMap fun member => '.' :: member.text)

def initializer : List Char :=
  c.front ++ '<' :: (c.arguments.text ++ '>' :: c.group.text)

def text : List Char :=
  "export const ".toList ++ (c.name.text ++ (" = ".toList ++ (c.initializer ++ [';'])))

/-- The items of the initializer, and the `;` behind it. -/
def items : List Item :=
  (if c.isNew then [.token newKeyword.text, .gap [' ']] else []) ++
    .token c.callee.text :: ((c.members.flatMap fun member => [.token ['.'], .token member.text]) ++
      .token ['<'] :: (c.arguments.items ++
        [.token ['>'], .token c.group.text, .token [';']]))

/-- What the name exports if its initializer is `source`. -/
def exported (source : List Char) : Export where
  name := String.ofList c.name.text
  kind := .value
  line := 1
  source := some (String.ofList source)

/-- A name on the first line without an initializer. -/
def stray (name : List Char) : Export where
  name := String.ofList name
  kind := .value
  line := 1

/-- The name with what stands in front of the first comma, and the names behind it. -/
def exports : List Export :=
  c.exported (Item.source (c.items.takeWhile fun item => !endsExpression item)) ::
    (straying ((c.items.dropWhile fun item => !endsExpression item).drop 2)).map stray

end GenericCall

/-! Functions -/

/-- No mark of an arrow and no keyword of a function is among the tokens. -/
def Arrowless (tokens : List Token) : Prop :=
  ∀ t ∈ tokens, t.is '=' = false ∧ t.isWord "function" = false

section

variable {tokens : List Token}

theorem startsArrow_arrowless (arrowless : Arrowless tokens) :
    isFunctionOf.startsArrow tokens = false := by
  match tokens with
  | [] | [_] => rfl
  | t :: u :: rest =>
    rw [isFunctionOf.startsArrow, (arrowless t List.mem_cons_self).1]
    rfl

theorem returnsArrow_arrowless (arrowless : Arrowless tokens) :
    isFunctionOf.returnsArrow tokens = false := by
  induction tokens with
  | nil => rfl
  | cons t rest ih =>
    rw [isFunctionOf.returnsArrow, startsArrow_arrowless arrowless, Bool.false_or]
    exact ih fun u member => arrowless u (List.mem_cons_of_mem t member)

theorem parametersArrow_arrowless (arrowless : Arrowless tokens) :
    isFunctionOf.parametersArrow tokens = false := by
  match tokens with
  | [] => rfl
  | [t] => simp [isFunctionOf.parametersArrow]
  | t :: u :: later =>
    have behind : Arrowless (u :: later) :=
      fun v member => arrowless v (List.mem_cons_of_mem t member)
    have inner : Arrowless later := fun v member => behind v (List.mem_cons_of_mem u member)
    simp [isFunctionOf.parametersArrow, startsArrow_arrowless behind, returnsArrow_arrowless inner]

theorem opensFunction_arrowless (arrowless : Arrowless tokens) :
    isFunctionOf.opensFunction tokens = false := by
  match tokens with
  | [] => rfl
  | t :: rest =>
    have behind : Arrowless rest := fun u member => arrowless u (List.mem_cons_of_mem t member)
    -- type parameters are skipped, which adds no token
    have skipped : Arrowless (skipTypeParameters 0 (t :: rest)) := by
      intro u member
      obtain ⟨v, inside, same⟩ := (skipTypeParameters_remains 0 (t :: rest)).exists_text member
      have plain := arrowless v inside
      rwa [Token.is, Token.isWord, same] at plain
    rw [isFunctionOf.opensFunction, (arrowless t List.mem_cons_self).2,
      startsArrow_arrowless behind, parametersArrow_arrowless skipped,
      parametersArrow_arrowless arrowless]
    simp

end

/-- A text without arrows and functions of its own is no function. -/
theorem isFunction_arrowless {text : List Char} (arrowless : Arrowless (scan text).tokens) :
    isFunction text = false := by
  rw [isFunction_eq, isFunctionOf_eq]
  generalize (scan text).tokens = tokens at arrowless
  cases tokens with
  | nil => rfl
  | cons t rest =>
    have behind : Arrowless rest := fun u member => arrowless u (List.mem_cons_of_mem t member)
    cases rest with
    | nil => exact opensFunction_arrowless arrowless
    | cons u later =>
      rw [afterAsync]
      split
      · exact opensFunction_arrowless behind
      · exact opensFunction_arrowless arrowless

/-! Tokens between commas -/

/-- What is neither a mark with a meaning of its own among declarators nor one of their keywords. It
does not end in a blank. -/
structure Neutral (text : List Char) : Prop where
  other : text ∉ [[','], [';'], [':'], ['='], ['!'], "export".toList, "function".toList]
  dark : (text.getLast?.any fun x => !isBlank x) = true

theorem Neutral.ne_nil {text : List Char} (neutral : Neutral text) : text ≠ [] := by
  rintro rfl
  cases neutral.dark

/-- A neutral token ends no expression. -/
theorem Neutral.ne_end {text : List Char} {x : Char} (neutral : Neutral text)
    (ends : x = ',' ∨ x = ';') : text ≠ [x] := by
  have other := neutral.other
  simp only [List.mem_cons, not_or] at other
  rcases ends with rfl | rfl
  · exact other.1
  · exact other.2.1

theorem Neutral.ne_comma {text : List Char} (neutral : Neutral text) : text ≠ [','] :=
  neutral.ne_end (Or.inl rfl)

theorem Identifier.neutral (name : Identifier) : Neutral name.text := by
  constructor
  · intro member
    simp only [List.mem_cons, List.not_mem_nil, or_false] at member
    have unreserved := name.unreserved
    simp only [List.mem_cons, List.not_mem_nil, or_false, not_or] at unreserved
    rcases member with same | same | same | same | same | same | same
    · exact name.ne_mark (by decide) same
    · exact name.ne_mark (by decide) same
    · exact name.ne_mark (by decide) same
    · exact name.ne_mark (by decide) same
    · exact name.ne_mark (by decide) same
    · exact unreserved.1 same
    · exact unreserved.2 same
  · have full : name.text ≠ [] := by
      obtain ⟨x, rest, shown, -⟩ := name.exists_cons
      simp [shown]
    rw [List.getLast?_eq_some_getLast full]
    exact List.all_eq_true.mp name.dark _ (List.getLast_mem full)

theorem Group.neutral {bracket : Bracket} (group : Group bracket) : Neutral group.text := by
  have opens := group.head_text
  constructor
  · intro member
    have first : group.text.head? ∈ [some ',', some ';', some ':', some '=', some '!', some 'e',
        some 'f'] := List.mem_map_of_mem (f := List.head?) member
    rw [opens] at first
    cases bracket <;> simp [Bracket.opener] at first
  · have dark := dark_of_isGroup group.whole
    cases last : group.text.getLast? with
    | none =>
      rw [List.getLast?_eq_none_iff.mp last] at opens
      cases opens
    | some x => simpa using dark x last

theorem neutral_mark {x : Char} (other : x ∉ [',', ';', ':', '=', '!'])
    (dark : isBlank x = false) : Neutral [x] := by
  constructor
  · intro member
    apply other
    simpa using member
  · simp [dark]

/-- Neutral tokens, of which a blank may stand in front of each. -/
inductive Segment : List Item → Prop
  | nil : Segment []
  | token {text : List Char} {items : List Item} (neutral : Neutral text) (more : Segment items) :
      Segment (.token text :: items)
  | blank {text : List Char} {items : List Item} (neutral : Neutral text)
      (more : Segment (.token text :: items)) : Segment (.gap [' '] :: .token text :: items)

/-- Segments with commas between them, up to a `;`. Those in front of commas stand on one line, and
behind a comma stand a blank and a name. -/
inductive Listing : List Item → Prop
  | stop {front : List Item} (segment : Segment front) : Listing (front ++ [.token [';']])
  | comma {front items : List Item} (segment : Segment front)
      (inline : lineBreaks (Item.source front) = 0) (name : Identifier)
      (more : Listing (.token name.text :: items)) :
      Listing (front ++ .token [','] :: .gap [' '] :: .token name.text :: items)

namespace Segment

variable {items : List Item}

theorem neutral_of_mem (segment : Segment items) {text : List Char}
    (member : .token text ∈ items) : Neutral text := by
  induction segment with
  | nil => cases member
  | token neutral _ ih =>
    rcases List.mem_cons.mp member with same | member
    · cases same
      exact neutral
    · exact ih member
  | blank _ _ ih =>
    rcases List.mem_cons.mp member with same | member
    · cases same
    · exact ih member

theorem not_ends (segment : Segment items) : ∀ item ∈ items, endsExpression item = false := by
  intro item member
  cases item with
  | gap text => rfl
  | token text =>
    have neutral := segment.neutral_of_mem member
    simp [endsExpression, neutral.ne_comma, neutral.ne_end (Or.inr rfl)]

/-- A segment ends with a token. -/
theorem trail (segment : Segment items) : Item.trail [] items = [] := by
  induction segment with
  | nil => rfl
  | token _ _ ih => exact ih
  | blank _ _ ih => exact ih

theorem last_dark (segment : Segment items) :
    ∀ x ∈ (Item.source items).getLast?, isBlank x = false := by
  induction segment with
  | nil => simp
  | @token text items neutral _ ih =>
    intro x last
    rw [Item.source_cons, List.getLast?_append, Option.mem_def, Option.or_eq_some_iff] at last
    rcases last with behind | ⟨-, inside⟩
    · exact ih x behind
    · have dark := neutral.dark
      rw [show text.getLast? = some x from inside] at dark
      simpa using dark
  | @blank text items neutral more ih =>
    have full : Item.source (.token text :: items) ≠ [] := by
      simp [Item.text, neutral.ne_nil]
    intro x last
    rw [Item.source_cons, List.getLast?_append_of_ne_nil _ full] at last
    exact ih x last

/-- No token of a segment ends an expression, or stands on a later line. -/
theorem continuing (segment : Segment items) {lead : List Char} (inline : '\n' ∉ lead)
    (line : Nat) : ∀ t ∈ Item.tokens lead line items, continuing t = true := by
  induction segment generalizing lead line with
  | nil => simp [Item.tokens]
  | @token text items neutral _ ih =>
    refine List.forall_mem_cons.mpr ⟨?_, ih (by simp) _⟩
    simp [Export.continuing, Token.is, Token.freshLine, neutral.ne_comma,
      neutral.ne_end (Or.inr rfl), inline]
  | blank _ _ ih => exact ih (by simpa using inline) _

theorem arrowless (segment : Segment items) (lead : List Char) (line : Nat) :
    Arrowless (Item.tokens lead line items) := by
  intro t member
  have other := (segment.neutral_of_mem (Item.token_mem_of_mem_tokens member)).other
  simp only [List.mem_cons, List.not_mem_nil, or_false, not_or] at other
  exact ⟨decide_eq_false other.2.2.2.1, decide_eq_false other.2.2.2.2.2.2⟩

end Segment

namespace Listing

variable {items : List Item}

theorem token {text : List Char} (neutral : Neutral text) (inline : lineBreaks text = 0)
    (listing : Listing items) : Listing (.token text :: items) := by
  cases listing with
  | stop segment => exact .stop (.token neutral segment)
  | comma segment unbroken name more =>
    refine .comma (.token neutral segment) ?_ name more
    rw [Item.source_cons, lineBreaks_append, unbroken]
    exact inline

/-- In front of a neutral token, a blank may stand. -/
theorem blank {text : List Char} (neutral : Neutral text)
    (listing : Listing (.token text :: items)) :
    Listing (.gap [' '] :: .token text :: items) := by
  generalize whole : Item.token text :: items = all at listing
  -- the token cannot be the mark that ends the segment, so the blank goes into the segment
  cases listing with
  | @stop front segment =>
    cases front with
    | nil =>
      obtain ⟨same, -⟩ := List.cons.inj whole
      exact absurd (Item.token.inj same) (neutral.ne_end (Or.inr rfl))
    | cons item front =>
      obtain ⟨rfl, rfl⟩ := List.cons.inj whole
      exact .stop (.blank neutral segment)
  | @comma front later segment unbroken name more =>
    cases front with
    | nil =>
      obtain ⟨same, -⟩ := List.cons.inj whole
      exact absurd (Item.token.inj same) neutral.ne_comma
    | cons item front =>
      obtain ⟨rfl, rfl⟩ := List.cons.inj whole
      refine .comma (.blank neutral segment) ?_ name more
      rw [Item.source_cons, lineBreaks_append, unbroken]
      rfl

end Listing

mutual

/-- A type goes in front of a listing. -/
theorem TypeExpr.listing (t : TypeExpr false) {later : List Item} (listing : Listing later) :
    Listing (t.items ++ later) := by
  -- by recursion over the type; the marks between its parts are neutral, and so are its names
  match t with
  | .name name => exact .token name.neutral name.lineBreaks_text listing
  | .generic name arguments =>
    have closed : Listing (.token ['>'] :: later) :=
      .token (neutral_mark (by decide) (by decide)) rfl listing
    rw [TypeExpr.items, List.cons_append, List.cons_append, List.append_assoc]
    exact .token name.neutral name.lineBreaks_text <|
      .token (neutral_mark (by decide) (by decide)) rfl (arguments.listing closed)
  | .array element =>
    rw [TypeExpr.items, List.append_assoc]
    exact element.listing (.token ⟨by decide, by decide⟩ rfl listing)
  -- the second type begins with a name, and in front of that and of the bar stands a blank
  | .union left right =>
    obtain ⟨text, behind, starts, named⟩ := right.starts
    obtain ⟨name, rfl⟩ := named rfl
    have inner := right.listing listing
    rw [starts, List.cons_append] at inner
    rw [TypeExpr.items, List.append_assoc, List.cons_append, List.cons_append, List.cons_append,
      starts]
    have mark : Neutral ['|'] := neutral_mark (by decide) (by decide)
    exact left.listing (.blank mark (.token mark rfl (.blank name.neutral inner)))

theorem TypeList.listing (l : TypeList false) {later : List Item} (listing : Listing later) :
    Listing (l.items ++ later) := by
  match l with
  | .one type => exact type.listing listing
  | .more type others =>
    obtain ⟨text, behind, starts, named⟩ := others.starts
    obtain ⟨name, rfl⟩ := named rfl
    have inner := others.listing listing
    rw [starts, List.cons_append] at inner
    rw [TypeList.items, List.append_assoc, List.cons_append, List.cons_append, starts]
    exact type.listing (.comma .nil rfl name inner)

end

/-! Names behind commas -/

/-- A name in front of nothing that belongs to a declarator is exported without a source. -/
theorem declarator_alone (word : Word) {t : Token} {rest : List Token} (named : t.text = word.text)
    (apart : ∀ u ∈ rest.head?, u.is '!' = false ∧ u.is ':' = false ∧ u.is '=' = false) :
    declarator .finished t rest =
      .ok (some ([{ name := String.ofList word.text, kind := .value, line := t.line }], rest)) := by
  have noPattern : t.group? = none := word.group?_eq named
  have isName : t.word?.isSome = true := by rw [word.word?_eq named, Option.isSome_some]
  -- what follows is none of the marks that would belong to the name
  have found : nameExport .finished t rest =
      .ok ({ name := String.ofList word.text, kind := .value, line := t.line }, rest) := by
    cases rest with
    | nil =>
      rw [nameExport, named]
      rfl
    | cons u later =>
      obtain ⟨noBang, noColon, noEquals⟩ := apart u rfl
      have starts : startsInitializer (u :: later) = false := by
        cases later <;> simp [startsInitializer, noEquals]
      rw [nameExport, skipMark, noBang, if_neg (by decide), typeClause, noColon,
        if_neg (by decide)]
      simp only [bind, Except.bind, starts, named]
      rfl
  rw [declarator, noPattern, if_neg (by decide), if_pos isName, found]
  rfl

theorem Listing.no_export {items : List Item} (listing : Listing items) (lead : List Char)
    (line : Nat) : ∀ t ∈ Item.tokens lead line items, t.isWord "export" = false := by
  have neutral {text : List Char} (neutral : Neutral text) : text ≠ "export".toList := by
    have other := neutral.other
    simp only [List.mem_cons, not_or] at other
    exact other.2.2.2.2.2.1
  intro t member
  apply decide_eq_false
  have inside := Item.token_mem_of_mem_tokens member
  clear member
  -- every token is neutral, a comma or the mark at the end
  induction listing with
  | stop segment =>
    rcases List.mem_append.mp inside with member | last
    · exact neutral (segment.neutral_of_mem member)
    · rw [Item.token.inj (List.mem_singleton.mp last)]
      decide
  | comma segment _ name _ ih =>
    rcases List.mem_append.mp inside with member | behind
    · exact neutral (segment.neutral_of_mem member)
    · rcases List.mem_cons.mp behind with comma | behind
      · rw [Item.token.inj comma]
        decide
      · rcases List.mem_cons.mp behind with gap | behind
        · cases gap
        · exact ih behind

/-- The first token of a segment is neutral. -/
theorem Segment.head_neutral {item : Item} {front rest : List Item}
    (segment : Segment (item :: front)) (lead : List Char) (line : Nat) :
    ∀ t ∈ (Item.tokens lead line (item :: front ++ rest)).head?, Neutral t.text := by
  cases segment with
  | token neutral _ | blank neutral _ =>
    rintro _ ⟨⟩
    exact neutral

theorem straying_alone {name : List Char} {items : List Item}
    (alone : ∀ gap more, items ≠ .token [','] :: .gap gap :: more) :
    straying (.token name :: items) = [name] := by
  rw [straying]
  exact alone

/-- Behind a name stands a comma with the next name, or a token that belongs to no declarator. -/
theorem Listing.behind_name {name : Identifier} {items : List Item}
    (listing : Listing (.token name.text :: items)) :
    (∃ (next : Identifier) (later : List Item),
      items = .token [','] :: .gap [' '] :: .token next.text :: later ∧
        Listing (.token next.text :: later)) ∨
    straying (.token name.text :: items) = [name.text] ∧ ∀ lead line,
      ∀ t ∈ (Item.tokens lead line items).head?,
        t.is ',' = false ∧ t.is '!' = false ∧ t.is ':' = false ∧ t.is '=' = false := by
  have neutral {t : Token} (neutral : Neutral t.text) :
      t.is ',' = false ∧ t.is '!' = false ∧ t.is ':' = false ∧ t.is '=' = false := by
    have other := neutral.other
    simp only [List.mem_cons, not_or] at other
    obtain ⟨comma, -, colon, equals, bang, -⟩ := other
    exact ⟨decide_eq_false comma, decide_eq_false bang, decide_eq_false colon,
      decide_eq_false equals⟩
  -- a segment that goes on behind the name has no comma at its start
  have goesOn {item : Item} {front rest : List Item} (segment : Segment (item :: front)) :
      straying (.token name.text :: (item :: front ++ rest)) = [name.text] := by
    apply straying_alone
    rintro gap more same
    obtain ⟨rfl, -⟩ := List.cons.inj same
    exact absurd (segment.neutral_of_mem List.mem_cons_self).other (by simp)
  have notMark {x : Char} (ends : x = ',' ∨ x = ';') : name.text ≠ [x] := name.neutral.ne_end ends
  generalize whole : Item.token name.text :: items = all at listing
  cases listing with
  | @stop front segment =>
    cases segment with
    | nil => exact absurd (Item.token.inj (List.cons.inj whole).1) (notMark (Or.inr rfl))
    | blank => cases (List.cons.inj whole).1
    | @token _ front _ more =>
      obtain ⟨same, rfl⟩ := List.cons.inj whole
      obtain rfl := Item.token.inj same
      refine Or.inr ?_
      cases front with
      | nil =>
        refine ⟨straying_alone (by simp), fun lead line => ?_⟩
        rintro _ ⟨⟩
        simp [Token.is]
      | cons item front =>
        exact ⟨goesOn more, fun lead line t first => neutral (more.head_neutral lead line t first)⟩
  | @comma front later segment _ next listing =>
    cases segment with
    | nil => exact absurd (Item.token.inj (List.cons.inj whole).1) (notMark (Or.inl rfl))
    | blank => cases (List.cons.inj whole).1
    | @token _ front _ more =>
      obtain ⟨same, rfl⟩ := List.cons.inj whole
      obtain rfl := Item.token.inj same
      cases front with
      | nil => exact Or.inl ⟨next, later, rfl, listing⟩
      | cons item front =>
        refine Or.inr ⟨goesOn more, fun lead line t first => ?_⟩
        exact neutral (more.head_neutral lead line t first)

/-- A name and those behind it, as long as a comma follows, are read as declarators. -/
theorem declarators_straying {name : Identifier} {items : List Item}
    (listing : Listing (.token name.text :: items)) (lead : List Char) :
    ∃ left, declarators .finished (Item.tokens lead 1 (.token name.text :: items)) =
        .ok ((straying (.token name.text :: items)).map GenericCall.stray, left) ∧
      ∀ t ∈ left, t.isWord "export" = false := by
  let first : Token := ⟨lead, name.text, 1⟩
  have tokens : Item.tokens lead 1 (.token name.text :: items) =
      first :: Item.tokens [] 1 items := by
    rw [Item.tokens, name.lineBreaks_text]
  -- from name to name, as long as a comma stands behind
  rcases listing.behind_name with ⟨next, later, rfl, more⟩ | ⟨alone, apart⟩
  · obtain ⟨left, read, done⟩ := declarators_straying more [' ']
    refine ⟨left, ?_, done⟩
    have comma : Item.tokens [] 1 (.token [','] :: .gap [' '] :: .token next.text :: later) =
        ⟨[], [','], 1⟩ :: Item.tokens [' '] 1 (.token next.text :: later) := rfl
    rw [tokens, comma, declarators_cons,
      declarator_alone name.toWord rfl (by rintro _ ⟨⟩; simp [Token.is])]
    simp only [bind, Except.bind, moreDeclarators, Token.is, decide_true, if_true, read]
    rfl
  · refine ⟨Item.tokens [] 1 items, ?_, fun t member => ?_⟩
    · have read := @declarator_alone name.toWord first (Item.tokens [] 1 items) rfl
        fun u found => (apart [] 1 u found).2
      rw [tokens, declarators_cons, read, alone]
      -- no comma follows
      simp only [bind, Except.bind, moreDeclarators]
      split
      next none => rw [none]; rfl
      next u later found =>
        have noComma := (apart [] 1 u (by rw [found]; rfl)).1
        rw [found, noComma, if_neg (by decide)]
        rfl
    · refine listing.no_export lead 1 t ?_
      rw [tokens]
      exact List.mem_cons_of_mem _ member
  termination_by items.length

/-! Statements -/

namespace GenericCall

variable (c : GenericCall)

/-- The members of the callee go in front of what is read or listed. -/
theorem listing_members {items : List Item} (members : List Identifier) (listing : Listing items) :
    Listing ((members.flatMap fun member => [.token ['.'], .token member.text]) ++ items) := by
  induction members with
  | nil => exact listing
  | cons member members ih =>
    exact .token (neutral_mark (by decide) (by decide)) rfl
      (.token member.neutral member.lineBreaks_text ih)

theorem listing : Listing c.items := by
  have ended : Listing [.token c.group.text, .token [';']] := .stop (.token c.group.neutral .nil)
  have closed : Listing [.token ['>'], .token c.group.text, .token [';']] :=
    .token (neutral_mark (by decide) (by decide)) rfl ended
  have opened := Listing.token (neutral_mark (show '<' ∉ _ by decide) (by decide)) rfl
    (c.arguments.listing closed)
  have called := Listing.token c.callee.neutral c.callee.lineBreaks_text
    (listing_members c.members opened)
  rw [items]
  cases c.isNew with
  | false => exact called
  | true => exact .token newKeyword.neutral rfl (.blank c.callee.neutral called)

theorem readable_members {items : List Item} (members : List Identifier)
    (ends : ∀ x ∈ (Item.source items).head?, isWordPart x = false) (readable : Readable items []) :
    Readable ((members.flatMap fun member => [.token ['.'], .token member.text]) ++ items) [] ∧
      ∀ x ∈ (Item.source ((members.flatMap fun member =>
        [.token ['.'], .token member.text]) ++ items)).head?, isWordPart x = false := by
  induction members with
  | nil => exact ⟨readable, ends⟩
  | cons member members ih =>
    refine ⟨.mark (by decide) (member.readable ?_ ih.1), by rintro _ ⟨⟩; decide⟩
    rw [List.append_nil]
    exact ih.2

theorem readable : Readable c.items [] := by
  have ended : Readable [.token c.group.text, .token [';']] [] :=
    .group c.group.whole (.mark (by decide) .nil)
  have closed : Readable [.token ['>'], .token c.group.text, .token [';']] [] :=
    .mark (by decide) ended
  have opened := Readable.mark (show isSeparator '<' = true by decide)
    (c.arguments.readable (by rintro _ ⟨⟩; decide) closed)
  obtain ⟨members, ends⟩ := readable_members c.members (by rintro _ ⟨⟩; decide) opened
  have called := c.callee.readable (by rwa [List.append_nil]) members
  rw [items]
  cases c.isNew with
  | false => exact called
  | true => exact newKeyword.readable (by rintro _ ⟨⟩; decide) (.space called)

theorem source_items : Item.source c.items = c.initializer ++ [';'] := by
  have members : Item.source (c.members.flatMap fun member =>
      [.token ['.'], .token member.text]) = c.members.flatMap fun member => '.' :: member.text := by
    induction c.members with
    | nil => rfl
    | cons member members ih => simp [ih, Item.text]
  rw [items, initializer, front, Item.source_append, Item.source_cons, Item.source_append, members,
    Item.source_cons, Item.source_append, c.arguments.source_items]
  cases c.isNew <;> simp [Item.text, newKeyword]

/-- The items start with a name, or with the keyword in front of it. -/
theorem starts : ∃ (word : Identifier) (more : List Item), c.items = .token word.text :: more := by
  rw [items]
  cases c.isNew with
  | false => exact ⟨c.callee, _, rfl⟩
  | true => exact ⟨newKeyword, _, rfl⟩

end GenericCall

/-- In front of a mark, a segment that starts with a name is an initializer, and no function. -/
theorem Segment.initializer {word : Identifier} {front : List Item} {x : Char} {rest : List Char}
    {flag : Bool} (segment : Segment (.token word.text :: front))
    (reads : Reads true (.token word.text :: front) (x :: rest) flag) (notBreak : x ≠ '\n') :
    ∃ value : Initializer, value.text = Item.source (.token word.text :: front) ∧
      isFunction value.text = false := by
  have first : ∀ y ∈ (word.text ++ Item.source front).head?, isBlank y = false := by
    rw [List.head?_append_of_ne_nil _ word.neutral.ne_nil]
    intro y first
    simpa using List.all_eq_true.mp word.dark y (List.mem_of_mem_head? first)
  obtain ⟨value, same⟩ := initializer_of_items reads notBreak segment.trail first segment.last_dark
    (segment.continuing (by simp) 1)
  -- on their own, the items are the tokens that they are in front of the mark
  have alone := (reads.exchange (@Exchanges.stopper _ _ [] _ notBreak (by simp))).scan.2
  have scanned : (scan value.text).tokens = Item.tokens [] 1 (.token word.text :: front) := by
    rw [same]
    exact alone
  exact ⟨value, same, isFunction_arrowless (scanned ▸ segment.arrowless [] 1)⟩

namespace GenericCall

variable (c : GenericCall)

/-- The name with the value, as a declarator. -/
def declarator (value : Initializer) : Declarator where
  before := .space
  name := c.name
  afterName := .space
  ascription := none
  afterEquals := .space
  value := value
  afterValue := .empty
  noArrow := Or.inl (by decide)
  single := Or.inl (by decide)

/-- The name takes the items in front of the mark that ends them, and what is declared behind the
mark follows. -/
theorem extract_cut {front back : List Item} {x : Char} {more : List Export}
    (cut : c.items = front ++ .token [x] :: back) (segment : Segment front)
    (ends : x = ',' ∨ x = ';')
    (behind : ∀ (stop : Token) (first : Export), stop.text = [x] → ∃ left, moreDeclarators .finished
        ([first], stop :: Item.tokens [] (1 + lineBreaks (Item.source front)) back) =
          .ok (first :: more, left) ∧ ∀ t ∈ left, t.isWord "export" = false) :
    extract c.text = .ok (c.exported (Item.source front) :: more) := by
  obtain ⟨last, whole⟩ := c.readable true
  rw [cut] at whole
  obtain ⟨middle, reads, later⟩ := whole.split
  have separates : isSeparator x = true := by rcases ends with rfl | rfl <;> decide
  -- behind either mark, what follows is read as at the start of an expression
  have later : ∃ last, Reads true back [] last := by
    cases later with
    | token one later =>
      have follows : regexMayFollow x = true := by rcases ends with rfl | rfl <;> decide
      rw [(one.eq_separator separates).2, follows] at later
      exact ⟨last, later⟩
  obtain ⟨word, tail, starts⟩ := c.starts
  cases front with
  | nil =>
    -- no mark stands where the first name does
    obtain ⟨same, -⟩ := List.cons.inj (starts.symm.trans cut)
    exact absurd (Item.token.inj same) (word.neutral.ne_end ends)
  | cons item front =>
    obtain ⟨rfl, -⟩ := List.cons.inj (starts.symm.trans cut)
    obtain ⟨value, same, noFunction⟩ :=
      segment.initializer reads (by rcases ends with rfl | rfl <;> decide)
    let d := c.declarator value
    obtain ⟨all, source, readable, read⟩ := d.reads later ends
    obtain ⟨t, rest, stop, tokens, one, ended⟩ := read [] (lineBreaks Gap.space.text)
    have initializer : c.initializer ++ [';'] =
        Item.source (.token word.text :: front) ++ x :: Item.source back := by
      rw [← c.source_items, cut, Item.source_append]
      rfl
    have shown : d.text = ' ' :: (c.name.text ++ (" = ".toList ++ value.text)) := by
      simp [d, declarator, Declarator.text, Assignment.text, Ascription.text?, Gap.space, Gap.empty]
    have text : c.text = "export".toList ++ (Gap.space.text ++ ("const".toList ++
        Item.source all)) := by
      have front : c.text = "export const ".toList ++
          (c.name.text ++ (" = ".toList ++ (c.initializer ++ [';']))) := rfl
      rw [front, initializer, ← source, shown, same]
      simp [Gap.space]
    have breaks : lineBreaks d.text = lineBreaks (Item.source (.token word.text :: front)) := by
      rw [shown, ← List.singleton_append, lineBreaks_append, lineBreaks_append, lineBreaks_append,
        c.name.lineBreaks_text, same]
      exact (Nat.zero_add _).trans ((Nat.zero_add _).trans (Nat.zero_add _))
    have exported : d.exported (1 + lineBreaks Gap.space.text + lineBreaks d.before.text) =
        c.exported (Item.source (.token word.text :: front)) := by
      rw [Declarator.exported, show d.value.text = value.text from rfl, noFunction, same]
      rfl
    obtain ⟨left, others, done⟩ :=
      behind stop (c.exported (Item.source (.token word.text :: front))) ended
    rw [text]
    refine @extract_of_declarators { text := "const".toList } .space all _ left (by decide)
      (by decide) ?_ readable ?_ done
    · rw [← source, shown]
      rintro _ ⟨⟩
      decide
    · rw [tokens, declarators_cons, one, exported, breaks,
        show lineBreaks Gap.space.text = 0 from rfl, Nat.zero_add]
      exact others

theorem takeWhile_segment {front : List Item} {x : Char} (segment : Segment front)
    (ends : x = ',' ∨ x = ';') (back : List Item) :
    (front ++ .token [x] :: back).takeWhile (fun item => !endsExpression item) = front ∧
      (front ++ .token [x] :: back).dropWhile (fun item => !endsExpression item) =
        .token [x] :: back := by
  have inside : ∀ item ∈ front, (!endsExpression item) = true := by
    intro item member
    rw [segment.not_ends item member]
    rfl
  have stops : endsExpression (.token [x]) = true := by rcases ends with rfl | rfl <;> decide
  rw [List.takeWhile_append_of_pos inside, List.dropWhile_append_of_pos inside]
  simp [stops]

end GenericCall

mutual

/-- Commas stand in a type exactly if one of its lists has a second member. -/
theorem TypeExpr.comma_mem_items {objects : Bool} (t : TypeExpr objects) :
    .token [','] ∈ t.items ↔ t.single = false := by
  match t with
  | .name name => simp [TypeExpr.items, TypeExpr.single, name.neutral.ne_comma.symm]
  | .generic name arguments =>
    simp [TypeExpr.items, TypeExpr.single, name.neutral.ne_comma.symm, arguments.comma_mem_items]
  | .object allowed fields =>
    simp [TypeExpr.items, TypeExpr.single, fields.neutral.ne_comma.symm]
  | .array element => simp [TypeExpr.items, TypeExpr.single, element.comma_mem_items]
  | .union left right =>
    simp only [TypeExpr.items, TypeExpr.single, List.mem_append, List.mem_cons,
      left.comma_mem_items, right.comma_mem_items, Bool.and_eq_false_iff]
    simp

theorem TypeList.comma_mem_items {objects : Bool} (l : TypeList objects) :
    .token [','] ∈ l.items ↔ l.single = false := by
  match l with
  | .one type => exact type.comma_mem_items
  | .more type others => simp [TypeList.items, TypeList.single]

end

namespace GenericCall

variable (c : GenericCall)

theorem comma_mem_items : .token [','] ∈ c.items ↔ c.arguments.single = false := by
  have members : Item.token [','] ∉ c.members.flatMap fun member =>
      [Item.token ['.'], .token member.text] := by
    simp only [List.mem_flatMap, List.mem_cons, List.not_mem_nil, or_false, not_exists, not_and]
    rintro member - (same | same)
    · cases same
    · exact member.neutral.ne_comma (Item.token.inj same).symm
  have front : Item.token [','] ∉
      (if c.isNew then [Item.token newKeyword.text, .gap [' ']] else []) := by
    cases c.isNew <;> decide
  simp [items, front, members, c.callee.neutral.ne_comma.symm, c.group.neutral.ne_comma.symm,
    c.arguments.comma_mem_items]

/-- A name with a generic initializer takes what stands in front of the first comma, and the names
behind it are exported, too. So it is recovered whole, and alone, exactly if no list of type
arguments has a second member. -/
theorem extract_genericCall :
    extract c.text = .ok c.exports ∧
      (c.exports = [c.exported c.initializer] ↔ c.arguments.single = true) := by
  have listing := c.listing
  have commas := c.comma_mem_items
  have source := c.source_items
  generalize whole : c.items = items at listing
  cases listing with
  | @stop front segment =>
    -- no comma is in the way, and the `;` ends the initializer
    obtain ⟨taken, dropped⟩ := takeWhile_segment segment (Or.inr rfl) []
    have exports : c.exports = [c.exported (Item.source front)] := by
      rw [GenericCall.exports, whole, taken, dropped]
      rfl
    have same : Item.source front = c.initializer := by
      rw [whole, Item.source_append] at source
      exact List.append_cancel_right source
    have single : c.arguments.single = true := by
      by_contra second
      rw [Bool.not_eq_true, ← commas, whole] at second
      rcases List.mem_append.mp second with inside | last
      · exact (segment.neutral_of_mem inside).ne_comma rfl
      · simp at last
    refine ⟨?_, by simp [exports, same, single]⟩
    rw [exports]
    refine c.extract_cut whole segment (Or.inr rfl) fun stop first ended => ⟨[stop], ?_, ?_⟩
    · simp [moreDeclarators, is_of_semi ended, Item.tokens]
    · simpa using isWord_of_semi ended (by decide)
  | @comma front later segment inline name more =>
    -- the initializer ends at this comma, and declarators are read behind it
    obtain ⟨taken, dropped⟩ :=
      takeWhile_segment segment (Or.inl rfl) (.gap [' '] :: .token name.text :: later)
    have exports : c.exports = c.exported (Item.source front) ::
        (straying (.token name.text :: later)).map stray := by
      rw [GenericCall.exports, whole, taken, dropped]
      rfl
    have second : c.arguments.single = false := by
      rw [← commas, whole]
      simp
    have strays : straying (.token name.text :: later) ≠ [] := by
      rw [straying.eq_def]
      split <;> simp_all
    refine ⟨?_, by simp [exports, second, strays]⟩
    rw [exports]
    refine c.extract_cut whole segment (Or.inl rfl) fun stop first ended => ?_
    obtain ⟨left, read, done⟩ := declarators_straying more [' ']
    refine ⟨left, ?_, done⟩
    have comma : stop.is ',' = true := decide_eq_true ended
    have tokens (line : Nat) : Item.tokens [] line (.gap [' '] :: .token name.text :: later) =
        Item.tokens [' '] line (.token name.text :: later) := rfl
    simp only [moreDeclarators, comma, if_true, inline, Nat.add_zero, tokens, read, bind,
      Except.bind]
    rfl

end GenericCall

/-- Type arguments in type arguments, of which the names between commas are declared. -/
def nestedArguments : GenericCall where
  name := { text := "n".toList }
  isNew := true
  callee := { text := "a".toList }
  members := [{ text := "B".toList }]
  arguments :=
    .more (.generic { text := "C".toList } (.one (.array (.name { text := "d".toList })))) <|
    .more (.name { text := "e".toList }) <|
    .more (.generic { text := "o".toList } <|
      .more (.name { text := "g".toList }) (.one (.name { text := "p".toList }))) <|
    .one (.name { text := "i".toList })
  group := { text := "(j, k)".toList }

theorem extract_genericCall_nestedArguments :
    nestedArguments.text = "export const n = new a.B<C<d[]>, e, o<g, p>, i>(j, k);".toList ∧
    extract nestedArguments.text = .ok
      [{ name := "n", kind := .value, line := 1, source := some "new a.B<C<d[]>" },
        { name := "e", kind := .value, line := 1 },
        { name := "o", kind := .value, line := 1 }] := by
  refine ⟨by decide +kernel, nestedArguments.extract_genericCall.1.trans ?_⟩
  decide +kernel

/-- Two type arguments. -/
def genericMap : GenericCall where
  name := { text := "n".toList }
  isNew := true
  callee := { text := "Map".toList }
  members := []
  arguments := .more (.name { text := "a".toList }) (.one (.name { text := "b".toList }))
  group := { text := "(c)".toList }

theorem extract_splits_genericMap :
    genericMap.text = "export const n = new Map<a, b>(c);".toList ∧
    extract genericMap.text = .ok
      [{ name := "n", kind := .value, line := 1, source := some "new Map<a" },
        { name := "b", kind := .value, line := 1 }] ∧
    extract genericMap.text ≠ .ok [genericMap.exported genericMap.initializer] := by
  decide +kernel

end Concord.Export
