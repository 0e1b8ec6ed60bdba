import Concord.Proofs.Assignments
import Concord.Proofs.TypeExpressions

/-!
The texts of exported functions. A function reaches to the end of its body, and the body is the
first group in braces behind the return type. An object type at the start of the return type is
stepped over, but a later one is taken for the body: the text ends with it, and a signature with
such a type is exported although it has no body.
-/
namespace Concord.Export

open Concord.Scan Concord.Text

/-! Syntax -/

mutual

/-- No object type stands in the type. -/
def TypeExpr.objectless {objects : Bool} : TypeExpr objects → Bool
  | .name _ => true
  | .generic _ arguments => arguments.objectless
  | .object _ _ => false
  | .array element => element.objectless
  | .union left right => left.objectless && right.objectless

def TypeList.objectless {objects : Bool} : TypeList objects → Bool
  | .one type => type.objectless
  | .more type others => type.objectless && others.objectless

end

/-- Object types stand nowhere but at the start of the type. -/
def TypeExpr.leading {objects : Bool} : TypeExpr objects → Bool
  | .name _ => true
  | .generic _ arguments => arguments.objectless
  | .object _ _ => true
  | .array element => element.leading
  | .union left right => left.leading && right.objectless

/-- A function up to its return type. -/
structure FunctionHead where
  isAsync : Bool
  isGenerator : Bool
  name : Word
  parameters : Group .round
  returns : TypeExpr true

/-- The text starts with a brace. -/
def opensBrace (text : List Char) : Bool :=
  text.head? = some '\x7b'

/-- The text up to the first group in braces, and that group. -/
def throughBraces? : List Item → Option (List Char)
  | [] => none
  | .gap text :: items => (throughBraces? items).map (text ++ ·)
  | .token text :: items =>
    if opensBrace text then some text else (throughBraces? items).map (text ++ ·)

namespace FunctionHead

variable (f : FunctionHead)

/-- The function in front of its return type. -/
def front : List Char :=
  (if f.isAsync then "async ".toList else []) ++ ("function".toList ++
    ((if f.isGenerator then "* ".toList else [' ']) ++ (f.name.text ++
      (f.parameters.text ++ ": ".toList))))

/-- A function with its body. -/
def whole (body : Group .curly) : List Char :=
  f.front ++ (f.returns.text ++ ' ' :: body.text)

def text (body : Group .curly) : List Char :=
  "export ".toList ++ f.whole body

/-- A function without a body. -/
def signature : List Char :=
  "export ".toList ++ (f.front ++ (f.returns.text ++ [';']))

def exported (source : List Char) : Export where
  name := String.ofList f.name.text
  kind := .function
  line := 1
  source := some (String.ofList source)

/-- The function up to the first object type behind the start of its return type. -/
def early? : Option (List Char) :=
  (throughBraces? f.returns.items.tail).map fun behind =>
    f.front ++ (Item.source (f.returns.items.take 1) ++ behind)

/-- The keywords of a function. -/
def keywords : List Item :=
  (if f.isAsync then [.token "async".toList, .gap [' ']] else []) ++ [.token "function".toList]

/-- What stands behind the keywords, with `later` as the return type and what follows it. -/
def signed (later : List Item) : List Item :=
  (if f.isGenerator then [.token ['*']] else []) ++
    .gap [' '] :: .token f.name.text :: .token f.parameters.text :: .token [':'] :: .gap [' '] ::
      later

def items (later : List Item) : List Item :=
  f.keywords ++ f.signed later

end FunctionHead

/-! Braces -/

section

variable {items : List Item}

theorem throughBraces?_eq_none_iff :
    throughBraces? items = none ↔ ∀ text, .token text ∈ items → opensBrace text = false := by
  induction items with
  | nil => simp [throughBraces?]
  | cons item items ih =>
    cases item with
    | gap text => simp [throughBraces?, ih]
    | token text =>
      by_cases opens : opensBrace text = true
      · simp [throughBraces?, opens]
      · simp only [throughBraces?, opens, List.mem_cons, Item.token.injEq]
        simp_all

/-- The first group in braces, with what stands in front of it. -/
theorem throughBraces?_eq_some {found : List Char} (some : throughBraces? items = some found) :
    ∃ front text back, items = front ++ .token text :: back ∧
      found = Item.source front ++ text ∧ opensBrace text = true ∧
      ∀ shown, .token shown ∈ front → opensBrace shown = false := by
  induction items generalizing found with
  | nil => cases some
  | cons item items ih =>
    -- an item in front of the group is put in front of what is found behind it
    have behind {first : Item} (plain : ∀ text, first = .token text → opensBrace text = false)
        (later : (throughBraces? items).map (first.text ++ ·) = .some found) :
        ∃ front text back, first :: items = front ++ .token text :: back ∧
          found = Item.source front ++ text ∧ opensBrace text = true ∧
          ∀ shown, .token shown ∈ front → opensBrace shown = false := by
      obtain ⟨inner, read, rfl⟩ := Option.map_eq_some_iff.mp later
      obtain ⟨front, text, back, rfl, rfl, opens, apart⟩ := ih read
      refine ⟨first :: front, text, back, rfl, by simp, opens, fun shown member => ?_⟩
      rcases List.mem_cons.mp member with same | member
      · exact plain shown same.symm
      · exact apart shown member
    cases item with
    | gap text => exact behind (by simp) some
    | token text =>
      rw [throughBraces?] at some
      split at some
      next opens =>
        cases some
        exact ⟨[], _, items, rfl, rfl, opens, by simp⟩
      next plain =>
        refine behind (fun shown same => ?_) some
        cases same
        simpa using plain

theorem group?_curly (t : Token) : t.group? = some .curly ↔ opensBrace t.text = true := by
  rw [opensBrace, decide_eq_true_eq]
  constructor
  · intro group
    have first : t.text.headD ' ' = '\x7b' := Bracket.eq_opener_of_ofOpener? group
    cases text : t.text with
    | nil => simp [text] at first
    | cons x rest => simpa [text] using first
  · intro first
    rw [Token.group?, Token.first, List.headD_eq_head?_getD, first]
    rfl

/-- Tokens are skipped up to the first group in braces or the first `;`. -/
theorem skipReturnType_seek_tokens {front back : List Item} {text : List Char}
    (quiet : ∀ shown, .token shown ∈ front → opensBrace shown = false ∧ shown ≠ [';'])
    (stops : opensBrace text = true ∨ text = [';']) (lead : List Char) (line : Nat) :
    ∃ lead' line' after,
      skipReturnType.seek (Item.tokens lead line (front ++ .token text :: back)) =
        ⟨lead', text, line'⟩ :: Item.tokens [] after back := by
  induction front generalizing lead line with
  | nil =>
    -- a group in braces or a semicolon is what the search stops at
    have ends : decide ((⟨lead, text, line⟩ : Token).group? = some .curly) ||
        (⟨lead, text, line⟩ : Token).is ';' := by
      simpa [group?_curly, Token.is] using stops
    refine ⟨lead, line, line + lineBreaks text, ?_⟩
    rw [List.nil_append, Item.tokens, skipReturnType.seek, if_pos ends]
  | cons item front ih =>
    have behind := ih fun shown member => quiet shown (List.mem_cons_of_mem _ member)
    cases item with
    -- blanks go to the lead of the next token, and any other token is passed
    | gap blanks => exact behind (lead ++ blanks) (line + lineBreaks blanks)
    | token shown =>
      obtain ⟨plain, other⟩ := quiet shown List.mem_cons_self
      have goesOn : ¬ (decide ((⟨lead, shown, line⟩ : Token).group? = some .curly) ||
          (⟨lead, shown, line⟩ : Token).is ';') = true := by
        simp [group?_curly, plain, Token.is, other]
      rw [List.cons_append, Item.tokens, skipReturnType.seek, if_neg goesOn]
      exact behind [] (line + lineBreaks shown)

end

/-! Object types -/

theorem Word.not_opensBrace (word : Word) : opensBrace word.text = false := by
  obtain ⟨x, rest, shown, starts, -⟩ := word.exists_cons
  refine decide_eq_false fun opens => ?_
  rw [shown] at opens
  cases opens
  cases starts

mutual

/-- A type without object types has no group in braces. -/
theorem TypeExpr.objectless_iff {objects : Bool} (t : TypeExpr objects) :
    t.objectless = true ↔ ∀ text, .token text ∈ t.items → opensBrace text = false := by
  match t with
  | .name name => simp [TypeExpr.objectless, TypeExpr.items, name.not_opensBrace]
  | .generic name arguments =>
    have marks : opensBrace ['<'] = false ∧ opensBrace ['>'] = false := ⟨rfl, rfl⟩
    rw [TypeExpr.objectless, arguments.objectless_iff]
    simp [TypeExpr.items, or_imp, forall_and, name.not_opensBrace, marks]
  | .object allowed fields =>
    simp [TypeExpr.objectless, TypeExpr.items, opensBrace, fields.head_text, Bracket.opener]
  | .array element =>
    rw [TypeExpr.objectless, element.objectless_iff]
    simp [TypeExpr.items, or_imp, forall_and, opensBrace]
  | .union left right =>
    rw [TypeExpr.objectless, Bool.and_eq_true, left.objectless_iff, right.objectless_iff]
    simp [TypeExpr.items, or_imp, forall_and, opensBrace]

theorem TypeList.objectless_iff {objects : Bool} (l : TypeList objects) :
    l.objectless = true ↔ ∀ text, .token text ∈ l.items → opensBrace text = false := by
  match l with
  | .one type => exact type.objectless_iff
  | .more type others =>
    rw [TypeList.objectless, Bool.and_eq_true, type.objectless_iff, others.objectless_iff]
    simp [TypeList.items, or_imp, forall_and, opensBrace]

end

/-- Object types stand at the start only if no group in braces stands behind the first token. -/
theorem TypeExpr.leading_iff {objects : Bool} (t : TypeExpr objects) :
    t.leading = true ↔ ∀ text, .token text ∈ t.items.tail → opensBrace text = false := by
  -- an element or a left member starts the type, and keeps its first token
  have behind (t : TypeExpr objects) (items : List Item) :
      (t.items ++ items).tail = t.items.tail ++ items := by
    obtain ⟨text, later, starts, -⟩ := t.starts
    rw [starts]
    rfl
  match t with
  | .name _ => simp [TypeExpr.leading, TypeExpr.items]
  | .generic _ arguments =>
    rw [TypeExpr.leading, arguments.objectless_iff]
    simp [TypeExpr.items, or_imp, forall_and, opensBrace]
  | .object _ _ => simp [TypeExpr.leading, TypeExpr.items]
  | .array element =>
    rw [TypeExpr.leading, element.leading_iff, TypeExpr.items, behind]
    simp [or_imp, forall_and, opensBrace]
  | .union left right =>
    rw [TypeExpr.leading, Bool.and_eq_true, left.leading_iff, right.objectless_iff,
      TypeExpr.items, behind]
    simp [or_imp, forall_and, opensBrace]

/-! Keywords -/

theorem length_tokens (lead lead' : List Char) (line line' : Nat) (items : List Item) :
    (Item.tokens lead line items).length = (Item.tokens lead' line' items).length := by
  induction items generalizing lead lead' line line' with
  | nil => rfl
  | cons item items ih =>
    cases item with
    | gap text => exact ih _ _ _ _
    | token text => exact congrArg (· + 1) (ih _ _ _ _)

/-- In front of the tokens of some items stand those of the items before them. -/
theorem before_tokens (lead : List Char) (line line' : Nat) (front back : List Item) :
    Token.before (Item.tokens lead line (front ++ back)) (Item.tokens [] line' back) =
      Item.tokens lead line front := by
  rw [Item.tokens_append, Token.before, List.length_append,
    length_tokens _ [] _ line' back, Nat.add_sub_cancel]
  exact List.take_left

theorem exportClause_function {t : Token} (shown : t.text = "function".toList)
    (rest : List Token) :
    exportClause .finished (t :: rest) = .ok (functionExport (t :: rest) rest) := by
  have noGroup : t.group? = none := by
    rw [Token.group?, Token.first, shown]
    rfl
  have noDeclaration : (t.isWord "const" || t.isWord "let" || t.isWord "var") = false := by
    simp only [Token.isWord, shown]
    decide
  have function : t.isWord "function" = true := decide_eq_true shown
  simp only [exportClause, noGroup, noDeclaration, function]
  rfl

theorem exportClause_async {t u : Token} (shown : t.text = "async".toList)
    (next : u.text = "function".toList) (rest : List Token) :
    exportClause .finished (t :: u :: rest) = .ok (functionExport (t :: u :: rest) rest) := by
  have noGroup : t.group? = none := by
    rw [Token.group?, Token.first, shown]
    rfl
  have noDeclaration : (t.isWord "const" || t.isWord "let" || t.isWord "var") = false := by
    simp only [Token.isWord, shown]
    decide
  have noFunction : t.isWord "function" = false := by
    simp only [Token.isWord, shown]
    decide
  have async : t.isWord "async" = true := decide_eq_true shown
  have function : u.isWord "function" = true := decide_eq_true next
  simp only [exportClause, noGroup, noDeclaration, noFunction, async, function]
  rfl

namespace FunctionHead

variable (f : FunctionHead)

/-- Behind its keywords the name of a function is read, and an asterisk in front of it is skipped.
-/
theorem functionExport_signed (all : List Token) (later : List Item) :
    functionExport all (Item.tokens [] 1 (f.signed later)) =
      signatureExport all ⟨[' '], f.name.text, 1⟩
        (Item.tokens [] 1 (.token f.parameters.text :: .token [':'] :: .gap [' '] :: later)) := by
  let behind := Item.tokens [] 1 (.token f.parameters.text :: .token [':'] :: .gap [' '] :: later)
  let name : Token := ⟨[' '], f.name.text, 1⟩
  have noStar : name.is '*' = false := decide_eq_false (f.name.ne_mark (by decide))
  have isName : name.word?.isSome = true := by
    rw [f.name.word?_eq (show name.text = f.name.text from rfl), Option.isSome_some]
  have noAngle : f.parameters.text ≠ ['<'] := by
    intro same
    have opens := f.parameters.head_text
    rw [same] at opens
    cases opens
  -- the name is followed by the parameters in parentheses, so there are no type parameters
  have parameters : afterTypeParameters behind = behind := by
    simp [behind, Item.tokens, afterTypeParameters, Token.is, noAngle]
  have named : Item.tokens [' '] 1 (.token f.name.text :: .token f.parameters.text ::
      .token [':'] :: .gap [' '] :: later) = name :: behind := by
    rw [Item.tokens, f.name.lineBreaks_text]
  have skipped : skipMark '*' (Item.tokens [] 1 (f.signed later)) = name :: behind := by
    rw [signed]
    -- the asterisk of a generator is skipped where there is one
    cases f.isGenerator with
    | false =>
      show skipMark '*' (Item.tokens [' '] 1 _) = _
      rw [named, skipMark, noStar]
      rfl
    | true => exact named
  rw [functionExport_eq, skipped]
  simp only [isName, if_true, parameters]
  rfl

theorem items_cases (later : List Item) :
    f.items later = .token "function".toList :: f.signed later ∨
      f.items later =
        .token "async".toList :: .gap [' '] :: .token "function".toList :: f.signed later := by
  rw [items, keywords]
  cases f.isAsync
  · exact Or.inl rfl
  · exact Or.inr rfl

/-- The clause of a function is that of its parameters and its return type. -/
theorem exportClause_items (later : List Item) :
    exportClause .finished (Item.tokens [' '] 1 (f.items later)) =
      .ok (signatureExport (Item.tokens [' '] 1 (f.items later)) ⟨[' '], f.name.text, 1⟩
        (Item.tokens [] 1
          (.token f.parameters.text :: .token [':'] :: .gap [' '] :: later))) := by
  have read (all : List Token) := f.functionExport_signed all later
  have unbroken : lineBreaks "function".toList = 0 ∧ lineBreaks "async".toList = 0 := ⟨rfl, rfl⟩
  have function : Item.tokens [' '] 1 (.token "function".toList :: f.signed later) =
      ⟨[' '], "function".toList, 1⟩ :: Item.tokens [] 1 (f.signed later) := by
    rw [Item.tokens, unbroken.1]
  have async : Item.tokens [' '] 1
      (.token "async".toList :: .gap [' '] :: .token "function".toList :: f.signed later) =
      ⟨[' '], "async".toList, 1⟩ :: ⟨[' '], "function".toList, 1⟩ ::
        Item.tokens [] 1 (f.signed later) := by
    rw [Item.tokens, unbroken.2, Item.tokens]
    exact congrArg _ function
  rcases f.items_cases later with plain | marked
  · rw [plain, function, exportClause_function rfl, read]
  · rw [marked, async, exportClause_async rfl rfl, read]

theorem source_items (later : List Item) :
    Item.source (f.items later) = f.front ++ Item.source later := by
  rw [items, keywords, signed, front]
  cases f.isAsync <;> cases f.isGenerator <;> simp [Item.text]

theorem items_append (later more : List Item) :
    f.items (later ++ more) = f.items later ++ more := by
  simp [items, signed]

theorem readable {later : List Item} (reads : Readable later []) : Readable (f.items later) [] := by
  have parameters : Readable (.token f.parameters.text :: .token [':'] :: .gap [' '] :: later) [] :=
    .group f.parameters.whole (.mark (by decide) (.space reads))
  -- in front of the parenthesis the name ends
  have opens : ∀ x ∈ (Item.source (.token f.parameters.text :: .token [':'] :: .gap [' '] ::
      later) ++ []).head?, isWordPart x = false := by
    rw [List.append_nil, Item.source_cons, Item.text]
    intro x first
    rw [Option.mem_def, List.head?_append, f.parameters.head_text] at first
    cases first
    decide
  have named := Readable.space (f.name.readable opens parameters)
  have signed : Readable (f.signed later) [] := by
    rw [signed]
    cases f.isGenerator with
    | false => exact named
    | true => exact .mark (by decide) named
  have function : Readable (.token "function".toList :: f.signed later) [] := by
    refine Word.readable { text := "function".toList } ?_ signed
    rw [FunctionHead.signed]
    cases f.isGenerator <;> (rintro _ ⟨⟩; decide)
  rcases f.items_cases later with plain | marked
  · rwa [plain]
  · rw [marked]
    exact Word.readable { text := "async".toList } (by rintro _ ⟨⟩; decide) (.space function)

/-- The first token of a return type is stepped over, whatever it is. -/
theorem skipReturnType_items {first : List Char} (other : first ≠ [';']) (line : Nat)
    (items : List Item) :
    skipReturnType (Item.tokens [] line (.token [':'] :: .gap [' '] :: .token first :: items)) =
      skipReturnType.seek (Item.tokens [] (line + lineBreaks first) items) := by
  have colon : Item.tokens [] line (.token [':'] :: .gap [' '] :: .token first :: items) =
      ⟨[], [':'], line⟩ :: ⟨[' '], first, line⟩ ::
        Item.tokens [] (line + lineBreaks first) items := rfl
  rw [colon, skipReturnType, if_pos (by rfl)]
  -- a group in braces is stepped over on purpose, any other token on the way to one
  split
  · rfl
  next plain =>
    have goesOn : ¬ (decide ((⟨[' '], first, line⟩ : Token).group? = some .curly) ||
        (⟨[' '], first, line⟩ : Token).is ';') = true := by
      simp [plain, Token.is, other]
    rw [skipReturnType.seek, if_neg goesOn]

/-- The items from a function's first token through one behind its return type are its text. -/
theorem span_items (items : List Item) (text : List Char) :
    Token.span (Item.tokens [' '] 1 (f.items (items ++ [.token text]))) =
      f.front ++ (Item.source items ++ text) := by
  have ended (front : List Item) : Item.trail [] (front ++ [.token text]) = [] := by
    rw [Item.trail_append]
    rfl
  have starts : ∃ first more, f.items items ++ [.token text] =
      .token first :: (more ++ [.token text]) := by
    rcases f.items_cases items with same | same <;> exact ⟨_, _, by rw [same]; rfl⟩
  obtain ⟨first, more, starts⟩ := starts
  have source := f.source_items (items ++ [.token text])
  rw [f.items_append, starts] at source
  rw [f.items_append, starts, Item.span_tokens (ended more)]
  refine source.trans ?_
  simp [Item.text]

section

variable {first text : List Char} {front back : List Item}

/-- Behind the first token of the return type, the first group in braces is taken for the body, and
in front of a `;` there is none. -/
theorem signatureExport_cut (all : List Token) (name : Token) (other : first ≠ [';'])
    (quiet : ∀ shown, .token shown ∈ front → opensBrace shown = false ∧ shown ≠ [';'])
    (stops : opensBrace text = true ∨ text = [';']) :
    ∃ lead line line', signatureExport all name (Item.tokens [] 1 (.token f.parameters.text ::
        .token [':'] :: .gap [' '] :: .token first :: (front ++ .token text :: back))) =
      if opensBrace text then
        ([{ name := String.ofList name.text, kind := .function, line := name.line
            source := some (String.ofList
              (Token.span (Token.before all (Item.tokens [] line' back)))) }],
          Item.tokens [] line' back)
      else ([], ⟨lead, text, line⟩ :: Item.tokens [] line' back) := by
  let parameters : Token := ⟨[], f.parameters.text, 1⟩
  have round : parameters.group? = some .round := f.parameters.group?_eq rfl
  obtain ⟨lead, line, line', read⟩ := @skipReturnType_seek_tokens front back text quiet stops []
    (1 + lineBreaks f.parameters.text + lineBreaks first)
  refine ⟨lead, line, line', ?_⟩
  rw [Item.tokens, signatureExport, if_pos round, skipReturnType_items other, read]
  simp only [group?_curly]

/-- Whatever follows the first token of the return type, a function reaches through the first group
in braces behind it, and nothing is exported in front of a `;`. -/
theorem extract_cut (reads : Readable (.token first :: (front ++ .token text :: back)) [])
    (other : first ≠ [';'])
    (quiet : ∀ shown, .token shown ∈ front → opensBrace shown = false ∧ shown ≠ [';'])
    (stops : opensBrace text = true ∨ text = [';']) (done : .token "export".toList ∉ back) :
    extract ("export ".toList ++ Item.source
        (f.items (.token first :: (front ++ .token text :: back)))) =
      .ok (if opensBrace text then
        [f.exported (f.front ++ (first ++ (Item.source front ++ text)))] else []) := by
  let later := .token first :: (front ++ .token text :: back)
  have spaced : "export ".toList ++ Item.source (f.items later) =
      "export".toList ++ (Gap.space.text ++ Item.source (f.items later)) := rfl
  -- the script is one clause and what its reader leaves, and there is no `export` in that
  have exported {found : List Export} {left : List Token} (clause :
      exportClause .finished (Item.tokens [' '] 1 (f.items later)) = .ok (found, left)) :=
    extract_of_clause (fun none => absurd none Gap.space_ne_nil) (f.readable reads) clause
  have left {line : Nat} : ∀ t ∈ Item.tokens [] line back, t.isWord "export" = false := by
    intro t member
    refine decide_eq_false fun shown => done ?_
    rw [← shown]
    exact Item.token_mem_of_mem_tokens member
  have clause := f.exportClause_items later
  obtain ⟨lead, line, line', read⟩ := @signatureExport_cut f first text front back
    (Item.tokens [' '] 1 (f.items later)) ⟨[' '], f.name.text, 1⟩ other quiet stops
  rw [read] at clause
  have split : f.items later = f.items (.token first :: front ++ [.token text]) ++ back := by
    rw [← f.items_append]
    simp [later]
  rw [spaced]
  rcases stops with opens | semi
  · -- the text ends with the group in braces
    rw [if_pos opens, split, before_tokens, span_items, ← split] at clause
    rw [exported clause left, if_pos opens]
    simp [FunctionHead.exported, Item.text]
  -- at a semicolon the function is a signature and exports nothing
  · have plain : opensBrace text = false := by rw [semi]; rfl
    rw [plain, if_neg (by decide)] at clause
    rw [exported clause, plain, if_neg (by decide)]
    exact List.forall_mem_cons.mpr ⟨isWord_of_semi semi (by decide), left⟩

end

theorem text_eq (body : Group .curly) :
    f.text body = "export ".toList ++
      Item.source (f.items (f.returns.items ++ [.gap [' '], .token body.text])) := by
  rw [f.source_items, Item.source_append, f.returns.source_items]
  simp only [Item.source_cons, Item.source_nil, Item.text, List.append_nil]
  rfl

theorem signature_eq :
    f.signature = "export ".toList ++
      Item.source (f.items (f.returns.items ++ [.token [';']])) := by
  rw [f.source_items, Item.source_append, f.returns.source_items]
  simp only [Item.source_cons, Item.source_nil, Item.text, List.append_nil]
  rfl

/-- A function is exported with its text through its body, and a signature is not exported, exactly
if object types stand at the start of the return type only. Otherwise both are exported with the
text through the first object type behind the start. -/
theorem extract_function (body : Group .curly) :
    extract (f.text body) = .ok [f.exported (f.early?.getD (f.whole body))] ∧
      extract f.signature = .ok (f.early?.toList.map f.exported) ∧
      (f.early? = none ↔ f.returns.leading = true) := by
  obtain ⟨first, rest, starts, -⟩ := f.returns.starts
  have token {shown : List Char} (member : .token shown ∈ f.returns.items) :=
    (f.returns.typeToken_of_mem member).other
  have inside {shown : List Char} (member : .token shown ∈ rest) :=
    token (starts ▸ List.mem_cons_of_mem _ member)
  have other := (token (starts ▸ List.mem_cons_self)).1
  -- what stands behind the return type
  have bodied : Readable (f.returns.items ++ [.gap [' '], .token body.text]) [] :=
    f.returns.readable (by rintro _ ⟨⟩; decide) (.space (.group body.whole .nil))
  have ended : Readable (f.returns.items ++ [.token [';']]) [] :=
    f.returns.readable (by rintro _ ⟨⟩; decide) (.mark (by decide) .nil)
  have braces : opensBrace body.text = true := by
    rw [opensBrace, body.head_text]
    rfl
  have early : f.early? = (throughBraces? rest).map fun behind => f.front ++ (first ++ behind) := by
    rw [early?, starts]
    simp [Item.text]
  rw [f.text_eq, f.signature_eq, f.returns.leading_iff, starts, List.tail_cons,
    ← throughBraces?_eq_none_iff, early, Option.map_eq_none_iff]
  rw [starts] at bodied ended
  cases found : throughBraces? rest with
  | none =>
    -- the body, or the `;` of a signature, is the first thing that ends the search
    have plain := throughBraces?_eq_none_iff.mp found
    have quiet : ∀ shown, .token shown ∈ rest → opensBrace shown = false ∧ shown ≠ [';'] :=
      fun shown member => ⟨plain shown member, (inside member).1⟩
    have spaced : ∀ shown, .token shown ∈ rest ++ [.gap [' ']] →
        opensBrace shown = false ∧ shown ≠ [';'] := by
      intro shown member
      exact quiet shown (by simpa using member)
    have split : .token first :: rest ++ [.gap [' '], .token body.text] =
        .token first :: (rest ++ [.gap [' ']] ++ [.token body.text]) := by simp
    rw [split] at bodied ⊢
    have whole : f.whole body =
        f.front ++ (first ++ (Item.source (rest ++ [.gap [' ']]) ++ body.text)) := by
      rw [FunctionHead.whole, ← f.returns.source_items, starts]
      simp [Item.text]
    have read := @extract_cut f first body.text (rest ++ [.gap [' ']]) [] bodied other spaced
      (Or.inl braces) (by simp)
    have unread := @extract_cut f first [';'] rest [] ended other quiet (Or.inr rfl) (by simp)
    rw [braces, if_pos rfl, ← whole] at read
    exact ⟨read, unread, by simp⟩
  | some behind =>
    obtain ⟨front, text, back, rfl, rfl, opens, apart⟩ := throughBraces?_eq_some found
    have quiet : ∀ shown, .token shown ∈ front → opensBrace shown = false ∧ shown ≠ [';'] :=
      fun shown member => ⟨apart shown member, (inside (List.mem_append_left _ member)).1⟩
    -- the body and the `;` are behind the text that is taken
    have read (more : List Item)
        (reads : Readable (.token first :: (front ++ .token text :: back) ++ more) [])
        (done : .token "export".toList ∉ more) :
        extract ("export ".toList ++ Item.source
            (f.items (.token first :: (front ++ .token text :: back) ++ more))) =
          .ok [f.exported (f.front ++ (first ++ (Item.source front ++ text)))] := by
      have split : .token first :: (front ++ .token text :: back) ++ more =
          .token first :: (front ++ .token text :: (back ++ more)) := by simp
      have none : .token "export".toList ∉ back ++ more := by
        intro member
        rcases List.mem_append.mp member with member | member
        · exact (inside (List.mem_append_right _ (List.mem_cons_of_mem _ member))).2 rfl
        · exact done member
      rw [split] at reads ⊢
      rw [f.extract_cut reads other quiet (Or.inl opens) none, if_pos opens]
    refine ⟨read _ bodied ?_, read _ ended ?_, by simp⟩
    · intro member
      simp only [List.mem_cons, List.not_mem_nil, or_false, reduceCtorEq, false_or,
        Item.token.injEq] at member
      rw [← member] at braces
      cases braces
    · decide

end FunctionHead

/-- An object type at the start, and members and type arguments without one. -/
def leadingObject : FunctionHead where
  isAsync := true
  isGenerator := true
  name := { text := "f".toList }
  parameters := { text := "(a, \x7b b \x7d = \x7b\x7d)".toList }
  returns :=
    .union (.array (.object rfl { text := "\x7b c: d; e: \x7b\x7d \x7d".toList })) <|
      .union (.generic { text := "G".toList } <|
        .more (.array (.name { text := "h".toList })) <|
        .one (.generic { text := "I".toList } (.one (.name { text := "j".toList }))))
        (.name { text := "k".toList })

theorem extract_function_leadingObject :
    let body : Group .curly := { text := "\x7b\n  if (a) \x7b return '\x7d' \x7d\n\x7d".toList }
    leadingObject.text body =
      ("export async function* f(a, \x7b b \x7d = \x7b\x7d): \x7b c: d; e: \x7b\x7d \x7d[]" ++
        " | G<h[], I<j>> | k \x7b\n  if (a) \x7b return '\x7d' \x7d\n\x7d").toList ∧
    leadingObject.returns.leading = true ∧
    extract (leadingObject.text body) = .ok [leadingObject.exported (leadingObject.whole body)] ∧
    extract leadingObject.signature = .ok [] := by
  intro body
  obtain ⟨read, unread, early⟩ := leadingObject.extract_function body
  have leading : leadingObject.returns.leading = true := by decide +kernel
  rw [early.mpr leading] at read unread
  exact ⟨by decide +kernel, leading, read, unread⟩

/-- An object type as the second member of a union. -/
def laterObject : FunctionHead where
  isAsync := false
  isGenerator := false
  name := { text := "f".toList }
  parameters := { text := "(a)".toList }
  returns := .union (.name { text := "A".toList }) (.object rfl { text := "\x7b b: c \x7d".toList })

theorem extract_cuts_laterObject :
    let body : Group .curly := { text := "\x7b return a \x7d".toList }
    laterObject.text body = "export function f(a): A | \x7b b: c \x7d \x7b return a \x7d".toList ∧
    extract (laterObject.text body) = .ok [{ name := "f", kind := .function, line := 1
                                             source := some "function f(a): A | \x7b b: c \x7d" }] ∧
    extract (laterObject.text body) ≠ .ok [laterObject.exported (laterObject.whole body)] ∧
    laterObject.signature = "export function f(a): A | \x7b b: c \x7d;".toList ∧
    extract laterObject.signature ≠ .ok [] := by
  decide +kernel

end Concord.Export
