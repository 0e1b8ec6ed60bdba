import Concord.Proofs.LoweredTokens

/-!
Extraction is local to statements. Behind a text without angle brackets, a `;` on a line of its own
ends whatever the text leaves open: a declaration, a type, a function without its body, a literal or
a comment that goes to the end of the line. So a second text behind it exports what it exports by
itself, as many lines further down as it stands.
-/
namespace Concord.Export

open Concord.Scan Concord.Text

/-! Functions -/

section

variable {down : Nat} {tail : Option (List Token)} {tokens tokens' : List Token}

/-- A `;` is no word and no group. -/
theorem group?_of_semi {semi : Token} (ends : semi.text = [';']) : semi.group? = none := by
  rw [Token.group?, Token.first, ends]
  rfl

theorem isWord_of_semi {semi : Token} (ends : semi.text = [';']) {word : String}
    (other : word.toList ≠ [';']) : semi.isWord word = false := by
  rw [Token.isWord, ends]
  exact decide_eq_false other.symm

theorem skipReturnType_seek_placed (placed : Placed down tail tokens tokens') :
    Placed down tail (skipReturnType.seek tokens) (skipReturnType.seek tokens') := by
  induction placed with
  | bare last => exact .bare last
  | ended behind ends =>
    simp only [skipReturnType.seek, is_of_semi ends, decide_true, Bool.or_true, if_true]
    exact .ended behind ends
  | cons plain later ih =>
    simp only [skipReturnType.seek, Token.lower_group?, Token.lower_is]
    split
    · exact .cons plain later
    · exact ih

theorem skipReturnType_placed (placed : Placed down tail tokens tokens') :
    Placed down tail (skipReturnType tokens) (skipReturnType tokens') := by
  cases placed with
  | bare last => exact .bare last
  -- the first text ends here and the other goes on with a `;`, which is no part of a return type
  | @ended semi rest behind ends =>
    have same : skipReturnType (semi :: rest) = semi :: rest := by
      simp [skipReturnType, is_of_semi ends]
    rw [same]
    exact .ended behind ends
  | cons plain later =>
    simp only [skipReturnType, Token.lower_is]
    split
    -- behind a colon the search for the body begins, and it stops at the `;` too
    · cases later with
      | bare last => exact .bare last
      | @ended semi rest behind ends =>
        simp only [group?_of_semi ends]
        have left : Placed down tail [] (semi :: rest) := .ended behind ends
        exact skipReturnType_seek_placed left
      | cons plain' later' =>
        simp only [Token.lower_group?]
        split
        · exact skipReturnType_seek_placed later'
        · exact skipReturnType_seek_placed (.cons plain' later')
    · exact .cons plain later

theorem afterTypeParameters_placed (placed : Placed down tail tokens tokens') :
    Placed down tail (afterTypeParameters tokens) (afterTypeParameters tokens') := by
  cases placed with
  | bare last => exact .bare last
  | @ended semi rest behind ends =>
    have same : afterTypeParameters (semi :: rest) = semi :: rest := by
      simp [afterTypeParameters, is_of_semi ends]
    rw [same]
    exact .ended behind ends
  | cons plain later =>
    simp only [afterTypeParameters, Token.lower_is]
    split
    next opens =>
      -- an angle bracket opens, so nothing stands behind the tokens
      obtain rfl : tail = none := by
        cases tail with
        | none => rfl
        | some rest =>
          rw [plain rfl] at opens
          cases opens
      exact skipTypeParameters_placed (.cons plain later) 0
    · exact .cons plain later

theorem signatureExport_placed {name : Token} {all all' : List Token}
    (whole : Placed down tail all all') (placed : Placed down tail tokens tokens') :
    Lowered down tail (signatureExport all name tokens)
      (signatureExport all' (name.lower down) tokens') := by
  cases placed with
  | bare last => exact ⟨rfl, .bare last⟩
  | ended behind ends =>
    simp only [signatureExport, group?_of_semi ends]
    exact ⟨rfl, .ended behind ends⟩
  | @cons t ts ts' plain later =>
    simp only [signatureExport, Token.lower_group?]
    split
    -- what the return type leaves is placed, and a body is looked for there
    · have returned := skipReturnType_placed later
      generalize skipReturnType ts = left at returned
      generalize skipReturnType ts' = left' at returned
      cases returned with
      | bare last => exact ⟨rfl, .bare last⟩
      | ended behind ends =>
        simp only [group?_of_semi ends]
        exact ⟨rfl, .ended behind ends⟩
      | cons plain' after =>
        simp only [Token.lower_group?]
        split
        · exact ⟨by simp [lower, whole.before after], after⟩
        · exact ⟨rfl, .cons plain' after⟩
    · exact ⟨rfl, .cons plain later⟩

theorem functionExport_placed {all all' : List Token} (whole : Placed down tail all all')
    (placed : Placed down tail tokens tokens') :
    Lowered down tail (functionExport all tokens) (functionExport all' tokens') := by
  have starred := skipMark_placed placed (show '*' ≠ ';' by decide)
  rw [functionExport_eq, functionExport_eq]
  generalize skipMark '*' tokens = named at starred
  generalize skipMark '*' tokens' = named' at starred
  cases starred with
  | bare last => exact ⟨rfl, .bare last⟩
  | @ended semi rest behind ends =>
    -- a `;` is no name, so without one nothing is exported on either side
    have noWord : semi.word? = none := by
      rw [Token.word?, Token.first, ends]
      rfl
    simp only [noWord]
    exact ⟨rfl, .ended behind ends⟩
  | cons plain later =>
    simp only [Token.lower_word?]
    split
    · exact signatureExport_placed whole (afterTypeParameters_placed later)
    · exact ⟨rfl, .cons plain later⟩

/-! Clauses -/

theorem originClause?_placed (placed : Placed down tail tokens tokens') :
    Option.Rel (fun read read' => read'.1 = read.1 ∧ Placed down tail read.2 read'.2)
      (originClause? tokens) (originClause? tokens') := by
  cases placed with
  | bare => exact .none
  | @ended semi rest behind ends =>
    cases rest with
    | nil => exact .none
    | cons u us =>
      simp only [originClause?, isWord_of_semi ends (show "from".toList ≠ [';'] by decide)]
      exact .none
  | cons plain later =>
    cases later with
    | bare => exact .none
    -- a `;` is no quoted text
    | @ended semi rest behind ends =>
      have unquoted : semi.isQuoted = false := by
        rw [Token.isQuoted, Token.first, ends]
        decide
      simp only [originClause?, unquoted, Bool.and_false]
      exact .none
    | cons plain' later' =>
      simp only [originClause?, Token.lower_isWord, Token.lower_isQuoted]
      split
      · exact .some ⟨rfl, later'⟩
      · exact .none

theorem listExports_lower (line down : Nat) (body : List Char) (origin : Option (List Char)) :
    listExports (line + down) body origin =
      (listExports line body origin).map (List.map (lower down)) := by
  simp only [listExports, bind, Except.bind]
  cases split ',' body with
  | error => rfl
  | ok pieces =>
    simp only [pure, Except.pure, Except.map, List.map_filterMap, Option.map_map]
    refine congrArg Except.ok (List.filterMap_congr fun piece _ => ?_)
    cases listItem? piece.text with
    | none => rfl
    | some item => simp [lower, Nat.add_right_comm]

/-- Whatever is read behind an `export`, it is read alike further down, and a `;` ends it. -/
theorem exportClause_placed (placed : Placed down tail tokens tokens') :
    Both (Lowered down tail) (exportClause .finished tokens) (exportClause .finished tokens') := by
  cases placed with
  | bare last => exact .ok ⟨rfl, .bare last⟩
  -- an `export` at the end of the first text: a `;` begins no clause
  | @ended semi rest behind ends =>
    have same : exportClause .finished (semi :: rest) = .ok ([], semi :: rest) := by
      have no {word : String} (other : word.toList ≠ [';']) := isWord_of_semi ends other
      simp only [exportClause]
      rw [if_neg (by simp [group?_of_semi ends]), no (show "const".toList ≠ _ by decide),
        no (show "let".toList ≠ _ by decide), no (show "var".toList ≠ _ by decide),
        no (show "function".toList ≠ _ by decide), no (show "async".toList ≠ _ by decide)]
      rfl
    rw [same]
    exact .ok ⟨rfl, .ended behind ends⟩
  | @cons t ts ts' plain later =>
    have whole : Placed down tail (t :: ts) (t.lower down :: ts') := .cons plain later
    simp only [exportClause, Token.lower_group?, Token.lower_isWord]
    split
    -- a list is read from the token's own text, which does not change further down
    · have listed (origin : Option (List Char)) {left left' : List Token}
          (placed : Placed down tail left left') :
          Both (Lowered down tail)
            (do return (← listExports t.line t.interior origin, left))
            (do return (← listExports (t.lower down).line (t.lower down).interior origin,
              left')) := by
        rw [Token.lower_line, Token.lower_interior, listExports_lower]
        cases listExports t.line t.interior origin with
        | error imbalance => exact .error imbalance
        | ok found => exact .ok ⟨rfl, placed⟩
      have named := originClause?_placed later
      generalize originClause? ts = origin at named
      generalize originClause? ts' = origin' at named
      cases named with
      | none => exact listed none later
      | @some read read' equal =>
        obtain ⟨origin, left⟩ := read
        obtain ⟨_, left'⟩ := read'
        obtain ⟨rfl, behind⟩ := equal
        exact listed (some _) behind
    split
    · exact declarators_placed later
    split
    · exact .ok (functionExport_placed whole later)
    split
    · cases later with
      | bare last => exact .ok ⟨rfl, whole⟩
      | ended behind ends =>
        simp only [isWord_of_semi ends (show "function".toList ≠ [';'] by decide)]
        exact .ok ⟨rfl, whole⟩
      | cons plain' later' =>
        simp only [Token.lower_isWord]
        split
        · exact .ok (functionExport_placed whole later')
        · exact .ok ⟨rfl, whole⟩
    · exact .ok ⟨rfl, whole⟩

end

/-! Statements -/

/-- Tokens without an `export` export nothing. -/
theorem exportsFrom_of_no_export {tokens : List Token}
    (none : ∀ t ∈ tokens, t.isWord "export" = false) (previous : Char) :
    exportsFrom .finished previous tokens = .ok [] := by
  rw [exportsFrom_silent none, exportsFrom]
  rfl

/-- An `export` gives what its clause gives, and then what follows the clause. -/
theorem exportsFrom_export {t : Token} {tokens later : List Token} {found more : List Export}
    (shown : t.text = "export".toList) (clause : exportClause .finished tokens = .ok (found, later))
    (rest : exportsFrom .finished ';' later = .ok more) :
    exportsFrom .finished ';' (t :: tokens) = .ok (found ++ more) := by
  have exported : t.isWord "export" = true := decide_eq_true shown
  rw [exportsFrom_cons, exported, if_pos (by decide), clause]
  simp [bind, Except.bind, pure, Except.pure, rest]

/-- The exports of what stands behind the tokens. -/
def tailExports : Option (List Token) → Except Imbalance (List Export)
  | none => .ok []
  | some rest => exportsFrom .finished ';' rest

theorem exportsFrom_placed {down : Nat} {tail : Option (List Token)} {previous : Char}
    {tokens tokens' : List Token} {found : List Export}
    (placed : Placed down tail tokens tokens')
    (read : exportsFrom .finished previous tokens = .ok found) :
    exportsFrom .finished previous tokens' =
      (tailExports tail).map (found.map (lower down) ++ ·) := by
  fun_induction exportsFrom .finished previous tokens generalizing tokens' found with
  | case1 previous balanced =>
    cases read
    cases placed with
    | bare last =>
      subst last
      rw [exportsFrom]
      rfl
    | @ended semi rest behind ends =>
      subst behind
      have first : semi.first = ';' := by
        rw [Token.first, ends]
        rfl
      rw [exportsFrom_cons, isWord_of_semi ends (by decide), first, tailExports]
      cases exportsFrom .finished ';' rest <;> rfl
  | case2 previous imbalance failed => cases failed
  | case3 => cases read
  | case4 previous t ts exported first left clause ih =>
    obtain ⟨more, behind, same⟩ := bind_eq_ok.mp read
    cases same
    cases placed with
    | @cons _ _ ts' plain later =>
      rw [exportsFrom_cons, Token.lower_isWord, if_pos exported]
      -- the clause is read alike, and what it leaves goes on alike
      have both := exportClause_placed later
      rw [clause] at both
      generalize exportClause .finished ts' = clause' at both
      cases both with
      | @ok _ read' lowered =>
        obtain ⟨first', left'⟩ := read'
        obtain ⟨rfl, left⟩ := lowered
        simp only [bind, Except.bind, ih left behind]
        cases tailExports tail with
        | error => rfl
        | ok last => simp [Except.map, pure, Except.pure]
  | case5 previous t ts other ih =>
    cases placed with
    | cons plain later =>
      rw [exportsFrom_cons, Token.lower_isWord, Token.lower_first, if_neg other]
      exact ih later read

/-! Items of joined texts -/

theorem tokens_lower (lead : List Char) (line down : Nat) (items : List Item) :
    Item.tokens lead (line + down) items =
      (Item.tokens lead line items).map (Token.lower down) := by
  induction items generalizing lead line with
  | nil => rfl
  | cons item items ih =>
    cases item <;>
      simp only [Item.tokens, List.map_cons, Nat.add_right_comm line down, ih, Token.lower]

/-- What stands in front of the first token is not looked at. -/
theorem exportsFrom_lead (stop : Stop) (previous : Char) (lead lead' : List Char) (line : Nat)
    (items : List Item) :
    exportsFrom stop previous (Item.tokens lead line items) =
      exportsFrom stop previous (Item.tokens lead' line items) := by
  induction items generalizing lead lead' line with
  | nil => rfl
  | cons item items ih =>
    cases item with
    | gap text => exact ih _ _ _
    | token text =>
      rw [Item.tokens, Item.tokens, exportsFrom_cons, exportsFrom_cons]
      rfl

theorem placed_of_tail {tokens rest : List Token} {semi : Token} (ends : semi.text = [';'])
    (plain : ∀ t ∈ tokens, t.is '<' = false) :
    Placed 0 (some rest) tokens (tokens ++ semi :: rest) := by
  induction tokens with
  | nil => exact .ended rfl ends
  | cons t tokens ih =>
    obtain ⟨first, others⟩ := List.forall_mem_cons.mp plain
    exact .cons (fun _ => first) (ih others)

theorem placed_of_lower (down : Nat) (tokens : List Token) :
    Placed down none tokens (tokens.map (Token.lower down)) := by
  induction tokens with
  | nil => exact .bare rfl
  | cons t tokens ih => exact .cons (fun some => by cases some) ih

theorem text_of_mem_tokens {lead : List Char} {line : Nat} {items : List Item} {t : Token}
    (member : t ∈ Item.tokens lead line items) : ∀ x ∈ t.text, x ∈ Item.source items := by
  induction items generalizing lead line with
  | nil => cases member
  | cons item items ih =>
    intro x inside
    rw [Item.source_cons, List.mem_append]
    cases item with
    | gap text => exact Or.inr (ih member x inside)
    | token text =>
      rcases List.mem_cons.mp member with rfl | member
      · exact Or.inl inside
      · exact Or.inr (ih member x inside)

theorem stop_of_extract {text : List Char} {found : List Export}
    (read : extract text = .ok found) : (scan text).stop = .finished := by
  obtain ⟨balanced, -⟩ := exists_extract_eq_ok_iff.mp ⟨found, read⟩
  cases outcome : (scan text).stop <;> rw [outcome] at balanced <;> first | rfl | cases balanced

/-- Behind a text without angle brackets and a `;` on a line of its own, a second text exports what
it exports by itself, further down. -/
theorem extract_join {first second : List Char} {front back : List Export}
    (noAngle : '<' ∉ first) (noEscape : first.getLast? ≠ some '\\')
    (read : extract first = .ok front) (read' : extract second = .ok back) :
    extract (first ++ "\n;\n".toList ++ second) =
      .ok (front ++ back.map (lower (lineBreaks first + 2))) := by
  obtain ⟨items, last, rfl, reads⟩ := reads_of_scan (stop_of_extract read)
  obtain ⟨items', last', rfl, reads'⟩ := reads_of_scan (stop_of_extract read')
  -- the first text in front of the line break, then the three characters, then the second text
  let between : List Item := [.gap ['\n'], .token [';'], .gap ['\n']]
  have middle : Reads last between (Item.source items') true :=
    .gap (.blank (by decide)) (Or.inl rfl) <|
      .token (.separator (by decide) last _) <|
        .gap (.blank (by decide)) (Or.inl rfl) .done
  have joined : Reads true (items ++ (between ++ items')) [] last' := by
    refine .trans (reads.exchange (.newline noEscape)) (.trans ?_ reads')
    rwa [List.append_nil]
  obtain ⟨stop, tokens⟩ := joined.scan
  obtain ⟨alone, listed⟩ := reads.scan
  obtain ⟨alone', listed'⟩ := reads'.scan
  rw [extract_eq, alone, listed] at read
  rw [extract_eq, alone', listed'] at read'
  have text : Item.source items ++ "\n;\n".toList ++ Item.source items' =
      Item.source (items ++ (between ++ items')) := by
    simp [between, Item.text]
  -- the second text starts two lines below the last line of the first
  have behind : exportsFrom .finished ';'
      (Item.tokens ['\n'] (1 + (lineBreaks (Item.source items) + 2)) items') =
        .ok (back.map (lower (lineBreaks (Item.source items) + 2))) := by
    rw [exportsFrom_lead _ _ _ [], tokens_lower, exportsFrom_placed (placed_of_lower _ _) read']
    simp [tailExports, Except.map]
  have plain : ∀ t ∈ Item.tokens [] 1 items, t.is '<' = false := by
    intro t member
    refine decide_eq_false fun angle => noAngle ?_
    exact text_of_mem_tokens member '<' (by simp [angle])
  have split : Item.tokens [] 1 (items ++ (between ++ items')) =
      Item.tokens [] 1 items ++
        ⟨Item.trail [] items ++ ['\n'], [';'], 1 + lineBreaks (Item.source items) + 1⟩ ::
          Item.tokens ['\n'] (1 + (lineBreaks (Item.source items) + 2)) items' := by
    rw [Item.tokens_append]
    simp [between, Item.tokens, lineBreaks, Nat.add_assoc]
  rw [text, extract_eq, stop, tokens, split, exportsFrom_placed (placed_of_tail rfl plain) read,
    tailExports, behind]
  have same : front.map (lower 0) = front := List.map_id front
  simp only [Except.map, same]

/-- A literal is not closed, and a function has no body yet. -/
def unclosed : List Char :=
  "export const a = 'b\nexport function f()".toList

theorem extract_join_unclosed :
    extract unclosed = .ok [{ name := "a", kind := .value, line := 1, source := some "'b" }] ∧
      extract (unclosed ++ "\n;\n".toList ++ "\nexport let c".toList) = .ok
        [{ name := "a", kind := .value, line := 1, source := some "'b" },
          { name := "c", kind := .value, line := 5 }] := by
  have read : extract unclosed =
      .ok [{ name := "a", kind := .value, line := 1, source := some "'b" }] := by
    decide +kernel
  have read' : extract "\nexport let c".toList =
      .ok [{ name := "c", kind := .value, line := 2 }] := by
    decide +kernel
  exact ⟨read, extract_join (by decide) (by decide) read read'⟩

end Concord.Export
