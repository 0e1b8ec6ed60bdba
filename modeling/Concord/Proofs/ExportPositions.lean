import Concord.Proofs.Clauses
import Concord.Proofs.Positions

/-!
Exports come in source order. Every export has a place in the text: there stands its name, the local
name of a list entry, or the dots in front of a rest binding, and its line is the line of that
place. The places increase from export to export, and an `export` keyword stands before the first.
-/
namespace Concord.Text

theorem indent_append_trimStart (text : List Char) : indent text ++ trimStart text = text :=
  List.takeWhile_append_dropWhile

/-- A text is its indent, what trimming leaves, and blanks. -/
theorem eq_indent_append_trim (text : List Char) :
    ∃ blanks, text = indent text ++ (trim text ++ blanks) := by
  obtain ⟨blanks, -, split⟩ := Scan.trimStart_split text
  exact ⟨blanks, by rw [← split, indent_append_trimStart]⟩

/-- The line breaks in front of a part of a text and its indent. -/
theorem breaksBefore_indent (front part back : List Char) :
    breaksBefore (front ++ (part ++ back)) (byteSize front + byteSize (indent part)) =
      lineBreaks front + lineBreaks (indent part) := by
  have split : front ++ (part ++ back) = (front ++ indent part) ++ (trimStart part ++ back) := by
    rw [List.append_assoc, ← List.append_assoc (indent part), indent_append_trimStart]
  rw [split, ← byteSize_append, breaksBefore_append, lineBreaks_append]

end Concord.Text

namespace Concord.Export

open Concord.Scan Concord.Text

/-! Bindings -/

/-- At `offset` stands the name, or the dots of a rest binding with the name behind them. -/
def NameAt (text name : List Char) (offset : Nat) : Prop :=
  ShownAt text offset name ∨
    ∃ blanks, (∀ x ∈ blanks, isBlank x = true) ∧
      ShownAt text offset ("...".toList ++ blanks ++ name)

def Binding.StandsAt (text : List Char) (b : Binding) (offset : Nat) : Prop :=
  b.line = lineAt text offset ∧ NameAt text b.name offset

section

variable {text front : List Char}

theorem trim_ne_nil_of_isIdentifier {name : List Char} (plain : isIdentifier (trim name) = true) :
    trim name ≠ [] := by
  intro empty
  rw [empty] at plain
  cases plain

theorem Binding.ofName_inOrder {name : List Char} {line : Nat} (within : front ++ name <+: text)
    (start : line = lineBreaks front + lineBreaks (indent name) + 1) :
    InOrder (Binding.StandsAt text) (Binding.ofName name line) (byteSize front)
      (byteSize front + byteSize name) := by
  rw [Binding.ofName]
  split
  next plain =>
    obtain ⟨blanks, split⟩ := eq_indent_append_trim name
    have shown := isPrefix_inside within split
    have size := byteSize_pos (trim_ne_nil_of_isIdentifier plain)
    have total := congrArg byteSize split
    simp only [byteSize_append] at total
    -- the binding stands behind the blanks in front of its name, which is why those lines are
    -- counted
    have held : Binding.StandsAt text ⟨trim name, line⟩ (byteSize (front ++ indent name)) := by
      refine ⟨?_, Or.inl ⟨_, shown, rfl⟩⟩
      rw [lineAt_of_isPrefix ((List.prefix_append _ _).trans shown), start, lineBreaks_append]
    refine .single held ?_ ?_
    · simp
    · simp only [byteSize_append]
      omega
  · exact .nil

/-- A rest binding stands where its dots stand. -/
theorem Binding.ofName_rest_inOrder {name : List Char} {line : Nat}
    (within : front ++ ("...".toList ++ name) <+: text) (start : line = lineBreaks front + 1) :
    InOrder (Binding.StandsAt text) (Binding.ofName name line) (byteSize front)
      (byteSize front + byteSize ("...".toList ++ name)) := by
  rw [Binding.ofName]
  split
  next plain =>
    obtain ⟨blanks, split⟩ := eq_indent_append_trim name
    -- the dots, the blanks and the name are one run that starts where the dots do
    have dots :
        "...".toList ++ name = [] ++ (("...".toList ++ indent name ++ trim name) ++ blanks) := by
      rw [List.nil_append, List.append_assoc, List.append_assoc, ← split]
    have shown := isPrefix_inside within dots
    rw [List.append_nil] at shown
    have held : Binding.StandsAt text ⟨trim name, line⟩ (byteSize front) := by
      refine ⟨?_, Or.inr ⟨indent name, fun x => List.mem_takeWhile_imp, front, shown, rfl⟩⟩
      rw [lineAt_of_isPrefix ((List.prefix_append _ _).trans shown), start]
    have dotted : 0 < byteSize ("...".toList ++ name) := byteSize_pos (by simp)
    refine .single held (Nat.le_refl _) ?_
    omega
  · exact .nil

/-- The body of a nested pattern stands behind the indent of the target and an opener. -/
theorem nestedPattern?_stands {isObject : Bool} {target inner : List Char}
    (nested : nestedPattern? (trim target) = some (isObject, inner)) :
    ∃ bracket : Bracket, ∃ back,
      target = (indent target ++ [bracket.opener]) ++ (inner ++ back) := by
  obtain ⟨blanks, trimmed⟩ := eq_indent_append_trim target
  obtain ⟨bracket, body, opened, cut⟩ := nestedPattern?_eq_some nested
  rw [opened] at trimmed
  rcases cut with closed | ⟨unclosed, -⟩
  · refine ⟨bracket, bracket.closer :: blanks, ?_⟩
    rw [closed] at trimmed
    simpa using trimmed
  · refine ⟨bracket, blanks, ?_⟩
    rw [unclosed] at trimmed
    simpa using trimmed

/-- What an entry binds stands in it, in order, if this holds of the patterns inside. -/
theorem entryBindings_inOrder {isObject : Bool} {line : Nat} {before behind : List Char}
    {piece : Piece} {found : List Binding}
    (within : front ++ (before ++ (piece.text ++ behind)) <+: text)
    (start : line = lineBreaks front + 1) (place : piece.offset = byteSize before)
    (read : entryBindings isObject line (before ++ (piece.text ++ behind)) piece = .ok found)
    (deeper : ∀ {innerIsObject innerLine inner ahead found}, inner.length < piece.text.length →
      ahead ++ inner <+: text → innerLine = lineBreaks ahead + 1 →
      bindings innerIsObject innerLine inner = .ok found →
      InOrder (Binding.StandsAt text) found (byteSize ahead) (byteSize ahead + byteSize inner)) :
    InOrder (Binding.StandsAt text) found (byteSize front + piece.offset)
      (byteSize front + piece.offset + byteSize piece.text) := by
  obtain ⟨blanks, trimmed⟩ := eq_indent_append_trim piece.text
  have size := congrArg byteSize trimmed
  have shown := isPrefix_inside (isPrefix_inside within rfl) trimmed
  simp only [byteSize_append] at size
  simp only [entryBindings, place, breaksBefore_indent] at read
  split at read
  · cases read
    exact .nil
  split at read
  next dots =>
    -- a rest binding
    cases read
    obtain ⟨name, rest⟩ := List.isPrefixOf_iff_prefix.mp dots
    have name : (trim piece.text).drop 3 = name := by
      rw [← rest]
      rfl
    rw [name]
    rw [← rest] at shown
    refine (Binding.ofName_rest_inOrder shown ?_).widen ?_ ?_
    · simp only [start, lineBreaks_append]
      omega
    · simp only [byteSize_append]
      omega
    · rw [rest]
      simp only [byteSize_append]
      omega
  · split at read
    · cases read
    next target bound =>
      obtain ⟨ahead, back, split, offset, -⟩ := bindingTarget_eq_ok bound
      have length := bindingTarget_length_le bound
      have cut := trim_length_le piece.text
      have part := isPrefix_inside shown split
      have total := congrArg byteSize split
      simp only [byteSize_append] at total
      rw [offset, split, breaksBefore_indent] at read
      split at read
      next innerIsObject inner nested =>
        -- the body of a nested pattern starts behind its opener, on the same line
        obtain ⟨bracket, back, whole⟩ := nestedPattern?_stands nested
        have shorter := nestedPattern?_length_lt nested
        have short := trim_length_le target.text
        have bytes := congrArg byteSize whole
        have opener : lineBreaks [bracket.opener] = 0 := by cases bracket <;> rfl
        simp only [byteSize_append] at bytes
        refine (deeper (by omega) (isPrefix_inside part whole) ?_ read).widen ?_ ?_
        · simp only [start, lineBreaks_append, opener]
          omega
        · simp only [byteSize_append]
          omega
        · simp only [byteSize_append]
          omega
      · -- a plain target
        cases read
        refine (Binding.ofName_inOrder part ?_).widen ?_ ?_
        · simp only [start, lineBreaks_append]
          omega
        · simp only [byteSize_append]
          omega
        · simp only [byteSize_append]
          omega

end

/-- The bindings of a pattern stand in it from left to right. -/
theorem bindings_inOrder {text front pattern : List Char} {isObject : Bool} {line : Nat}
    {found : List Binding} (within : front ++ pattern <+: text)
    (start : line = lineBreaks front + 1) (read : bindings isObject line pattern = .ok found) :
    InOrder (Binding.StandsAt text) found (byteSize front) (byteSize front + byteSize pattern) := by
  rw [bindings_eq] at read
  obtain ⟨pieces, cut, read⟩ := bind_eq_ok.mp read
  obtain ⟨lists, each, same⟩ := bind_eq_ok.mp read
  cases same
  have cuts := split_cuts (by decide) cut
  refine cuts.inOrder (mapM_eq_ok_iff.mp each) fun piece member xs one => ?_
  have length := split_length_le cut piece member
  obtain ⟨before, behind, split, place⟩ := cuts.stands piece member
  rw [Nat.zero_add] at place
  rw [split] at within one
  refine entryBindings_inOrder within start place one ?_
  intro _ _ inner _ _ shorter inside begun deeper
  exact bindings_inOrder inside begun deeper
  termination_by pattern.length

/-! Exports -/

/-- At `offset`, on the line of the export, stands its local name if it is a list entry, and the
name it binds otherwise. -/
def StandsAt (text : List Char) (e : Export) (offset : Nat) : Prop :=
  e.line = lineAt text offset ∧
    match e.kind with
    | .reExport => ∃ target, e.target = some target ∧ ShownAt text offset target.toList
    | .function => ShownAt text offset e.name.toList
    | .value | .destructuredTyped => NameAt text e.name.toList offset

theorem words_eq_cons {text word : List Char} {more : List (List Char)}
    (split : words text = word :: more) :
    word ≠ [] ∧ ∃ back, trimStart text = word ++ back := by
  -- by the recursion of the cut: blanks are dropped, and a character joins the word behind it
  -- unless a blank is between
  fun_induction words text generalizing word more with
  | case1 => cases split
  | case2 c rest blank ih =>
    rw [trimStart, List.dropWhile_cons_of_pos blank]
    exact ih split
  | case3 c dark d tail next others blank found ih =>
    simp only [found, if_pos blank] at split
    cases split
    rw [trimStart, List.dropWhile_cons_of_neg dark]
    exact ⟨by simp, d :: tail, rfl⟩
  | case4 c dark d tail next others inside found ih =>
    simp only [found, if_neg inside] at split
    cases split
    obtain ⟨-, back, behind⟩ := ih found
    rw [trimStart, List.dropWhile_cons_of_neg inside] at behind
    rw [trimStart, List.dropWhile_cons_of_neg dark]
    exact ⟨by simp, back, by rw [behind, List.cons_append]⟩
  | case5 c rest dark last ih =>
    rw [trimStart, List.dropWhile_cons_of_neg dark]
    have single : word = [c] := by
      split at split
      next d tail next others found => exact absurd found (last d tail next others rfl)
      · cases split
        rfl
    exact ⟨by simp [single], rest, by rw [single]; rfl⟩

theorem listItem?_eq_some {entry target name : List Char}
    (item : listItem? entry = some (target, name)) :
    target ≠ [] ∧ ∃ back, trimStart entry = target ++ back := by
  simp only [listItem?] at item
  split at item
  next word single =>
    split at item
    · cases item
    · cases item
      exact words_eq_cons single
  next word keyword given three =>
    split at item
    · cases item
      exact words_eq_cons three
    · cases item
  · cases item

theorem listExports_inOrder {text front body : List Char} {line : Nat}
    {origin : Option (List Char)} {found : List Export} (within : front ++ body <+: text)
    (start : line = lineBreaks front + 1) (read : listExports line body origin = .ok found) :
    InOrder (StandsAt text) found (byteSize front) (byteSize front + byteSize body) := by
  obtain ⟨pieces, cut, same⟩ := bind_eq_ok.mp read
  cases same
  have cuts := split_cuts (by decide) cut
  rw [List.filterMap_eq_flatMap_toList, List.flatMap_def]
  refine cuts.inOrder (List.forall₂_map_right_iff.mpr (List.forall₂_same.mpr fun _ _ => rfl)) ?_
  rintro piece member _ rfl
  obtain ⟨before, behind, rfl, place⟩ := cuts.stands piece member
  -- one entry of the list: nothing for an empty one, else an export where its target stands in the
  -- piece
  cases item : listItem? piece.text with
  | none => exact .nil
  | some names =>
    obtain ⟨target, name⟩ := names
    obtain ⟨shown, back, split⟩ := listItem?_eq_some item
    have whole : piece.text = indent piece.text ++ (target ++ back) := by
      rw [← split, indent_append_trimStart]
    have inside := isPrefix_inside (isPrefix_inside within rfl) whole
    have size := byteSize_pos shown
    have total := congrArg byteSize whole
    simp only [byteSize_append] at total
    -- the line is counted from the list's own, so it is the line of the place in the text
    have line : lineAt text (byteSize (front ++ before ++ indent piece.text)) =
        line + breaksBefore (before ++ (piece.text ++ behind))
          (piece.offset + byteSize (indent piece.text)) := by
      rw [lineAt_of_isPrefix ((List.prefix_append _ _).trans inside), place, Nat.zero_add,
        breaksBefore_indent, start]
      simp only [lineBreaks_append]
      omega
    refine .single ⟨line.symm, _, rfl, _, ?_, rfl⟩ ?_ ?_
    · simpa using inside
    · simp only [byteSize_append, place]
      omega
    · simp only [byteSize_append, place]
      omega

/-! Clauses -/

/-- Reading from behind `front` on found exports that stand in order before the place from which
`later` is read on. -/
def ReadTo (text front : List Char) (found : List Export) (later : List Token) : Prop :=
  ∃ passed, Stands text (front ++ passed) later ∧
    InOrder (StandsAt text) found (byteSize front) (byteSize (front ++ passed))

section

variable {text front : List Char} {tokens later : List Token} {found more : List Export}

theorem ReadTo.nil (stands : Stands text front tokens) (left : Remains later tokens) :
    ReadTo text front [] later := by
  obtain ⟨passed, behind⟩ := stands.remains left
  exact ⟨passed, behind, .nil⟩

/-- What was found in the first token is found before the rest. -/
theorem ReadTo.token {t : Token} {rest : List Token} (stands : Stands text front (t :: rest))
    (left : Remains later rest)
    (inside : InOrder (StandsAt text) found (byteSize (front ++ t.lead))
      (byteSize (front ++ t.lead ++ t.text))) : ReadTo text front found later := by
  cases stands with
  | cons within shown line behind =>
    obtain ⟨passed, last⟩ := behind.remains left
    refine ⟨t.lead ++ t.text ++ passed, by simpa using last, inside.widen ?_ ?_⟩
    · simp only [byteSize_append]
      omega
    · simp only [byteSize_append]
      omega

/-- Stepping over tokens finds nothing. -/
theorem ReadTo.skip {middle : List Token} (stands : Stands text front tokens)
    (left : Remains middle tokens)
    (read : ∀ {front}, Stands text front middle → ReadTo text front found later) :
    ReadTo text front found later := by
  obtain ⟨passed, behind⟩ := stands.remains left
  obtain ⟨further, last, ordered⟩ := read behind
  refine ⟨passed ++ further, by simpa using last, ordered.widen ?_ ?_⟩
  · simp
  · simp

theorem ReadTo.append {later last : List Token} (first : ReadTo text front found later)
    (read : ∀ {front}, Stands text front later → ReadTo text front more last) :
    ReadTo text front (found ++ more) last := by
  obtain ⟨passed, behind, ordered⟩ := first
  obtain ⟨further, final, others⟩ := read behind
  refine ⟨passed ++ further, by simpa using final, ?_⟩
  rw [← List.append_assoc]
  refine ordered.append others ?_ ?_
  · simp
  · simp

/-- A token stands behind its lead, on its line. -/
theorem token_shownAt {t : Token} {rest : List Token} (stands : Stands text front (t :: rest)) :
    t.line = lineAt text (byteSize (front ++ t.lead)) ∧
      ShownAt text (byteSize (front ++ t.lead)) t.text ∧
      byteSize (front ++ t.lead) < byteSize (front ++ t.lead ++ t.text) := by
  cases stands with
  | cons within shown line behind =>
    refine ⟨?_, ⟨_, within, rfl⟩, ?_⟩
    · rw [lineAt_of_isPrefix ((List.prefix_append _ _).trans within), line]
    · have := byteSize_pos shown
      simp only [byteSize_append]
      omega

/-- What stands in the interior of a group stands in the group. -/
theorem interior_inOrder {t : Token} {rest : List Token} {bracket : Bracket}
    (stands : Stands text front (t :: rest)) (group : t.group? = some bracket)
    (read : ∀ {front}, front ++ t.interior <+: text → t.line = lineBreaks front + 1 →
      InOrder (StandsAt text) found (byteSize front) (byteSize front + byteSize t.interior)) :
    InOrder (StandsAt text) found (byteSize (front ++ t.lead))
      (byteSize (front ++ t.lead ++ t.text)) := by
  obtain ⟨back, split⟩ := Token.group_text group
  have opener : lineBreaks [bracket.opener] = 0 := by cases bracket <;> rfl
  have total := congrArg byteSize split
  simp only [byteSize_append] at total
  cases stands with
  | cons within shown line behind =>
    refine (read (isPrefix_inside within split) ?_).widen ?_ ?_
    · simp only [line, lineBreaks_append, opener, Nat.add_zero]
    · simp only [byteSize_append]
      omega
    · simp only [byteSize_append]
      omega

theorem patternExports_readTo {stop : Stop} {t : Token} {rest : List Token} {bracket : Bracket}
    (stands : Stands text front (t :: rest)) (group : t.group? = some bracket)
    (read : patternExports stop t rest = .ok (found, later)) : ReadTo text front found later := by
  have left := patternExports_remains read
  obtain ⟨⟨typed, middle⟩, -, read⟩ := bind_eq_ok.mp read
  obtain ⟨⟨source, after⟩, -, read⟩ := bind_eq_ok.mp read
  obtain ⟨names, bound, same⟩ := bind_eq_ok.mp read
  cases same
  refine .token stands left (interior_inOrder stands group fun within line => ?_)
  refine (bindings_inOrder within line bound).map fun b place held => ⟨held.1, ?_⟩
  cases typed <;> simpa using held.2

theorem nameExport_readTo {stop : Stop} {t : Token} {rest : List Token} {e : Export}
    (stands : Stands text front (t :: rest)) (read : nameExport stop t rest = .ok (e, later)) :
    ReadTo text front [e] later := by
  have left := nameExport_remains read
  obtain ⟨line, shown, size⟩ := token_shownAt stands
  obtain ⟨⟨typed, middle⟩, -, read⟩ := bind_eq_ok.mp read
  refine .token stands left (.single ?_ (Nat.le_refl _) size)
  simp only at read
  split at read
  · obtain ⟨⟨source, after⟩, -, same⟩ := bind_eq_ok.mp read
    cases same
    refine ⟨line, ?_⟩
    cases source.any isFunction
    · exact Or.inl (by simpa using shown)
    · simpa using shown
  · cases read
    exact ⟨line, Or.inl (by simpa using shown)⟩

theorem declarator_readTo {stop : Stop} {t : Token} {rest : List Token}
    (stands : Stands text front (t :: rest))
    (read : declarator stop t rest = .ok (some (found, later))) :
    ReadTo text front found later := by
  simp only [declarator] at read
  split at read
  next group =>
    obtain ⟨⟨exports, after⟩, pattern, same⟩ := bind_eq_ok.mp read
    cases same
    simp only [Bool.or_eq_true, decide_eq_true_eq] at group
    rcases group with curly | square
    · exact patternExports_readTo stands curly pattern
    · exact patternExports_readTo stands square pattern
  · split at read
    · obtain ⟨⟨e, after⟩, name, same⟩ := bind_eq_ok.mp read
      cases same
      exact nameExport_readTo stands name
    · cases read

theorem declarators_readTo {stop : Stop} (stands : Stands text front tokens)
    (read : declarators stop tokens = .ok (found, later)) : ReadTo text front found later := by
  -- by the recursion over the declarators; each reads on from the place that the one before it left
  fun_induction declarators stop tokens generalizing found front with
  | case1 =>
    cases read
    exact .nil stands (.refl [])
  | case2 => cases read
  | case3 =>
    cases read
    exact .nil stands (.refl _)
  | case4 t rest first one =>
    cases read
    exact declarator_readTo stands one
  | case5 t rest first u more one _ ih =>
    obtain ⟨⟨others, last⟩, behind, same⟩ := bind_eq_ok.mp read
    cases same
    exact (declarator_readTo stands one).append fun further =>
      .skip further ((Remains.refl more).drop u) fun next => ih next behind
  | case6 t rest first u more one =>
    cases read
    exact declarator_readTo stands one

/-- A signature with a body exports its name, any other nothing. -/
theorem signatureExport_cases (all : List Token) (name : Token) (tokens : List Token) :
    (signatureExport all name tokens).1 = [] ∨
    ∃ source, (signatureExport all name tokens).1 =
      [{ name := String.ofList name.text, kind := .function, line := name.line, source }] := by
  cases tokens with
  | nil => exact Or.inl rfl
  | cons t later =>
    simp only [signatureExport]
    split
    · cases skipReturnType later with
      | nil => exact Or.inl rfl
      | cons body after =>
        simp only
        split
        · exact Or.inr ⟨_, rfl⟩
        · exact Or.inl rfl
    · exact Or.inl rfl

/-- A function declaration exports nothing, or the name that stands in it. -/
theorem functionExport_cases (all tokens : List Token) :
    (functionExport all tokens).1 = [] ∨
    ∃ name rest source, Remains (name :: rest) tokens ∧
      (functionExport all tokens).1 =
        [{ name := String.ofList name.text, kind := .function, line := name.line, source }] ∧
      Remains (functionExport all tokens).2 rest := by
  have marked := skipMark_remains '*' tokens
  rw [functionExport_eq]
  cases starred : skipMark '*' tokens with
  | nil => exact Or.inl rfl
  | cons name rest =>
    rw [starred] at marked
    simp only
    split
    · have left := (signatureExport_remains all name _).trans (afterTypeParameters_remains rest)
      rcases signatureExport_cases all name (afterTypeParameters rest) with none | ⟨source, one⟩
      · exact Or.inl none
      · exact Or.inr ⟨name, rest, source, marked, one, left⟩
    · exact Or.inl rfl

theorem functionExport_readTo (all : List Token) (stands : Stands text front tokens) :
    ReadTo text front (functionExport all tokens).1 (functionExport all tokens).2 := by
  rcases functionExport_cases all tokens with none | ⟨name, rest, source, named, one, left⟩
  · rw [none]
    exact .nil stands (functionExport_remains all tokens)
  · rw [one]
    refine .skip stands named fun {front} behind => ?_
    obtain ⟨line, shown, size⟩ := token_shownAt behind
    exact .token behind left (.single ⟨line, by simpa using shown⟩ (Nat.le_refl _) size)

theorem exportClause_readTo {stop : Stop} (stands : Stands text front tokens)
    (read : exportClause stop tokens = .ok (found, later)) : ReadTo text front found later := by
  have left := exportClause_remains read
  simp only [exportClause] at read
  -- the branches of the clause in their order: a list, a declaring keyword, `function`, `async
  -- function`, anything else
  split at read
  · cases read
    exact .nil stands left
  next t rest =>
    split at read
    next group =>
      -- a list is read inside its braces, with or without a module behind them
      have listed {origin : Option (List Char)} {exports : List Export} {later : List Token}
          (behind : Remains later rest)
          (list : listExports t.line t.interior origin = .ok exports) :
          ReadTo text front exports later :=
        .token stands behind <| interior_inOrder stands group fun within line =>
          listExports_inOrder within line list
      split at read
      next origin after clause =>
        obtain ⟨exports, list, same⟩ := bind_eq_ok.mp read
        cases same
        exact listed (originClause?_remains clause) list
      · obtain ⟨exports, list, same⟩ := bind_eq_ok.mp read
        cases same
        exact listed (.refl _) list
    · split at read
      · exact .skip stands ((Remains.refl rest).drop t) fun behind => declarators_readTo behind read
      · split at read
        · have exported := ReadTo.skip stands ((Remains.refl rest).drop t) fun behind =>
            functionExport_readTo (t :: rest) behind
          simp only [Except.ok.injEq] at read
          rwa [read] at exported
        · split at read
          · split at read
            next u after =>
              split at read
              · have exported := ReadTo.skip stands (((Remains.refl after).drop u).drop t)
                  fun behind => functionExport_readTo (t :: u :: after) behind
                simp only [Except.ok.injEq] at read
                rwa [read] at exported
              · cases read
                exact .nil stands left
            · cases read
              exact .nil stands left
          · cases read
            exact .nil stands left

/-- What is exported from a statement on stands in order, and behind an `export` that is no member
name. -/
theorem exportsFrom_inOrder {stop : Stop} {previous : Char} {exports : List Export}
    (stands : Stands text front tokens) (read : exportsFrom stop previous tokens = .ok exports) :
    ∃ low high, byteSize front ≤ low ∧ low ≤ high ∧ InOrder (StandsAt text) exports low high ∧
      (exports ≠ [] → ∃ before t after, tokens = before ++ t :: after ∧ t.isWord "export" = true ∧
        (before.getLast?.map Token.first).getD previous ≠ '.' ∧
        byteSize front + byteSize (Token.source before ++ t.lead) < low) := by
  fun_induction exportsFrom stop previous tokens generalizing exports front with
  | case1 =>
    cases read
    exact ⟨_, _, Nat.le_refl _, Nat.le_refl _, .nil, fun some => absurd rfl some⟩
  | case2 | case3 => cases read
  | case4 previous t rest exported found later clause ih =>
    obtain ⟨more, behind, same⟩ := bind_eq_ok.mp read
    cases same
    obtain ⟨-, -, size⟩ := token_shownAt stands
    -- what later clauses export stands behind this one, and this `export` is before them all
    obtain ⟨passed, further, ordered⟩ := exportClause_readTo stands.tail clause
    obtain ⟨low, high, start, up, others, -⟩ := ih further behind
    simp only [Bool.and_eq_true, decide_eq_true_eq] at exported
    have down : byteSize (front ++ t.lead ++ t.text) ≤
        byteSize (front ++ t.lead ++ t.text ++ passed) := by simp
    refine ⟨_, high, ?_, Nat.le_trans down (Nat.le_trans start up),
      ordered.append (others.widen start (Nat.le_refl _)) down (Nat.le_trans start up), fun _ => ?_⟩
    · simp only [byteSize_append]
      omega
    · refine ⟨[], t, rest, rfl, exported.1, exported.2, ?_⟩
      simpa [Token.source] using size
  | case5 previous t rest other ih =>
    obtain ⟨low, high, start, up, ordered, ahead⟩ := ih stands.tail read
    refine ⟨low, high, ?_, up, ordered, fun some => ?_⟩
    · simp only [byteSize_append] at start
      omega
    · obtain ⟨before, u, after, rfl, word, free, place⟩ := ahead some
      refine ⟨t :: before, u, after, rfl, word, ?_, ?_⟩
      · cases last : before.getLast? with
        | none => simpa [last, List.getLast?_cons] using free
        | some p => simpa [last, List.getLast?_cons] using free
      · simp only [Token.source, List.flatMap_cons, byteSize_append] at place ⊢
        omega

end

/-- An `export` that is no member name starts in front of `offset`. -/
def ExportBefore (text : List Char) (offset : Nat) : Prop :=
  ∃ before t after, (scan text).tokens = before ++ t :: after ∧ t.isWord "export" = true ∧
    (∀ p ∈ before.getLast?, p.is '.' = false) ∧ byteSize (Token.source before ++ t.lead) < offset

theorem extract_inOrder {text : List Char} {exports : List Export}
    (read : extract text = .ok exports) :
    ∃ offsets : List Nat, offsets.Pairwise (· < ·) ∧
      List.Forall₂ (fun e offset => e.StandsAt text offset ∧ ExportBefore text offset)
        exports offsets := by
  obtain ⟨low, high, -, -, ordered, ahead⟩ :=
    exportsFrom_inOrder (scan_stands text) (extract_eq text ▸ read)
  have behind : InOrder (fun e offset => e.StandsAt text offset ∧ ExportBefore text offset) exports
      low high := by
    refine ordered.imp fun e member offset above held => ⟨held, ?_⟩
    obtain ⟨before, t, after, split, word, free, place⟩ := ahead (List.ne_nil_of_mem member)
    refine ⟨before, t, after, split, word, fun p last => ?_, ?_⟩
    · rw [Option.mem_def.mp last] at free
      refine decide_eq_false fun dot => free ?_
      simp [Token.first, dot]
    · simp only [byteSize, Nat.zero_add] at place
      exact Nat.lt_of_lt_of_le place above
  obtain ⟨offsets, each, sorted, -⟩ := behind
  exact ⟨offsets, sorted, each⟩

/-- A member name, a pattern with a rest binding, and a list over two lines. -/
def scattered : List Char :=
  "a.export\nexport const \x7b b: [c], ... d \x7d = e\nexport \x7b f,\n  g as h \x7d".toList

theorem extract_inOrder_scattered :
    ∃ exports, extract scattered = .ok exports ∧ exports.map Export.line = [2, 2, 3, 4] ∧
      ∃ offsets : List Nat, offsets.Pairwise (· < ·) ∧
        List.Forall₂ (fun e offset => e.StandsAt scattered offset ∧ ExportBefore scattered offset)
          exports offsets := by
  have read : extract scattered = .ok
      [{ name := "c", kind := .value, line := 2, source := some "e" },
        { name := "d", kind := .value, line := 2, source := some "e" },
        { name := "f", kind := .reExport, line := 3, target := some "f" },
        { name := "h", kind := .reExport, line := 4, target := some "g" }] := by
    decide +kernel
  exact ⟨_, read, rfl, extract_inOrder read⟩

end Concord.Export
