import Concord.Proofs.Items

/-!
Cutting a text that is made of items. The pieces between separators, and the place of an assignment,
are read off the items. A text is contained if it can be scanned and the scan stops where it ends,
whatever character that belongs to no token of it stands behind.
-/
namespace Concord.Scan

open Concord.Text

/-! Pieces -/

/-- The pieces between the separators among the items; the first starts at `offset` with `front`. -/
def Item.pieces (sep : Char) (offset : Nat) (front : List Char) : List Item → List Piece
  | [] => [⟨offset, front⟩]
  | item :: items =>
    if item = .token [sep] then
      ⟨offset, front⟩ :: pieces sep (offset + byteSize front + sep.utf8Size) [] items
    else pieces sep offset (front ++ item.text) items

theorem Item.pieces_append {sep : Char} {items : List Item} (uncut : .token [sep] ∉ items)
    (offset : Nat) (front : List Char) (more : List Item) :
    pieces sep offset front (items ++ more) = pieces sep offset (front ++ source items) more := by
  induction items generalizing front with
  | nil => simp
  | cons item items ih =>
    simp only [List.mem_cons, not_or] at uncut
    rw [List.cons_append, pieces, if_neg (Ne.symm uncut.1), ih uncut.2, List.append_assoc]
    rfl

theorem Item.pieces_of_uncut {sep : Char} {items : List Item} (uncut : .token [sep] ∉ items)
    (offset : Nat) (front : List Char) :
    pieces sep offset front items = [⟨offset, front ++ source items⟩] := by
  have whole := pieces_append uncut offset front []
  rwa [List.append_nil] at whole

namespace Cursor

variable {sep : Char} {start c here next : Cursor}

theorem split_of_atEnd (trivia : c.skipTrivia = .ok here) (ended : here.rest = []) :
    Cursor.split sep start c = .ok [⟨start.offset, start.rest⟩] := by
  rw [Cursor.split]
  split
  next failed => cases trivia.symm.trans failed
  next same =>
    cases trivia.symm.trans same
    rw [dif_pos ended]

theorem split_of_eaten (trivia : c.skipTrivia = .ok here) (eaten : here.eat? sep = some next) :
    Cursor.split sep start c =
      (Cursor.split sep next next).map (⟨start.offset, start.upTo here⟩ :: ·) := by
  have unread : here.rest ≠ [] := by
    intro ended
    rw [eat?, ended] at eaten
    cases eaten
  rw [Cursor.split]
  split
  next failed => cases trivia.symm.trans failed
  next same =>
    cases trivia.symm.trans same
    rw [dif_neg unread]
    split
    next same =>
      cases eaten.symm.trans same
      cases Cursor.split sep next next <;> rfl
    next other => cases eaten.symm.trans other

theorem split_of_token (trivia : c.skipTrivia = .ok here) (unread : here.rest ≠ [])
    (uneaten : here.eat? sep = none) (token : here.skipToken = .ok next) :
    Cursor.split sep start c = Cursor.split sep start next := by
  rw [Cursor.split]
  split
  next failed => cases trivia.symm.trans failed
  next same =>
    cases trivia.symm.trans same
    rw [dif_neg unread]
    split
    next other => cases uneaten.symm.trans other
    next =>
      split
      next failed => cases token.symm.trans failed
      next same =>
        cases token.symm.trans same
        rfl

end Cursor

/-- Cutting finds the pieces among the items. The cursor `here` stands `front` behind the start of
the current piece, and between `c` and it are trivia. -/
theorem Reads.split_eq {sep : Char} (separates : isSeparator sep = true) {start c here : Cursor}
    {items : List Item} {front : List Char} {last : Bool}
    (reads : Reads here.regexOk items [] last) (whole : here.rest = Item.source items)
    (ahead : start.rest = front ++ here.rest) (place : here.offset = start.offset + byteSize front)
    (trivia : c.skipTrivia = here.skipTrivia) :
    Cursor.split sep start c = .ok (Item.pieces sep start.offset front items) := by
  generalize flagged : here.regexOk = flag at reads
  generalize ended : ([] : List Char) = rest at reads
  induction reads generalizing start c here front with
  | done =>
    have stays : here.skipTrivia = .ok here := by
      rw [Cursor.skipTrivia, Cursor.lexeme?_eq_none_iff.mpr whole]
    rw [stays] at trivia
    rw [Cursor.split_of_atEnd trivia whole, ahead, whole]
    simp [Item.pieces]
  -- a gap belongs to the piece that has begun
  | @gap _ _ kind text _ items lexes blank _ ih =>
    subst flagged ended
    rw [List.append_nil] at lexes
    have read := Cursor.lexeme?_of_lexes lexes whole
    rw [Cursor.skipTrivia_of_trivia read blank] at trivia
    rw [Item.pieces, if_neg (by simp)]
    refine ih rfl ?_ ?_ trivia rfl rfl
    · rw [ahead, whole, List.append_assoc]
      rfl
    · simp [Cursor.advance, place, Item.text, Nat.add_assoc]
  | @token _ after _ text _ items one _ ih =>
    subst flagged ended
    rw [List.append_nil] at one
    obtain ⟨stays, skipped⟩ := one.skips whole
    rw [stays] at trivia
    rw [Item.pieces]
    obtain ⟨x, text, rfl⟩ := List.exists_cons_of_ne_nil one.ne_nil
    have shown : here.rest = x :: (text ++ Item.source items) := whole
    by_cases cuts : x = sep
    · -- the token is the separator, and a new piece starts behind it
      subst cuts
      obtain ⟨rfl, rfl⟩ := one.eq_separator separates
      have notBlank : isAsciiBlank x = false := by
        simp only [isSeparator, Bool.and_eq_true, Bool.not_eq_true'] at separates
        exact separates.1.1.1.1.2
      have eaten : here.eat? x =
          some (here.advance [x] (Item.source items) (regexMayFollow x)) := by
        rw [Cursor.eat?, shown]
        simp [notBlank]
      rw [if_pos rfl, Cursor.split_of_eaten trivia eaten, Cursor.upTo_eq ahead]
      have later := @ih (here.advance [x] (Item.source items) (regexMayFollow x))
        (here.advance [x] (Item.source items) (regexMayFollow x))
        (here.advance [x] (Item.source items) (regexMayFollow x)) [] rfl rfl rfl rfl rfl rfl
      rw [later]
      simp [Except.map, Cursor.advance, place, byteSize]
    -- any other token belongs to it as well, so a piece grows until the next separator
    · have uneaten : here.eat? sep = none := by
        rw [Cursor.eat?, shown]
        simp [cuts]
      rw [if_neg (by simp [cuts]), Cursor.split_of_token trivia (by simp [shown]) uneaten skipped]
      refine ih rfl ?_ ?_ rfl rfl rfl
      · rw [ahead, whole, List.append_assoc]
        rfl
      · simp [Cursor.advance, place, Item.text, Nat.add_assoc]

theorem Reads.split_source {sep : Char} (separates : isSeparator sep = true) {items : List Item}
    {last : Bool} (reads : Reads true items [] last) :
    Scan.split sep (Item.source items) = .ok (Item.pieces sep 0 [] items) :=
  @split_eq sep separates (Cursor.start (Item.source items)) (Cursor.start (Item.source items))
    (Cursor.start (Item.source items)) items [] last reads rfl rfl rfl rfl

/-! Assignments -/

namespace Cursor

variable {previous : Char} {c here next : Cursor}

theorem findAssign_of_atEnd (trivia : c.skipTrivia = .ok here) (ended : here.rest = []) :
    c.findAssign previous = .ok none := by
  rw [findAssign]
  split
  next failed => cases trivia.symm.trans failed
  next same =>
    cases trivia.symm.trans same
    rw [dif_pos ended]

theorem findAssign_of_assigns {rest : List Char} (trivia : c.skipTrivia = .ok here)
    (equals : here.rest = '=' :: rest)
    (assigned : assigns ((c.upTo here).getLastD previous) rest.head? = true) :
    c.findAssign previous = .ok (some here.offset) := by
  rw [findAssign]
  split
  next failed => cases trivia.symm.trans failed
  next same =>
    cases trivia.symm.trans same
    have both : (decide (here.rest.head? = some '=') &&
        assigns ((c.upTo here).getLastD previous) here.rest.tail.head?) = true := by
      rw [equals, List.head?_cons, List.tail_cons, assigned]
      rfl
    rw [dif_neg (by simp [equals])]
    exact if_pos both

theorem findAssign_of_token (trivia : c.skipTrivia = .ok here) (unread : here.rest ≠ [])
    (other : here.rest.head? ≠ some '=') (token : here.skipToken = .ok next) :
    c.findAssign previous =
      next.findAssign ((here.upTo next).getLastD ((c.upTo here).getLastD previous)) := by
  rw [findAssign]
  split
  next failed => cases trivia.symm.trans failed
  next same =>
    cases trivia.symm.trans same
    rw [dif_neg unread, if_neg (by simp [other])]
    split
    next failed => cases token.symm.trans failed
    next same =>
      cases token.symm.trans same
      rfl

end Cursor

theorem getLastD_append {α : Type} (front back : List α) (last : α) :
    (front ++ back).getLastD last = back.getLastD (front.getLastD last) := by
  simp only [List.getLastD_eq_getLast?, List.getLast?_append]
  cases back.getLast? <;> simp

/-- The search for an assignment passes items without an `=`. The cursor `c` stands `lead` before
the items, and what is between are trivia. -/
theorem Reads.findAssign_past {previous : Char} {c here : Cursor} {items : List Item}
    {lead rest : List Char} {last : Bool} (reads : Reads here.regexOk items rest last)
    (whole : here.rest = Item.source items ++ rest) (uncut : .token ['='] ∉ items)
    (ahead : c.rest = lead ++ here.rest) (trivia : c.skipTrivia = here.skipTrivia) :
    ∃ (later : Cursor) (lead' : List Char) (previous' : Char),
      c.findAssign previous = later.findAssign previous' ∧
      later.skipTrivia = (here.advance (Item.source items) rest last).skipTrivia ∧
      later.rest = lead' ++ rest ∧
      lead'.getLastD previous' = (Item.source items).getLastD (lead.getLastD previous) := by
  generalize flagged : here.regexOk = flag at reads
  -- what is kept along is the last character that was passed, which tells a plain assignment from
  -- another operator
  induction reads generalizing c here lead previous with
  | done =>
    subst flagged
    rw [Item.source_nil, List.nil_append] at whole
    refine ⟨c, lead, previous, rfl, ?_, by rw [ahead, whole], rfl⟩
    rw [trivia, Item.source_nil, Cursor.advance_nil whole]
  | @gap _ last kind text rest items lexes blank _ ih =>
    subst flagged
    rw [List.mem_cons, not_or] at uncut
    rw [Item.source_cons, List.append_assoc] at whole
    have read := Cursor.lexeme?_of_lexes lexes whole
    rw [Cursor.skipTrivia_of_trivia read blank] at trivia
    obtain ⟨later, lead', previous', found, behind, split, same⟩ :=
      @ih previous c (here.advance text (Item.source items ++ rest) here.regexOk) (lead ++ text)
        rfl uncut.2 (by rw [ahead, whole, List.append_assoc]; rfl) trivia rfl
    rw [Cursor.advance_append] at behind
    refine ⟨later, lead', previous', found, behind, split, ?_⟩
    rw [same, Item.source_cons, getLastD_append, getLastD_append]
    rfl
  | @token _ after last text rest items one _ ih =>
    subst flagged
    rw [List.mem_cons, not_or] at uncut
    rw [Item.source_cons, List.append_assoc] at whole
    obtain ⟨stays, skipped⟩ := one.skips whole
    obtain ⟨x, tail, shown⟩ := List.exists_cons_of_ne_nil one.ne_nil
    -- a token that begins with `=` is that mark, and the items hold none
    have other : here.rest.head? ≠ some '=' := by
      rw [whole, Item.text, shown, List.cons_append, List.head?_cons]
      intro equals
      cases equals
      rw [shown] at one uncut
      exact uncut.1 (by rw [(one.eq_separator (by decide)).1])
    have unread : here.rest ≠ [] := by simp [whole, Item.text, shown]
    rw [stays] at trivia
    obtain ⟨later, lead', previous', found, behind, split, same⟩ :=
      @ih (text.getLastD (lead.getLastD previous))
        (here.advance text (Item.source items ++ rest) after)
        (here.advance text (Item.source items ++ rest) after) [] rfl uncut.2 rfl rfl rfl
    rw [Cursor.advance_append] at behind
    refine ⟨later, lead', previous', ?_, behind, split, ?_⟩
    · rw [Cursor.findAssign_of_token trivia unread other skipped, Cursor.upTo_eq ahead,
        Cursor.upTo_eq whole]
      exact found
    · rw [same, Item.source_cons, getLastD_append]
      rfl

/-- No assignment is found among items without an `=`. -/
theorem Reads.findAssign_none {items : List Item} {last : Bool} (reads : Reads true items [] last)
    (uncut : .token ['='] ∉ items) : findAssign (Item.source items) = .ok none := by
  have start : (Cursor.start (Item.source items)).rest = Item.source items ++ [] := by
    simp [Cursor.start]
  obtain ⟨later, lead, previous, found, behind, -, -⟩ :=
    @findAssign_past ' ' (Cursor.start (Item.source items)) (Cursor.start (Item.source items))
      items [] [] last reads start uncut rfl rfl
  rw [Cursor.skipTrivia.eq_def (Cursor.advance _ _ _ _), Cursor.lexeme?_eq_none_iff.mpr rfl]
    at behind
  rw [findAssign, found]
  exact Cursor.findAssign_of_atEnd behind rfl

/-- The first `=` behind the items is found if it assigns there. -/
theorem Reads.findAssign_some {items : List Item} {rest : List Char} {last : Bool}
    (reads : Reads true items ('=' :: rest) last) (uncut : .token ['='] ∉ items)
    (assigned : assigns ((Item.source items).getLastD ' ') rest.head? = true) :
    findAssign (Item.source items ++ '=' :: rest) = .ok (some (byteSize (Item.source items))) := by
  let start := Cursor.start (Item.source items ++ '=' :: rest)
  let here := start.advance (Item.source items) ('=' :: rest) last
  obtain ⟨later, lead, previous, found, behind, split, same⟩ :=
    @findAssign_past ' ' start start items [] ('=' :: rest) last reads rfl uncut rfl rfl
  have stays : here.skipTrivia = .ok here :=
    ((IsToken.separator (by decide) last rest).skips rfl).1
  have read : later.findAssign previous = .ok (some here.offset) := by
    refine Cursor.findAssign_of_assigns (behind.trans stays) rfl ?_
    rw [@Cursor.upTo_eq later here lead split, same]
    exact assigned
  rw [findAssign, found, read]
  simp [here, start, Cursor.advance, Cursor.start]

/-! Contained texts -/

/-- The text balances, and nothing in it runs past its end: scanned in front of a `;`, it is its
tokens and the `;` is the last one. -/
def isContained (text : List Char) : Bool :=
  let scanned := scan (text ++ [';'])
  scanned.stop = .finished && Token.source scanned.tokens = text ++ [';']
    && scanned.tokens.getLast?.any fun t => t.is ';'

/-- A character that continues no word and opens no comment and no substitution. -/
def isStopper (x : Char) : Bool :=
  !isWordPart x && x ≠ '/' && x ≠ '*' && x ≠ '\x7b'

/-- A stopper, or nothing, may stand for anything but a line break. -/
theorem Exchanges.stopper {text rest rest' : List Char} {x : Char} (notBreak : x ≠ '\n')
    (stops : ∀ y ∈ rest'.head?, isStopper y = true) : Exchanges text (x :: rest) rest' := by
  have stopped {x : Char} (first : rest'.head? = some x) :
      isWordPart x = false ∧ x ≠ '/' ∧ x ≠ '*' ∧ x ≠ '\x7b' := by
    simpa [isStopper, and_assoc] using stops x first
  refine ⟨fun ends => ?_, fun _ x first => (stopped first).1, fun opens => ?_, fun opens => ?_,
    fun none => by cases none⟩
  · exact absurd (ends x rfl) notBreak
  · rcases opens with slash | star
    · exact absurd rfl (stopped slash).2.1
    · exact absurd rfl (stopped star).2.2.1
  · exact absurd rfl (stopped opens).2.2.2

theorem Item.source_tokens (lead : List Char) (line : Nat) (items : List Item) :
    Token.source (tokens lead line items) ++ trail lead items = lead ++ source items := by
  induction items generalizing lead line with
  | nil => simp [tokens, trail, Token.source]
  | cons item items ih =>
    cases item with
    | gap text => simp [tokens, trail, ih, Item.text]
    | token text =>
      have later := ih [] (line + lineBreaks text)
      simp only [Token.source, List.nil_append] at later
      simp [tokens, trail, Token.source, Item.text, later]

/-- Tokens with nothing behind them cover their items. -/
theorem Item.span_tokens {text : List Char} {items : List Item} (ended : trail [] items = [])
    (lead : List Char) (line : Nat) :
    Token.span (tokens lead line (.token text :: items)) = text ++ source items := by
  have whole := source_tokens [] (line + lineBreaks text) items
  rw [ended, List.append_nil, List.nil_append] at whole
  exact congrArg (text ++ ·) whole

theorem Item.exists_mem_tokens (lead : List Char) (line : Nat) {text : List Char}
    {items : List Item} (member : .token text ∈ items) :
    ∃ t ∈ tokens lead line items, t.text = text := by
  induction items generalizing lead line with
  | nil => cases member
  | cons item items ih =>
    cases item with
    | gap shown =>
      rcases List.mem_cons.mp member with same | member
      · cases same
      · exact ih _ _ member
    | token shown =>
      rcases List.mem_cons.mp member with same | member
      · cases same
        exact ⟨_, List.mem_cons_self, rfl⟩
      · obtain ⟨t, listed, same⟩ := ih [] (line + lineBreaks shown) member
        exact ⟨t, List.mem_cons_of_mem _ listed, same⟩

theorem Item.token_mem_of_mem_tokens {lead : List Char} {line : Nat} {items : List Item}
    {t : Token} (member : t ∈ tokens lead line items) : .token t.text ∈ items := by
  induction items generalizing lead line with
  | nil => cases member
  | cons item items ih =>
    cases item with
    | gap text => exact List.mem_cons_of_mem _ (ih member)
    | token text =>
      rcases List.mem_cons.mp member with rfl | member
      · exact List.mem_cons_self
      · exact List.mem_cons_of_mem _ (ih member)

theorem Item.trail_append (lead : List Char) (items more : List Item) :
    trail lead (items ++ more) = trail (trail lead items) more := by
  induction items generalizing lead with
  | nil => rfl
  | cons item items ih => cases item <;> simp [trail, ih]

/-- In front of the last token of a text, with nothing behind that token, the text is made of
items. -/
theorem reads_of_last {text shown : List Char} (stop : (scan text).stop = .finished)
    (whole : Token.source (scan text).tokens = text)
    (ends : ((scan text).tokens.getLast?.any fun t => t.text = shown) = true) :
    ∃ items last, text = Item.source items ++ shown ∧ Reads true items shown last := by
  obtain ⟨all, last, rfl, reads⟩ := reads_of_scan stop
  rw [reads.scan.2] at whole ends
  -- nothing stands behind the last token, so it is the last item
  have trail : Item.trail [] all = [] := by
    have covers := Item.source_tokens [] 1 all
    rw [whole] at covers
    simpa using covers
  rcases List.eq_nil_or_concat all with rfl | ⟨items, item, rfl⟩
  · cases ends
  · rw [List.concat_eq_append] at *
    obtain ⟨middle, front, back⟩ := reads.split
    cases back with
    | gap lexes =>
      rw [Item.trail_append] at trail
      exact absurd (List.append_eq_nil_iff.mp trail).2 lexes.ne_nil
    | @token _ _ _ found _ _ one =>
      rw [Item.tokens_append] at ends
      obtain rfl : found = shown := by simpa [Item.tokens] using ends
      exact ⟨items, middle, by simp [Item.text], by simpa [Item.text] using front⟩

/-- A contained text is made of items that are read in front of any stopper. -/
theorem reads_of_isContained {text : List Char} (contained : isContained text = true) :
    ∃ items, text = Item.source items ∧ (scan text).stop = .finished ∧
      (scan text).tokens = Item.tokens [] 1 items ∧
      ∀ {rest : List Char}, (∀ x ∈ rest.head?, isStopper x = true) →
        ∃ last, Reads true items rest last := by
  simp only [isContained, Bool.and_eq_true, decide_eq_true_eq] at contained
  obtain ⟨⟨stop, whole⟩, ends⟩ := contained
  obtain ⟨items, middle, split, front⟩ := reads_of_last stop whole ends
  obtain rfl : text = Item.source items := List.append_cancel_right split
  have exchanged {rest : List Char} (stops : ∀ x ∈ rest.head?, isStopper x = true) :
      Reads true items rest middle :=
    front.exchange (.stopper (by decide) stops)
  have alone : Reads true items [] middle := exchanged (by simp)
  obtain ⟨finished, listed⟩ := alone.scan
  exact ⟨items, rfl, finished, listed, fun stops => ⟨middle, exchanged stops⟩⟩

/-! Groups of items -/

theorem Shuts.trans {around base : List Enclosure} {flag middle last : Bool}
    {front text rest : List Char} (first : Shuts around flag front (text ++ rest) middle)
    (second : Shuts base middle text rest last) :
    Shuts (around ++ base) flag (front ++ text) rest last := by
  generalize whole : text ++ rest = all at first
  induction first with
  | done => exact second
  | @step top below _ _ _ unit front _ change moves _ ih =>
    subst whole
    have later := ih second rfl
    rw [← Change.on_append base (Or.inl (by simp))] at later
    rw [List.append_assoc]
    exact .step (by rwa [List.append_assoc]) later

/-- A token inside a group is stepped over on the way to its end. -/
theorem IsToken.shuts {bracket : Bracket} {flag middle last : Bool} {text more rest : List Char}
    (token : IsToken flag text (more ++ rest) middle)
    (later : Shuts [.group bracket] middle more rest last) :
    Shuts [.group bracket] flag (text ++ more) rest last := by
  cases token with
  | lexeme lexes quiet => exact .step (.quiet (by simp) lexes quiet) later
  | @group _ inner text _ shuts =>
    have opens : Moves (some (.group bracket)) flag [inner.opener] ((text ++ more) ++ rest)
        (.enter (.group inner)) true :=
      .opener (by simp) (.openerMark flag inner _)
    rw [List.cons_append, ← List.singleton_append]
    exact .step opens (shuts.trans later)
  | @template _ text _ shuts =>
    have opens : Moves (some (.group bracket)) flag ['\x60'] ((text ++ more) ++ rest)
        (.enter .template) false :=
      .backquote (by simp) (.tick flag _)
    rw [List.cons_append, ← List.singleton_append]
    exact .step opens (shuts.trans later)

/-- Items in front of the closer of a group shut it. -/
theorem Reads.shuts {bracket : Bracket} {flag last : Bool} {items : List Item} {rest : List Char}
    (reads : Reads flag items (bracket.closer :: rest) last) :
    Shuts [.group bracket] flag (Item.source items ++ [bracket.closer]) rest
      (regexMayFollow bracket.closer) := by
  generalize whole : bracket.closer :: rest = all at reads
  -- each item is a move inside the group, and behind the last one the closer is next
  induction reads with
  | @done flag _ =>
    have moves : Moves (some (.group bracket)) flag [bracket.closer] ([] ++ rest) .leave _ :=
      .closer (.closerMark flag bracket rest)
    rw [Item.source_nil, List.nil_append, ← List.append_nil [bracket.closer]]
    exact .step moves .done
  | @gap flag _ kind text _ items lexes trivia _ ih =>
    subst whole
    have quiet : kind.quiet = true := by rcases trivia with rfl | rfl <;> rfl
    have moves : Moves (some (.group bracket)) flag text
        ((Item.source items ++ [bracket.closer]) ++ rest) .stay flag := by
      rw [List.append_assoc]
      exact .quiet (by simp) lexes quiet
    rw [Item.source_cons, List.append_assoc]
    exact .step moves (ih rfl)
  | @token flag after _ text _ items one _ ih =>
    subst whole
    have token : IsToken flag text ((Item.source items ++ [bracket.closer]) ++ rest) after := by
      rwa [List.append_assoc]
    rw [Item.source_cons, List.append_assoc]
    exact token.shuts (ih rfl)

/-- Items between brackets are one token. -/
theorem Reads.isToken {bracket : Bracket} {last : Bool} {items : List Item} {rest : List Char}
    (reads : Reads true items (bracket.closer :: rest) last) (flag : Bool) :
    IsToken flag (bracket.opener :: (Item.source items ++ [bracket.closer])) rest
      (regexMayFollow bracket.closer) :=
  .group bracket reads.shuts

end Concord.Scan
