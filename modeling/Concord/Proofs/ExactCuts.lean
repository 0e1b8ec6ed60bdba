import Concord.Proofs.FirstAssignments

/-!
Cutting a text is exact. It fails where the scan of the text fails, and with the same fault.
Otherwise the pieces and the separators between them are the text, every piece has its own position,
and the cuts are the tokens of the scan that are the separator: a separator behind which a `/` opens
a regular expression leaves the scan as at a fresh start, so each piece reads alone as it did in the
text. The search for an assignment is exact in the same sense.
-/
namespace Concord.Scan

open Concord.Text

/-- The text is cut into these pieces at the tokens that are `sep`, and nowhere else. -/
structure CutAt (sep : Char) (text : List Char) (pieces : List Piece) : Prop where
  joined : [sep].intercalate (pieces.map Piece.text) = text
  placed : ∀ before piece after, pieces = before ++ piece :: after →
    piece.offset = byteSize (before.flatMap fun earlier => earlier.text ++ [sep])
  cuts : pieces.dropLast.map (fun piece => piece.offset + byteSize piece.text) =
    ((placedTokens text).filter fun place => place.2.is sep).map Prod.fst
  alone : ∀ piece ∈ pieces, split sep piece.text = .ok [⟨0, piece.text⟩]

/-! Pieces of items -/

namespace Item

variable {sep : Char}

theorem pieces_ne_nil (offset : Nat) (front : List Char) (items : List Item) :
    pieces sep offset front items ≠ [] := by
  induction items generalizing offset front with
  | nil => simp [pieces]
  | cons item items ih =>
    rw [pieces]
    split
    · simp
    · exact ih _ _

/-- The pieces and the separators between them are the text. -/
theorem intercalate_pieces (offset : Nat) (front : List Char) (items : List Item) :
    [sep].intercalate ((pieces sep offset front items).map Piece.text) =
      front ++ source items := by
  induction items generalizing offset front with
  | nil => simp [pieces]
  | cons item items ih =>
    rw [pieces]
    split
    next cut =>
      -- behind a cut there is always a further piece, so the separator stands between two
      have later := ih (offset + byteSize front + sep.utf8Size) []
      obtain ⟨piece, more, rest⟩ := List.exists_cons_of_ne_nil
        (@pieces_ne_nil sep (offset + byteSize front + sep.utf8Size) [] items)
      rw [rest, List.map_cons] at later ⊢
      rw [List.map_cons, List.intercalate_cons_cons, later, cut]
      simp [Item.text]
    next => rw [ih, source_cons, List.append_assoc]

/-- A piece stands behind the pieces and the separators in front of it. -/
theorem offset_of_pieces {offset : Nat} {front : List Char} {items : List Item}
    {before after : List Piece} {piece : Piece}
    (listed : pieces sep offset front items = before ++ piece :: after) :
    piece.offset = offset + byteSize (before.flatMap fun earlier => earlier.text ++ [sep]) := by
  -- by induction over the items; only a separator begins a new piece
  induction items generalizing offset front before with
  | nil =>
    cases before with
    | nil =>
      cases listed
      rfl
    | cons first before => simp [pieces] at listed
  | cons item items ih =>
    rw [pieces] at listed
    split at listed
    · cases before with
      | nil =>
        cases listed
        rfl
      | cons first before =>
        obtain ⟨rfl, later⟩ := List.cons.inj listed
        rw [ih later]
        simp only [List.flatMap_cons, byteSize_append, byteSize]
        omega
    · exact ih listed

/-- The pieces end at the tokens that are the separator. The first piece has come as far as the
trivia in front of the next token. -/
theorem ends_of_pieces {offset base line : Nat} {front lead : List Char} {items : List Item}
    (level : offset + byteSize front = base + byteSize lead) :
    (pieces sep offset front items).dropLast.map
        (fun piece => piece.offset + byteSize piece.text) =
      ((Token.placed base (tokens lead line items)).filter fun place =>
        place.2.is sep).map Prod.fst := by
  -- `level` says that the current piece and the lead of the next token have come to the same place
  induction items generalizing offset base line front lead with
  | nil => rfl
  | cons item items ih =>
    cases item with
    | gap text =>
      rw [pieces, if_neg (by simp), tokens]
      apply ih
      simp only [byteSize_append, Item.text]
      omega
    | token text =>
      rw [pieces, tokens, Token.placed]
      by_cases cut : text = [sep]
      · -- here a piece ends, and the next one starts behind the separator
        subst cut
        rw [if_pos rfl, List.dropLast_cons_of_ne_nil (pieces_ne_nil _ _ _), List.map_cons,
          List.filter_cons_of_pos (by simp [Token.is]), List.map_cons, level]
        congr 1
        apply ih
        simp only [byteSize]
        omega
      · rw [if_neg (by simpa using cut), List.filter_cons_of_neg (by simpa [Token.is] using cut)]
        apply ih
        simp only [byteSize_append, Item.text, byteSize]
        omega

end Item

/-- Items up to a separator are read alone as in front of it. -/
theorem Reads.stop_at_separator {sep : Char} (separates : isSeparator sep = true) {flag last : Bool}
    {items more : List Item} (reads : Reads flag (items ++ .token [sep] :: more) [] last) :
    (∃ middle, Reads flag items [] middle) ∧ Reads (regexMayFollow sep) more [] last := by
  obtain ⟨middle, front, back⟩ := reads.split
  have notBreak : sep ≠ '\n' := by
    rintro rfl
    cases separates
  constructor
  · refine ⟨middle, front.exchange ?_⟩
    exact .stopper notBreak (by simp)
  · cases back with
    | token one more =>
      obtain ⟨-, rfl⟩ := one.eq_separator separates
      exact more

/-- Each piece is cut into itself: behind a separator reading starts anew, and in front of one it
does not look ahead. -/
theorem Reads.split_piece {sep : Char} (separates : startsAnew sep = true) {items : List Item}
    {last : Bool} (reads : Reads true items [] last) (offset : Nat) :
    ∀ piece ∈ Item.pieces sep offset [] items,
      Scan.split sep piece.text = .ok [⟨0, piece.text⟩] := by
  rw [startsAnew, Bool.and_eq_true] at separates
  have alone {items : List Item} {last : Bool} (reads : Reads true items [] last)
      (uncut : .token [sep] ∉ items) :
      Scan.split sep (Item.source items) = .ok [⟨0, Item.source items⟩] := by
    rw [reads.split_source separates.1, Item.pieces_of_uncut uncut, List.nil_append]
  -- the first piece ends at the first separator, the others are the pieces of what follows it
  by_cases cut : .token [sep] ∈ items
  · obtain ⟨first, rest, rfl, uncut⟩ := List.eq_append_cons_of_mem cut
    obtain ⟨⟨middle, front⟩, back⟩ := reads.stop_at_separator separates.1
    rw [separates.2] at back
    rw [Item.pieces_append uncut, Item.pieces, if_pos rfl, List.nil_append]
    intro piece member
    rcases List.mem_cons.mp member with rfl | member
    · exact alone front uncut
    · exact back.split_piece (by simp [startsAnew, separates]) _ piece member
  · rw [Item.pieces_of_uncut cut, List.nil_append]
    intro piece member
    rw [List.mem_singleton.mp member]
    exact alone reads cut
  termination_by items.length

theorem split_cutAt {sep : Char} (separates : startsAnew sep = true) {text : List Char}
    {pieces : List Piece} (cut : split sep text = .ok pieces) : CutAt sep text pieces := by
  have separator : isSeparator sep = true := by
    rw [startsAnew, Bool.and_eq_true] at separates
    exact separates.1
  -- a text that was cut was scanned to its end, so it is made of items
  have fine : (scan text).stop = .finished := by
    apply Stop.eq_finished
    cases failed : (scan text).stop.imbalance? with
    | none => rfl
    | some imbalance =>
      rw [scan_imbalance?, ← Cursor.split_eq_error_iff separator] at failed
      cases cut.symm.trans failed
  obtain ⟨items, last, rfl, reads⟩ := reads_of_scan fine
  obtain rfl : Item.pieces sep 0 [] items = pieces := by
    have found := (reads.split_source separator).symm.trans cut
    cases found
    rfl
  refine ⟨Item.intercalate_pieces 0 [] items, fun before piece after listed => ?_, ?_,
    reads.split_piece separates 0⟩
  · simpa using Item.offset_of_pieces listed
  · rw [placedTokens, reads.scan.2]
    exact Item.ends_of_pieces rfl

/-- Cutting at a comma or a colon fails exactly where the scan fails and with its fault, and
otherwise cuts the text at the tokens that are the separator and nowhere else. In a text that is
scanned to its end, the search for an assignment finds the first `=` among the tokens that assigns,
and none if there is no such token. -/
theorem split_exact {sep : Char} (separates : sep = ',' ∨ sep = ':') (text : List Char) :
    (∀ imbalance, split sep text = .error imbalance ↔
      (scan text).stop.imbalance? = some imbalance) ∧
    (∀ pieces, split sep text = .ok pieces → CutAt sep text pieces) ∧
    ((scan text).stop.imbalance? = none → findAssign text = .ok (firstAssignment? text)) := by
  have anew : startsAnew sep = true := by rcases separates with rfl | rfl <;> decide
  have separator : isSeparator sep = true := by rcases separates with rfl | rfl <;> decide
  refine ⟨fun imbalance => ?_, fun pieces => split_cutAt anew, fun fine => ?_⟩
  · rw [scan_imbalance?]
    exact Cursor.split_eq_error_iff separator
  · exact findAssign_eq (Stop.eq_finished fine)

/-- Commas in a regular expression, in a group and in a string, and a comparison in front of an
assignment. -/
def mixedList : List Char :=
  "a == b, /,/, [c, d] = 'e,'".toList

theorem split_exact_mixed :
    split ',' mixedList = .ok [⟨0, "a == b".toList⟩, ⟨7, " /,/".toList⟩,
        ⟨12, " [c, d] = 'e,'".toList⟩] ∧
      CutAt ',' mixedList [⟨0, "a == b".toList⟩, ⟨7, " /,/".toList⟩,
        ⟨12, " [c, d] = 'e,'".toList⟩] ∧
      (scan mixedList).stop.imbalance? = none ∧ findAssign mixedList = .ok (some 20) ∧
      split ',' "a, (b".toList = .error ⟨1, .neverClosed .round⟩ := by
  have cut : split ',' mixedList = .ok [⟨0, "a == b".toList⟩, ⟨7, " /,/".toList⟩,
      ⟨12, " [c, d] = 'e,'".toList⟩] := by decide +kernel
  have fine : (scan mixedList).stop.imbalance? = none := by decide +kernel
  have first : firstAssignment? mixedList = some 20 := by decide +kernel
  obtain ⟨-, exact, assigned⟩ := split_exact (Or.inl rfl : ',' = ',' ∨ ',' = ':') mixedList
  obtain ⟨failed, -⟩ := split_exact (Or.inl rfl : ',' = ',' ∨ ',' = ':') "a, (b".toList
  refine ⟨cut, exact _ cut, fine, ?_, (failed _).mpr (by decide +kernel)⟩
  rw [assigned fine, first]

end Concord.Scan
