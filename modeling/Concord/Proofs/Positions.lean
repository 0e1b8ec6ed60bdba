import Concord.Proofs.PatternEntries
import Mathlib.Data.List.Forall2

/-!
Where things stand in a text. A place is given by the text in front of it, from which its byte
position and its line are read off. The tokens of a scan stand one behind the other, each on its
line; what is bound by a pattern stands in the pattern, from left to right.
-/
namespace Concord.Text

/-- At a byte position the text goes on with `shown`. -/
def ShownAt (text : List Char) (offset : Nat) (shown : List Char) : Prop :=
  ∃ front, front ++ shown <+: text ∧ byteSize front = offset

theorem lineAt_append (front back : List Char) :
    lineAt (front ++ back) (byteSize front) = lineBreaks front + 1 := by
  rw [lineAt, breaksBefore_append]

theorem lineAt_of_isPrefix {front text : List Char} (within : front <+: text) :
    lineAt text (byteSize front) = lineBreaks front + 1 := by
  obtain ⟨back, rfl⟩ := within
  exact lineAt_append front back

/-- A part of a part is a part. -/
theorem isPrefix_inside {front whole text before part behind : List Char}
    (within : front ++ whole <+: text) (split : whole = before ++ (part ++ behind)) :
    front ++ before ++ part <+: text := by
  obtain ⟨back, rfl⟩ := within
  exact ⟨behind ++ back, by simp [split]⟩

theorem byteSize_pos {text : List Char} (shown : text ≠ []) : 0 < byteSize text := by
  cases text with
  | nil => exact absurd rfl shown
  | cons c rest =>
    have := Char.utf8Size_pos c
    simp only [byteSize]
    omega

end Concord.Text

namespace Concord

open Concord.Text

/-- The elements have increasing places from `low` on and before `high`. -/
def InOrder {α : Type} (holds : α → Nat → Prop) (xs : List α) (low high : Nat) : Prop :=
  ∃ places : List Nat, List.Forall₂ holds xs places ∧ places.Pairwise (· < ·) ∧
    ∀ place ∈ places, low ≤ place ∧ place < high

namespace InOrder

variable {α β : Type} {holds : α → Nat → Prop} {xs ys : List α} {low middle high : Nat}

theorem nil : InOrder holds [] low high :=
  ⟨[], .nil, .nil, by simp⟩

theorem single {x : α} {place : Nat} (held : holds x place) (above : low ≤ place)
    (below : place < high) : InOrder holds [x] low high :=
  ⟨[place], .cons held .nil, by simp, by simp [above, below]⟩

theorem append (first : InOrder holds xs low middle) (second : InOrder holds ys middle high)
    (up : low ≤ middle) (down : middle ≤ high) : InOrder holds (xs ++ ys) low high := by
  obtain ⟨front, each, sorted, bounds⟩ := first
  obtain ⟨back, others, ordered, limits⟩ := second
  refine ⟨front ++ back, List.rel_append each others, ?_, ?_⟩
  · refine List.pairwise_append.mpr ⟨sorted, ordered, fun a inFront b inBack => ?_⟩
    exact Nat.lt_of_lt_of_le (bounds a inFront).2 (limits b inBack).1
  · intro place member
    rcases List.mem_append.mp member with member | member
    · have := bounds place member
      omega
    · have := limits place member
      omega

theorem widen {low' high' : Nat} (ordered : InOrder holds xs low high) (down : low' ≤ low)
    (up : high ≤ high') : InOrder holds xs low' high' := by
  obtain ⟨places, each, sorted, bounds⟩ := ordered
  refine ⟨places, each, sorted, fun place member => ?_⟩
  have := bounds place member
  omega

theorem map {holds' : β → Nat → Prop} {f : α → β} (ordered : InOrder holds xs low high)
    (keeps : ∀ x place, holds x place → holds' (f x) place) :
    InOrder holds' (xs.map f) low high := by
  obtain ⟨places, each, sorted, bounds⟩ := ordered
  refine ⟨places, ?_, sorted, bounds⟩
  rw [List.forall₂_map_left_iff]
  exact each.imp keeps

/-- The bounds may be used for what holds at the places. -/
theorem imp {holds' : α → Nat → Prop} (ordered : InOrder holds xs low high)
    (keeps : ∀ x ∈ xs, ∀ place, low ≤ place → holds x place → holds' x place) :
    InOrder holds' xs low high := by
  obtain ⟨places, each, sorted, bounds⟩ := ordered
  refine ⟨places, ?_, sorted, bounds⟩
  clear sorted
  induction each with
  | nil => exact .nil
  | cons held _ ih =>
    refine .cons (keeps _ List.mem_cons_self _ (bounds _ List.mem_cons_self).1 held) (ih ?_ ?_)
    · exact fun x member => keeps x (List.mem_cons_of_mem _ member)
    · exact fun place member => bounds place (List.mem_cons_of_mem _ member)

end InOrder

end Concord

namespace Concord.Scan

open Concord.Text

/-- The text of the tokens, with the trivia in front of each. -/
def Token.source (tokens : List Token) : List Char :=
  tokens.flatMap fun t => t.lead ++ t.text

/-- The interior of a group stands behind its opener. -/
theorem Token.group_text {t : Token} {bracket : Bracket} (group : t.group? = some bracket) :
    ∃ back, t.text = [bracket.opener] ++ (t.interior ++ back) := by
  have opener : t.text.headD ' ' = bracket.opener := Bracket.eq_opener_of_ofOpener? group
  rw [Token.interior]
  cases whole : t.text with
  | nil =>
    rw [whole] at opener
    cases bracket <;> cases opener
  | cons c rest =>
    rw [whole] at opener
    obtain rfl : c = bracket.opener := opener
    by_cases empty : rest = []
    · exact ⟨[], by simp [empty]⟩
    · exact ⟨[rest.getLast empty], by rw [List.tail_cons, List.dropLast_append_getLast]; rfl⟩

/-- The tokens stand in `text` one behind the other, from behind `front` on, and each on its
line. -/
inductive Stands (text : List Char) : List Char → List Token → Prop
  | nil {front : List Char} : Stands text front []
  | cons {front : List Char} {t : Token} {rest : List Token}
      (within : front ++ t.lead ++ t.text <+: text) (shown : t.text ≠ [])
      (line : t.line = lineBreaks (front ++ t.lead) + 1)
      (later : Stands text (front ++ t.lead ++ t.text) rest) : Stands text front (t :: rest)

theorem Cursor.scan_stands {text front : List Char} {c : Cursor} (split : text = front ++ c.rest)
    (line : c.line = lineBreaks front + 1) : Stands text front c.scan.tokens := by
  fun_induction Cursor.scan c generalizing front with
  | case1 | case2 | case3 => exact .nil
  | case4 c here trivia unread next token later =>
    rename_i ih
    obtain ⟨lead, before, passed⟩ := skipTrivia_reaches trivia
    obtain ⟨unit, behind, read⟩ := skipToken_reaches token
    simp only [upTo_eq before, upTo_eq behind]
    -- the line of a token is counted from the text in front of it, over the trivia and the token
    -- before
    have start : here.line = lineBreaks (front ++ lead) + 1 := by
      rw [passed, lineBreaks_append]
      simp only [advance]
      omega
    have stop : next.line = lineBreaks (front ++ lead ++ unit) + 1 := by
      rw [read, lineBreaks_append]
      simp only [advance]
      omega
    have whole : text = front ++ lead ++ unit ++ next.rest := by
      rw [split, before, behind]
      simp
    refine .cons ⟨next.rest, whole.symm⟩ ?_ start (ih whole stop)
    rintro rfl
    have := skipToken_length_lt unread token
    rw [behind, List.nil_append] at this
    omega

theorem scan_stands (text : List Char) : Stands text [] (scan text).tokens :=
  Cursor.scan_stands rfl rfl

namespace Stands

variable {text front : List Char} {tokens later : List Token}

theorem tail {t : Token} (stands : Stands text front (t :: tokens)) :
    Stands text (front ++ t.lead ++ t.text) tokens := by
  cases stands with
  | cons within shown line later => exact later

theorem drop {dropped : List Token} (stands : Stands text front (dropped ++ tokens)) :
    ∃ passed, Stands text (front ++ passed) tokens := by
  induction dropped generalizing front with
  | nil => exact ⟨[], by simpa using stands⟩
  | cons t dropped ih =>
    obtain ⟨passed, behind⟩ := ih stands.tail
    exact ⟨t.lead ++ t.text ++ passed, by simpa using behind⟩

theorem bare {t : Token} (stands : Stands text front (t :: tokens)) :
    Stands text (front ++ t.lead) ({ t with lead := [] } :: tokens) := by
  cases stands with
  | cons within shown line later =>
    refine .cons ?_ shown ?_ ?_
    · simpa using within
    · simpa using line
    · simpa using later

theorem remains (stands : Stands text front tokens) (left : Export.Remains later tokens) :
    ∃ passed, Stands text (front ++ passed) later := by
  obtain ⟨dropped, kept, rfl, same⟩ := left
  obtain ⟨passed, behind⟩ := stands.drop
  cases same with
  | same => exact ⟨passed, behind⟩
  | bare t rest => exact ⟨passed ++ t.lead, by simpa using behind.bare⟩

end Stands

/-- What is read from the pieces of a text stands in order if it does so in each of them. -/
theorem Cuts.inOrder {α : Type} {holds : α → Nat → Prop} {sep : Char} {offset base : Nat}
    {text : List Char} {pieces : List Piece} {gives : Piece → List α → Prop}
    {found : List (List α)} (cuts : Cuts sep offset text pieces)
    (each : List.Forall₂ gives pieces found)
    (ordered : ∀ piece ∈ pieces, ∀ xs, gives piece xs →
      InOrder holds xs (base + piece.offset) (base + piece.offset + byteSize piece.text)) :
    InOrder holds found.flatten (base + offset) (base + offset + byteSize text) := by
  -- by induction over the pieces, each of which begins behind the separator of the one before it
  induction cuts generalizing found with
  | @last offset text =>
    obtain ⟨xs, rest, one, none, rfl⟩ := List.forall₂_cons_left_iff.mp each
    cases none
    simpa using ordered _ List.mem_cons_self xs one
  | @next offset piece rest pieces _ _ ih =>
    obtain ⟨xs, more, one, others, rfl⟩ := List.forall₂_cons_left_iff.mp each
    have first : InOrder holds xs (base + offset) (base + offset + byteSize piece) :=
      ordered _ List.mem_cons_self xs one
    have second := ih others fun piece member => ordered piece (List.mem_cons_of_mem _ member)
    rw [List.flatten_cons]
    simp only [byteSize_append, byteSize]
    refine first.append (second.widen ?_ ?_) ?_ ?_ <;> omega

end Concord.Scan
