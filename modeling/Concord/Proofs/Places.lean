import Concord.Proofs.ItemCuts

/-!
Cursors and tokens by their byte positions. A cursor that stands in a text has the rest of the text
from its position on in front of it, so two cursors at one position see the same. The tokens of a
scan are listed with the positions they start at.
-/
namespace Concord.Text

/-- A position divides a text in one way. -/
theorem eq_of_byteSize_eq {front front' back back' : List Char}
    (whole : front ++ back = front' ++ back') (place : byteSize front = byteSize front') :
    front = front' ∧ back = back' := by
  have same : front = front' := by
    rw [← takeBytes_append front back, whole, place, takeBytes_append]
  subst same
  exact ⟨rfl, List.append_cancel_left whole⟩

end Concord.Text

namespace Concord.Scan

open Concord.Text

/-! Cursors -/

/-- What is left is the text behind the position of the cursor. -/
def Cursor.StandsIn (c : Cursor) (text : List Char) : Prop :=
  ∃ front, text = front ++ c.rest ∧ c.offset = byteSize front

namespace Cursor.StandsIn

variable {c next : Cursor} {text : List Char}

theorem start (text : List Char) : (Cursor.start text).StandsIn text :=
  ⟨[], rfl, rfl⟩

theorem reaches (stands : c.StandsIn text) (reached : Reaches c next) : next.StandsIn text := by
  obtain ⟨front, split, place⟩ := stands
  obtain ⟨passed, behind, moved⟩ := reached
  refine ⟨front ++ passed, ?_, ?_⟩
  · rw [split, behind, List.append_assoc]
  · rw [moved, byteSize_append, ← place]
    rfl

theorem offset_le (stands : c.StandsIn text) : c.offset ≤ byteSize text := by
  obtain ⟨front, rfl, place⟩ := stands
  rw [byteSize_append, place]
  exact Nat.le_add_right _ _

/-- Where a cursor stands decides what it has in front of it. -/
theorem rest_eq {front back : List Char} (stands : c.StandsIn (front ++ back))
    (place : c.offset = byteSize front) : c.rest = back := by
  obtain ⟨before, split, same⟩ := stands
  exact (eq_of_byteSize_eq split (place.symm.trans same)).2.symm

end Cursor.StandsIn

/-! Tokens -/

theorem Stop.eq_finished {stop : Stop} (fine : stop.imbalance? = none) : stop = .finished := by
  cases stop with
  | finished => rfl
  | openComment | blocked => cases fine

/-- The tokens that are read from a position on, each with the position it starts at. -/
def Token.placed (offset : Nat) : List Token → List (Nat × Token)
  | [] => []
  | t :: rest =>
    let start := offset + byteSize t.lead
    (start, t) :: placed (start + byteSize t.text) rest

/-- The tokens of a text with the positions they start at. -/
def placedTokens (text : List Char) : List (Nat × Token) :=
  Token.placed 0 (scan text).tokens

theorem Token.map_placed (offset : Nat) (tokens : List Token) :
    (placed offset tokens).map Prod.snd = tokens := by
  induction tokens generalizing offset with
  | nil => rfl
  | cons t rest ih => simp [placed, ih]

/-- One token of a scan: the next one is placed from the end of it on. -/
theorem Cursor.placed_scan {c here next : Cursor} (trivia : c.skipTrivia = .ok here)
    (unread : here.rest ≠ []) (token : here.skipToken = .ok next) :
    Token.placed c.offset c.scan.tokens =
      (here.offset, ⟨c.upTo here, here.upTo next, here.line⟩) ::
        Token.placed next.offset next.scan.tokens := by
  obtain ⟨lead, before, passed⟩ := skipTrivia_reaches trivia
  obtain ⟨unit, behind, read⟩ := skipToken_reaches token
  have start : here.offset = c.offset + byteSize lead := by rw [passed]; rfl
  have stop : next.offset = here.offset + byteSize unit := by rw [read]; rfl
  rw [(scan_of_token trivia unread token).2, upTo_eq before, upTo_eq behind, Token.placed, stop,
    start]

/-- A token stands in the text at the position it is placed at. -/
theorem Stands.shownAt {text front : List Char} {tokens : List Token} {place : Nat} {t : Token}
    (stands : Stands text front tokens)
    (member : (place, t) ∈ Token.placed (byteSize front) tokens) : ShownAt text place t.text := by
  -- by induction over the tokens, each placed behind the text of those in front of it
  induction stands with
  | nil => cases member
  | @cons front first rest within shown line later ih =>
    rcases List.mem_cons.mp member with same | member
    · cases same
      exact ⟨front ++ t.lead, within, byteSize_append front t.lead⟩
    · apply ih
      rwa [byteSize_append, byteSize_append]

theorem shownAt_of_mem_placedTokens {text : List Char} {place : Nat} {t : Token}
    (member : (place, t) ∈ placedTokens text) : ShownAt text place t.text :=
  (scan_stands text).shownAt member

theorem mem_tokens_of_mem_placedTokens {text : List Char} {place : Nat} {t : Token}
    (member : (place, t) ∈ placedTokens text) : t ∈ (scan text).tokens := by
  rw [← Token.map_placed 0 (scan text).tokens]
  exact List.mem_map.mpr ⟨(place, t), member, rfl⟩

end Concord.Scan
