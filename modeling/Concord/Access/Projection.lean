import Concord.Export.Basic
import Concord.Scan.Split
import Concord.Scan.Token
import Concord.Text.Blank

/-!
The object literal that a projection export gives, and its keys as far as they can be told by
cutting the literal at its commas.
-/
namespace Concord.Access

open Concord.Scan Concord.Text

/-- The object literal an expression starts with, inside any number of parentheses. -/
def literalOf? (expression : List Char) : Option (List Char) :=
  match _trivia : (Cursor.start expression).skipTrivia with
  | .error _ => none
  | .ok here =>
    match here.skipGroup with
    | .error _ => none
    | .ok stop =>
      let group := here.upTo stop
      if group.head? = some '\x7b' then some group
      else if _round : group.head? = some '(' then literalOf? group.tail.dropLast
      else none
  termination_by expression.length
  decreasing_by
    have ahead := (Cursor.skipTrivia_reaches _trivia).length_le
    have short : group.length ≤ here.rest.length := by
      simp only [group, Cursor.upTo, List.length_take]
      omega
    have full : 0 < group.length := by
      cases h : group with
      | nil => simp [h] at _round
      | cons => simp
    simp only [Cursor.start] at ahead
    simp only [group] at short full
    simp only [List.length_dropLast, List.length_tail]
    omega

/-- The last bracket group of the tokens and whether an arrow stands right in front of it. -/
def lastGroup (arrow : Bool) (last : Option (Token × Bool)) : List Token → Option (Token × Bool)
  | [] => last
  | [t] => if t.group?.isSome then some (t, arrow) else last
  | t :: u :: rest =>
    if t.is '=' && u.isGlued '>' then lastGroup true last rest
    else lastGroup false (if t.group?.isSome then some (t, arrow) else last) (u :: rest)

/-- The text behind the first depth-0 `return`. -/
def afterReturn? (c : Cursor) : Option (List Char) :=
  match _trivia : c.skipTrivia with
  | .error _ => none
  | .ok here =>
    if _unread : here.rest = [] then none
    else
      match here.word? with
      | some (word, next) =>
        if word = "return".toList then some next.rest
        else
          match _token : here.skipToken with
          | .error _ => none
          | .ok next => afterReturn? next
      | none =>
        match _token : here.skipToken with
        | .error _ => none
        | .ok next => afterReturn? next
  termination_by c.rest.length
  decreasing_by
    all_goals
      exact Nat.lt_of_lt_of_le (Cursor.skipToken_length_lt _unread _token)
        (Cursor.skipTrivia_reaches _trivia).length_le

/-- The object literal a function returns: the parenthesised body of an arrow, or the first return
at the depth of its block. -/
def returnedLiteral? (source : List Char) : Option (List Char) :=
  let scanned := scan source
  if scanned.stop.imbalance?.isSome then none
  else
    match lastGroup false none scanned.tokens with
    | none => none
    | some (group, arrow) =>
      match group.group? with
      | some .round => if arrow then literalOf? group.text else none
      | some .curly => (afterReturn? (Cursor.start group.interior)).bind literalOf?
      | _ => none

/-- The literal of an export of a kind. -/
def projectionLiteral? (kind : Export.Kind) (source : List Char) : Option (List Char) :=
  match kind with
  | .value => literalOf? source
  | .function => returnedLiteral? source
  | _ => none

/-- The key of an entry of an object literal. Spreads and computed keys have none. -/
def entryKey? (entry : List Char) : Option (List Char) :=
  let entry := trim entry
  if entry.isEmpty || "...".toList.isPrefixOf entry || entry.head? = some '[' then none
  else
    let start := Cursor.start entry
    match entry.head? with
    | some quote =>
      if quote = '\x22' || quote = '\x27' then
        match start.skipToken with
        | .error _ => none
        | .ok stop => some ((start.upTo stop).tail.reverse.dropWhile (· = quote)).reverse
      else
        match start.word? with
        | none => none
        | some (first, next) =>
          let second :=
            match next.skipTrivia with
            | .error _ => none
            | .ok here => here.word?
          match second with
          | some (name, _) =>
            if ["get".toList, "set".toList, "async".toList].contains first then some name
            else some first
          | none => some first
    | none => none

/-- The keys told from the pieces of a literal. -/
def splitKeys (literal : List Char) : List (List Char) :=
  let inner := ((dropMark? '\x7b' (trim literal)).bind (dropLastMark? '\x7d')).getD literal
  match split ',' inner with
  | .error _ => []
  | .ok entries => entries.filterMap fun entry => entryKey? entry.text

end Concord.Access
