import Concord.Unicode.Property

/-!
Regular expressions and what they match. An expression maps the positions where it may start to the
positions where it may end. A repetition only ever moves forward, so one step more than the text is
long says all that further steps could say.
-/
namespace Concord.Pattern

open Concord.Unicode

/-- A condition on a position. `unicode` tells which characters make words. -/
inductive Look where
  | start
  | stop
  | lineStart (carriage : Bool)
  | lineStop (carriage : Bool)
  | boundary (unicode : Bool)
  | noBoundary (unicode : Bool)
  | wordStart (unicode : Bool)
  | wordStop (unicode : Bool)
  | noWordBefore (unicode : Bool)
  | noWordAfter (unicode : Bool)
  deriving DecidableEq, Repr

inductive Expr where
  | empty
  | chars (set : CharSet)
  | look (condition : Look)
  | group (inner : Expr)
  | concat (first second : Expr)
  | either (first second : Expr)
  | repeated (inner : Expr) (least : Nat) (most : Option Nat)
  deriving Repr

def isWord (unicode : Bool) (c : Option Char) : Bool :=
  c.any fun c => if unicode then isWordCharacter c else c.isAlphanum || c = '_'

/-- The condition holds between the characters `before` and `after` of a position. -/
def Look.holds (before after : Option Char) : Look → Bool
  | start => before.isNone
  | stop => after.isNone
  | lineStart carriage =>
    before.isNone || before = some '\n' || carriage && before = some '\r' && after ≠ some '\n'
  | lineStop carriage =>
    after.isNone || carriage && after = some '\r'
      || after = some '\n' && !(carriage && before = some '\r')
  | boundary unicode => isWord unicode before != isWord unicode after
  | noBoundary unicode => isWord unicode before == isWord unicode after
  | wordStart unicode => !isWord unicode before && isWord unicode after
  | wordStop unicode => isWord unicode before && !isWord unicode after
  | noWordBefore unicode => !isWord unicode before
  | noWordAfter unicode => !isWord unicode after

/-- Applies a step a number of times. -/
def times {α : Type} (step : α → α) : Nat → α → α
  | 0, value => value
  | n + 1, value => times step n (step value)

namespace Expr

/-- The positions where a match that starts at one of `from` may end. -/
def ends (text : Array Char) : Expr → List Nat → List Nat
  | empty, starts => starts
  | chars set, starts =>
    starts.filterMap fun p => (text[p]?).bind fun c => if set.contains c then some (p + 1) else none
  | look condition, starts =>
    starts.filter fun p =>
      condition.holds (if p = 0 then none else text[p - 1]?) text[p]?
  | group inner, starts => ends text inner starts
  | concat first second, starts => ends text second (ends text first starts)
  | either first second, starts => (ends text first starts ++ ends text second starts).eraseDups
  | repeated inner least most, starts =>
    let enough := text.size + 1
    let required := times (fun ps => (ends text inner ps).eraseDups) (min least enough) starts
    let optional := match most with
      | none => enough
      | some most => min (most - least) enough
    times (fun ps => (ps ++ ends text inner ps).eraseDups) optional required

/-- Some part of the text matches. -/
def matchesSome (e : Expr) (text : List Char) : Bool :=
  !(e.ends text.toArray (List.range (text.length + 1))).isEmpty

end Expr

end Concord.Pattern
