import Concord.Pattern.Basic
import Concord.Pattern.Parser

/-!
The engine that patterns are run on: a name is accepted if some part of it matches.
-/
namespace Concord.Pattern

instance : PatternEngine where
  accepts? raw := (parseExpr? raw.toList).map fun expr name => expr.matchesSome name.toList

end Concord.Pattern
