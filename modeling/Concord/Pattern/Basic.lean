/-!
Name patterns: a regular expression together with the text it was read from. What a text accepts is
told by whatever engine is at hand.
-/
namespace Concord

/-- An engine of regular expressions. -/
class PatternEngine where
  /-- The names that a pattern accepts, if it can be read. -/
  accepts? : String → Option (String → Bool)

structure Pattern where
  raw : String
  accepts : String → Bool

def Pattern.ofString? [PatternEngine] (raw : String) : Option Pattern :=
  (PatternEngine.accepts? raw).map fun accepts => ⟨raw, accepts⟩

end Concord
