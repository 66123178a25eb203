/-! # Engines of patterns

What reads patterns and finds them in texts is chosen where a program is put together. Rules and
configurations hand a pattern to the engine as it is written, and know nothing else of it.
-/

namespace TableMapper

/-- What reads patterns and finds them in texts. -/
class PatternEngine where
  /-- The texts that a pattern is found in, or the engine's complaint about a pattern that it does not take. -/
  compile : String → Except String (String → Bool)

/-- The texts that a pattern is found in, if the engine takes it. -/
def PatternEngine.compile? [PatternEngine] (source : String) : Option (String → Bool) :=
  (compile source).toOption

end TableMapper
