import ReleaseHistory.Pattern.Parser

/-!
# Engines

Which texts are patterns and what they match is up to the engine that compiles them. Engines differ
in the properties of characters that they know and in how large a pattern may be, and nothing rests
on either.
-/

namespace ReleaseHistory.Pattern

/-- An engine compiles a text to a test of texts, if the text is a pattern. -/
class Engine where
  compile? : String → Option (String → Bool)

/-- The engine of programs that are run here. -/
@[reducible] def Engine.builtIn : Engine where
  compile? text := (parse? text).map Node.matchesSome

end ReleaseHistory.Pattern
