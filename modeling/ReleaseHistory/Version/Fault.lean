import ReleaseHistory.Text.Quoted
import ReleaseHistory.Version.Core

/-!
# What is wrong with a version

The causes for which a version or a prerelease is refused, and their wording.
-/

namespace ReleaseHistory.Version

def Part.description : Part → String
  | .major => "major version number"
  | .minor => "minor version number"
  | .patch => "patch version number"
  | .prerelease => "pre-release identifier"

def Malformed.message : Malformed → String
  | .empty => "empty string, expected a semver version"
  | .endsIn part => s!"unexpected end of input while parsing {part.description}"
  | .unexpected part c =>
    s!"unexpected character {Text.quoted c} while parsing {part.description}"
  | .unexpectedAfter part c => s!"unexpected character {Text.quoted c} after {part.description}"
  | .leadingZero part => s!"invalid leading zero in {part.description}"
  | .tooLarge part => s!"value of {part.description} exceeds u64::MAX"
  | .emptyIdentifier => s!"empty identifier segment in {Part.prerelease.description}"

inductive Fault
  | emptyPrerelease
  | badToken (text : String)
  | badIteration (text : String)
  | emptyBuild (text core : String)
  | malformed (text : String) (cause : Malformed)
  deriving DecidableEq, Repr

def Fault.message : Fault → String
  | .emptyPrerelease => "Empty prerelease identifier"
  | .badToken text => s!"Invalid prerelease token: '{text}'"
  | .badIteration text => s!"Invalid prerelease iteration: '{text}'"
  | .emptyBuild text core => s!"Empty build metadata in '{text}' (core '{core}')"
  | .malformed text cause => s!"Invalid version '{text}': {cause.message}"

end ReleaseHistory.Version
