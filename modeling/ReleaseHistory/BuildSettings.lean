import ReleaseHistory.BuildHash
import ReleaseHistory.Git.Signature
import ReleaseHistory.Scenario.Basic

/-!
# Build settings

Besides its scenario and its convention, a repository is determined by who commits, when the first
commit is made, how tags are named, and whether the first release is masked. All of this goes into
the build hash.
-/

namespace ReleaseHistory

/-- What determines a repository besides scenario and convention. -/
structure BuildSettings where
  identity : Git.Identity
  start : String
  tagPattern : Option String
  maskInitialRelease : Bool
  deriving DecidableEq, Repr

namespace BuildSettings

def default : BuildSettings := ⟨.default, Time.Clock.defaultStart, none, false⟩

def options (s : BuildSettings) (c : Convention) : Options :=
  { Options.ofConvention c with
    tagPattern := s.tagPattern
    maskInitialRelease := s.maskInitialRelease }

/-- A text with all settings, one a line. -/
def fingerprint (s : BuildSettings) (c : Convention) : String :=
  let tags := s.tagPattern.getD ""
  let mask := if s.maskInitialRelease then "true" else "false"
  s!"convention={c.name}\n" ++ s!"author={s.identity.name} <{s.identity.email}>\n" ++
    s!"stable_now={s.start}\n" ++ s!"tag_format={tags}\n" ++
    s!"mask_initial_release={mask}\n"

def sourceName : String := "settings"

end BuildSettings

def Scenario.buildHash (s : Scenario) (c : Convention) (settings : BuildSettings) : String :=
  BuildHash.ofSources (s.sources ++ [(BuildSettings.sourceName, settings.fingerprint c)])

end ReleaseHistory
