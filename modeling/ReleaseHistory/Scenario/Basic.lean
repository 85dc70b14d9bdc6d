import ReleaseHistory.Action.Basic
import ReleaseHistory.Time.Clock

/-!
# Scenarios

A scenario is a named way of writing a definition: from a few options, a clock that supplies the
times, and the wording of merge messages.
-/

namespace ReleaseHistory

/-- What a caller can choose about a definition. -/
structure Options where
  convention : Convention
  hostClient : String
  hostDomain : String
  tagPattern : Option String
  extra : Toml.Table
  maskInitialRelease : Bool

def Options.ofConvention (convention : Convention) : Options :=
  ⟨convention, "github", "example.com", none, [], false⟩

/-- The wording of the message for merging a branch into a target. -/
abbrev MergeMessage := String → String → String

namespace MergeMessage

def usual : MergeMessage := fun branch target => s!"Merge branch '{branch}' into '{target}'"

/-- A message with places for the branch and the target. -/
def ofTemplate (template : String) : MergeMessage := fun branch target =>
  -- a place for the target that the name of the branch brings along is filled, too
  Text.replace "\x7btarget\x7d" target (Text.replace "\x7bbranch\x7d" branch template)

end MergeMessage

/-- A way of writing definitions. -/
structure Scenario where
  name : String
  /-- Named texts that determine what the scenario writes. -/
  sources : List (String × String)
  /-- Writes the definition and returns the clock after it. -/
  write : Options → MergeMessage → Time.Clock → Definition × Time.Clock

namespace Scenario

def adapt (o : Options) : Definition → Definition
  | .configure c :: rest =>
    .configure { c with
      convention := o.convention
      tagPattern := o.tagPattern
      maskInitialRelease := o.maskInitialRelease } :: rest
  | d => d

/-- A scenario that writes a given definition, with its settings adapted to the options, and takes
one time from the clock. -/
def ofDefinition (name : String) (sources : List (String × String)) (d : Definition) : Scenario :=
  ⟨name, sources, fun o _ clock => (adapt o d, clock.next.2)⟩

end Scenario

end ReleaseHistory
