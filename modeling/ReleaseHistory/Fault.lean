import ReleaseHistory.Action.Basic
import ReleaseHistory.Time.Timestamp
import ReleaseHistory.Version.Fault

/-!
# What can go wrong

Every cause for which an operation is refused, by what it concerns, and the wording of each. Causes
that lie outside, in the repository store or the file system, have no wording here.
-/

namespace ReleaseHistory

/-- What is wrong with settings, names and times. -/
inductive ConfigurationFault
  | tagPattern (pattern : String)
  | branchPattern (pattern : String)
  | startTime (text : String) (cause : Time.Malformed)
  | timestamp (text : String) (cause : Time.Malformed)
  | key (text : String)
  | recordedBranch (name : String)
  | recordedTag (name : String)
  | missingBranch (name : String)
  | checkout (name : String)
  | detachedHead
  | tagBeforeCommit (name : String)
  | unreadable (path : String)
  | malformed
  | clockStart (text : String) (cause : Time.Malformed)
  | emptyIdentity
  deriving DecidableEq, Repr

/-- What is wrong with a step of a definition. -/
inductive SequenceFault
  | configuredTwice
  | configuredLate
  | missingBranch (name : String)
  | branchExists (name : String)
  | mergeIntoItself (name : String)
  | fastForwardWithCommit
  | mergeWithoutCommit (branch target : String)
  | timestamp (text : String) (cause : Time.Malformed)
  | notLater (text : String)
  | version (cause : Version.Fault)
  | foreignChangelog (written released : String)
  | notBeforeRelease (kind : Action.Kind)
  | zeroVersion (version : String)
  | noPolicy (branch : String)
  | wrongChannel (version : String) (channel : Option String) (branch : String)
  | notFollowing (version previous : String)
  deriving DecidableEq, Repr

inductive MergeFault
  | behind (target source : String)
  | diverged (target source : String)
  | conflict (source target : String) (paths : List String)
  | noCommit (branch : String)
  | other (text : String)
  deriving DecidableEq, Repr

inductive CacheFault
  | poisoned
  | corrupt (path : String)
  deriving DecidableEq, Repr

/-- What never happens while everything keeps its promises. -/
inductive InvariantFault
  | missingEntry
  | foreignEntry (name found expected : String)
  deriving DecidableEq, Repr

/-- Why an operation is refused. -/
inductive Fault
  /-- The repository store refused it. -/
  | store
  /-- The file system refused it. -/
  | file
  /-- A text is not the JSON of what it should hold. -/
  | json
  | configuration (cause : ConfigurationFault)
  | unsupportedConvention (name : String)
  | noMessage (convention : Convention)
  | version (cause : Version.Fault)
  | sequence (index : Nat) (cause : SequenceFault)
  | merge (cause : MergeFault)
  | cache (cause : CacheFault)
  | invariant (cause : InvariantFault)
  deriving DecidableEq, Repr

/-- An operation on a state, which stays also after a refusal. -/
abbrev Operation (σ α : Type) := ExceptT Fault (StateM σ) α

def timestampMessage (text : String) (cause : Time.Malformed) : String :=
  s!"Invalid timestamp '{text}': {cause.message}"

/-- How every message about settings, names and times begins. -/
def configurationMessage (text : String) : String := "Configuration error: " ++ text

def versionMessage (cause : Version.Fault) : String := "Version parsing error: " ++ cause.message

namespace ConfigurationFault

def message : ConfigurationFault → String
  | tagPattern pattern => s!"Tag format '{pattern}' must contain \x7bversion\x7d placeholder"
  | branchPattern pattern => s!"Invalid branch pattern '{pattern}'"
  | startTime text cause => s!"Invalid reference time '{text}': {cause.message}"
  | timestamp text cause => timestampMessage text cause
  | key text => s!"Invalid config key: '{text}'"
  | recordedBranch name => s!"Branch not found: {name}"
  | recordedTag name => s!"Tag already exists: {name}"
  | missingBranch name => s!"Cannot find branch '{name}'"
  | checkout name => s!"Cannot check out '{name}'"
  | detachedHead => "HEAD is detached"
  | tagBeforeCommit name => s!"Cannot tag '{name}' before the first commit"
  | unreadable path => s!"Cannot read {path}"
  | malformed => "Invalid configuration"
  | clockStart text cause =>
    s!"Invalid clock.stable_now: {configurationMessage (timestampMessage text cause)}"
  | emptyIdentity => "git author name and email must not be empty"

end ConfigurationFault

namespace SequenceFault

def message : SequenceFault → String
  | configuredTwice => "repository configured twice"
  | configuredLate => "CONFIGURE must come before any git action"
  | missingBranch name => s!"branch '{name}' does not exist yet"
  | branchExists name => s!"branch '{name}' already exists"
  | mergeIntoItself name => s!"cannot merge '{name}' into itself"
  | fastForwardWithCommit => "fast-forward merge must not carry a merge commit"
  | mergeWithoutCommit branch target =>
    s!"merge of '{branch}' into '{target}' needs a merge commit definition"
  | timestamp text cause => configurationMessage (timestampMessage text cause)
  | notLater text => s!"timestamp {text} is not after the previous entry"
  | version cause => versionMessage cause
  | foreignChangelog written released =>
    s!"changelog for '{written}' written while releasing '{released}'"
  | notBeforeRelease kind => s!"{kind.name} is not allowed as a release pre-action"
  | zeroVersion v => s!"zero version '{v}' is not allowed"
  | noPolicy branch => s!"no release policy matches branch '{branch}'"
  | wrongChannel v channel branch =>
    let channel := channel.getD "stable"
    s!"version '{v}' does not belong to the '{channel}' channel of branch '{branch}'"
  | notFollowing v previous => s!"version '{v}' does not follow '{previous}'"

end SequenceFault

namespace MergeFault

def message : MergeFault → String
  | behind target source => s!"cannot fast-forward '{target}' to '{source}'"
  | diverged target source => s!"cannot fast-forward '{target}' to '{source}': histories diverged"
  | conflict source target paths =>
    let list := String.intercalate ", " paths
    s!"merging '{source}' into '{target}' conflicts in: {list}"
  | noCommit branch => s!"merge of '{branch}' has no commit definition"
  | other text => text

end MergeFault

namespace CacheFault

def message : CacheFault → String
  | poisoned => "repo cache lock poisoned"
  | corrupt path => s!"corrupt cache data {path}"

end CacheFault

namespace InvariantFault

def message : InvariantFault → String
  | missingEntry => "failed to retrieve repo data from cache"
  | foreignEntry name found expected =>
    s!"cache entry for '{name}' was built for {found}, expected {expected}"

end InvariantFault

namespace Fault

/-- The wording of a refusal; none where its cause lies outside. -/
def message? : Fault → Option String
  | store => none
  | file => none
  | json => none
  | configuration cause => some (configurationMessage cause.message)
  | unsupportedConvention name => some s!"Unsupported commit convention: '{name}'"
  | noMessage convention => some s!"Commit spec has no message for convention '{convention.name}'"
  | version cause => some (versionMessage cause)
  | sequence index cause => some s!"Invalid action sequence: action #{index}: {cause.message}"
  | merge cause => some s!"Merge failed: {cause.message}"
  | cache cause => some s!"Cache error: {cause.message}"
  | invariant cause => some s!"Invariant violated: {cause.message}"

end Fault

/-! ### Readers with their faults -/

def Convention.parse (s : String) : Except Fault Convention :=
  match parse? s with
  | some c => .ok c
  | none => .error (.unsupportedConvention s)

def Time.Timestamp.ofText (s : String) : Except Fault Timestamp :=
  (parse s).mapError fun cause => .configuration (.timestamp s cause)

end ReleaseHistory
