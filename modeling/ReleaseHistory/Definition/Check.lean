import ReleaseHistory.Fault
import ReleaseHistory.Policy.Match
import ReleaseHistory.Version.Release

/-!
# Checking a definition

A definition is checked step by step before anything is built from it. The check follows which
branches there are, which one is checked out, when the last entry was made and what each channel has
released; it stops at the first step that does not fit.
-/

namespace ReleaseHistory

namespace Definition

/-- What a check has seen so far. -/
structure Progress where
  policy : Option ReleasePolicy
  hasHistory : Bool
  branches : List String
  current : String
  lastEntry : Option Time.Timestamp
  released : List (Option String × Version.Release)

def Progress.start : Progress := ⟨none, false, [], mainBranch, none, []⟩

/-- The fault of a step: of the sequence, or of a pattern in the settings. -/
inductive StepFault
  | sequence (cause : SequenceFault)
  | pattern (text : String)

abbrev StepResult := Except StepFault

def refuse {α : Type} (cause : SequenceFault) : StepResult α := .error (.sequence cause)

def require (b : Bool) (cause : SequenceFault) : StepResult Unit :=
  if b then .ok () else refuse cause

namespace Progress

def requireBranch (p : Progress) (name : String) : StepResult Unit :=
  require (p.branches.contains name) (.missingBranch name)

/-- Adds a branch, which may be there already. -/
def addBranch (p : Progress) (name : String) : Progress :=
  if p.branches.contains name then p else { p with branches := name :: p.branches }

/-- An entry must be made after the one before it. -/
def addEntry (p : Progress) (time : String) : StepResult Progress :=
  match Time.Timestamp.parse time with
  | .error cause => refuse (.timestamp time cause)
  | .ok t =>
    match p.lastEntry with
    | some last =>
      if t.order last = .gt then .ok { p with lastEntry := some t } else refuse (.notLater time)
    | none => .ok { p with lastEntry := some t }

def addEntries (p : Progress) : List Commit → StepResult Progress
  | [] => .ok p
  | c :: cs => do addEntries (← p.addEntry c.datetime) cs

def configure (p : Progress) (c : Configuration) : StepResult Progress := do
  require p.policy.isNone .configuredTwice
  require (!p.hasHistory) .configuredLate
  return { p with policy := some c.release }

/-- A switch goes to a branch that is there, or makes a new one from one that is there. -/
def checkout (p : Progress) : Checkout → StepResult Progress
  | .existing branch => do
    p.requireBranch branch
    return { p with current := branch }
  | .create name start => do
    require (!p.branches.contains name) (.branchExists name)
    p.requireBranch start
    return { p.addBranch name with current := name }

/-- A merge joins two branches and has a commit exactly when it is no fast-forward. -/
def merge (p : Progress) (m : Merge) : StepResult Progress := do
  p.requireBranch m.branch
  p.requireBranch p.current
  require (m.branch ≠ p.current) (.mergeIntoItself m.branch)
  match m.fastForward, m.commit with
  | true, some _ => refuse .fastForwardWithCommit
  | false, none => refuse (.mergeWithoutCommit m.branch p.current)
  | false, some c => p.addEntry c.datetime
  | true, none => return p

def commits (p : Progress) (cs : List Commit) : StepResult Progress := do
  let q ← p.addEntries cs
  return if cs.isEmpty then q else q.addBranch q.current

/-- Only changelogs of the same version can be written before a release. -/
def checkBefore (version : String) : List Action → StepResult Unit
  | [] => .ok ()
  | .changelogs u :: rest =>
    if u.version = version then checkBefore version rest
    else refuse (.foreignChangelog u.version version)
  | a :: _ => refuse (.notBeforeRelease a.kind)

/-- A release must be one that its branch may have. -/
def checkPolicy [Pattern.Engine] (p : Progress) (v : Version.Release) (channel : Option String) :
    StepResult Unit :=
  match p.policy with
  | none => .ok ()
  | some policy => do
    require (policy.allowZeroVersion || v.core.major ≠ 0) (.zeroVersion v.text)
    match policy.groupFor p.current with
    | .error text => .error (.pattern text)
    | .ok none => refuse (.noPolicy p.current)
    | .ok (some (_, group)) =>
      require (group.channel = channel) (.wrongChannel v.text group.channel p.current)

/-- A release must follow the one before it in its channel. -/
def addRelease (p : Progress) (v : Version.Release) (channel : Option String) :
    StepResult Progress := do
  match p.released.lookup channel with
  | some previous => require (v.precedence previous = .gt) (.notFollowing v.text previous.text)
  | none => .ok ()
  return { p with released := (channel, v) :: p.released }

/-- Checks a release: the branch, the time, the version, what comes before it, the policy, and the
order within the channel. -/
def release [Pattern.Engine] (p : Progress) (version time : String) (before : List Action) :
    StepResult Progress := do
  p.requireBranch p.current
  let p ← p.addEntry time
  let lift := fun {α : Type} (r : Except Version.Fault α) =>
    r.mapError fun cause => StepFault.sequence (.version cause)
  let v ← lift (Version.Release.parse version)
  let channel ← lift v.channel
  checkBefore version before
  p.checkPolicy v channel
  p.addRelease v channel

def step [Pattern.Engine] (p : Progress) : Action → StepResult Progress
  | .configure c => p.configure c
  | .checkout c => { p with hasHistory := true }.checkout c
  | .merge m => { p with hasHistory := true }.merge m
  | .commits cs => { p with hasHistory := true }.commits cs
  | .release version time before => { p with hasHistory := true }.release version time before
  | .changelogs _ => .ok p

end Progress

def StepFault.toFault (index : Nat) : StepFault → Fault
  | .sequence cause => .sequence index cause
  | .pattern text => .configuration (.branchPattern text)

/-- Checks steps, of which the first has a number. -/
def checkFrom [Pattern.Engine] (p : Progress) (index : Nat) : List Action → Except Fault Progress
  | [] => .ok p
  | a :: as =>
    match p.step a with
    | .error cause => .error (cause.toFault index)
    | .ok p => checkFrom p (index + 1) as

def check [Pattern.Engine] (d : Definition) : Except Fault Unit :=
  (checkFrom .start 0 d).map fun _ => ()

end Definition

end ReleaseHistory
