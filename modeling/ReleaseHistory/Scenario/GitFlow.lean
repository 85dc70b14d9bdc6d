import ReleaseHistory.Scenario.Basic

/-!
# Git flow with four release channels

Feature branches release revisions that carry the name of the branch as build metadata, `dev`
releases alphas, `beta` betas and `main` stable versions. Work lands on short branches, is merged
into `dev` and promoted to `beta` and `main`; a branch that has fallen behind is fast-forwarded
before new work starts on it.

The flow is a list of steps. A step that adds an entry to the history takes one time from the clock.
-/

namespace ReleaseHistory.Scenario.GitFlow

/-- What happens in a flow. -/
inductive Step
  /-- The first commit, worded alike for all conventions. -/
  | start (message : String)
  /-- A new branch at the tip of another. -/
  | branch (name base : String)
  /-- A commit of work, worded for each convention. -/
  | work (angular emoji scipy : String)
  /-- A merge of finished work into a target. -/
  | land (source target : String)
  /-- A merge of one channel into the next. -/
  | promote (source target : String)
  /-- A fast-forward of a branch to one that is ahead of it. -/
  | catchUp (target source : String)
  | release (version : String)

def changelogFiles : List ChangelogFile :=
  [⟨"CHANGELOG.md", .markdown⟩, ⟨"CHANGELOG.rst", .restructuredText⟩]

def wording (angular emoji scipy : String) : Convention → String
  | .angular => angular
  | .emoji => emoji
  | .scipy => scipy

/-- A switch to the target and a merge with a commit at the next time. -/
def mergeInto (message : MergeMessage) (source target : String) (inChangelog : Bool)
    (clock : Time.Clock) : Definition × Time.Clock :=
  let (time, clock) := clock.next
  ([.checkout (.existing target),
    .mergeCommit source ⟨message source target, time, inChangelog⟩], clock)

/-- The actions of a step, and the clock after it. Entries that say nothing about the change are in
the changelog only where messages begin with a sign of their own. -/
def Step.actions (o : Options) (message : MergeMessage) (clock : Time.Clock) :
    Step → Definition × Time.Clock
  | .start text =>
    let (time, clock) := clock.next
    ([.commits [⟨text, time, o.convention = .emoji⟩]], clock)
  | .branch name base => ([.checkout (.create name base)], clock)
  | .work angular emoji scipy =>
    let (time, clock) := clock.next
    ([.commits [⟨wording angular emoji scipy o.convention, time, true⟩]], clock)
  | .land source target => mergeInto message source target true clock
  | .promote source target => mergeInto message source target (o.convention = .emoji) clock
  | .catchUp target source => ([.checkout (.existing target), .fastForward source], clock)
  | .release version =>
    let (time, clock) := clock.next
    ([.release version time [.changelogs ⟨version, changelogFiles⟩]], clock)

def actions (o : Options) (message : MergeMessage) : List Step → Time.Clock → Definition × Time.Clock
  | [], clock => ([], clock)
  | s :: rest, clock =>
    let (as, clock) := s.actions o message clock
    let (bs, clock) := actions o message rest clock
    (as ++ bs, clock)

/-- The flow, from the first commit to the stable release of the second feature. -/
def steps : List Step :=
  [.start "Initial commit",
    .branch "beta" "main",
    .branch "dev" "beta",
    .branch "feat/feature-1" "dev",
    .work "feat: add new feature" ":sparkles: add new feature" "ENH: add new feature",
    .land "feat/feature-1" "dev",
    .promote "dev" "beta",
    .promote "beta" "main",
    .release "1.0.0",
    .catchUp "beta" "main",
    .catchUp "dev" "beta",
    .branch "fix/patch-1" "dev",
    .work "fix(cli): fix config cli command" ":bug: (cli) fix config cli command"
      "BUG(cli): fix config cli command",
    .land "fix/patch-1" "dev",
    .release "1.0.1-alpha.1",
    .promote "dev" "beta",
    .release "1.0.1-beta.1",
    .catchUp "dev" "beta",
    .branch "fix/patch-2" "dev",
    .work "fix(config): fix config option" ":bug: (config) fix config option"
      "BUG(config): fix config option",
    .land "fix/patch-2" "dev",
    .release "1.0.1-alpha.2",
    .promote "dev" "beta",
    .release "1.0.1-beta.2",
    .catchUp "dev" "beta",
    .branch "feat/feature-2" "dev",
    .work "feat(feat-2): add another primary feature"
      ":sparkles: (feat-2) add another primary feature" "ENH(feat-2): add another primary feature",
    .release "1.1.0-rev.1+feat/feature-2",
    .land "feat/feature-2" "dev",
    .release "1.1.0-alpha.1",
    .promote "dev" "beta",
    .release "1.1.0-beta.1",
    .promote "beta" "main",
    .release "1.1.0"]

def policy : ReleasePolicy :=
  .ofList false
    [("main", ⟨"^main$", false, none⟩), ("beta", ⟨"^beta$", true, some "beta"⟩),
      ("dev", ⟨"^dev$", true, some "alpha"⟩), ("features", ⟨"^feat/.+", true, some "rev"⟩)]

def configuration (o : Options) : Configuration where
  convention := o.convention
  hostClient := o.hostClient
  hostDomain := o.hostDomain
  tagPattern := o.tagPattern
  maskInitialRelease := o.maskInitialRelease
  release := policy
  extra := o.extra

def write (o : Options) (message : MergeMessage) (clock : Time.Clock) : Definition × Time.Clock :=
  let (as, clock) := actions o message steps clock
  (.configure (configuration o) :: as, clock)

def name : String := "git_flow_repo_w_4_release_channels"

def sourceNames : List String :=
  ["scenario/git_flow.rs", "scenario/mod.rs", "scenario/clock.rs", "domain/mod.rs",
    "domain/action.rs", "domain/commit.rs", "domain/convention.rs", "domain/prerelease.rs",
    "domain/release_config.rs", "domain/tag.rs", "domain/version.rs", "error.rs", "validate.rs",
    "interpreter.rs", "git/mod.rs", "git/repository.rs"]

/-- The flow, with the texts that it is hashed by: a change to what is built is one to a text. -/
def scenario (sourceText : String → String) : Scenario where
  name := name
  sources := sourceNames.map fun source => (source, sourceText source)
  write := write

end ReleaseHistory.Scenario.GitFlow

namespace ReleaseHistory.Scenario

def all (sourceText : String → String) : List Scenario := [GitFlow.scenario sourceText]

/-- The name under which the repository of the flow is kept for a convention. -/
def repositoryName (convention : Convention) : String :=
  s!"repo_w_git_flow_w_beta_alpha_rev_prereleases_n_{convention.name}_commits"

def find? (sourceText : String → String) (name : String) : Option Scenario :=
  (all sourceText).find? (·.name = name)

end ReleaseHistory.Scenario
