import ReleaseHistory.Commit
import ReleaseHistory.Policy.Basic
import ReleaseHistory.Toml.Value

/-!
# Actions

A repository is described by a list of actions: configure it, check out branches, merge, commit,
release and write changelogs. A release can have actions of its own, which run before it.
-/

namespace ReleaseHistory

def mainBranch : String := "main"

/-- The settings of a repository, given once. -/
structure Configuration where
  convention : Convention
  hostClient : String
  hostDomain : String
  tagPattern : Option String
  maskInitialRelease : Bool
  release : ReleasePolicy
  /-- Values with dotted keys, which take the place of generated ones; in the order of the keys. -/
  extra : Toml.Table

/-- A switch to a branch. -/
inductive Checkout
  | existing (branch : String)
  /-- Creates a branch at the tip of another. -/
  | create (name start : String)
  deriving DecidableEq, Repr

def Checkout.target : Checkout → String
  | existing branch => branch
  | create name _ => name

structure Merge where
  branch : String
  fastForward : Bool
  commit : Option Commit
  deriving DecidableEq, Repr

inductive ChangelogFormat
  | markdown
  | restructuredText
  deriving DecidableEq, Repr

structure ChangelogFile where
  path : String
  format : ChangelogFormat
  deriving DecidableEq, Repr

structure ChangelogUpdate where
  version : String
  files : List ChangelogFile
  deriving DecidableEq, Repr

/-- One step of the history of a repository. -/
inductive Action
  | configure (c : Configuration)
  | checkout (c : Checkout)
  | merge (m : Merge)
  | commits (cs : List Commit)
  | release (version datetime : String) (before : List Action)
  | changelogs (u : ChangelogUpdate)

/-- A history, as the actions that make it. -/
abbrev Definition := List Action

namespace Action

inductive Kind
  | configure
  | checkout
  | merge
  | commits
  | release
  | changelogs
  deriving DecidableEq, Repr

def Kind.name : Kind → String
  | .configure => "CONFIGURE"
  | .checkout => "GIT_CHECKOUT"
  | .merge => "GIT_MERGE"
  | .commits => "MAKE_COMMITS"
  | .release => "RELEASE"
  | .changelogs => "WRITE_CHANGELOGS"

def Kind.all : List Kind := [.configure, .checkout, .merge, .commits, .release, .changelogs]

def kind : Action → Kind
  | configure _ => .configure
  | checkout _ => .checkout
  | merge _ => .merge
  | commits _ => .commits
  | release .. => .release
  | changelogs _ => .changelogs

def fastForward (branch : String) : Action := merge ⟨branch, true, none⟩

def mergeCommit (branch : String) (commit : Commit) : Action := merge ⟨branch, false, some commit⟩

end Action

/-- Equality of settings, value by value. -/
def Configuration.same (a b : Configuration) : Bool :=
  a.convention == b.convention && a.hostClient == b.hostClient && a.hostDomain == b.hostDomain &&
    a.tagPattern == b.tagPattern && a.maskInitialRelease == b.maskInitialRelease &&
    a.release == b.release && Toml.sameEntries a.extra b.extra

namespace Action

mutual

def same : Action → Action → Bool
  | configure a, configure b => a.same b
  | checkout a, checkout b => a == b
  | merge a, merge b => a == b
  | commits a, commits b => a == b
  | release v d as, release w e bs => v == w && d == e && sameAll as bs
  | changelogs a, changelogs b => a == b
  | _, _ => false

def sameAll : List Action → List Action → Bool
  | [], [] => true
  | a :: as, b :: bs => same a b && sameAll as bs
  | _, _ => false

end

end Action

namespace Definition

def versions (d : Definition) : List String :=
  d.filterMap fun
    | .release version .. => some version
    | _ => none

def summary (d : Definition) : List String :=
  d.versions.zipIdx.map fun (version, i) =>
    let number := Nat.repr (i + 1)
    String.ofList (List.replicate (2 - number.length) ' ') ++ number ++ ". " ++ version

end Definition

end ReleaseHistory
