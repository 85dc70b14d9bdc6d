import ReleaseHistory.Action.Basic
import ReleaseHistory.Proofs.Git.Behind
import ReleaseHistory.Proofs.Git.Revision
import ReleaseHistory.TagFormat

/-!
# Sketches of replays

A sketch follows a replay by names alone. It knows which branch is checked out, which branches and
tags there are, and of which branches the tips lead to those of others. From that it tells whether
names are free and whether a branch that is merged is ahead of the one that it is merged into.
-/

namespace ReleaseHistory

open Git

/-- That the tip of one branch leads to that of another. -/
structure Link where
  lower : String
  upper : String
  /-- Whether the tips are known to be different. -/
  proper : Bool
  deriving DecidableEq

/-- What is known of a repository by names. -/
structure Sketch where
  current : String
  branches : List String
  links : List Link
  /-- References of tags, the newest first. -/
  tags : List String
  deriving DecidableEq

namespace Sketch

def start : Sketch := ⟨mainBranch, [], [], []⟩

def full (branch : String) : String := RefName.headsPlace ++ branch

def hasRoom (name : String) (others : List String) : Bool :=
  Store.hasRoom (full name) (others.map full)

/-- The branches with one more, which may be there already. -/
def addBranch (k : Sketch) (name : String) : List String :=
  if name ∈ k.branches then k.branches else k.branches ++ [name]

/-- What leads to what once the branch that is checked out has moved on to a commit of its own, to
which the tips of some others lead as well. -/
def linksAhead (k : Sketch) (sources : List String) : List Link :=
  let kept := k.links.filter fun l => l.lower ≠ k.current
  let ahead := kept.filter fun l => l.upper ∈ k.current :: sources
  (⟨k.current, k.current, false⟩ :: ahead.map fun l => ⟨l.lower, k.current, true⟩) ∪ kept

/-- What leads to what once a branch has been moved to the tip of another. -/
def linksAt (k : Sketch) (name source : String) : List Link :=
  let kept := k.links.filter fun l => l.lower ≠ name
  let below := kept.filter fun l => l.upper = source
  let above := k.links.filter fun l => l.lower = source ∧ l.upper ≠ name
  (⟨name, name, false⟩ :: (below.map (fun l => ⟨l.lower, name, l.proper⟩) ++
    above.map fun l => ⟨name, l.upper, l.proper⟩)) ∪ kept

def commit (k : Sketch) (sources : List String) : Option Sketch :=
  if hasRoom k.current (k.branches.filter (· ≠ k.current)) then
    some { k with branches := k.addBranch k.current, links := k.linksAhead sources }
  else none

def moveTip (k : Sketch) (name source : String) : Sketch :=
  { k with branches := k.addBranch name, links := k.linksAt name source }

def checkout (k : Sketch) (branch : String) : Option Sketch :=
  if branch ∈ k.branches then some { k with current := branch } else none

def create (k : Sketch) (name start : String) : Option Sketch :=
  if Revision.PlainBranch name ∧ RefName.mayBegin name ∧ name ≠ "HEAD" ∧ start ∈ k.branches ∧
      hasRoom name k.branches then
    some { k.moveTip name start with current := name }
  else none

/-- Merges a branch that is ahead of the one that is checked out. -/
def merge (k : Sketch) (m : Merge) : Option Sketch :=
  if ⟨k.current, m.branch, true⟩ ∈ k.links then
    match m.fastForward, m.commit with
    | true, _ => some (k.moveTip k.current m.branch)
    | false, some _ => k.commit [m.branch]
    | false, none => none
  else none

def commits : Nat → Sketch → Option Sketch
  | 0, k => some k
  | n + 1, k => (k.commit []).bind (commits n)

def tag (k : Sketch) (name : String) : Option Sketch :=
  match RefName.tag? name with
  | some key =>
    if RefName.mayBegin name ∧ Store.hasRoom key k.tags ∧ '\x00' ∉ name.toList then
      some { k with tags := key :: k.tags }
    else none
  | none => none

/-- Follows an action, where tags have names of a format. Settings are not followed. -/
def act (f : TagFormat) (k : Sketch) : Action → Option Sketch
  | .configure _ => none
  | .checkout (.existing branch) => k.checkout branch
  | .checkout (.create name start) => k.create name start
  | .merge m => k.merge m
  | .commits cs => commits cs.length k
  | .release version _ _ =>
    if '\x00' ∈ version.toList then none else (k.commit []).bind fun k => k.tag (f.name version)
  | .changelogs _ => some k

def run (f : TagFormat) : Sketch → List Action → Option Sketch
  | k, [] => some k
  | k, a :: as => (k.act f a).bind fun k => run f k as

/-! ### What links say -/

variable {k k' : Sketch} {s t : Store} {l : Link} {name source : String} {sources : List String} {n : Nat}

theorem full_injective {a b : String} (h : full a = full b) : a = b := by
  have hchars := congrArg String.toList h
  rw [full, full, String.toList_append, String.toList_append] at hchars
  exact String.toList_injective (List.append_cancel_left hchars)

theorem current_of_commit (h : k.commit sources = some k') : k'.current = k.current := by
  rw [commit, Option.ite_none_right_eq_some] at h
  obtain ⟨-, h⟩ := h
  cases h
  rfl

/-- What a link says of a store. -/
def Holds (s : Store) (l : Link) : Prop :=
  ∃ m n, s.branches.lookup (full l.lower) = some m ∧ s.branches.lookup (full l.upper) = some n ∧
    s.history.Ancestor m n ∧ (l.proper = true → m < n)

/-- One branch has moved on to a commit, and the others are where they were. -/
structure Moved (name : String) (n : Nat) (s t : Store) : Prop where
  history : s.history.Extends t.history
  sound : t.history.Sound
  tip : t.branches.lookup (full name) = some n
  others : ∀ other, other ≠ name → t.branches.lookup (full other) = s.branches.lookup (full other)
  forward : ∀ m, s.branches.lookup (full name) = some m → t.history.Ancestor m n

theorem Moved.self (hm : Moved name n s t) : Holds t ⟨name, name, false⟩ :=
  ⟨n, n, hm.tip, hm.tip, .refl, nofun⟩

theorem Moved.kept (hm : Moved name n s t) (hl : Holds s l) (hlower : l.lower ≠ name) :
    Holds t l := by
  obtain ⟨a, b, ha, hb, hab, hproper⟩ := hl
  rw [← hm.others _ hlower] at ha
  have hancestor := hm.history.ancestor hab
  by_cases hupper : l.upper = name
  · rw [hupper] at hb
    have hforward := hm.forward b hb
    refine ⟨a, n, ha, by rw [hupper]; exact hm.tip, hancestor.trans hforward, fun h => ?_⟩
    exact Nat.lt_of_lt_of_le (hproper h) (hm.sound.ancestor_le hforward)
  · rw [← hm.others _ hupper] at hb
    exact ⟨a, b, ha, hb, hancestor, hproper⟩

theorem Moved.ahead (hm : Moved name n s t) (hl : Holds s l) (hlower : l.lower ≠ name)
    (hparent : ∀ b, s.branches.lookup (full l.upper) = some b → b ∈ t.history.parents n) :
    Holds t ⟨l.lower, name, true⟩ := by
  obtain ⟨a, b, ha, hb, hab, -⟩ := hl
  rw [← hm.others _ hlower] at ha
  have hmember := hparent b hb
  have hancestor := hm.history.ancestor hab
  refine ⟨a, n, ha, hm.tip, hancestor.trans (.of_parent hmember), fun _ => ?_⟩
  exact Nat.lt_of_le_of_lt (hm.sound.ancestor_le hancestor) (hm.sound.older n b hmember)

theorem holds_linksAhead (hm : Moved k.current n s t) (hk : ∀ l ∈ k.links, Holds s l)
    (hparents : ∀ name ∈ k.current :: sources, ∀ b, s.branches.lookup (full name) = some b →
      b ∈ t.history.parents n) : ∀ l ∈ k.linksAhead sources, Holds t l := by
  intro l hl
  rw [linksAhead, List.mem_union_iff, List.mem_cons, List.mem_map] at hl
  rcases hl with (rfl | ⟨lead, hlead, rfl⟩) | hl
  · exact hm.self
  · obtain ⟨hkept, hupper⟩ := List.mem_filter.1 hlead
    obtain ⟨hmem, hlower⟩ := List.mem_filter.1 hkept
    exact hm.ahead (hk lead hmem) (of_decide_eq_true hlower)
      (hparents lead.upper (of_decide_eq_true hupper))
  · obtain ⟨hmem, hlower⟩ := List.mem_filter.1 hl
    exact hm.kept (hk l hmem) (of_decide_eq_true hlower)

theorem holds_linksAt (hm : Moved name n s t) (hk : ∀ l ∈ k.links, Holds s l)
    (hsource : s.branches.lookup (full source) = some n) : ∀ l ∈ k.linksAt name source, Holds t l := by
  intro l hl
  rw [linksAt, List.mem_union_iff, List.mem_cons, List.mem_append, List.mem_map, List.mem_map] at hl
  rcases hl with (rfl | ⟨lead, hlead, rfl⟩ | ⟨lead, hlead, rfl⟩) | hl
  · exact hm.self
  · obtain ⟨hkept, hupper⟩ := List.mem_filter.1 hlead
    obtain ⟨hmem, hlower⟩ := List.mem_filter.1 hkept
    obtain ⟨a, b, ha, hb, hab, hproper⟩ := hk lead hmem
    rw [of_decide_eq_true hupper, hsource] at hb
    cases hb
    rw [← hm.others _ (of_decide_eq_true hlower)] at ha
    exact ⟨a, n, ha, hm.tip, hm.history.ancestor hab, hproper⟩
  · obtain ⟨hmem, hboth⟩ := List.mem_filter.1 hlead
    obtain ⟨hlower, hupper⟩ := of_decide_eq_true hboth
    obtain ⟨a, b, ha, hb, hab, hproper⟩ := hk lead hmem
    rw [hlower, hsource] at ha
    cases ha
    rw [← hm.others _ hupper] at hb
    exact ⟨n, b, hm.tip, hb, hm.history.ancestor hab, hproper⟩
  · obtain ⟨hmem, hlower⟩ := List.mem_filter.1 hl
    exact hm.kept (hk l hmem) (of_decide_eq_true hlower)

end Sketch

end ReleaseHistory
