import ReleaseHistory.Git.Store
import ReleaseHistory.Text.Digits

/-!
# Revisions

A revision names an object of a store: a reference, or a description that ends with the beginning of
an object's name, and then steps from a commit to its parents, from a tag to what it marks, or from a
commit to a path in its snapshot. The steps that search messages or times are left out; in the name
of a branch no step can stand.
-/

namespace ReleaseHistory.Git.Revision

/-- What a revision names. -/
inductive Target
  | commit (n : Nat)
  | tag (t : TagObject)
  | tree (s : Snapshot)
  | blob (text : String)

/-- The commit of an object, through a tag. -/
def Target.commit? : Target → Option Nat
  | .commit n => some n
  | .tag t => some t.target
  | _ => none

/-- The snapshot of an object, through a tag and a commit. -/
def Target.snapshot? (s : Store) : Target → Option Snapshot
  | .commit n => some (s.history.snapshot n)
  | .tag t => some (s.history.snapshot t.target)
  | .tree t => some t
  | .blob _ => none

/-! ### References -/

/-- The places where a short name is looked for, in order. -/
def places : List String := ["", "refs/", RefName.tagsPlace, RefName.headsPlace]

def reference? (s : Store) (name : String) : Option Target :=
  if name = Store.headFile then
    match s.headCommit with
    | .ok t => t.map .commit
    | .error _ => none
  else
    match s.branches.lookup name with
    | some n => some (.commit n)
    | none => (s.tags.lookup name).map .tag

/-- The full name of a short one, in the first place where it is. -/
def fullName? (s : Store) (name : String) : Option String :=
  (places.map (· ++ name)).find? fun full =>
    RefName.isStrict full && (reference? s full).isSome

/-! ### Steps -/

/-- The number at the front, or one, and what follows. -/
def count (cs : List Char) : Nat × List Char :=
  let digits := cs.takeWhile Char.isDigit
  (if digits.isEmpty then 1 else digits.foldl (fun n c => 10 * n + (c.toNat - 48)) 0,
    cs.dropWhile Char.isDigit)

/-- How many generations some tildes go back, with the numbers that follow them, and what is left. -/
def generations : Nat → List Char → Nat × List Char
  | 0, cs => (0, cs)
  | fuel + 1, cs =>
    match cs with
    | '~' :: rest =>
      let (n, rest) := count rest
      let (m, rest) := generations fuel rest
      (n + m, rest)
    | _ => (0, cs)

/-- The ancestor some generations back, by first parents. -/
def ancestor? (h : History) : Nat → Nat → Option Nat
  | 0, n => some n
  | k + 1, n => ((h.parents n).head?).bind fun p => ancestor? h k p

/-- What a snapshot holds at a path: a text or the files below it. -/
def atPath? (t : Snapshot) (path : String) : Option Target :=
  if path.isEmpty then some (.tree t)
  else
    let dir := if path.endsWith "/" then (path.dropEnd 1).toString else path
    let below := t.filterMap fun (p, text) =>
      (Text.dropStart? (dir ++ "/").toList p.toList).map fun rest => (String.ofList rest, text)
    if !below.isEmpty then some (.tree below)
    else (t.get? path).map .blob

/-- An object as one of a kind. -/
def asKind? (s : Store) (kind : String) (t : Target) : Option Target :=
  match kind, t with
  | "", .tag t => some (.commit t.target)
  | "", t => some t
  | "commit", t => t.commit?.map .commit
  | "tree", t => (t.snapshot? s).map .tree
  | "tag", .tag t => some (.tag t)
  | "blob", .blob text => some (.blob text)
  | _, _ => none

def follow (s : Store) : Nat → Target → List Char → Option Target
  | 0, _, _ => none
  | _ + 1, t, [] => some t
  | fuel + 1, t, '^' :: '\x7b' :: cs =>
    match Text.splitAtFirst '\x7d' cs with
    | (kind, some rest) => (asKind? s (String.ofList kind) t).bind fun t => follow s fuel t rest
    | (_, none) => none
  | fuel + 1, t, '^' :: cs =>
    let (k, rest) := count cs
    let parent := t.commit?.bind fun n =>
      if k = 0 then some n else (s.history.parents n)[k - 1]?
    parent.bind fun n => follow s fuel (.commit n) rest
  | fuel + 1, t, '~' :: cs =>
    let (k, rest) := generations (cs.length + 1) ('~' :: cs)
    let n := t.commit?.bind fun n => if s.history.commits.size < k then none else ancestor? s.history k n
    n.bind fun n => follow s fuel (.commit n) rest
  | _ + 1, t, ':' :: cs => (t.snapshot? s).bind fun t => atPath? t (String.ofList cs)
  | _ + 1, _, _ => none

def beginsStep : List Char → Bool
  | '^' :: _ => true
  | '~' :: _ => true
  | ':' :: _ => true
  | '@' :: '\x7b' :: _ => true
  | _ => false

/-- The name that a revision begins with, and its steps. -/
def splitName : List Char → List Char × List Char
  | [] => ([], [])
  | c :: cs =>
    if beginsStep (c :: cs) then ([], c :: cs)
    else
      let (name, steps) := splitName cs
      (c :: name, steps)

/-- How many values of a reference the first step goes back, and the other steps, if it goes
through them. -/
def valueStep? : List Char → Option (Nat × List Char)
  | '@' :: '\x7b' :: cs =>
    match Text.splitAtFirst '\x7d' cs with
    | (digits, some rest) =>
      if !digits.isEmpty && digits.all Text.isDigit then some (Text.value digits, rest) else none
    | (_, none) => none
  | _ => none

def formerValue? (s : Store) (name : String) : Nat → Option Target
  | 0 => reference? s name
  | k => ((s.tips.lookup name).bind (·[k]?)).map .commit

/-! ### Descriptions -/

/-- The name of an object. -/
def Target.id (s : Store) : Target → ObjectId
  | .commit n => s.history.id n
  | .tag t => (t.encode (s.history.id t.target)).id
  | .tree t => t.id
  | .blob text => (Git.blob text).id

/-- The files of a snapshot and the directories that they are in. -/
def targetsBelow (t : Snapshot) : List Target :=
  t.flatMap fun (path, _) =>
    let parts := Text.splitOn '/' path
    (List.range (parts.length + 1)).filterMap fun k => atPath? t (String.intercalate "/" (parts.take k))

/-- The objects that a store holds. -/
def targets (s : Store) : List Target :=
  (List.range s.history.commits.size).flatMap (fun n =>
    .commit n :: .tree (s.history.snapshot n) :: targetsBelow (s.history.snapshot n)) ++
    s.tags.map (fun (_, t) => .tag t) ++ targetsBelow s.index

/-- The object whose name begins with some digits, if there is only one. -/
def abbreviated? (s : Store) (digits : List Char) : Option Target :=
  let digits := digits.map Char.toLower
  -- the tree without files need not be in the store to be found, but only by its whole name
  let known := if digits.length = 40 then .tree [] :: targets s else targets s
  match known.filter fun t => digits.isPrefixOf (hexId (t.id s)).toList with
  | [] => none
  | t :: others => if others.all fun u => u.id s = t.id s then some t else none

/-- What comes before the first `-g`, and what follows it. -/
def splitAtMark : List Char → Option (List Char × List Char)
  | [] => none
  | '-' :: 'g' :: cs => some ([], cs)
  | c :: cs => (splitAtMark cs).map fun (before, rest) => (c :: before, rest)

/-- Whether a number stands at the end, behind a hyphen that is not the first character. -/
def endsWithCount (cs : List Char) : Bool :=
  let digits := cs.reverse.takeWhile Text.isDigit
  match cs.reverse.dropWhile Text.isDigit with
  | '-' :: _ :: _ => !digits.isEmpty
  | _ => false

/-- The digits of an object in a name such as `v1.0.0-2-g1f3a`: a tag, how many commits come after it,
and the beginning of the object's name. -/
def describedDigits? (name : List Char) : Option (List Char) :=
  (splitAtMark name).bind fun (before, digits) =>
    if endsWithCount before && 4 ≤ digits.length && digits.length ≤ 40 &&
      digits.all Head.isHexDigit then some digits else none

def described? (s : Store) (name : String) : Option Target :=
  if RefName.isStrict name then (describedDigits? name.toList).bind (abbreviated? s) else none

/-! ### Revisions -/

/-- What the name at the front of a revision leads to, and the steps that are left. Only a reference
has former values. -/
def start? (s : Store) (name : String) (steps : List Char) : Option (Target × List Char) :=
  match fullName? s name, valueStep? steps with
  | some full, some (k, rest) => (formerValue? s full k).map (·, rest)
  | some full, none => (reference? s full).map (·, steps)
  | none, some _ => none
  | none, none => (described? s name).map (·, steps)

def resolve (s : Store) (revision : String) : Option Target :=
  let (name, steps) := splitName revision.toList
  (start? s (String.ofList name) steps).bind fun (t, steps) => follow s (steps.length + 1) t steps

end ReleaseHistory.Git.Revision
