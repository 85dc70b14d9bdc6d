import ReleaseHistory.Text.Digits

/-!
# Globs

A glob is a pattern for paths, in the bytes of their text. A star stands for any bytes, a question
mark for one, and a class in brackets for one of several. In a glob for whole paths none of them
stands for a slash, except two stars that fill the space between slashes.
-/

namespace ReleaseHistory.Text.Glob

/-- What stands for one byte of a class. -/
inductive Member
  | range (first last : UInt8)
  | named (test : UInt8 → Bool)

def Member.has (b : UInt8) : Member → Bool
  | range first last => first ≤ b && b ≤ last
  | named test => test b

/-- A part of a glob. -/
inductive Item
  | byte (b : UInt8)
  /-- Any byte. -/
  | one
  /-- Any bytes. -/
  | many
  /-- Any bytes but slashes. -/
  | manyInName
  /-- Any directories, each with a slash after it. -/
  | directories
  | oneOf (negated : Bool) (members : List Member)
  /-- Nothing at all. -/
  | never

def slash : UInt8 := 0x2f
def star : UInt8 := 0x2a
def backslash : UInt8 := 0x5c
def bracket : UInt8 := 0x5b
def closing : UInt8 := 0x5d
def hyphen : UInt8 := 0x2d
def colon : UInt8 := 0x3a

/-! ### Classes -/

def isLower (b : UInt8) : Bool := 0x61 ≤ b && b ≤ 0x7a
def isUpper (b : UInt8) : Bool := 0x41 ≤ b && b ≤ 0x5a
def isDigit (b : UInt8) : Bool := 0x30 ≤ b && b ≤ 0x39
def isGraph (b : UInt8) : Bool := 0x21 ≤ b && b ≤ 0x7e

def namedClass? (name : String) : Option (UInt8 → Bool) :=
  match name with
  | "alnum" => some fun b => isLower b || isUpper b || isDigit b
  | "alpha" => some fun b => isLower b || isUpper b
  | "blank" => some fun b => b == 0x20 || b == 0x09
  | "cntrl" => some fun b => b < 0x20 || b == 0x7f
  | "digit" => some isDigit
  | "graph" => some isGraph
  | "lower" => some isLower
  | "print" => some fun b => isGraph b || b == 0x20
  | "punct" => some fun b => isGraph b && !(isLower b || isUpper b || isDigit b)
  | "space" => some fun b => b == 0x20 || (0x09 ≤ b && b ≤ 0x0d)
  | "upper" => some isUpper
  | "xdigit" => some fun b => isDigit b || (0x61 ≤ b && b ≤ 0x66) || (0x41 ≤ b && b ≤ 0x46)
  | _ => none

/-- The name in a class, up to the bracket that ends it, and what follows. -/
def className? (bs : List UInt8) : Option (List UInt8 × List UInt8) :=
  match bs.dropWhile (· ≠ closing) with
  | [] => none
  | _ :: rest => some (bs.takeWhile (· ≠ closing), rest)

/-- The members of a class and what follows its closing bracket, which does not count in front;
none if the class does not end or has an unknown name in it. `previous` is the byte that a range may
begin with. -/
def members : Nat → Bool → Option UInt8 → List UInt8 → Option (List Member × List UInt8)
  | 0, _, _, _ => none
  | fuel + 1, inFront, previous, bs =>
    let add := fun (m : Member) (r : Option UInt8 × List UInt8) =>
      (members fuel false r.1 r.2).map fun (ms, rest) => (m :: ms, rest)
    match bs with
    | [] => none
    | b :: rest =>
      if b = closing && !inFront then some ([], rest)
      else if b = backslash then
        match rest with
        | [] => none
        | c :: rest => add (.range c c) (some c, rest)
      else
        match previous, b == hyphen, rest with
        | some first, true, last :: rest' =>
          if last = closing then add (.range b b) (some b, rest)
          else if last = backslash then
            match rest' with
            | [] => none
            | c :: rest => add (.range first c) (none, rest)
          else add (.range first last) (none, rest')
        | _, _, c :: rest' =>
          if b = bracket && c = colon then
            match className? rest' with
            | none => none
            | some (name, after) =>
              if name.getLast? = some colon then
                match namedClass? (String.ofList (name.dropLast.map fun b => Char.ofNat b.toNat)) with
                | some test => add (.named test) (none, after)
                | none => none
              else add (.range b b) (some b, rest)
          else add (.range b b) (some b, rest)
        | _, _, [] => add (.range b b) (some b, rest)

def readClass (bs : List UInt8) : Item × List UInt8 :=
  let (negated, bs) :=
    match bs with
    | b :: rest => if b = 0x21 || b = 0x5e then (true, rest) else (false, bs)
    | [] => (false, bs)
  match members (bs.length + 1) true none bs with
  | some (ms, rest) => (.oneOf negated ms, rest)
  | none => (.never, [])

/-! ### Reading -/

/-- Whether bytes go on with a slash, which a backslash may stand before. -/
def atSlash : List UInt8 → Bool
  | b :: c :: _ => b = slash || (b = backslash && c = slash)
  | [b] => b = slash
  | [] => true

/-- Reads a glob. `whole` says whether it is one for whole paths, and `previous` is the byte before;
none at the start. `fuel` is more than the number of bytes. -/
def read (whole : Bool) : Nat → Option UInt8 → List UInt8 → List Item
  | 0, _, _ => []
  | _ + 1, _, [] => []
  | fuel + 1, previous, b :: rest =>
    if b = backslash then
      match rest with
      | [] => [.never]
      | c :: rest => .byte c :: read whole fuel (some c) rest
    else if b = 0x3f then .one :: read whole fuel (some b) rest
    else if b = star then
      let after := rest.dropWhile (· = star)
      let fills := rest.head? = some star && (previous = none || previous = some slash) &&
        atSlash after
      if !whole then .many :: read whole fuel (some b) after
      else if fills then
        match after with
        | c :: rest =>
          if c = slash then .directories :: read whole fuel (some slash) rest
          else .many :: read whole fuel (some b) after
        | [] => [.many]
      else .manyInName :: read whole fuel (some b) after
    else if b = bracket then
      let (item, rest) := readClass rest
      item :: read whole fuel (some closing) rest
    else .byte b :: read whole fuel (some b) rest

/-! ### Matching -/

/-- A list and all that is left of it when it loses elements at the front. -/
def tails : List UInt8 → List (List UInt8)
  | [] => [[]]
  | b :: bs => (b :: bs) :: tails bs

/-- What is left when bytes without a slash go at the front. -/
def tailsInName : List UInt8 → List (List UInt8)
  | [] => [[]]
  | b :: bs => if b = slash then [b :: bs] else (b :: bs) :: tailsInName bs

def afterSlashes : List UInt8 → List (List UInt8)
  | [] => []
  | b :: bs => if b = slash then bs :: afterSlashes bs else afterSlashes bs

/-- Whether a byte may stand where any byte may. -/
def isFree (whole : Bool) (b : UInt8) : Bool := !whole || b ≠ slash

def accepts (whole : Bool) : List Item → List UInt8 → Bool
  | [], bs => bs.isEmpty
  | .byte b :: items, c :: bs => b = c && accepts whole items bs
  | .one :: items, c :: bs => isFree whole c && accepts whole items bs
  | .oneOf negated members :: items, c :: bs =>
    isFree whole c && (members.any (Member.has c) != negated) && accepts whole items bs
  | .many :: items, bs => (tails bs).any (accepts whole items)
  | .manyInName :: items, bs => (tailsInName bs).any (accepts whole items)
  | .directories :: items, bs => (bs :: afterSlashes bs).any (accepts whole items)
  | _ :: _, _ => false

def matchesText (whole : Bool) (glob text : String) : Bool :=
  let bs := glob.toUTF8.toList
  accepts whole (read whole (bs.length + 1) none bs) text.toUTF8.toList

end ReleaseHistory.Text.Glob
