import ReleaseHistory.Unicode.Spans
import ReleaseHistory.Unicode.Category
import ReleaseHistory.Unicode.Property

/-!
# Patterns and what they match

A pattern is built from sets of characters and from conditions on a place in the text, by sequence,
choice and repetition. Its meaning is a function on sets of places: where a match can end, given
where it can begin.
-/

namespace ReleaseHistory.Pattern

open ReleaseHistory.Unicode (Spans)

def wordSpans : Spans :=
  Spans.normalize <|
    Spans.ofTable Unicode.Property.alphabetic ++
      Spans.ofTable Unicode.Property.joinControl ++
      Unicode.Category.spans fun c => match c with
        | .nonspacingMark | .spacingMark | .enclosingMark | .decimalNumber
        | .connectorPunctuation => true
        | _ => false

def asciiWordSpans : Spans := [(0x30, 0x39), (0x41, 0x5a), (0x5f, 0x5f), (0x61, 0x7a)]

/-- A condition on a place in the text. Those on words carry the characters that words have. -/
inductive Look
  | start
  | stop
  | lineStart
  | lineStop
  /-- Lines that a carriage return, a line feed or both end. -/
  | returnLineStart
  | returnLineStop
  | word (members : Spans)
  | notWord (members : Spans)
  | wordStart (members : Spans)
  | wordStop (members : Spans)
  | wordStartHalf (members : Spans)
  | wordStopHalf (members : Spans)

/-- A pattern. -/
inductive Node
  | empty
  | set (members : Spans)
  | look (l : Look)
  | seq (first second : Node)
  | choice (one other : Node)
  | rep (body : Node) (least : Nat) (most : Option Nat)

abbrev Places := List Nat

namespace Places

def insert (p : Nat) : Places → Places
  | [] => [p]
  | q :: qs => if p < q then p :: q :: qs else if p = q then q :: qs else q :: insert p qs

def union (a b : Places) : Places := a.foldr insert b

end Places

namespace Look

def before (text : Array Char) (p : Nat) (s : Spans) : Bool :=
  match p with
  | 0 => false
  | p + 1 => match text[p]? with
    | some c => s.contains c.toNat
    | none => false

def after (text : Array Char) (p : Nat) (s : Spans) : Bool :=
  match text[p]? with
  | some c => s.contains c.toNat
  | none => false

def feed : Spans := [(0x0a, 0x0a)]

def ret : Spans := [(0x0d, 0x0d)]

def holds (text : Array Char) (p : Nat) : Look → Bool
  | start => p == 0
  | stop => p == text.size
  | lineStart => p == 0 || before text p feed
  | lineStop => p == text.size || after text p feed
  | returnLineStart =>
    p == 0 || before text p feed || (before text p ret && !after text p feed)
  | returnLineStop =>
    p == text.size || after text p ret || (after text p feed && !before text p ret)
  | word s => before text p s != after text p s
  | notWord s => before text p s == after text p s
  | wordStart s => !before text p s && after text p s
  | wordStop s => before text p s && !after text p s
  | wordStartHalf s => !before text p s
  | wordStopHalf s => !after text p s

end Look

/-- Applies a function a number of times. From a value that it keeps it need not be applied again. -/
def times {α : Type} [DecidableEq α] (f : α → α) : Nat → α → α
  | 0, a => a
  | n + 1, a =>
    let b := f a
    if b = a then a else times f n b

namespace Node

/-- Where matches can end that begin at one of some places. A match never moves backwards, so that
after as many rounds as there are places a repetition has settled: every place is reached in each
round from then on, or in none. -/
def ends (text : Array Char) : Node → Places → Places
  | empty, ps => ps
  | set s, ps => ps.filterMap fun p => if Look.after text p s then some (p + 1) else none
  | look l, ps => ps.filter fun p => l.holds text p
  | seq a b, ps => b.ends text (a.ends text ps)
  | choice a b, ps => (a.ends text ps).union (b.ends text ps)
  | rep body least most, ps =>
    let rounds := text.size + 2
    let required := times (body.ends text) (min least rounds) ps
    let optional := match most with
      | some m => min (m - least) rounds
      | none => rounds
    times (fun qs => qs.union (body.ends text qs)) optional required

def matchesSome (n : Node) (text : String) : Bool :=
  let cs := text.toList.toArray
  !(n.ends cs (List.range (cs.size + 1))).isEmpty

end Node

end ReleaseHistory.Pattern
