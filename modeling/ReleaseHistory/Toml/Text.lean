import ReleaseHistory.Text.Digits
import ReleaseHistory.Toml.Value

/-!
# Strings in configuration text

A string has four written forms: between double quotes with escapes, between single quotes as it
stands, and each of them over several lines between tripled quotes. The first form that needs no
escape is taken.
-/

namespace ReleaseHistory.Toml.Text

open ReleaseHistory.Text (hexDigit)

/-- Which quotes stand around a string, and whether it runs over lines. -/
inductive Form
  | basic
  | literal
  | basicLines
  | literalLines
  deriving DecidableEq, Repr

/-- Control characters other than tab and line feed, which only escapes can write. -/
def isHidden (c : Char) : Bool :=
  (c.toNat ≤ 0x1f && c ≠ '\t' && c ≠ '\n') || c.toNat = 0x7f

def longestRun (c : Char) (cs : List Char) : Nat :=
  (cs.foldl
    (fun (state : Nat × Nat) d =>
      let run := if c = d then state.1 + 1 else 0
      (run, max run state.2))
    (0, 0)).2

def formOf (cs : List Char) : Form :=
  let hidden := cs.any isHidden
  let escape := cs.contains '\\'
  let newline := cs.contains '\n'
  let doubles := longestRun '\x22' cs
  let singles := longestRun '\x27' cs
  if !hidden && !escape && doubles = 0 && !newline then .basic
  else if !hidden && singles = 0 && !newline then .literal
  else if !hidden && !escape && doubles ≤ 2 then .basicLines
  else if !hidden && singles ≤ 2 then .literalLines
  else if newline then .basicLines
  else .basic

/-- How a character is escaped, if it has to be; a line feed may stand in a string over lines. -/
def escape? (lines : Bool) (c : Char) : Option (List Char) :=
  if c = '\x08' then some ['\\', 'b']
  else if c = '\t' then some ['\\', 't']
  else if c = '\n' then if lines then none else some ['\\', 'n']
  else if c = '\x0c' then some ['\\', 'f']
  else if c = '\r' then some ['\\', 'r']
  else if c = '\\' then some ['\\', '\\']
  else if isHidden c then
    let upper := fun n => (hexDigit n).toUpper
    some ['\\', 'u', '0', '0', upper (c.toNat / 16), upper (c.toNat % 16)]
  else none

/-- The body of a string with escapes. A double quote is escaped when `allowed` others stand right
before it; an escape starts the count anew. -/
def escapeBody (lines : Bool) (allowed run : Nat) : List Char → List Char
  | [] => []
  | c :: cs =>
    if c = '\x22' then
      if allowed < run + 1 then '\\' :: '\x22' :: escapeBody lines allowed 0 cs
      else c :: escapeBody lines allowed (run + 1) cs
    else
      match escape? lines c with
      | some escaped => escaped ++ escapeBody lines allowed 0 cs
      | none => c :: escapeBody lines allowed 0 cs

def write (form : Form) (cs : List Char) : String :=
  let newline := if cs.contains '\n' then ['\n'] else []
  String.ofList <| match form with
    | .basic => ['\x22'] ++ escapeBody false 0 0 cs ++ ['\x22']
    | .literal => ['\x27'] ++ cs ++ ['\x27']
    | .basicLines =>
      List.replicate 3 '\x22' ++ newline ++ escapeBody true 2 0 cs ++ List.replicate 3 '\x22'
    | .literalLines => List.replicate 3 '\x27' ++ newline ++ cs ++ List.replicate 3 '\x27'

def value (s : String) : String := write (formOf s.toList) s.toList

def isBare (c : Char) : Bool := c.isAlphanum || c = '-' || c = '_'

/-- A key as written: without quotes, or in the first of the one-line forms that needs no escape. -/
def key (s : String) : String :=
  let cs := s.toList
  let hidden := cs.any fun c => isHidden c || c = '\n'
  if !cs.isEmpty && cs.all isBare then s
  else if !hidden && !cs.contains '\\' && !cs.contains '\x22' then write .basic cs
  else if !hidden && !cs.contains '\x27' then write .literal cs
  else write .basic cs

end ReleaseHistory.Toml.Text
