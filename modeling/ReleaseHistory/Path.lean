import ReleaseHistory.Text.Blank

/-!
# Paths

A path is a list of parts. Repeated separators and a separator at the end do not count, and neither
does the sign for the directory itself, except at the front.
-/

namespace ReleaseHistory.Path

inductive Part
  | root
  | here
  | up
  | name (s : String)
  deriving DecidableEq, Repr

def Part.ofText (s : String) : Part :=
  if s = "." then .here else if s = ".." then .up else .name s

def parts (path : String) : List Part :=
  let pieces := (Text.splitOn '/' path).filter fun s => s ≠ ""
  let ps := pieces.map Part.ofText
  if path.startsWith "/" then .root :: ps.filter (· ≠ .here)
  else
    match ps with
    | .here :: rest => .here :: rest.filter (· ≠ .here)
    | ps => ps.filter (· ≠ .here)

/-- A path below another; an absolute one stays as it is. -/
def join (a b : String) : String :=
  if b.startsWith "/" then b else if a.isEmpty || a.endsWith "/" then a ++ b else a ++ "/" ++ b

end ReleaseHistory.Path
