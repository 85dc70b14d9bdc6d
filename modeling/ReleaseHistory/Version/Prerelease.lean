import ReleaseHistory.Version.Fault

/-!
# Prereleases

A prerelease names the channel it belongs to and, after a dot, how many times that channel has been
released for the same version.
-/

namespace ReleaseHistory.Version

/-- A channel token and the iteration within the channel. -/
structure Prerelease where
  token : String
  iteration : Option Nat
  deriving DecidableEq, Repr

namespace Prerelease

/-- Reads a prerelease: what follows the first dot is the iteration. -/
def parse (s : String) : Except Fault Prerelease :=
  if s.isEmpty then .error .emptyPrerelease
  else
    let (token, iteration) := Text.splitOnce '.' s
    if token.isEmpty || !token.toList.all Identifier.isMember then .error (.badToken s)
    else
      match iteration with
      | none => .ok ⟨token, none⟩
      | some digits =>
        match Text.word? digits with
        | some n => .ok ⟨token, some n⟩
        | none => .error (.badIteration digits)

def text (p : Prerelease) : String :=
  match p.iteration with
  | none => p.token
  | some n => s!"{p.token}.{n}"

end Prerelease

end ReleaseHistory.Version
