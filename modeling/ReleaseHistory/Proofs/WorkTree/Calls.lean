import ReleaseHistory.Proofs.Operation
import ReleaseHistory.WorkTree.Basic

/-!
# Calls of work trees

Whatever a definition does to a work tree, it does by calls of its operations. A run is a sequence
of calls, each of which is made on what the one before it has left, also if that one was refused.
-/

namespace ReleaseHistory.WorkTree

open Operation

/-- What can be asked of a work tree. -/
inductive Call
  | currentBranch
  | branchExists (name : String)
  | createBranch (name start : String)
  | checkout (name : String)
  | readText (path : String)
  | writeText (path text : String)
  | commit (message time : String)
  | merge (branch : String) (mode : MergeMode)
  | tag (name message time : String)
  | tags
  | log (branch : String)
  deriving DecidableEq, Repr

/-- A call that only asks. -/
def Call.Asks : Call → Prop
  | .currentBranch | .branchExists _ | .readText _ | .tags | .log _ => True
  | _ => False

variable {σ : Type} [WorkTree σ]

/-- What a call leaves, whether it succeeds or is refused. -/
def Call.after (s : σ) : Call → σ
  | .currentBranch => (on WorkTree.currentBranch s).2
  | .branchExists name => (on (WorkTree.branchExists name) s).2
  | .createBranch name start => (on (WorkTree.createBranch name start) s).2
  | .checkout name => (on (WorkTree.checkout name) s).2
  | .readText path => (on (WorkTree.readText path) s).2
  | .writeText path text => (on (WorkTree.writeText path text) s).2
  | .commit message time => (on (WorkTree.commit message time) s).2
  | .merge branch mode => (on (WorkTree.merge branch mode) s).2
  | .tag name message time => (on (WorkTree.tag name message time) s).2
  | .tags => (on WorkTree.tags s).2
  | .log branch => (on (WorkTree.log branch) s).2

def after (s : σ) (calls : List Call) : σ := calls.foldl Call.after s

theorem after_append (s : σ) (calls more : List Call) :
    after s (calls ++ more) = after (after s calls) more :=
  List.foldl_append

theorem after_concat (s : σ) (calls : List Call) (call : Call) :
    after s (calls ++ [call]) = call.after (after s calls) :=
  after_append s calls [call]

end ReleaseHistory.WorkTree
