import Mathlib.Order.Defs.Unbundled
import ReleaseHistory.Time.Timestamp

/-!
# Which instant is earlier

An instant comes before another if its second does, or if it lies earlier within the same second.
A leap second has more than a full second of nanoseconds, so it comes after every other instant of
the second that it prolongs. Offsets have no part in the order.
-/

namespace ReleaseHistory.Time.Timestamp

/-- One instant is strictly earlier than another. -/
def Before (s t : Timestamp) : Prop :=
  s.seconds < t.seconds ∨ s.seconds = t.seconds ∧ s.nanos < t.nanos

theorem order_eq_gt_iff {s t : Timestamp} : s.order t = .gt ↔ t.Before s := by
  simp only [order, Before, Ordering.then_eq_gt, Int.compare_eq_gt, Int.compare_eq_eq,
    Nat.compare_eq_gt]
  omega

instance : IsTrans Timestamp Before where
  trans s t u hst htu := by
    unfold Before at *
    omega

instance : Std.Irrefl Before where
  irrefl s h := by
    unfold Before at h
    omega

end ReleaseHistory.Time.Timestamp
