import Switchboard.Files

namespace Switchboard

structure Fingerprint where
  secs : Nat
  nanos : Nat
deriving DecidableEq, Repr

namespace Fingerprint

def ofTime (t : Time) : Fingerprint :=
  if t.secs < 0 then ⟨0, 0⟩ else ⟨t.secs.toNat, t.nanos⟩

def toTime (f : Fingerprint) : Time :=
  ⟨f.secs, f.nanos⟩

theorem ofTime_toTime (f : Fingerprint) : ofTime f.toTime = f := by
  simp [ofTime, toTime, show ¬ ((f.secs : Int) < 0) by omega]

-- From 1970 on a fingerprint is the time itself.
theorem toTime_ofTime {t : Time} (since : 0 ≤ t.secs) : (ofTime t).toTime = t := by
  obtain ⟨secs, nanos⟩ := t
  have known : ¬ secs < 0 := Int.not_lt.mpr since
  simp [ofTime, toTime, known, Int.toNat_of_nonneg since]

end Fingerprint
end Switchboard
