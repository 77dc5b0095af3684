import JobCluster.Ident
import JobCluster.Text.Natural
/-!
# Durations

Spans of time in whole milliseconds. They may be longer than 64 bits of milliseconds can tell, and
are cut to 64 bits where they meet the clock.

The clock itself has 64 bits. A time that lies a span after another one begins anew beyond their
limit (`Time.plus`) where a sum of the two can pass it: when the clock is set on, and when a lease
and a term begin. All other sums of times are taken to stay below the limit.
-/

namespace JobCluster

/-- A span of time. -/
structure Duration where
  millis : Nat
  deriving DecidableEq, Repr, Inhabited

namespace Duration

/-- A span of whole seconds. -/
def ofSeconds (n : Nat) : Duration := ⟨n * 1000⟩

/-- The whole seconds of a span. -/
def seconds (d : Duration) : Nat := d.millis / 1000

/-- The nanoseconds beyond the whole seconds of a span. -/
def nanoseconds (d : Duration) : Nat := d.millis % 1000 * 1000000

/-- The low 64 bits of the milliseconds of a span. -/
def wordMillis (d : Duration) : Nat := d.millis % Text.wordLimit

instance : LT Duration := ⟨fun a b => a.millis < b.millis⟩

instance : LE Duration := ⟨fun a b => a.millis ≤ b.millis⟩

instance (a b : Duration) : Decidable (a < b) := inferInstanceAs (Decidable (a.millis < b.millis))

instance (a b : Duration) : Decidable (a ≤ b) := inferInstanceAs (Decidable (a.millis ≤ b.millis))

/-- Seconds and nanoseconds together are the span. -/
theorem seconds_add_nanoseconds (d : Duration) :
    d.seconds * 1000000000 + d.nanoseconds = d.millis * 1000000 := by
  simp only [seconds, nanoseconds]
  omega

/-- What is left of a span in 64 bits is below their limit. -/
theorem wordMillis_lt (d : Duration) : d.wordMillis < Text.wordLimit :=
  Nat.mod_lt _ (by decide)

end Duration

namespace Time

/-- The time that lies a span after another one, as 64 bits tell it. -/
def plus (time span : Time) : Time := (time + span) % Text.wordLimit

/-- A sum that fits into 64 bits is told as it is. -/
theorem plus_of_lt {time span : Time} (h : time + span < Text.wordLimit) :
    time.plus span = time + span :=
  Nat.mod_eq_of_lt h

/-- A sum that does not fit is told as an earlier time. -/
theorem plus_le (time span : Time) : time.plus span ≤ time + span :=
  Nat.mod_le _ _

end Time

end JobCluster
