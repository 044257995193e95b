/-
  Pulse.Core.Time
  ───────────────
  Naive-UTC datetimes as microseconds since the epoch, and the millisecond
  conversions of `core/time.py`, which go through doubles: a datetime may come out
  microseconds off its milliseconds, and a millisecond may be lost on the way back.

    • `fromMs`, `toMs`                 — `from_ms`, `to_ms`,
    • `toMs_le_of_le`, `le_toMs_of_le` — no whole second is passed over.
-/
import Pulse.Core.Python

namespace Pulse

/-- A naive datetime, read as UTC: microseconds since the epoch. -/
abbrev Time := Int

/-- One second. -/
def second : Int := 1000000

/-- One minute. -/
def minute : Int := 60 * second

/-- `timedelta(seconds=n)`. -/
def seconds (n : Int) : Int := n * second

/-- The first second that `datetime` can hold. -/
def minSecond : Int := -62135596800

/-- The last one. -/
def maxSecond : Int := 253402300799

/-- The seconds for which the platform's `gmtime` has a year. -/
def inGmtime (s : Int) : Bool := -67768040609740800 ≤ s && s ≤ 67768036191676799

/-- A number of seconds in microseconds: the fraction is scaled and rounded apart. -/
def microsOf (x : Binary) : Nat :=
  let fraction := Binary.round (x.num % x.den * 1000000) x.den
  x.num / x.den * 1000000 + roundDiv fraction.num fraction.den

/-- `from_ms`: epoch milliseconds to a datetime; out of range it raises. -/
def fromMs (ms : Int) : Except PyErr Time :=
  match Double.nearest (ms < 0) ms.natAbs 1000 with
  | .inf _ => .error ⟨.overflowError, "integer division result too large for a float"⟩
  | .fin neg x =>
      let t : Time := if neg then -(microsOf x : Int) else microsOf x
      let s := t / second
      if s < -2 ^ 63 ∨ 2 ^ 63 ≤ s then
        .error ⟨.overflowError, "timestamp out of range for platform time_t"⟩
      else if !inGmtime s then .error ⟨.osError, "Value too large for defined data type"⟩
      else if s < minSecond ∨ maxSecond < s then .error ⟨.valueError, "year is out of range"⟩
      else .ok t

theorem fromMs_zero : fromMs 0 = .ok 0 := by decide

/-- Microseconds to milliseconds: `int(x / 10**6 * 1000)`. -/
def millis (us : Int) : Int :=
  let s := Binary.round us.natAbs 1000000
  let ms := Binary.round (s.num * 1000) s.den
  if us < 0 then -((ms.num / ms.den : Nat) : Int) else (ms.num / ms.den : Nat)

/-- `to_ms`: a datetime to epoch milliseconds. -/
def toMs (t : Time) : Int := millis t

/-- `now_ms`, when the clock reads `now`. -/
def nowMs (now : Time) : Int := toMs now

/-! ### Whole seconds. -/

theorem millis_le (us k : Nat) (hk : k * 1000 < 2 ^ 53) (h : us ≤ k * 1000000) :
    millis us ≤ k * 1000 := by
  unfold millis
  dsimp only
  rw [if_neg (by omega), Int.natAbs_natCast]
  have hs := Binary.round_le (by decide) (by omega) h
  generalize Binary.round us 1000000 = s at *
  have hms : s.num * 1000 ≤ k * 1000 * s.den := by
    rw [Nat.mul_right_comm]
    exact Nat.mul_le_mul_right _ hs
  have hms := Binary.round_le s.den_pos hk hms
  generalize Binary.round (s.num * 1000) s.den = ms at *
  exact_mod_cast Nat.div_le_of_le_mul (by rwa [Nat.mul_comm])

theorem le_millis (us k : Nat) (hk : k * 1000 < 2 ^ 53) (h : k * 1000000 ≤ us) :
    (k * 1000 : Int) ≤ millis us := by
  unfold millis
  dsimp only
  rw [if_neg (by omega), Int.natAbs_natCast]
  have hs := Binary.le_round (by decide) (by omega) h
  generalize Binary.round us 1000000 = s at *
  have hms : k * 1000 * s.den ≤ s.num * 1000 := by
    rw [Nat.mul_right_comm]
    exact Nat.mul_le_mul_right _ hs
  have hms := Binary.le_round s.den_pos hk hms
  generalize Binary.round (s.num * 1000) s.den = ms at *
  exact_mod_cast (Nat.le_div_iff_mul_le ms.den_pos).mpr hms

theorem millis_neg (us : Int) : millis (-us) = -millis us := by
  unfold millis
  dsimp only
  rw [Int.natAbs_neg]
  rcases Int.lt_trichotomy us 0 with h | rfl | h
  · rw [if_neg (by omega), if_pos h, Int.neg_neg]
  · rfl
  · rw [if_pos (by omega), if_neg (by omega)]

/-- A number of seconds whose milliseconds a double holds. -/
def Representable (k : Int) : Prop := -2 ^ 53 < k * 1000 ∧ k * 1000 < 2 ^ 53

/-- Those of the calendar, and a while behind it. -/
theorem representable_of_calendar {k n : Int} (hn : 0 ≤ n ∧ n ≤ 86400)
    (h : seconds minSecond ≤ seconds k ∧ seconds k ≤ seconds maxSecond) :
    Representable (k + n) := by
  unfold Representable
  simp only [seconds, second, minSecond, maxSecond] at h
  omega

/-- The way to milliseconds does not pass a whole second. -/
theorem toMs_le_of_le {t k : Int} (hk : Representable k) (h : t ≤ seconds k) :
    toMs t ≤ k * 1000 := by
  unfold Representable at hk
  unfold toMs
  simp only [seconds, second] at h
  rcases Int.lt_or_le t 0 with ht | ht
  · -- below zero nothing is rounded towards zero past the second
    obtain ⟨us, rfl⟩ : ∃ us : Nat, t = -(us : Int) := ⟨t.natAbs, by omega⟩
    rw [millis_neg]
    rcases Int.lt_or_le k 0 with hneg | hpos
    · obtain ⟨n, rfl⟩ : ∃ n : Nat, k = -(n : Int) := ⟨k.natAbs, by omega⟩
      have hlow := le_millis us n (by omega) (by omega)
      omega
    · have hlow := le_millis us 0 (Nat.two_pow_pos 53) (Nat.zero_le us)
      rw [Nat.cast_zero, Int.zero_mul] at hlow
      omega
  · obtain ⟨us, rfl⟩ := Int.eq_ofNat_of_zero_le ht
    obtain ⟨n, rfl⟩ := Int.eq_ofNat_of_zero_le (show 0 ≤ k by omega)
    exact millis_le us n (by omega) (by omega)

theorem le_toMs_of_le {t k : Int} (hk : Representable k) (h : seconds k ≤ t) :
    k * 1000 ≤ toMs t := by
  -- mirrored at the epoch
  have hmirror : toMs (-t) ≤ -k * 1000 := by
    apply toMs_le_of_le
    · unfold Representable at hk ⊢
      omega
    · simp only [seconds, second] at h ⊢
      omega
  unfold toMs at hmirror ⊢
  rw [millis_neg] at hmirror
  omega

end Pulse
