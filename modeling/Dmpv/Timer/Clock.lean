import Dmpv.Basic

/- The player's monotonic clock (`src/unnamed/part_000`, `osdep/timer-unix.c`).

   `mp_raw_time_ns` reads a system clock as an unsigned 64-bit count of nanoseconds.
   `do_timer_init` reads it once more and stores `raw_time_offset = r0 - MP_START_TIME`
   in `uint64_t`; from then on `mp_time_ns` subtracts the offset from each reading,
   clamps the unsigned difference from below at `MP_START_TIME`, and returns it as
   `int64_t`. This module

   1. embeds these functions, `uint64_t` as `BitVec 64` (so `-` wraps and `<` is
      unsigned) and the `uint64_t → int64_t` conversion as `BitVec.toInt`;
   2. computes `mp_time_ns` on every reading that lies no more than `MP_START_TIME`
      below the init reading: it is `max(MP_START_TIME, r - r0 + MP_START_TIME)`
      over the integers, positive and monotone, and so is `mp_time_us`
      (`mp_time_near_start`);
   3. shows what a reading further back gives: the unsigned difference wraps past
      `INT64_MAX`, escapes the clamp, and the clock returns a negative time
      (`mp_time_ns_after_backward_step`). Such readings come from the
      `timespec_get(TIME_UTC)` fallback of `mp_raw_time_ns`, which may step back.

   `MP_START_TIME` is declared in `timer.h`, outside this repository: it is the
   parameter `mpStartTime`, a nanosecond count below `2^63`. -/

namespace Dmpv.Timer

/-! ## `int64_t` -/

def int64Max : Int := 2 ^ 63 - 1
def int64Min : Int := -2 ^ 63

/-- `x` is a value of `int64_t` (and of `time_t` and `long`, which are 64-bit here). -/
def InInt64 (x : Int) : Prop := int64Min ≤ x ∧ x ≤ int64Max

instance (x : Int) : Decidable (InInt64 x) := inferInstanceAs (Decidable (_ ∧ _))

/-! ## The clock -/

/-- `mp_raw_time_ns`: `tp.tv_sec * UINT64_C(1000000000) + tp.tv_nsec` in `uint64_t`. -/
def mpRawTimeNs (tvSec tvNsec : Int) : BitVec 64 :=
  BitVec.ofInt 64 tvSec * 1000000000 + BitVec.ofInt 64 tvNsec

/-- `raw_time_offset` after `do_timer_init`, whose second clock reading was `r0` (the first
one only seeds the random generator). -/
def doTimerInit (mpStartTime : Nat) (r0 : BitVec 64) : BitVec 64 :=
  r0 - BitVec.ofNat 64 mpStartTime

/-- `mp_time_ns` on the clock reading `r`. -/
def mpTimeNs (mpStartTime : Nat) (rawTimeOffset r : BitVec 64) : Int :=
  let r := r - rawTimeOffset
  let r := if r < BitVec.ofNat 64 mpStartTime then BitVec.ofNat 64 mpStartTime else r
  r.toInt

/-- `mp_time_us`: `mp_time_ns() / 1000`, truncating. -/
def mpTimeUs (mpStartTime : Nat) (rawTimeOffset r : BitVec 64) : Int :=
  (mpTimeNs mpStartTime rawTimeOffset r).tdiv 1000

section Clock

variable {mpStartTime : Nat}

/-- The unsigned difference `mp_raw_time_ns() - raw_time_offset` is `r - r0 + MP_START_TIME`
modulo `2^64`: the wrap of the offset cancels. -/
theorem sub_offset_toNat (hS : mpStartTime < 2 ^ 63) (r0 r : BitVec 64) :
    (r - doTimerInit mpStartTime r0).toNat = (r.toNat + mpStartTime + 2 ^ 64 - r0.toNat) % 2 ^ 64 := by
  have := r0.isLt
  simp only [doTimerInit, BitVec.toNat_sub, BitVec.toNat_ofNat]
  omega

/-- `mp_time_ns` as a function of the unsigned difference: the clamp, then the signed reading. -/
theorem mpTimeNs_eq (hS : mpStartTime < 2 ^ 63) (off r : BitVec 64) :
    mpTimeNs mpStartTime off r =
      if (r - off).toNat < mpStartTime then (mpStartTime : Int)
      else if 2 * (r - off).toNat < 2 ^ 64 then ((r - off).toNat : Int)
      else ((r - off).toNat : Int) - 2 ^ 64 := by
  have hS' : (BitVec.ofNat 64 mpStartTime).toNat = mpStartTime := by
    simp only [BitVec.toNat_ofNat]; omega
  simp only [mpTimeNs, BitVec.lt_def, hS']
  split
  · simp only [BitVec.toInt_eq_toNat_cond, hS']; split <;> omega
  · simp only [BitVec.toInt_eq_toNat_cond]; norm_cast

/-- **The clock near its start.** For a reading `r` at most `MP_START_TIME` below the init
reading `r0` (and at most `INT64_MAX - MP_START_TIME` above it), `mp_time_ns` is
`max(MP_START_TIME, r - r0 + MP_START_TIME)` over the integers, whatever `r0` is. -/
theorem mp_time_ns_of_near (hS : mpStartTime < 2 ^ 63) (r0 r : BitVec 64)
    (hlo : r0.toNat ≤ r.toNat + mpStartTime)
    (hhi : r.toNat + mpStartTime ≤ r0.toNat + (2 ^ 63 - 1)) :
    mpTimeNs mpStartTime (doTimerInit mpStartTime r0) r =
      max (mpStartTime : Int) ((r.toNat : Int) - r0.toNat + mpStartTime) := by
  rw [mpTimeNs_eq hS, sub_offset_toNat hS]
  have := r.isLt
  split_ifs <;> omega

/-- Near its start the clock never runs backwards: a later reading gives a later time. -/
theorem mp_time_ns_monotone (hS : mpStartTime < 2 ^ 63) (r0 r r' : BitVec 64)
    (hlo : r0.toNat ≤ r.toNat + mpStartTime) (hle : r.toNat ≤ r'.toNat)
    (hhi : r'.toNat + mpStartTime ≤ r0.toNat + (2 ^ 63 - 1)) :
    mpTimeNs mpStartTime (doTimerInit mpStartTime r0) r ≤
      mpTimeNs mpStartTime (doTimerInit mpStartTime r0) r' := by
  rw [mp_time_ns_of_near hS r0 r hlo (by omega), mp_time_ns_of_near hS r0 r' (by omega) hhi]
  omega

/-- Near its start both clocks are positive, `mp_time_us` as soon as `MP_START_TIME` is at
least a microsecond. -/
theorem mp_time_us_pos (hS : mpStartTime < 2 ^ 63) (hus : 1000 ≤ mpStartTime) (r0 r : BitVec 64)
    (hlo : r0.toNat ≤ r.toNat + mpStartTime)
    (hhi : r.toNat + mpStartTime ≤ r0.toNat + (2 ^ 63 - 1)) :
    0 < mpTimeNs mpStartTime (doTimerInit mpStartTime r0) r ∧
      0 < mpTimeUs mpStartTime (doTimerInit mpStartTime r0) r := by
  have h := mp_time_ns_of_near hS r0 r hlo hhi
  have hge : (1000 : Int) ≤ mpTimeNs mpStartTime (doTimerInit mpStartTime r0) r := by omega
  refine ⟨by omega, ?_⟩
  rw [mpTimeUs, Int.tdiv_eq_ediv (by omega) (by decide)]
  omega

/-- **What the clock promises near its start.** For readings `r ≤ r'` at most `MP_START_TIME`
below the init reading `r0` and `r'` at most `INT64_MAX - MP_START_TIME` above it:
`mp_time_ns` is `max(MP_START_TIME, r - r0 + MP_START_TIME)`, both clocks are positive, and
neither runs backwards. -/
theorem mp_time_near_start (hS : mpStartTime < 2 ^ 63) (hus : 1000 ≤ mpStartTime)
    (r0 r r' : BitVec 64) (hlo : r0.toNat ≤ r.toNat + mpStartTime) (hle : r.toNat ≤ r'.toNat)
    (hhi : r'.toNat + mpStartTime ≤ r0.toNat + (2 ^ 63 - 1)) :
    mpTimeNs mpStartTime (doTimerInit mpStartTime r0) r =
        max (mpStartTime : Int) ((r.toNat : Int) - r0.toNat + mpStartTime) ∧
      0 < mpTimeNs mpStartTime (doTimerInit mpStartTime r0) r ∧
      0 < mpTimeUs mpStartTime (doTimerInit mpStartTime r0) r ∧
      mpTimeNs mpStartTime (doTimerInit mpStartTime r0) r ≤
        mpTimeNs mpStartTime (doTimerInit mpStartTime r0) r' ∧
      mpTimeUs mpStartTime (doTimerInit mpStartTime r0) r ≤
        mpTimeUs mpStartTime (doTimerInit mpStartTime r0) r' := by
  have hns := mp_time_ns_monotone hS r0 r r' hlo hle hhi
  have hpos := mp_time_us_pos hS hus r0 r hlo (by omega)
  refine ⟨mp_time_ns_of_near hS r0 r hlo (by omega), hpos.1, hpos.2, hns, ?_⟩
  simp only [mpTimeUs]
  rw [Int.tdiv_eq_ediv (by omega) (by decide), Int.tdiv_eq_ediv (by omega) (by decide)]
  exact Int.ediv_le_ediv (by decide) hns

theorem mp_time_near_start_at_ten_seconds :
    (10000000000 : Nat) < 2 ^ 63 ∧ 1000 ≤ (10000000000 : Nat) ∧
      (5000000000 : BitVec 64).toNat ≤ (1000000000 : BitVec 64).toNat + 10000000000 ∧
      (1000000000 : BitVec 64).toNat ≤ (20000000000 : BitVec 64).toNat ∧
      (20000000000 : BitVec 64).toNat + 10000000000 ≤ (5000000000 : BitVec 64).toNat + (2 ^ 63 - 1) ∧
      mpTimeNs 10000000000 (doTimerInit 10000000000 5000000000) 1000000000 = 10000000000 :=
  ⟨by decide, by decide, by decide, by decide, by decide,
    (@mp_time_near_start 10000000000 (by decide) (by decide) 5000000000 1000000000 20000000000
      (by decide) (by decide) (by decide)).1⟩

/-- A reading `2 * MP_START_TIME` before the init reading: the unsigned difference wraps to
`2^64 - MP_START_TIME`, is not below `MP_START_TIME`, and reads back as `-MP_START_TIME`. -/
theorem mp_time_ns_after_backward_step (hS : mpStartTime < 2 ^ 63) :
    mpTimeNs mpStartTime (doTimerInit mpStartTime (BitVec.ofNat 64 (2 * mpStartTime))) 0 =
      -(mpStartTime : Int) := by
  rw [mpTimeNs_eq hS, sub_offset_toNat hS]
  have : (0 : BitVec 64).toNat = 0 := rfl
  simp only [BitVec.toNat_ofNat, this]
  split_ifs <;> omega

theorem mp_time_ns_after_backward_step_ten_seconds :
    (10000000000 : Nat) < 2 ^ 63 ∧
      mpTimeNs 10000000000 (doTimerInit 10000000000 (BitVec.ofNat 64 20000000000)) 0 =
        -10000000000 :=
  ⟨by decide, mp_time_ns_after_backward_step (by decide)⟩

end Clock

end Dmpv.Timer
