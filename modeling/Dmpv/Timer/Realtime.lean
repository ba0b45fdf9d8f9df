import Dmpv.Timer.Clock

/- Deadlines on the monotonic clock, and their conversion to wall-clock `timespec`s
   (`src/unnamed/part_000`, lines 69-142).

   Signed overflow has no defined result in C, and a failed `assert` stops the
   player: both are `Fault`s, and every `int64_t` operation goes through `checked`.
   This module

   1. embeds `mp_time_us_add` / `mp_time_ns_add`, which differ only in how
      `timeout_sec` is scaled before it is clamped and converted to the `int64_t`
      `ti`; the model starts from `ti`, the floating-point part is not modelled;
   2. proves that for every positive time and every `ti` the addition neither
      overflows nor fails, and saturates to `[1, INT64_MAX]`, so a chain of
      additions never trips the assertion (`time_add_saturates`,
      `time_add_chain_ok`);
   3. embeds `mp_time_ns_to_realtime`, `mp_time_us_to_realtime` and
      `mp_rel_time_to_timespec`, taking what `get_realtime` and each call of
      `mp_time_ns()` returned as arguments;
   4. shows that the conversion keeps the sum `tv_sec * 10^9 + tv_nsec` exact and
      normalises a target in the future, but not one in the past: C's `%`
      truncates, the remainder is negative, and only `tv_nsec >= 10^9` is
      corrected (`realtime_sum`, `realtime_of_past_target`);
   5. bounds the arguments: `mp_time_us_to_realtime` clamps `time_us` only from above, so
      `time_us * 1000` overflows below `-(INT64_MAX / 1000)`, and `time_ns - mp_time_ns()`
      overflows for a `time_ns` further from the clock than `int64_t` reaches
      (`realtime_conversions_overflow`);
   6. embeds `mp_sleep_ns` (`osdep/timer-unix.c`), whose divisions by `UINT64_C(1000000000)`
      convert `ns` to `uint64_t`: behind its `ns < 0` guard the conversion is exact, and the
      `timespec` it sleeps on is normalised and holds `ns` exactly (`mp_sleep_ns_timespec`). -/

namespace Dmpv.Timer

/-- Why a piece of the timer code has no defined result. -/
inductive Fault where
  /-- An `assert` that does not hold. -/
  | assertFailed
  /-- A signed operation whose exact result leaves `int64_t`. -/
  | signedOverflow
  deriving DecidableEq, Repr

/-- A signed 64-bit operation whose exact result is `x`. -/
def checked (x : Int) : Except Fault Int :=
  if InInt64 x then .ok x else .error .signedOverflow

theorem checked_of_inInt64 {x : Int} (h : InInt64 x) : checked x = .ok x := if_pos h

/-! ## Adding a timeout -/

/-- The body of `mp_time_us_add` and `mp_time_ns_add` from `ti` on. -/
def timeAdd (time ti : Int) : Except Fault Int :=
  if ¬ 0 < time then .error .assertFailed else
  checked (int64Max - time) >>= fun lim =>
  if ti > lim then .ok int64Max else
  checked (-time) >>= fun neg =>
  if ti ≤ neg then .ok 1 else
  checked (time + ti)

/-- `mp_time_us_add(time_us, timeout_sec)`, with `ti` the clamped `timeout_sec * 1e6`. -/
def mpTimeUsAdd (timeUs ti : Int) : Except Fault Int := timeAdd timeUs ti

/-- `mp_time_ns_add(time_ns, timeout_sec)`, with `ti` the clamped `timeout_sec * 1e9`. -/
def mpTimeNsAdd (timeNs ti : Int) : Except Fault Int := timeAdd timeNs ti

/-- **Saturating addition.** For a positive `int64_t` time and any offset, none of
`INT64_MAX - t`, `-t`, `t + ti` overflows, and the result is `t + ti` clamped to
`[1, INT64_MAX]`. -/
theorem time_add_saturates {t ti : Int} (ht : 1 ≤ t) (ht' : t ≤ int64Max) :
    timeAdd t ti = .ok (max 1 (min int64Max (t + ti))) := by
  have hmax : InInt64 (int64Max - t) := by unfold InInt64 int64Min int64Max at *; omega
  have hneg : InInt64 (-t) := by unfold InInt64 int64Min int64Max at *; omega
  simp only [timeAdd, checked_of_inInt64 hmax, checked_of_inInt64 hneg, ok_bind,
    show 0 < t by omega, not_true_eq_false, if_false]
  split_ifs with h1 h2
  · simp only [Except.ok.injEq]; omega
  · simp only [Except.ok.injEq]; omega
  · rw [checked_of_inInt64 (by unfold InInt64 int64Min int64Max at *; omega)]
    simp only [Except.ok.injEq]; omega

/-- Adding the offsets `tis` one after another, each result passed back as the time. -/
def addChain (add : Int → Int → Except Fault Int) : Int → List Int → Except Fault Int
  | t, [] => .ok t
  | t, ti :: tis => add t ti >>= fun t' => addChain add t' tis

/-- A chain of additions from a positive time stays in `[1, INT64_MAX]` and never faults. -/
theorem time_add_chain_ok {t : Int} (ht : 1 ≤ t) (ht' : t ≤ int64Max) :
    ∀ tis : List Int, ∃ r, addChain timeAdd t tis = .ok r ∧ 1 ≤ r ∧ r ≤ int64Max := by
  intro tis
  induction tis generalizing t with
  | nil => exact ⟨t, rfl, ht, ht'⟩
  | cons ti tis ih =>
    rw [addChain, time_add_saturates ht ht', ok_bind]
    exact ih (by omega) (by omega)

/-- **Both additions saturate.** `mp_time_us_add` and `mp_time_ns_add` return `t + ti` clamped to
`[1, INT64_MAX]` for every positive time, and a chain of either stays there without a fault. -/
theorem mp_time_add_saturates_chain (t ti : Int) (ht : 1 ≤ t) (ht' : t ≤ int64Max) :
    mpTimeUsAdd t ti = .ok (max 1 (min int64Max (t + ti))) ∧
      mpTimeNsAdd t ti = .ok (max 1 (min int64Max (t + ti))) ∧
      ∀ tis, (∃ r, addChain mpTimeUsAdd t tis = .ok r ∧ 1 ≤ r ∧ r ≤ int64Max) ∧
        (∃ r, addChain mpTimeNsAdd t tis = .ok r ∧ 1 ≤ r ∧ r ≤ int64Max) :=
  ⟨time_add_saturates ht ht', time_add_saturates ht ht',
    fun tis => ⟨time_add_chain_ok ht ht' tis, time_add_chain_ok ht ht' tis⟩⟩

theorem mp_time_add_saturates_chain_one_second :
    (1 : Int) ≤ 1 ∧ (1 : Int) ≤ int64Max ∧
      mpTimeNsAdd 1 1000000000 = .ok (max 1 (min int64Max (1 + 1000000000))) :=
  ⟨Int.le_refl 1, by decide, (mp_time_add_saturates_chain 1 1000000000 (Int.le_refl 1) (by decide)).2.1⟩

/-! ## Wall-clock deadlines -/

/-- `struct timespec`; `time_t` and `long` are 64-bit. -/
structure Timespec where
  tvSec : Int
  tvNsec : Int
  deriving DecidableEq, Repr

/-- `mp_time_ns_to_realtime(time_ns)`. `realtime` is the `timespec` `get_realtime` filled in
(`none` when it returned nonzero), `now` what `mp_time_ns()` returned. -/
def mpTimeNsToRealtime (realtime : Option Timespec) (now timeNs : Int) : Except Fault Timespec :=
  match realtime with
  | none => .ok ⟨0, 0⟩
  | some ts =>
    checked (timeNs - now) >>= fun timeRel =>
    -- clamp to 1000 days in the future
    let timeRel := min timeRel (1000 * 24 * 60 * 60 * 1000000000)
    checked (ts.tvSec + timeRel.tdiv 1000000000) >>= fun tvSec =>
    checked (ts.tvNsec + timeRel.tmod 1000000000) >>= fun tvNsec =>
    if tvNsec ≥ 1000000000 then
      checked (tvSec + 1) >>= fun tvSec => .ok ⟨tvSec, tvNsec - 1000000000⟩
    else .ok ⟨tvSec, tvNsec⟩

/-- `mp_time_us_to_realtime(time_us)`. -/
def mpTimeUsToRealtime (realtime : Option Timespec) (now timeUs : Int) : Except Fault Timespec :=
  checked (min (int64Max.tdiv 1000) timeUs * 1000) >>= mpTimeNsToRealtime realtime now

/-- `mp_rel_time_to_timespec(timeout_sec)`: `now₁` and `now₂` are the two readings of
`mp_time_ns()`, before and after `get_realtime`. -/
def mpRelTimeToTimespec (realtime : Option Timespec) (now₁ ti now₂ : Int) :
    Except Fault Timespec :=
  mpTimeNsAdd now₁ ti >>= mpTimeNsToRealtime realtime now₂

/-- C's `/` truncates: by a positive divisor it is floor division of the magnitude. -/
theorem tdiv_eq_of_pos (a : Int) {b : Int} (hb : 0 ≤ b) :
    a.tdiv b = if 0 ≤ a then a / b else -((-a) / b) := by
  split
  · exact Int.tdiv_eq_ediv ‹_› hb
  · rw [← Int.tdiv_eq_ediv (by omega) hb, Int.neg_tdiv, Int.neg_neg]

/-- **The conversion keeps the time.** For a wall-clock reading `(s0, n0)` with `n0` in
`[0, 10^9)` and a target and a current time in `int64_t`, `tv_sec * 10^9 + tv_nsec` is the
reading plus the offset, clamped to 1000 days; `tv_nsec` lies in `(-10^9, 10^9)`, and is
non-negative when the target is not in the past. -/
theorem realtime_sum {s0 n0 now timeNs : Int} (hn0 : 0 ≤ n0 ∧ n0 < 1000000000)
    (hs0 : -2 ^ 62 ≤ s0 ∧ s0 ≤ 2 ^ 62) (hnow : 0 ≤ now ∧ now ≤ int64Max)
    (ht : 1 ≤ timeNs ∧ timeNs ≤ int64Max) :
    ∃ s n, mpTimeNsToRealtime (some ⟨s0, n0⟩) now timeNs = .ok ⟨s, n⟩ ∧
      s * 1000000000 + n =
        s0 * 1000000000 + n0 + min (timeNs - now) (1000 * 24 * 60 * 60 * 1000000000) ∧
      -1000000000 < n ∧ n < 1000000000 ∧ (now ≤ timeNs → 0 ≤ n) := by
  have hrel : InInt64 (timeNs - now) := by unfold InInt64 int64Min int64Max at *; omega
  simp only [mpTimeNsToRealtime, checked_of_inInt64 hrel, ok_bind]
  generalize hm : min (timeNs - now) (1000 * 24 * 60 * 60 * 1000000000) = m
  -- C's truncating division: `m = q * 10^9 + r` with `|r| < 10^9`, and `r ≥ 0` when `m ≥ 0`
  have hqr : m = m.tdiv 1000000000 * 1000000000 + m.tmod 1000000000 ∧
      -1000000000 < m.tmod 1000000000 ∧ m.tmod 1000000000 < 1000000000 ∧
      (0 ≤ m → 0 ≤ m.tmod 1000000000) := by
    have hq := tdiv_eq_of_pos m (b := 1000000000) (by decide)
    rw [Int.tmod_def]
    split at hq <;> omega
  generalize m.tdiv 1000000000 = q at hqr
  generalize m.tmod 1000000000 = r at hqr
  rw [checked_of_inInt64 (by unfold InInt64 int64Min int64Max at *; omega),
    checked_of_inInt64 (by unfold InInt64 int64Min int64Max at *; omega), ok_bind, ok_bind]
  split
  · rw [checked_of_inInt64 (by unfold InInt64 int64Min int64Max at *; omega), ok_bind]
    exact ⟨_, _, rfl, by omega⟩
  · exact ⟨_, _, rfl, by omega⟩

/-- A deadline two seconds ahead, half a second past a wall-clock second. -/
theorem realtime_sum_two_seconds :
    ∃ s n, mpTimeNsToRealtime (some ⟨1700000000, 500000000⟩) 10000000000 12000000000 =
        .ok ⟨s, n⟩ ∧
      s * 1000000000 + n = 1700000000 * 1000000000 + 500000000 +
        min (12000000000 - 10000000000) (1000 * 24 * 60 * 60 * 1000000000) ∧
      -1000000000 < n ∧ n < 1000000000 ∧ (10000000000 ≤ (12000000000 : Int) → 0 ≤ n) :=
  realtime_sum ⟨by decide, by decide⟩ ⟨by decide, by decide⟩ ⟨by decide, by decide⟩
    ⟨by decide, by decide⟩

/-- **A target in the past is not normalised.** One nanosecond in the past, from a reading with
`tv_nsec = 0`: `-1 / 10^9` truncates to `0`, the remainder `-1` lands in `tv_nsec`, and only
`tv_nsec >= 10^9` is corrected. `mp_rel_time_to_timespec(0)` gets there whenever the clock
advances between its two readings. -/
theorem realtime_of_past_target {s0 t : Int} (hs0 : InInt64 s0) (ht : 1 ≤ t) (ht' : t < int64Max) :
    mpTimeNsToRealtime (some ⟨s0, 0⟩) (t + 1) t = .ok ⟨s0, -1⟩ ∧
      mpRelTimeToTimespec (some ⟨s0, 0⟩) t 0 (t + 1) = .ok ⟨s0, -1⟩ := by
  have hpast : mpTimeNsToRealtime (some ⟨s0, 0⟩) (t + 1) t = .ok ⟨s0, -1⟩ := by
    have hm : min (t - (t + 1)) (1000 * 24 * 60 * 60 * 1000000000) = -1 := by omega
    simp only [mpTimeNsToRealtime, checked_of_inInt64 (show InInt64 (t - (t + 1)) by
      unfold InInt64 int64Min int64Max at *; omega), ok_bind, hm]
    rw [show (-1 : Int).tdiv 1000000000 = 0 by decide, show (-1 : Int).tmod 1000000000 = -1 by decide,
      Int.add_zero, checked_of_inInt64 hs0, ok_bind, Int.zero_add,
      checked_of_inInt64 (by decide), ok_bind, if_neg (by decide)]
  refine ⟨hpast, ?_⟩
  rw [mpRelTimeToTimespec, mpTimeNsAdd, time_add_saturates ht (Int.le_of_lt ht'), ok_bind,
    show max 1 (min int64Max (t + 0)) = t by omega, hpast]

theorem realtime_of_past_target_at_epoch :
    InInt64 1700000000 ∧
      mpTimeNsToRealtime (some ⟨1700000000, 0⟩) (10000000000 + 1) 10000000000 =
        .ok ⟨1700000000, -1⟩ :=
  ⟨by decide, (realtime_of_past_target (by decide) (by decide) (by decide)).1⟩

/-! ## The arguments of the conversions -/

/-- `INT64_MAX / 1000`, the clamp of `mp_time_us_to_realtime`. -/
theorem int64Max_tdiv_thousand : int64Max.tdiv 1000 = 9223372036854775 := by decide

/-- **Only the upper side is clamped.** `MPMIN(INT64_MAX / 1000, time_us) * 1000` is an
`int64_t` exactly when `time_us ≥ -(INT64_MAX / 1000)`; below that `mp_time_us_to_realtime`
overflows before it calls `mp_time_ns_to_realtime`. `time_ns - mp_time_ns()` overflows whenever
`time_ns` lies further from the clock's reading `now` than `int64_t` reaches: below
`INT64_MIN + now` (`now > 0`), or above `INT64_MAX + now` (`now < 0`, after a backward step of
the clock); `mp_time_ns_to_realtime` stops there once `get_realtime` succeeded. -/
theorem realtime_conversions_overflow (realtime : Option Timespec) (ts : Timespec)
    (now timeUs timeNs : Int) :
    (InInt64 (min (int64Max.tdiv 1000) timeUs * 1000) ↔ -(int64Max.tdiv 1000) ≤ timeUs) ∧
      (timeUs < -(int64Max.tdiv 1000) →
        mpTimeUsToRealtime realtime now timeUs = .error .signedOverflow) ∧
      (timeNs < int64Min + now ∨ int64Max + now < timeNs →
        mpTimeNsToRealtime (some ts) now timeNs = .error .signedOverflow) := by
  have hmul : InInt64 (min (int64Max.tdiv 1000) timeUs * 1000) ↔ -(int64Max.tdiv 1000) ≤ timeUs := by
    rw [int64Max_tdiv_thousand]; unfold InInt64 int64Min int64Max; omega
  refine ⟨hmul, fun h => ?_, fun h => ?_⟩
  · rw [mpTimeUsToRealtime, checked, if_neg fun h' => absurd (hmul.1 h') (by omega), error_bind]
  · simp only [mpTimeNsToRealtime, checked, if_neg (show ¬ InInt64 (timeNs - now) by
      unfold InInt64; omega), error_bind]

/-- `time_us = time_ns = INT64_MIN` with the clock ten seconds in: both conversions overflow. -/
theorem realtime_conversions_overflow_at_int64_min :
    int64Min < -(int64Max.tdiv 1000) ∧
      mpTimeUsToRealtime (some ⟨1700000000, 0⟩) 10000000000 int64Min = .error .signedOverflow ∧
      mpTimeNsToRealtime (some ⟨1700000000, 0⟩) 10000000000 int64Min = .error .signedOverflow :=
  ⟨by decide,
    (realtime_conversions_overflow (some ⟨1700000000, 0⟩) ⟨1700000000, 0⟩ 10000000000 int64Min
      int64Min).2.1 (by decide),
    (realtime_conversions_overflow (some ⟨1700000000, 0⟩) ⟨1700000000, 0⟩ 10000000000 int64Min
      int64Min).2.2 (.inl (by decide))⟩

/-! ## Sleeping -/

/-- `mp_sleep_ns(ns)`: the `timespec` passed to `nanosleep`, or `none` when `ns < 0` returns
first. `ns / UINT64_C(1000000000)` and `ns % UINT64_C(1000000000)` convert `ns` to `uint64_t`;
the results are stored in `time_t` and `long`. -/
def mpSleepNs (ns : Int) : Option Timespec :=
  if ns < 0 then none
  else
    let u := BitVec.ofInt 64 ns
    some ⟨(u / 1000000000).toInt, (u % 1000000000).toInt⟩

/-- **`mp_sleep_ns` sleeps exactly `ns`.** For every `int64_t` `ns`, a negative one sleeps not
at all; otherwise the `uint64_t` divisions see `ns` itself and `nanosleep` gets a normalised
`timespec` (`0 <= tv_nsec < 10^9`) of `tv_sec * 10^9 + tv_nsec = ns`. -/
theorem mp_sleep_ns_timespec (ns : Int) (hns : InInt64 ns) :
    (ns < 0 → mpSleepNs ns = none) ∧
      (0 ≤ ns → ∃ ts, mpSleepNs ns = some ts ∧ 0 ≤ ts.tvSec ∧ 0 ≤ ts.tvNsec ∧
        ts.tvNsec < 1000000000 ∧ ts.tvSec * 1000000000 + ts.tvNsec = ns) := by
  refine ⟨fun h => if_pos h, fun h => ⟨_, if_neg (Int.not_lt.2 h), ?_⟩⟩
  have hu : (BitVec.ofInt 64 ns).toNat = ns.toNat := by
    unfold InInt64 int64Max at hns
    rw [BitVec.toNat_ofInt]; omega
  simp only [BitVec.toInt_eq_toNat_cond, BitVec.toNat_udiv, BitVec.toNat_umod, hu,
    show (1000000000 : BitVec 64).toNat = 1000000000 from rfl]
  unfold InInt64 int64Max at hns
  split_ifs <;> omega

theorem mp_sleep_ns_timespec_int64Max :
    InInt64 int64Max ∧ ∃ ts, mpSleepNs int64Max = some ts ∧ ts.tvNsec < 1000000000 ∧
      ts.tvSec * 1000000000 + ts.tvNsec = int64Max :=
  ⟨by decide, let ⟨ts, h, _, _, hn, hsum⟩ := (mp_sleep_ns_timespec int64Max (by decide)).2 (by decide)
    ⟨ts, h, hn, hsum⟩⟩

end Dmpv.Timer
