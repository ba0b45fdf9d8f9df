import Dmpv.Basic
import Mathlib.Algebra.BigOperators.Group.Finset
import Mathlib.Logic.Function.Basic

/- The queue lock of the decode device (`video/out/hwdec/hwdec_vulkan.c`, lines 47-68):
   `vulkan_init` installs `lock_queue` and `unlock_queue` as FFmpeg's hooks around every
   submission to a queue of the shared device.

   `lock_queue` takes `lock_ctx->mutex`, then calls libplacebo's own `lock_queue`;
   `unlock_queue` calls libplacebo's `unlock_queue`, then releases the mutex. Threads
   interleave at these four atomic actions (`step`); a thread that finds the mutex taken
   waits, and a schedule is any order in which threads get turns (`run`).

   Callers pair their calls (each thread locks a queue and then unlocks it, `wellPaired`).
   Under that contract every reachable state satisfies `GuardInv`, and so

   1. at most one thread at a time is between its `lock_queue` and its `unlock_queue`
      (`guard_mutual_exclusion`);
   2. what libplacebo receives is a sequence of lock/unlock pairs of one queue by one
      thread, possibly followed by the lock the current holder has open; no two
      submissions overlap (`guard_mutual_exclusion`);
   3. some thread can always take a step until every thread has made its calls
      (`guard_no_deadlock`);
   4. no call is lost or repeated: what libplacebo received from a thread, then what the
      thread has still to send, is its list of calls (`guard_delivers_in_order`, which
      needs no contract);
   5. after any schedule so far, some continuation delivers every call of every thread
      (`guard_completes`): each step uses up one of the stepping thread's `stepsLeft`, and
      under the invariant a thread can step while any has steps left. -/

namespace Dmpv.Hwdec

/-! ## The model -/

/-- A thread of the player or of FFmpeg's decoder. -/
abbrev ThreadId := Nat

/-- A queue of the device: `queue_family` and `index`. -/
structure Queue where
  family : Nat
  index : Nat
  deriving DecidableEq, Repr

/-- A call on the lock of a queue: FFmpeg's call of the hook, and the call the hook makes of
libplacebo's `lock_queue` / `unlock_queue` with the same arguments. -/
inductive QueueCall where
  | lock (q : Queue)
  | unlock (q : Queue)
  deriving DecidableEq, Repr

/-- Where a thread is in the two hooks: outside both, in `lock_queue` after `mp_mutex_lock`, or
in `unlock_queue` after libplacebo's `unlock_queue`. -/
inductive Phase where
  | outside
  | inLock (q : Queue)
  | inUnlock
  deriving DecidableEq, Repr

/-- The threads around one `queue_lock_ctx`. -/
structure GuardState where
  /-- The owner of `lock_ctx->mutex`. -/
  mutex : Option ThreadId
  phase : ThreadId → Phase
  /-- The calls each thread has still to make. -/
  pending : ThreadId → List QueueCall
  /-- The calls libplacebo received, oldest first, with the calling thread. -/
  log : List (ThreadId × QueueCall)

/-- One atomic action of thread `t`: `none` when it waits in `mp_mutex_lock` or has no call
left. -/
def step (s : GuardState) (t : ThreadId) : Option GuardState :=
  match s.phase t, s.pending t with
  -- `lock_queue`: `mp_mutex_lock(&lock_ctx->mutex)`
  | .outside, .lock q :: rest =>
    if s.mutex = none then
      some { s with mutex := some t, phase := Function.update s.phase t (.inLock q)
                    pending := Function.update s.pending t rest }
    else none
  -- `lock_ctx->vulkan->lock_queue(lock_ctx->vulkan, queue_family, index)`
  | .inLock q, _ =>
    some { s with phase := Function.update s.phase t .outside, log := s.log ++ [(t, .lock q)] }
  -- `unlock_queue`: `lock_ctx->vulkan->unlock_queue(lock_ctx->vulkan, queue_family, index)`
  | .outside, .unlock q :: rest =>
    some { s with phase := Function.update s.phase t .inUnlock
                  pending := Function.update s.pending t rest, log := s.log ++ [(t, .unlock q)] }
  -- `mp_mutex_unlock(&lock_ctx->mutex)`
  | .inUnlock, _ => some { s with mutex := none, phase := Function.update s.phase t .outside }
  | .outside, [] => none

/-- A schedule: the threads in the order they get turns; the turn of a waiting or finished thread
passes. -/
def run (s : GuardState) : List ThreadId → GuardState
  | [] => s
  | t :: ts => run ((step s t).getD s) ts

/-- Before any call: the mutex free, every thread outside with its calls to make. -/
def GuardState.init (calls : ThreadId → List QueueCall) : GuardState :=
  ⟨none, fun _ => .outside, calls, []⟩

/-! ## The contract and the invariant -/

/-- The callers' contract: a thread locks a queue, then unlocks the same queue, and so on. -/
def wellPaired : List QueueCall → Bool
  | [] => true
  | .lock q :: .unlock q' :: rest => q == q' && wellPaired rest
  | _ => false

/-- libplacebo's calls form lock/unlock pairs of one queue by one thread. -/
def bracketed : List (ThreadId × QueueCall) → Bool
  | [] => true
  | (t, .lock q) :: (t', .unlock q') :: rest => t == t' && q == q' && bracketed rest
  | _ => false

/-- Thread `t` returned from `lock_queue` on `q` and has not yet called `unlock_queue`. -/
def Holds (s : GuardState) (t : ThreadId) (q : Queue) : Prop :=
  s.phase t = .outside ∧ ∃ rest, s.pending t = .unlock q :: rest ∧ wellPaired rest

/-- Thread `t` is inside the guard: it owns the mutex by the code's order of actions. -/
def InGuard (s : GuardState) (t : ThreadId) : Prop :=
  s.phase t ≠ .outside ∨ ∃ q, Holds s t q

/-- Where a thread's remaining calls may stand in each phase. -/
def Conforms : Phase → List QueueCall → Prop
  | .outside, calls => wellPaired calls ∨ ∃ q rest, calls = .unlock q :: rest ∧ wellPaired rest
  | .inLock q, calls => ∃ rest, calls = .unlock q :: rest ∧ wellPaired rest
  | .inUnlock, calls => wellPaired calls

/-- The invariant of the guard under the callers' contract. -/
structure GuardInv (s : GuardState) : Prop where
  conforms : ∀ t, Conforms (s.phase t) (s.pending t)
  mutex_iff : ∀ t, s.mutex = some t ↔ InGuard s t
  log : (∃ t q, Holds s t q ∧ ∃ done, bracketed done ∧ s.log = done ++ [(t, .lock q)]) ∨
    ((∀ t q, ¬ Holds s t q) ∧ bracketed s.log)

/-! ## The contract's lists -/

theorem wellPaired_lock {q : Queue} {rest : List QueueCall} (h : wellPaired (.lock q :: rest) = true) :
    ∃ rest', rest = .unlock q :: rest' ∧ wellPaired rest' = true := by
  match rest, h with
  | .unlock q' :: rest', h =>
    simp only [wellPaired, Bool.and_eq_true, beq_iff_eq] at h
    exact ⟨rest', by rw [h.1], h.2⟩

@[simp] theorem wellPaired_unlock (q : Queue) (rest : List QueueCall) :
    wellPaired (.unlock q :: rest) = false := rfl

/-- Closing the open lock keeps libplacebo's calls in pairs. -/
theorem bracketed_append_pair (t : ThreadId) (q : Queue) :
    ∀ done, bracketed done = true →
      bracketed (done ++ [(t, .lock q), (t, .unlock q)]) = true
  | [], _ => by simp [bracketed]
  | (_, .lock _) :: (_, .unlock _) :: rest, h => by
    simp only [bracketed, Bool.and_eq_true] at h
    simp only [List.cons_append, bracketed, h.1.1, h.1.2, Bool.true_and]
    exact bracketed_append_pair t q rest h.2
  | [(_, .lock _)], h | (_, .lock _) :: (_, .lock _) :: _, h | (_, .unlock _) :: _, h => by
    simp [bracketed] at h

/-! ## What a step does -/

/-- Whether a thread holds a queue, or is inside the guard, depends on its own place only. -/
theorem holds_congr {s s' : GuardState} {t : ThreadId} (hph : s'.phase t = s.phase t)
    (hp : s'.pending t = s.pending t) (q : Queue) : Holds s' t q ↔ Holds s t q := by
  simp only [Holds, hph, hp]

theorem inGuard_congr {s s' : GuardState} {t : ThreadId} (hph : s'.phase t = s.phase t)
    (hp : s'.pending t = s.pending t) : InGuard s' t ↔ InGuard s t := by
  simp only [InGuard, holds_congr hph hp, hph]

section Step

variable {s s' : GuardState} {t : ThreadId}

/-- **The four actions.** A step is `mp_mutex_lock` on a free mutex, libplacebo's `lock_queue`,
libplacebo's `unlock_queue`, or `mp_mutex_unlock`, each at its place in the hooks. -/
theorem step_cases (h : step s t = some s') :
    (∃ q rest, s.phase t = .outside ∧ s.pending t = .lock q :: rest ∧ s.mutex = none ∧
      s' = { s with mutex := some t, phase := Function.update s.phase t (.inLock q)
                    pending := Function.update s.pending t rest }) ∨
    (∃ q, s.phase t = .inLock q ∧
      s' = { s with phase := Function.update s.phase t .outside, log := s.log ++ [(t, .lock q)] }) ∨
    (∃ q rest, s.phase t = .outside ∧ s.pending t = .unlock q :: rest ∧
      s' = { s with phase := Function.update s.phase t .inUnlock
                    pending := Function.update s.pending t rest
                    log := s.log ++ [(t, .unlock q)] }) ∨
    (s.phase t = .inUnlock ∧ s' = { s with mutex := none, phase := Function.update s.phase t .outside }) := by
  unfold step at h
  split at h
  · next q rest hph hp =>
    split at h
    · exact .inl ⟨q, rest, hph, hp, ‹_›, (Option.some.inj h).symm⟩
    · cases h
  · next _ _ q hph => exact .inr (.inl ⟨q, hph, (Option.some.inj h).symm⟩)
  · next q rest hph hp => exact .inr (.inr (.inl ⟨q, rest, hph, hp, (Option.some.inj h).symm⟩))
  · next _ _ hph => exact .inr (.inr (.inr ⟨hph, (Option.some.inj h).symm⟩))
  · cases h

section Frame

/-! A step of `t` leaves every other thread's place as it was. -/

variable (hph : ∀ t', t' ≠ t → s'.phase t' = s.phase t')
  (hp : ∀ t', t' ≠ t → s'.pending t' = s.pending t')
include hph hp

/-- Nobody holds a queue after a step of `t` that leaves `t` holding none, if nobody else held
one before. -/
theorem no_holds_of_frame (ht : ∀ q, ¬ Holds s' t q) (hother : ∀ t' q, t' ≠ t → ¬ Holds s t' q) :
    ∀ t' q, ¬ Holds s' t' q := fun t' q h => by
  by_cases hne : t' = t
  · subst hne; exact ht q h
  · exact hother t' q hne ((holds_congr (hph t' hne) (hp t' hne) q).1 h)

/-- **The frame of a step.** A step of `t` that moves the mutex only between `t` and nobody keeps
the invariant, once `t` conforms, owns the mutex exactly when inside the guard, and the log
has its shape. -/
theorem GuardInv.of_frame (hinv : GuardInv s)
    (hm : ∀ t', t' ≠ t → (s'.mutex = some t' ↔ s.mutex = some t'))
    (hc : Conforms (s'.phase t) (s'.pending t)) (hmt : s'.mutex = some t ↔ InGuard s' t)
    (hlog : (∃ t q, Holds s' t q ∧ ∃ done, bracketed done ∧ s'.log = done ++ [(t, .lock q)]) ∨
      ((∀ t q, ¬ Holds s' t q) ∧ bracketed s'.log)) : GuardInv s' := by
  refine ⟨fun t' => ?_, fun t' => ?_, hlog⟩
  · by_cases hne : t' = t
    · subst hne; exact hc
    · rw [hph t' hne, hp t' hne]; exact hinv.conforms t'
  · by_cases hne : t' = t
    · subst hne; exact hmt
    · rw [hm t' hne, hinv.mutex_iff, inGuard_congr (hph t' hne) (hp t' hne)]

end Frame

variable (hinv : GuardInv s)
include hinv

theorem GuardInv.holder_of_holds {t : ThreadId} {q : Queue} (h : Holds s t q) : s.mutex = some t :=
  (hinv.mutex_iff t).2 (.inr ⟨q, h⟩)

theorem GuardInv.holder_of_phase {t : ThreadId} (h : s.phase t ≠ .outside) : s.mutex = some t :=
  (hinv.mutex_iff t).2 (.inl h)

/-- With the mutex held by `t`, or free, nobody else holds a queue, so libplacebo's calls are
pairs, closed or with `t`'s open. -/
theorem GuardInv.log_of_not_holds (h : ∀ t q, ¬ Holds s t q) : bracketed s.log = true := by
  rcases hinv.log with ⟨t, q, ht, -⟩ | ⟨-, hb⟩
  · exact absurd ht (h t q)
  · exact hb

/-- Nobody is inside the guard while the mutex is free. -/
theorem GuardInv.not_inGuard_of_free (hm : s.mutex = none) (t' : ThreadId) : ¬ InGuard s t' :=
  fun h => by rw [(hinv.mutex_iff t').2 h] at hm; cases hm

/-- Nobody but the owner is inside the guard. -/
theorem GuardInv.not_inGuard_of_owner {t' : ThreadId} (hm : s.mutex = some t) (hne : t' ≠ t) :
    ¬ InGuard s t' :=
  fun h => hne (Option.some.inj (((hinv.mutex_iff t').2 h).symm.trans hm))

/-- While the owner is inside one of the hooks, nobody holds a queue. -/
theorem GuardInv.no_holds_of_phase (h : s.phase t ≠ .outside) (t' : ThreadId) (q : Queue) :
    ¬ Holds s t' q := fun ht' => by
  have := (hinv.holder_of_holds ht').symm.trans (hinv.holder_of_phase h)
  cases this
  exact h ht'.1

/-- `mp_mutex_lock` on the free mutex. -/
theorem GuardInv.mutexLock {q : Queue} {rest : List QueueCall} (hph : s.phase t = .outside)
    (hp : s.pending t = .lock q :: rest) (hm : s.mutex = none) :
    GuardInv { s with mutex := some t, phase := Function.update s.phase t (.inLock q)
                      pending := Function.update s.pending t rest } := by
  have hfree := hinv.not_inGuard_of_free hm
  have hc := hinv.conforms t
  rw [hph, hp] at hc
  obtain ⟨rest', hrest, hw⟩ : ∃ rest', rest = .unlock q :: rest' ∧ wellPaired rest' = true := by
    rcases hc with hc | ⟨_, _, hc, _⟩
    · exact wellPaired_lock hc
    · cases hc
  have hph' : ∀ t', t' ≠ t → Function.update s.phase t (.inLock q) t' = s.phase t' :=
    fun _ hne => Function.update_noteq hne _ _
  have hp' : ∀ t', t' ≠ t → Function.update s.pending t rest t' = s.pending t' :=
    fun _ hne => Function.update_noteq hne _ _
  refine hinv.of_frame hph' hp' (fun t' hne => by simp [hm, Ne.symm hne])
    (by simpa [Conforms] using ⟨rest', hrest, hw⟩) (by simp [InGuard])
    (.inr ⟨no_holds_of_frame hph' hp' (fun q h => by simp [Holds] at h)
      fun t' q _ h => hfree t' (.inr ⟨q, h⟩), hinv.log_of_not_holds fun t' q h => hfree t' (.inr ⟨q, h⟩)⟩)

/-- libplacebo's `lock_queue`, by the owner of the mutex. -/
theorem GuardInv.plLockQueue {q : Queue} (hph : s.phase t = .inLock q) :
    GuardInv { s with phase := Function.update s.phase t .outside
                      log := s.log ++ [(t, .lock q)] } := by
  have hm := hinv.holder_of_phase (t := t) (by simp [hph])
  have hc := hinv.conforms t
  rw [hph] at hc
  obtain ⟨rest, hrest, hw⟩ := hc
  have hholds : Holds
      { s with phase := Function.update s.phase t .outside, log := s.log ++ [(t, .lock q)] } t q :=
    ⟨by simp, rest, hrest, hw⟩
  refine hinv.of_frame (fun _ hne => Function.update_noteq hne _ _) (fun _ _ => rfl)
    (fun _ _ => Iff.rfl) (by simpa [Conforms] using .inr ⟨q, rest, hrest, hw⟩)
    (by simpa [hm] using Or.inr ⟨q, hholds⟩)
    (.inl ⟨t, q, hholds, s.log, hinv.log_of_not_holds (hinv.no_holds_of_phase (t := t) (by simp [hph])),
      rfl⟩)

/-- libplacebo's `unlock_queue`, by the thread that holds the queue. -/
theorem GuardInv.plUnlockQueue {q : Queue} {rest : List QueueCall} (hph : s.phase t = .outside)
    (hp : s.pending t = .unlock q :: rest) :
    GuardInv { s with phase := Function.update s.phase t .inUnlock
                      pending := Function.update s.pending t rest
                      log := s.log ++ [(t, .unlock q)] } := by
  have hc := hinv.conforms t
  rw [hph, hp] at hc
  obtain ⟨q₀, rest₀, heq, hw⟩ := hc.resolve_left (by simp)
  simp only [List.cons.injEq, QueueCall.unlock.injEq] at heq
  obtain ⟨rfl, rfl⟩ := heq
  have hholds : Holds s t q := ⟨hph, rest, hp, hw⟩
  have hm := hinv.holder_of_holds hholds
  obtain ⟨done, hdone, hlog⟩ : ∃ done, bracketed done = true ∧ s.log = done ++ [(t, .lock q)] := by
    rcases hinv.log with ⟨t₁, q₁, h₁, done, hdone, hlog⟩ | ⟨hnot, -⟩
    · obtain rfl : t₁ = t := Option.some.inj ((hinv.holder_of_holds h₁).symm.trans hm)
      obtain ⟨-, r, hr, -⟩ := h₁
      rw [hp] at hr
      obtain rfl := QueueCall.unlock.inj (List.cons.inj hr).1
      exact ⟨done, hdone, hlog⟩
    · exact absurd hholds (hnot t q)
  have hph' : ∀ t', t' ≠ t → Function.update s.phase t .inUnlock t' = s.phase t' :=
    fun _ hne => Function.update_noteq hne _ _
  have hp' : ∀ t', t' ≠ t → Function.update s.pending t rest t' = s.pending t' :=
    fun _ hne => Function.update_noteq hne _ _
  refine hinv.of_frame hph' hp' (fun _ _ => Iff.rfl) (by simpa [Conforms] using hw)
    (by simp [hm, InGuard])
    (.inr ⟨no_holds_of_frame hph' hp' (fun q h => by simp [Holds] at h)
      fun t' q hne h => hinv.not_inGuard_of_owner hm hne (.inr ⟨q, h⟩), ?_⟩)
  simpa [hlog] using bracketed_append_pair t q done hdone

/-- `mp_mutex_unlock`, by the thread in `unlock_queue`. -/
theorem GuardInv.mutexUnlock (hph : s.phase t = .inUnlock) :
    GuardInv { s with mutex := none, phase := Function.update s.phase t .outside } := by
  have hm := hinv.holder_of_phase (t := t) (by simp [hph])
  have hw : wellPaired (s.pending t) = true := by simpa [hph, Conforms] using hinv.conforms t
  have hph' : ∀ t', t' ≠ t → Function.update s.phase t .outside t' = s.phase t' :=
    fun _ hne => Function.update_noteq hne _ _
  have hout : ∀ t' q, ¬ Holds { s with mutex := none, phase := Function.update s.phase t .outside } t' q :=
    no_holds_of_frame hph' (fun _ _ => rfl) (fun q ⟨_, r, hr, _⟩ => by simp [show s.pending t = _ from hr] at hw)
    fun t' q _ => hinv.no_holds_of_phase (t := t) (by simp [hph]) t' q
  refine hinv.of_frame hph' (fun _ _ => rfl) (fun t' hne => by simp [hm, Ne.symm hne])
    (by simp [Conforms, hw]) (by simpa [InGuard] using hout t)
    (.inr ⟨hout, hinv.log_of_not_holds (hinv.no_holds_of_phase (t := t) (by simp [hph]))⟩)

/-- **One step keeps the invariant.** -/
theorem guardInv_step {s' : GuardState} (h : step s t = some s') : GuardInv s' := by
  rcases step_cases h with ⟨q, rest, hph, hp, hm, rfl⟩ | ⟨q, hph, rfl⟩ | ⟨q, rest, hph, hp, rfl⟩ |
    ⟨hph, rfl⟩
  · exact hinv.mutexLock hph hp hm
  · exact hinv.plLockQueue hph
  · exact hinv.plUnlockQueue hph hp
  · exact hinv.mutexUnlock hph

end Step

/-! ## Whole runs -/

/-- Before any call the invariant holds, when every thread's calls keep the contract. -/
theorem guardInv_init {calls : ThreadId → List QueueCall} (hcalls : ∀ t, wellPaired (calls t) = true) :
    GuardInv (GuardState.init calls) := by
  have hnot : ∀ t q, ¬ Holds (GuardState.init calls) t q := fun t q ⟨_, rest, hr, _⟩ => by
    have h := hcalls t
    rw [show calls t = _ from hr] at h
    simp at h
  refine ⟨fun t => .inl (hcalls t), fun t => ?_, .inr ⟨hnot, rfl⟩⟩
  simpa [GuardState.init, InGuard] using hnot t

/-- **Every schedule keeps the invariant**: a step that is taken keeps it, a turn that passes
leaves the state as it was. -/
theorem guardInv_run {s : GuardState} (hinv : GuardInv s) : ∀ sched, GuardInv (run s sched)
  | [] => hinv
  | t :: ts => by
    cases h : step s t with
    | none => simpa [run, h] using guardInv_run hinv ts
    | some s' => simpa [run, h] using guardInv_run (guardInv_step hinv h) ts

/-- A thread inside the guard can always act: it is in one of the hooks, or holds a queue and
its next call is `unlock_queue`. -/
theorem step_isSome_of_inGuard {s : GuardState} {t : ThreadId} (h : InGuard s t) :
    (step s t).isSome := by
  rcases h with h | ⟨q, hph, rest, hp, -⟩
  · cases hph : s.phase t with
    | outside => exact absurd hph h
    | inLock q => simp [step, hph]
    | inUnlock => simp [step, hph]
  · simp [step, hph, hp]

/-- Under the invariant, some thread can act while any thread has calls left or is inside a
hook: the owner of the mutex if there is one, else a thread whose next call is `lock_queue`. -/
theorem GuardInv.progress {s : GuardState} (hinv : GuardInv s) {t : ThreadId}
    (ht : s.pending t ≠ [] ∨ s.phase t ≠ .outside) : ∃ t', (step s t').isSome := by
  cases hm : s.mutex with
  | some o => exact ⟨o, step_isSome_of_inGuard ((hinv.mutex_iff o).1 hm)⟩
  | none =>
    have hout := hinv.not_inGuard_of_free hm t
    simp only [InGuard, not_or, not_not, not_exists] at hout
    have hc := hinv.conforms t
    rw [hout.1] at hc
    rcases hc with hw | ⟨q, rest, hp, hw⟩
    · match hp : s.pending t, hw with
      | [], _ => simp [hp, hout.1] at ht
      | .lock q :: rest, _ => exact ⟨t, by simp [step, hout.1, hp, hm]⟩
    · exact absurd ⟨hout.1, rest, hp, hw⟩ (hout.2 q)

/-- **Mutual exclusion of the queue lock.** From the start, under the callers' contract and
along any schedule: at most one thread is between its `lock_queue` and its `unlock_queue`, and
libplacebo has received lock/unlock pairs of one queue by one thread, followed at most by the
open lock of the thread that holds its queue. -/
theorem guard_mutual_exclusion (calls : ThreadId → List QueueCall)
    (hcalls : ∀ t, wellPaired (calls t) = true) (sched : List ThreadId) :
    (∀ t t', InGuard (run (GuardState.init calls) sched) t →
        InGuard (run (GuardState.init calls) sched) t' → t = t') ∧
      (bracketed (run (GuardState.init calls) sched).log = true ∨
        ∃ t q done, Holds (run (GuardState.init calls) sched) t q ∧ bracketed done = true ∧
          (run (GuardState.init calls) sched).log = done ++ [(t, .lock q)]) := by
  have hinv := guardInv_run (guardInv_init hcalls) sched
  refine ⟨fun t t' h h' => Option.some.inj (((hinv.mutex_iff t).2 h).symm.trans ((hinv.mutex_iff t').2 h')), ?_⟩
  rcases hinv.log with ⟨t, q, hq, done, hdone, hlog⟩ | ⟨-, hb⟩
  · exact .inr ⟨t, q, done, hq, hdone, hlog⟩
  · exact .inl hb

/-- Two threads that each lock and unlock queue `(0, 0)`, thread 0 first, with turns that
alternate. -/
theorem guard_mutual_exclusion_two_threads :
    (∀ t, wellPaired (if t < 2 then [.lock ⟨0, 0⟩, .unlock ⟨0, 0⟩] else []) = true) ∧
      (∀ t t', InGuard (run (GuardState.init fun t => if t < 2 then [.lock ⟨0, 0⟩, .unlock ⟨0, 0⟩] else [])
          [0, 1, 0, 1, 0, 1, 0, 1]) t →
        InGuard (run (GuardState.init fun t => if t < 2 then [.lock ⟨0, 0⟩, .unlock ⟨0, 0⟩] else [])
          [0, 1, 0, 1, 0, 1, 0, 1]) t' → t = t') ∧
      (bracketed (run (GuardState.init fun t => if t < 2 then [.lock ⟨0, 0⟩, .unlock ⟨0, 0⟩] else [])
          [0, 1, 0, 1, 0, 1, 0, 1]).log = true ∨
        ∃ t q done, Holds (run (GuardState.init fun t => if t < 2 then [.lock ⟨0, 0⟩, .unlock ⟨0, 0⟩] else [])
            [0, 1, 0, 1, 0, 1, 0, 1]) t q ∧ bracketed done = true ∧
          (run (GuardState.init fun t => if t < 2 then [.lock ⟨0, 0⟩, .unlock ⟨0, 0⟩] else [])
            [0, 1, 0, 1, 0, 1, 0, 1]).log = done ++ [(t, .lock q)]) := by
  have hcalls : ∀ t, wellPaired (if t < 2 then [.lock ⟨0, 0⟩, .unlock ⟨0, 0⟩] else []) = true :=
    fun t => by split <;> rfl
  exact ⟨hcalls, guard_mutual_exclusion _ hcalls _⟩

/-- **The queue lock does not deadlock.** From the start, under the callers' contract and
along any schedule: while some thread has a call left to make or is inside a hook, some thread
can take a step. -/
theorem guard_no_deadlock (calls : ThreadId → List QueueCall)
    (hcalls : ∀ t, wellPaired (calls t) = true) (sched : List ThreadId) (t : ThreadId)
    (ht : (run (GuardState.init calls) sched).pending t ≠ [] ∨
      (run (GuardState.init calls) sched).phase t ≠ .outside) :
    ∃ t', (step (run (GuardState.init calls) sched) t').isSome :=
  (guardInv_run (guardInv_init hcalls) sched).progress ht

/-- Thread 0 holds the mutex and thread 1 waits for it in `mp_mutex_lock`: thread 0 can
still act. -/
theorem guard_no_deadlock_waiting :
    (∀ t, wellPaired (if t < 2 then [.lock ⟨0, 0⟩, .unlock ⟨0, 0⟩] else []) = true) ∧
      (run (GuardState.init fun t => if t < 2 then [.lock ⟨0, 0⟩, .unlock ⟨0, 0⟩] else [])
        [0, 1]).pending 1 ≠ [] ∧
      step (run (GuardState.init fun t => if t < 2 then [.lock ⟨0, 0⟩, .unlock ⟨0, 0⟩] else [])
        [0, 1]) 1 = none ∧
      ∃ t', (step (run (GuardState.init fun t => if t < 2 then [.lock ⟨0, 0⟩, .unlock ⟨0, 0⟩] else [])
        [0, 1]) t').isSome := by
  have hcalls : ∀ t, wellPaired (if t < 2 then [.lock ⟨0, 0⟩, .unlock ⟨0, 0⟩] else []) = true :=
    fun t => by split <;> rfl
  exact ⟨hcalls, by decide, rfl, guard_no_deadlock _ hcalls [0, 1] 1 (.inl (by decide))⟩

/-! ## Every call reaches libplacebo once -/

/-- The calls of thread `t` that libplacebo has received, oldest first. -/
def received (log : List (ThreadId × QueueCall)) (t : ThreadId) : List QueueCall :=
  (log.filter (·.1 == t)).map (·.2)

/-- The calls of `t` still to reach libplacebo: the lock it took the mutex for, then the calls it
has still to make. -/
def toSend (s : GuardState) (t : ThreadId) : List QueueCall :=
  match s.phase t with
  | .inLock q => .lock q :: s.pending t
  | _ => s.pending t

@[simp] theorem received_nil (t : ThreadId) : received [] t = [] := rfl

@[simp] theorem received_append_call (log : List (ThreadId × QueueCall)) (t t' : ThreadId)
    (c : QueueCall) : received (log ++ [(t, c)]) t' = received log t' ++ if t = t' then [c] else [] := by
  by_cases h : t = t' <;> simp [received, h]

/-- **A step moves calls, never loses or repeats one**: what thread `t'` has sent and has still to
send is the same before and after any step. -/
theorem received_toSend_step {s s' : GuardState} {t : ThreadId} (h : step s t = some s')
    (t' : ThreadId) : received s'.log t' ++ toSend s' t' = received s.log t' ++ toSend s t' := by
  by_cases hne : t' = t
  · subst hne
    rcases step_cases h with ⟨q, rest, hph, hp, -, rfl⟩ | ⟨q, hph, rfl⟩ | ⟨q, rest, hph, hp, rfl⟩ |
      ⟨hph, rfl⟩
    · simp [toSend, hph, hp]
    · simp [toSend, hph]
    · simp [toSend, hph, hp]
    · simp [toSend, hph]
  · have hsame : s'.phase t' = s.phase t' ∧ s'.pending t' = s.pending t' := by
      rcases step_cases h with ⟨_, _, _, _, _, rfl⟩ | ⟨_, _, rfl⟩ | ⟨_, _, _, _, rfl⟩ | ⟨_, rfl⟩ <;>
        simp [Function.update_noteq hne]
    have hlog : received s'.log t' = received s.log t' := by
      rcases step_cases h with ⟨_, _, _, _, _, rfl⟩ | ⟨_, _, rfl⟩ | ⟨_, _, _, _, rfl⟩ | ⟨_, rfl⟩ <;>
        simp [Ne.symm hne]
    simp only [toSend, hsame, hlog]

theorem received_toSend_run (s : GuardState) (t : ThreadId) :
    ∀ sched, received (run s sched).log t ++ toSend (run s sched) t = received s.log t ++ toSend s t
  | [] => rfl
  | t' :: ts => by
    rw [run, received_toSend_run _ t ts]
    cases h : step s t' with
    | none => rfl
    | some s' => exact received_toSend_step h t

/-- **No call is lost or duplicated.** Along any schedule, what libplacebo has received from each
thread, followed by what that thread has still to send, is exactly the thread's calls, in order. -/
theorem guard_delivers_in_order (calls : ThreadId → List QueueCall) (sched : List ThreadId)
    (t : ThreadId) :
    received (run (GuardState.init calls) sched).log t ++ toSend (run (GuardState.init calls) sched) t =
      calls t :=
  (received_toSend_run _ t sched).trans rfl

/-! ## Every run can finish -/

/-- The steps thread `t` has still to take: two per call left, and one more inside a hook. -/
def stepsLeft (s : GuardState) (t : ThreadId) : Nat :=
  2 * (s.pending t).length + match s.phase t with
    | .outside => 0
    | _ => 1

/-- The steps the threads below `n` have still to take. -/
def totalSteps (s : GuardState) (n : Nat) : Nat :=
  ∑ t ∈ Finset.range n, stepsLeft s t

/-- Threads from `n` on have no call to make. -/
def Idle (s : GuardState) (n : Nat) : Prop :=
  ∀ t, n ≤ t → s.pending t = [] ∧ s.phase t = .outside

section Progress

variable {s s' : GuardState} {t : ThreadId}

/-- Each step is one of the stepping thread's steps left, and nobody else's. -/
theorem stepsLeft_step (h : step s t = some s') :
    stepsLeft s' t + 1 = stepsLeft s t ∧ ∀ t', t' ≠ t → stepsLeft s' t' = stepsLeft s t' := by
  refine ⟨?_, fun t' hne => ?_⟩
  · rcases step_cases h with ⟨q, rest, hph, hp, -, rfl⟩ | ⟨q, hph, rfl⟩ | ⟨q, rest, hph, hp, rfl⟩ |
      ⟨hph, rfl⟩
    · simp [stepsLeft, hph, hp]; omega
    · simp [stepsLeft, hph]
    · simp [stepsLeft, hph, hp]; omega
    · simp [stepsLeft, hph]
  · rcases step_cases h with ⟨_, _, _, _, _, rfl⟩ | ⟨_, _, rfl⟩ | ⟨_, _, _, _, rfl⟩ | ⟨_, rfl⟩ <;>
      simp [stepsLeft, Function.update_noteq hne]

theorem totalSteps_step {n : Nat} (ht : t < n) (h : step s t = some s') :
    totalSteps s' n + 1 = totalSteps s n := by
  have hmem : t ∈ Finset.range n := Finset.mem_range.2 ht
  obtain ⟨hself, hother⟩ := stepsLeft_step h
  unfold totalSteps
  rw [← Finset.add_sum_erase _ _ hmem, ← Finset.add_sum_erase _ (stepsLeft s) hmem,
    Finset.sum_congr rfl fun t' ht' => hother t' (Finset.ne_of_mem_erase ht'), ← hself,
    Nat.add_right_comm]

/-- A thread with no call left and outside the hooks cannot step, so only threads below `n`
step while the others are idle, and they stay idle. -/
theorem idle_step {n : Nat} (hidle : Idle s n) (h : step s t = some s') : t < n ∧ Idle s' n := by
  have ht : t < n := by
    by_contra hle
    obtain ⟨hp, hph⟩ := hidle t (Nat.le_of_not_lt hle)
    simp [step, hp, hph] at h
  refine ⟨ht, fun t' ht' => ?_⟩
  have hne : t' ≠ t := (Nat.lt_of_lt_of_le ht ht').ne'
  rcases step_cases h with ⟨_, _, _, _, _, rfl⟩ | ⟨_, _, rfl⟩ | ⟨_, _, _, _, rfl⟩ | ⟨_, rfl⟩ <;>
    simpa [Function.update_noteq hne] using hidle t' ht'

theorem idle_run {n : Nat} (hidle : Idle s n) : ∀ sched, Idle (run s sched) n := by
  intro sched
  induction sched generalizing s with
  | nil => exact hidle
  | cons t ts ih =>
    cases h : step s t with
    | none => simpa [run, h] using ih hidle
    | some s' => simpa [run, h] using ih (idle_step hidle h).2

/-- **Some continuation finishes every thread.** Under the invariant, with the threads from `n` on
idle, there is a schedule after which no thread has anything left to send. -/
theorem GuardInv.finish {n : Nat} (hinv : GuardInv s) (hidle : Idle s n) :
    ∃ more, ∀ t, toSend (run s more) t = [] := by
  obtain ⟨k, hk⟩ : ∃ k, totalSteps s n = k := ⟨_, rfl⟩
  induction k using Nat.strong_induction_on generalizing s with
  | _ k ih =>
    by_cases hdone : ∀ t, t < n → stepsLeft s t = 0
    · refine ⟨[], fun t => ?_⟩
      have hp : s.pending t = [] ∧ s.phase t = .outside := by
        rcases Nat.lt_or_ge t n with ht | ht
        · have h0 := hdone t ht
          unfold stepsLeft at h0
          split at h0
          · exact ⟨List.length_eq_zero.1 (by omega), by assumption⟩
          · omega
        · exact hidle t ht
      simp [run, toSend, hp.1, hp.2]
    · push_neg at hdone
      obtain ⟨t, ht, hpos⟩ := hdone
      have hbusy : s.pending t ≠ [] ∨ s.phase t ≠ .outside := by
        by_contra hno
        push_neg at hno
        simp [stepsLeft, hno.1, hno.2] at hpos
      obtain ⟨t', ht'⟩ := hinv.progress hbusy
      obtain ⟨s', hs'⟩ := Option.isSome_iff_exists.1 ht'
      obtain ⟨hlt, hidle'⟩ := idle_step hidle hs'
      have hdec := totalSteps_step hlt hs'
      obtain ⟨more, hmore⟩ := ih (totalSteps s' n) (by omega) (guardInv_step hinv hs') hidle' rfl
      exact ⟨t' :: more, by simpa [run, hs'] using hmore⟩

end Progress

theorem run_append (s : GuardState) (l₁ l₂ : List ThreadId) : run s (l₁ ++ l₂) = run (run s l₁) l₂ := by
  induction l₁ generalizing s with
  | nil => rfl
  | cons t ts ih => exact ih _

/-- **Every call can be delivered.** From the start, under the callers' contract, with finitely
many threads making calls and after any schedule so far, some continuation of the schedule ends
with libplacebo having received every call of every thread, exactly once and in order. -/
theorem guard_completes (calls : ThreadId → List QueueCall) (hcalls : ∀ t, wellPaired (calls t) = true)
    (n : Nat) (hn : ∀ t, n ≤ t → calls t = []) (sched : List ThreadId) :
    ∃ more, ∀ t, received (run (GuardState.init calls) (sched ++ more)).log t = calls t := by
  have hidle : Idle (run (GuardState.init calls) sched) n :=
    idle_run (fun t ht => ⟨hn t ht, rfl⟩) sched
  obtain ⟨more, hmore⟩ := (guardInv_run (guardInv_init hcalls) sched).finish hidle
  refine ⟨more, fun t => ?_⟩
  have h := received_toSend_run (GuardState.init calls) t (sched ++ more)
  rw [run_append, hmore, List.append_nil] at h
  rw [run_append]
  exact h.trans rfl

/-- Two threads that each lock and unlock queue `(0, 0)`, after thread 0 has taken the mutex:
the rest of their calls can all be delivered. -/
theorem guard_completes_two_threads :
    (∀ t, wellPaired (if t < 2 then [.lock ⟨0, 0⟩, .unlock ⟨0, 0⟩] else []) = true) ∧
      (∀ t, 2 ≤ t → (if t < 2 then [QueueCall.lock ⟨0, 0⟩, .unlock ⟨0, 0⟩] else []) = []) ∧
      ∃ more, ∀ t, received (run (GuardState.init fun t => if t < 2 then [.lock ⟨0, 0⟩, .unlock ⟨0, 0⟩] else [])
        ([0] ++ more)).log t = if t < 2 then [.lock ⟨0, 0⟩, .unlock ⟨0, 0⟩] else [] := by
  have hcalls : ∀ t, wellPaired (if t < 2 then [.lock ⟨0, 0⟩, .unlock ⟨0, 0⟩] else []) = true :=
    fun t => by split <;> rfl
  have hn : ∀ t, 2 ≤ t → (if t < 2 then [QueueCall.lock ⟨0, 0⟩, .unlock ⟨0, 0⟩] else []) = [] :=
    fun t ht => if_neg (by omega)
  exact ⟨hcalls, hn, guard_completes _ hcalls 2 hn [0]⟩

end Dmpv.Hwdec
