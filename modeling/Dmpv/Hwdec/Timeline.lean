import Dmpv.Hwdec.Interleave
import Mathlib.Algebra.Group.Nat.Basic

/- The signal values of a frame's timeline semaphores, shared by every party that uses the
   frame (`video/out/hwdec/hwdec_vulkan.c`, lines 350-356, 358-382 and 384-395).

   `AVVkFrame.sem_value[i]` is the last value handed out on image `i`'s semaphore: a party
   that will signal takes `++sem_value[i]` under the frame's lock and signals that value.
   The decoder does so for each decode. `mapper_unmap` reserves a value per touched image
   in its first lock window, signals it through `pl_vulkan_hold_ex` outside the lock, and
   in its second window, when the hold failed, hands the value back with
   `sem_value[i] = reserved_sem_value[i] - 1`.

   A run is any interleaving of the decoder's windows and of the three phases of any number
   of `mapper_unmap` sessions (`timelineStep`, `timelineRun`), each phase the function the
   code applies: `reserveWindow`, the holds that succeeded (`holdSignals`), and
   `commitWindow`. What is proved:

   1. `timeline_signals_distinct` — if every rollback finds the counter where its own
      reservation left it (`freshRollbacks`), no value is signalled twice on any image's
      semaphore. The invariant (`DistinctValues`) says that the values signalled and the
      values still reserved are apart and none above the counter; each window keeps it.
      With every hold succeeding there is no rollback (`freshRollbacks_of_holds_ok`).
   2. `rollback_reissues_signal` — when another party took and signalled the next value
      between a failing session's windows, the rollback puts the counter below that value:
      two more decodes signal it a second time.
   3. `mapperUnmap_timeline` — `mapper_unmap` itself is the run of one session alone.

   Counters are `uint64_t`; the run is short enough that none wraps. -/

namespace Dmpv.Hwdec

/-! ## The protocol -/

/-- One `mapper_unmap` on the frame, by what its loops decided: the images it touches
(`num_images` and `will_process[]`) and what its holds reported (`ok[]`, `new_layout[]`). -/
structure UnmapSession where
  numImages : Nat
  willProcess : Fin 4 → Bool
  ok : Fin 4 → Bool
  newLayout : Fin 4 → VkImageLayout

/-- Where a `mapper_unmap` is: not started, past its reservation window with its
`reserved_sem_value[]`, past its holds, or past its commit window. -/
inductive UnmapPhase where
  | idle
  | reserved (r : Fin 4 → BitVec 64)
  | held (r : Fin 4 → BitVec 64)
  | done

/-- The frame, the sessions' phases by session number, and the signal operations submitted on
the frame's semaphores (image and value), oldest first. -/
structure TimelineState where
  frame : AVVkFrame
  phase : Nat → UnmapPhase
  signals : List (Fin 4 × BitVec 64)

/-- A lock window of the decoder, or a phase of session `s`. -/
inductive TimelineEvent where
  /-- The decoder takes `++sem_value[j]` and signals it. -/
  | decode (j : Fin 4)
  | reserve (s : Nat)
  | hold (s : Nat)
  | commit (s : Nat)
  deriving DecidableEq, Repr

/-- The signals a session's holds submit: `reserved_sem_value[j]` on image `j` for each touched
image whose `pl_vulkan_hold_ex` succeeded. -/
def holdSignals (S : UnmapSession) (r : Fin 4 → BitVec 64) : List (Fin 4 × BitVec 64) :=
  (indices.filter fun j => decide (Touched S.numImages S.willProcess j) && S.ok j).map
    fun j => (j, r j)

/-- One event; `none` for a phase out of its session's order. -/
def timelineStep (sessions : Nat → UnmapSession) (st : TimelineState) :
    TimelineEvent → Option TimelineState
  | .decode j =>
    some { st with
      frame := (OtherUpdate.reserve j).apply st.frame
      signals := st.signals ++ [(j, st.frame.semValue j + 1)] }
  | .reserve s =>
    match st.phase s with
    | .idle =>
      let w := reserveWindow (sessions s).numImages (sessions s).willProcess st.frame
      some { st with frame := w.1, phase := Function.update st.phase s (.reserved w.2) }
    | _ => none
  | .hold s =>
    match st.phase s with
    | .reserved r =>
      some { st with
        phase := Function.update st.phase s (.held r)
        signals := st.signals ++ holdSignals (sessions s) r }
    | _ => none
  | .commit s =>
    match st.phase s with
    | .held r =>
      some { st with
        frame := commitWindow (sessions s).numImages (sessions s).willProcess (sessions s).ok
          (sessions s).newLayout r st.frame
        phase := Function.update st.phase s .done }
    | _ => none

/-- A run of events. -/
def timelineRun (sessions : Nat → UnmapSession) : TimelineState → List TimelineEvent →
    Option TimelineState
  | st, [] => some st
  | st, e :: es => (timelineStep sessions st e).bind fun st' => timelineRun sessions st' es

/-- The frame before any session, with nothing signalled. -/
def timelineInit (f : AVVkFrame) : TimelineState := ⟨f, fun _ => .idle, []⟩

/-- A commit whose rollbacks find each counter at the value its session reserved. -/
def rollbackFresh (sessions : Nat → UnmapSession) (st : TimelineState) : TimelineEvent → Bool
  | .commit s =>
    match st.phase s with
    | .held r => indices.all fun j =>
      !(decide (Touched (sessions s).numImages (sessions s).willProcess j) && !(sessions s).ok j) ||
        st.frame.semValue j == r j
    | _ => true
  | _ => true

/-- Every rollback of the run is fresh. -/
def freshRollbacks (sessions : Nat → UnmapSession) : TimelineState → List TimelineEvent → Bool
  | _, [] => true
  | st, e :: es => rollbackFresh sessions st e &&
    match timelineStep sessions st e with
    | some st' => freshRollbacks sessions st' es
    | none => true

/-! ## The values handed out on one image -/

/-- The values signalled on image `j`, oldest first. -/
def signalled (st : TimelineState) (j : Fin 4) : List (BitVec 64) :=
  (st.signals.filter fun x => x.1 == j).map Prod.snd

/-- The value session `s` holds on image `j` and has not signalled: reserved and not yet held,
or held by a hold that failed and not yet committed. -/
def pending (sessions : Nat → UnmapSession) (phase : Nat → UnmapPhase) (s : Nat) (j : Fin 4) :
    Option (BitVec 64) :=
  match phase s with
  | .reserved r => if Touched (sessions s).numImages (sessions s).willProcess j then some (r j) else none
  | .held r =>
    if Touched (sessions s).numImages (sessions s).willProcess j ∧ (sessions s).ok j = false
    then some (r j) else none
  | _ => none

/-- The values handed out on image `j` and still live are apart: the signalled ones are
distinct, each pending one is distinct from them and from the other sessions', and none is
above the counter. -/
structure DistinctValues (sessions : Nat → UnmapSession) (st : TimelineState) (j : Fin 4) :
    Prop where
  signalled_le : ∀ v ∈ signalled st j, v.toNat ≤ (st.frame.semValue j).toNat
  signalled_nodup : (signalled st j).Nodup
  pending_pos : ∀ s p, pending sessions st.phase s j = some p → 0 < p.toNat
  pending_le : ∀ s p, pending sessions st.phase s j = some p → p.toNat ≤ (st.frame.semValue j).toNat
  pending_not_signalled : ∀ s p, pending sessions st.phase s j = some p → p ∉ signalled st j
  pending_ne : ∀ s s' p p', s ≠ s' → pending sessions st.phase s j = some p →
    pending sessions st.phase s' j = some p' → p ≠ p'

/-! ## Counters that do not wrap -/

theorem toNat_add_one_of_lt {c : BitVec 64} (h : c.toNat + 1 < 2 ^ 64) :
    (c + 1).toNat = c.toNat + 1 := by
  rw [BitVec.toNat_add, show (1 : BitVec 64).toNat = 1 from rfl, Nat.mod_eq_of_lt h]

theorem toNat_sub_one_of_pos {r : BitVec 64} (h : 0 < r.toNat) : (r - 1).toNat = r.toNat - 1 := by
  have := r.isLt
  rw [BitVec.toNat_sub, show (1 : BitVec 64).toNat = 1 from rfl]
  omega

/-! ## What each event does to image `j` -/

section Events

variable {sessions : Nat → UnmapSession} {st : TimelineState} {j : Fin 4}

theorem signalled_append (f : AVVkFrame) (phase : Nat → UnmapPhase) (l : List (Fin 4 × BitVec 64)) :
    signalled ⟨f, phase, st.signals ++ l⟩ j =
      signalled st j ++ (l.filter fun x => x.1 == j).map Prod.snd := by
  simp [signalled]

theorem filter_indices_eq (j : Fin 4) : indices.filter (· == j) = [j] := by
  fin_cases j <;> rfl

/-- The holds of a session signal on image `j` at most its own reserved value. -/
theorem holdSignals_at (S : UnmapSession) (r : Fin 4 → BitVec 64) (j : Fin 4) :
    ((holdSignals S r).filter fun x => x.1 == j).map Prod.snd =
      if Touched S.numImages S.willProcess j ∧ S.ok j = true then [r j] else [] := by
  rw [holdSignals, List.filter_map, List.map_map, List.filter_filter]
  have : (indices.filter fun x => (x == j) && (decide (Touched S.numImages S.willProcess x) && S.ok x)) =
      ([j].filter fun x => decide (Touched S.numImages S.willProcess x) && S.ok x) := by
    rw [← filter_indices_eq j, List.filter_filter]
    congr 1; funext x; cases h : x == j <;> simp_all
  simp only [Function.comp_def, this]
  by_cases h : Touched S.numImages S.willProcess j ∧ S.ok j = true <;> simp_all

theorem pending_update_ne {phase : Nat → UnmapPhase} {s s' : Nat} (h : s' ≠ s) (x : UnmapPhase) :
    pending sessions (Function.update phase s x) s' j = pending sessions phase s' j := by
  simp [pending, Function.update_noteq h]

/-- An event that leaves the counter, the signals and the pending values of image `j` alone
keeps the invariant. -/
theorem DistinctValues.of_eq {st' : TimelineState} (h : DistinctValues sessions st j)
    (hc : st'.frame.semValue j = st.frame.semValue j) (hsig : signalled st' j = signalled st j)
    (hp : ∀ s, pending sessions st'.phase s j = pending sessions st.phase s j) :
    DistinctValues sessions st' j where
  signalled_le v hv := by rw [hc]; exact h.signalled_le v (hsig ▸ hv)
  signalled_nodup := hsig ▸ h.signalled_nodup
  pending_pos s p hp' := h.pending_pos s p (by rwa [← hp])
  pending_le s p hp' := by rw [hc]; exact h.pending_le s p (by rwa [← hp])
  pending_not_signalled s p hp' := by rw [hsig]; exact h.pending_not_signalled s p (by rwa [← hp])
  pending_ne s s' p p' hne h1 h2 := h.pending_ne s s' p p' hne (by rwa [← hp]) (by rwa [← hp])

/-- **The decoder's window** hands out the value above the counter and signals it. -/
theorem DistinctValues.decode (h : DistinctValues sessions st j) (k : Fin 4)
    (hbound : (st.frame.semValue j).toNat + 1 < 2 ^ 64) :
    DistinctValues sessions
      { st with
        frame := (OtherUpdate.reserve k).apply st.frame
        signals := st.signals ++ [(k, st.frame.semValue k + 1)] } j := by
  by_cases hk : k = j
  · subst hk
    have hc := toNat_add_one_of_lt hbound
    have hnew : st.frame.semValue k + 1 ∉ signalled st k := fun hm => by
      have := h.signalled_le _ hm; omega
    refine ⟨?_, ?_, h.pending_pos, ?_, ?_, h.pending_ne⟩ <;>
      simp only [signalled_append, OtherUpdate.apply, Function.update_same, List.filter_cons,
        beq_self_eq_true, if_true, List.filter_nil, List.map_cons, List.map_nil, hc]
    · intro v hv
      rcases List.mem_append.1 hv with hv | hv
      · have := h.signalled_le v hv; omega
      · rw [List.mem_singleton.1 hv, hc]
    · exact h.signalled_nodup.append (List.nodup_singleton _) fun v hv hv' => by
        rw [List.mem_singleton.1 hv'] at hv; exact hnew hv
    · intro s p hp; have := h.pending_le s p hp; omega
    · intro s p hp hm
      rcases List.mem_append.1 hm with hm | hm
      · exact h.pending_not_signalled s p hp hm
      · have := h.pending_le s p hp
        rw [List.mem_singleton.1 hm] at this; omega
  · refine h.of_eq ?_ ?_ fun _ => rfl
    · simp [OtherUpdate.apply, Function.update_noteq (Ne.symm hk)]
    · simp [signalled_append, hk]

/-- **A reservation window** hands out the value above the counter to the session. -/
theorem DistinctValues.reserve (h : DistinctValues sessions st j) {s : Nat}
    (hs : st.phase s = .idle) (hbound : (st.frame.semValue j).toNat + 1 < 2 ^ 64) :
    DistinctValues sessions
      { st with
        frame := (reserveWindow (sessions s).numImages (sessions s).willProcess st.frame).1
        phase := Function.update st.phase s
          (.reserved (reserveWindow (sessions s).numImages (sessions s).willProcess st.frame).2) }
      j := by
  have hold : ∀ p, pending sessions st.phase s j ≠ some p := by simp [pending, hs]
  by_cases ht : Touched (sessions s).numImages (sessions s).willProcess j
  · have hc := toNat_add_one_of_lt hbound
    have hnew : pending sessions (Function.update st.phase s
        (.reserved (reserveWindow (sessions s).numImages (sessions s).willProcess st.frame).2)) s j =
        some (st.frame.semValue j + 1) := by
      simp [pending, ht]
    have hpend : ∀ s' p, pending sessions (Function.update st.phase s
        (.reserved (reserveWindow (sessions s).numImages (sessions s).willProcess st.frame).2)) s' j =
          some p → (s' = s ∧ p = st.frame.semValue j + 1) ∨
            (s' ≠ s ∧ pending sessions st.phase s' j = some p) := by
      intro s' p hp
      by_cases hs' : s' = s
      · subst hs'; rw [hnew] at hp; exact .inl ⟨rfl, (Option.some.inj hp).symm⟩
      · rw [pending_update_ne hs'] at hp; exact .inr ⟨hs', hp⟩
    refine ⟨?_, h.signalled_nodup, ?_, ?_, ?_, ?_⟩ <;> simp only [reserveWindow_semValue, ht, if_true]
    · intro v hv; have := h.signalled_le v hv; omega
    · intro s' p hp
      rcases hpend s' p hp with ⟨-, rfl⟩ | ⟨-, hp⟩
      · omega
      · exact h.pending_pos s' p hp
    · intro s' p hp
      rcases hpend s' p hp with ⟨-, rfl⟩ | ⟨-, hp⟩
      · omega
      · have := h.pending_le s' p hp; omega
    · intro s' p hp
      rcases hpend s' p hp with ⟨-, rfl⟩ | ⟨-, hp⟩
      · exact fun hm => by have := h.signalled_le _ hm; omega
      · exact h.pending_not_signalled s' p hp
    · intro s₁ s₂ p₁ p₂ hne h₁ h₂
      rcases hpend s₁ p₁ h₁ with ⟨hs₁, rfl⟩ | ⟨hs₁, h₁⟩ <;>
        rcases hpend s₂ p₂ h₂ with ⟨hs₂, rfl⟩ | ⟨hs₂, h₂⟩
      · exact absurd (hs₁.trans hs₂.symm) hne
      · have := h.pending_le s₂ p₂ h₂
        exact fun e => by rw [← e] at this; omega
      · have := h.pending_le s₁ p₁ h₁
        exact fun e => by rw [e] at this; omega
      · exact h.pending_ne s₁ s₂ p₁ p₂ hne h₁ h₂
  · refine h.of_eq (by simp [ht]) rfl fun s' => ?_
    by_cases hs' : s' = s
    · subst hs'; simp [pending, ht, hs]
    · exact pending_update_ne hs' _

/-- **The holds** move the values of the successful ones from pending to signalled. -/
theorem DistinctValues.hold (h : DistinctValues sessions st j) {s : Nat}
    {r : Fin 4 → BitVec 64} (hs : st.phase s = .reserved r) :
    DistinctValues sessions
      { st with
        phase := Function.update st.phase s (.held r)
        signals := st.signals ++ holdSignals (sessions s) r } j := by
  by_cases ht : Touched (sessions s).numImages (sessions s).willProcess j ∧ (sessions s).ok j = true
  · have hmine : pending sessions st.phase s j = some (r j) := by simp [pending, hs, ht.1]
    have hsig : signalled { st with
        phase := Function.update st.phase s (.held r)
        signals := st.signals ++ holdSignals (sessions s) r } j = signalled st j ++ [r j] := by
      rw [signalled_append, holdSignals_at, if_pos ht]
    have hgone : ∀ s' p, pending sessions (Function.update st.phase s (.held r)) s' j = some p →
        s' ≠ s ∧ pending sessions st.phase s' j = some p := by
      intro s' p hp
      by_cases hs' : s' = s
      · subst hs'; simp [pending, ht.2] at hp
      · exact ⟨hs', by rwa [pending_update_ne hs'] at hp⟩
    refine ⟨?_, ?_, fun s' p hp => h.pending_pos s' p (hgone s' p hp).2,
      fun s' p hp => h.pending_le s' p (hgone s' p hp).2, ?_, fun s₁ s₂ p₁ p₂ hne h₁ h₂ =>
        h.pending_ne s₁ s₂ p₁ p₂ hne (hgone s₁ p₁ h₁).2 (hgone s₂ p₂ h₂).2⟩ <;> rw [hsig]
    · intro v hv
      rcases List.mem_append.1 hv with hv | hv
      · exact h.signalled_le v hv
      · rw [List.mem_singleton.1 hv]; exact h.pending_le s _ hmine
    · exact h.signalled_nodup.append (List.nodup_singleton _) fun v hv hv' => by
        rw [List.mem_singleton.1 hv'] at hv; exact h.pending_not_signalled s _ hmine hv
    · intro s' p hp hm
      obtain ⟨hs', hp⟩ := hgone s' p hp
      rcases List.mem_append.1 hm with hm | hm
      · exact h.pending_not_signalled s' p hp hm
      · exact h.pending_ne s' s p (r j) hs' hp hmine (List.mem_singleton.1 hm)
  · refine h.of_eq rfl ?_ fun s' => ?_
    · rw [signalled_append, holdSignals_at, if_neg ht, List.append_nil]
    · by_cases hs' : s' = s
      · subst hs'
        by_cases ht' : Touched (sessions s').numImages (sessions s').willProcess j
        · have hok : (sessions s').ok j = false := by simpa [ht'] using ht
          simp [pending, hs, ht', hok]
        · simp [pending, hs, ht']
      · exact pending_update_ne hs' _

/-- **A commit window** whose rollback is fresh hands the failed value back: the counter goes
down to just below it, and every other live value was already below it. -/
theorem DistinctValues.commit (h : DistinctValues sessions st j) {s : Nat}
    {r : Fin 4 → BitVec 64} (hs : st.phase s = .held r)
    (hfresh : Touched (sessions s).numImages (sessions s).willProcess j →
      (sessions s).ok j = false → st.frame.semValue j = r j) :
    DistinctValues sessions
      { st with
        frame := commitWindow (sessions s).numImages (sessions s).willProcess (sessions s).ok
          (sessions s).newLayout r st.frame
        phase := Function.update st.phase s .done } j := by
  have hgone : ∀ s' p, pending sessions (Function.update st.phase s .done) s' j = some p →
      s' ≠ s ∧ pending sessions st.phase s' j = some p := by
    intro s' p hp
    by_cases hs' : s' = s
    · subst hs'; simp [pending] at hp
    · exact ⟨hs', by rwa [pending_update_ne hs'] at hp⟩
  by_cases ht : Touched (sessions s).numImages (sessions s).willProcess j ∧ (sessions s).ok j = false
  · have hmine : pending sessions st.phase s j = some (r j) := by simp [pending, hs, ht]
    have hv := hfresh ht.1 ht.2
    have hpos := h.pending_pos s _ hmine
    have hc : (commitWindow (sessions s).numImages (sessions s).willProcess (sessions s).ok
        (sessions s).newLayout r st.frame).semValue j = r j - 1 := by
      simp [ht]
    -- a live value other than the failed one is below it
    have hbelow : ∀ x : BitVec 64, x.toNat ≤ (st.frame.semValue j).toNat → x ≠ r j →
        x.toNat ≤ (r j - 1).toNat := fun x hx hne => by
      rw [toNat_sub_one_of_pos hpos]
      rw [hv] at hx
      have : x.toNat ≠ (r j).toNat := fun e => hne (BitVec.eq_of_toNat_eq e)
      omega
    refine ⟨fun v hv' => ?_, h.signalled_nodup,
      fun s' p hp => h.pending_pos s' p (hgone s' p hp).2, fun s' p hp => ?_,
      fun s' p hp => h.pending_not_signalled s' p (hgone s' p hp).2,
      fun s₁ s₂ p₁ p₂ hne h₁ h₂ => h.pending_ne s₁ s₂ p₁ p₂ hne (hgone s₁ p₁ h₁).2 (hgone s₂ p₂ h₂).2⟩
    · rw [hc]
      exact hbelow v (h.signalled_le v hv') fun e => h.pending_not_signalled s _ hmine (e ▸ hv')
    · obtain ⟨hs', hp⟩ := hgone s' p hp
      rw [hc]
      exact hbelow p (h.pending_le s' p hp) (h.pending_ne s' s p (r j) hs' hp hmine)
  · refine h.of_eq (by simp [ht]) rfl fun s' => ?_
    by_cases hs' : s' = s
    · subst hs'
      have : pending sessions st.phase s' j = none := by
        simp only [pending, hs]; rw [if_neg ht]
      rw [this]; simp [pending]
    · exact pending_update_ne hs' _

end Events

/-! ## Runs -/

section Runs

variable {sessions : Nat → UnmapSession}

theorem rollbackFresh_commit {st : TimelineState} {s : Nat} {r : Fin 4 → BitVec 64}
    (h : rollbackFresh sessions st (.commit s) = true) (hs : st.phase s = .held r) {j : Fin 4}
    (ht : Touched (sessions s).numImages (sessions s).willProcess j)
    (hok : (sessions s).ok j = false) : st.frame.semValue j = r j := by
  simp only [rollbackFresh, hs, List.all_eq_true] at h
  simpa [ht, hok] using h j (mem_indices j)

/-- With every hold succeeding nothing is rolled back. -/
theorem freshRollbacks_of_holds_ok (hok : ∀ s j, (sessions s).ok j = true) :
    ∀ (st : TimelineState) (es : List TimelineEvent), freshRollbacks sessions st es = true
  | _, [] => rfl
  | st, e :: es => by
    have he : rollbackFresh sessions st e = true := by
      cases e with
      | commit s =>
        simp only [rollbackFresh]
        split <;> simp [hok]
      | _ => rfl
    simp only [freshRollbacks, he, Bool.true_and]
    split
    · exact freshRollbacks_of_holds_ok hok _ es
    · rfl

theorem distinctValues_init (f : AVVkFrame) (j : Fin 4) :
    DistinctValues sessions (timelineInit f) j where
  signalled_le := by simp [signalled, timelineInit]
  signalled_nodup := by simp [signalled, timelineInit]
  pending_pos := by simp [pending, timelineInit]
  pending_le := by simp [pending, timelineInit]
  pending_not_signalled := by simp [pending, timelineInit]
  pending_ne := by simp [pending, timelineInit]

/-- **One event keeps the invariant** and raises the counter by at most one. -/
theorem DistinctValues.step {st st' : TimelineState} {j : Fin 4} (h : DistinctValues sessions st j)
    {e : TimelineEvent} (hstep : timelineStep sessions st e = some st')
    (hfresh : rollbackFresh sessions st e = true)
    (hbound : (st.frame.semValue j).toNat + 1 < 2 ^ 64) :
    DistinctValues sessions st' j ∧
      (st'.frame.semValue j).toNat ≤ (st.frame.semValue j).toNat + 1 := by
  have hc := toNat_add_one_of_lt hbound
  cases e with
  | decode k =>
    cases hstep
    refine ⟨h.decode k hbound, ?_⟩
    by_cases hk : k = j
    · subst hk; simp only [OtherUpdate.apply, Function.update_same, hc]; omega
    · simp [OtherUpdate.apply, Function.update_noteq (Ne.symm hk)]
  | reserve s =>
    simp only [timelineStep] at hstep
    split at hstep
    · next hs =>
      cases hstep
      refine ⟨h.reserve hs hbound, ?_⟩
      simp only [reserveWindow_semValue]
      split_ifs <;> omega
    · cases hstep
  | hold s =>
    simp only [timelineStep] at hstep
    split at hstep
    · next r hs => cases hstep; exact ⟨h.hold hs, by simp⟩
    · cases hstep
  | commit s =>
    simp only [timelineStep] at hstep
    split at hstep
    · next r hs =>
      cases hstep
      refine ⟨h.commit hs (rollbackFresh_commit hfresh hs), ?_⟩
      simp only [commitWindow_semValue]
      split_ifs with ht
      · have hpos := h.pending_pos s (r j) (by simp [pending, hs, ht])
        rw [toNat_sub_one_of_pos hpos, ← rollbackFresh_commit hfresh hs ht.1 ht.2]
        omega
      · omega
    · cases hstep

/-- **A run keeps the invariant**, as long as its rollbacks are fresh and no counter wraps. -/
theorem DistinctValues.run (j : Fin 4) : ∀ (es : List TimelineEvent) (st st' : TimelineState),
    DistinctValues sessions st j → timelineRun sessions st es = some st' →
      freshRollbacks sessions st es = true → (st.frame.semValue j).toNat + es.length < 2 ^ 64 →
      DistinctValues sessions st' j
  | [], st, st', h, hrun, _, _ => by cases hrun; exact h
  | e :: es, st, st', h, hrun, hfresh, hbound => by
    obtain ⟨st₁, h₁, hrun⟩ := Option.bind_eq_some.1 hrun
    simp only [freshRollbacks, h₁, Bool.and_eq_true] at hfresh
    have hlen : (st.frame.semValue j).toNat + 1 + es.length < 2 ^ 64 := by
      simpa [Nat.add_assoc, Nat.add_comm 1] using hbound
    obtain ⟨hI, hc⟩ := h.step h₁ hfresh.1 (by omega)
    exact DistinctValues.run j es st₁ st' hI hrun hfresh.2 (by omega)

end Runs

/-- **No value is signalled twice.** In any run of the decoder's windows and of any number of
`mapper_unmap` sessions, interleaved at their lock windows, where every rollback finds the
counter at the value its session reserved and no counter wraps, the values signalled on each
image's semaphore are pairwise distinct. -/
theorem timeline_signals_distinct (sessions : Nat → UnmapSession) (f0 : AVVkFrame)
    (run : List TimelineEvent) (st : TimelineState)
    (hrun : timelineRun sessions (timelineInit f0) run = some st)
    (hfresh : freshRollbacks sessions (timelineInit f0) run = true)
    (hbound : ∀ j, (f0.semValue j).toNat + run.length < 2 ^ 64) (j : Fin 4) :
    (signalled st j).Nodup :=
  (DistinctValues.run j run _ st (distinctValues_init f0 j) hrun hfresh (hbound j)).signalled_nodup

-- Session 0's hold succeeds; session 1's fails while it is the last to reserve, and the
-- decoder reuses the value handed back.
theorem timeline_signals_distinct_rollback_reused :
    ∃ st, timelineRun (fun s => ⟨1, fun _ => true, fun _ => decide (s = 0), fun _ => 0⟩)
        (timelineInit ⟨fun _ => 1, fun _ => 0, fun _ => 9, fun _ => 41, fun _ => 0⟩)
        [.reserve 0, .hold 0, .reserve 1, .hold 1, .commit 1, .decode 0, .commit 0] = some st ∧
      freshRollbacks (fun s => ⟨1, fun _ => true, fun _ => decide (s = 0), fun _ => 0⟩)
        (timelineInit ⟨fun _ => 1, fun _ => 0, fun _ => 9, fun _ => 41, fun _ => 0⟩)
        [.reserve 0, .hold 0, .reserve 1, .hold 1, .commit 1, .decode 0, .commit 0] = true ∧
      (∀ j, ((fun _ => 41 : Fin 4 → BitVec 64) j).toNat + 7 < 2 ^ 64) ∧
      (signalled st 0).Nodup :=
  ⟨_, rfl, by decide, by decide, timeline_signals_distinct
    (fun s => ⟨1, fun _ => true, fun _ => decide (s = 0), fun _ => 0⟩)
    ⟨fun _ => 1, fun _ => 0, fun _ => 9, fun _ => 41, fun _ => 0⟩
    [.reserve 0, .hold 0, .reserve 1, .hold 1, .commit 1, .decode 0, .commit 0] _ rfl (by decide)
    (by decide) 0⟩

/-- **A rollback after another party's reservation re-issues its value.** When a session whose
hold on image `j` failed commits after the next value was signalled, the counter goes back
below that value: two decodes of `j` signal it a second time. -/
theorem rollback_reissues_signal (sessions : Nat → UnmapSession) (st : TimelineState) (s : Nat)
    (r : Fin 4 → BitVec 64) (j : Fin 4) (hs : st.phase s = .held r)
    (ht : Touched (sessions s).numImages (sessions s).willProcess j)
    (hok : (sessions s).ok j = false) (hnext : r j + 1 ∈ signalled st j) :
    ∃ st', timelineRun sessions st [.commit s, .decode j, .decode j] = some st' ∧
      ¬ (signalled st' j).Nodup := by
  simp only [timelineRun, timelineStep, hs, Option.some_bind]
  refine ⟨_, rfl, fun hnd => ?_⟩
  simp only [signalled_append, OtherUpdate.apply, Function.update_same, commitWindow_semValue, ht,
    hok, and_self, if_true, BitVec.sub_add_cancel, List.filter_cons, beq_self_eq_true,
    List.filter_nil, List.map_cons, List.map_nil, List.append_assoc, List.singleton_append] at hnd
  exact (List.nodup_append.1 hnd).2.2 hnext (List.mem_cons_of_mem _ (List.mem_singleton_self _))

-- Session 0 reserved 42 and its hold failed; the decoder then took and signalled 43.
theorem rollback_reissues_signal_decoder_between :
    ∃ st', timelineRun (fun _ => ⟨1, fun _ => true, fun _ => false, fun _ => 0⟩)
        ⟨⟨fun _ => 1, fun _ => 0, fun _ => 9, fun _ => 43, fun _ => 0⟩,
          fun n => if n = 0 then .held fun _ => 42 else .idle, [(0, 43)]⟩
        [.commit 0, .decode 0, .decode 0] = some st' ∧ ¬ (signalled st' 0).Nodup :=
  rollback_reissues_signal _ _ 0 (fun _ => 42) 0 rfl (by decide) rfl (by decide)

/-- **`mapper_unmap` is one session run alone.** Once its first loop and its hold loop have
run, the frame it writes back is the frame after `reserve`, `hold` and `commit` of the session
made of its `num_images`, `will_process[]` and its holds' `ok[]` and `new_layout[]`. -/
theorem mapperUnmap_timeline {holdEx : HoldEx} {m : RaHwdecMapper} {w : World} {src : HwImage}
    {ref : FrameRef} {wp : Fin 4 → Bool} {s : HoldState} (hsrc : m.src = some src)
    (hvkf : m.priv.vkf = some ref) (hwp : markWillProcess m.priv = .ok wp)
    (hs : holdLoop m.priv (reserveWindow m.priv.numImages wp (w.frames ref)).2 holdEx = .ok s) :
    ∃ r st, mapperUnmap holdEx m w = .ok r ∧
      timelineRun (fun _ => ⟨m.priv.numImages, wp, s.ok, s.newLayout⟩) (timelineInit (w.frames ref))
        [.reserve 0, .hold 0, .commit 0] = some st ∧ r.2.frames ref = st.frame :=
  ⟨_, _, mapperUnmap_eq hsrc hvkf hwp hs, rfl, by simp [unmapEnd, timelineInit]⟩

end Dmpv.Hwdec
