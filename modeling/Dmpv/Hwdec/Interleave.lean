import Dmpv.Hwdec.Unmap
import Mathlib.Data.BitVec
import Mathlib.Tactic.Ring

/- `mapper_unmap` against other users of the same frame (`video/out/hwdec/hwdec_vulkan.c`,
   lines 350-356 and 384-395).

   `mapper_unmap` takes the frame's lock twice: to reserve a signal value per touched
   image, and, after the unlocked `pl_vulkan_hold_ex` calls, to commit the new layout or
   roll the reservation back. Any other party (the decoder, another consumer) may take
   the lock in between. At the granularity of lock windows a run is: the others'
   updates `pre`, the reservation window, the others' updates `mid`, the commit window,
   the others' updates `post` (`unmapInterleaved`); its two windows are the functions
   `mapper_unmap` itself applies (`mapperUnmap_frame`).

   What holds for a touched image `j` (`unmap_interleaved_updates`):

   * when this session's hold succeeded, no increment is lost: the counter ends at its
     first value plus every other party's increments plus one; the layout is the hold's,
     then whatever `post` writes: a layout written in `mid` is overwritten
     (`commit_overwrites_layout`);
   * when the hold failed, the commit does not write the layout.

   The rollback writes the absolute value `reserved_sem_value[j] - 1` read in the first
   window, so the increments made in `mid` are lost (`rollback_loses_increments`). -/

namespace Dmpv.Hwdec

/-- A lock-protected update of the frame by another party. -/
inductive OtherUpdate where
  /-- Another party reserves its own signal value: `++vkf->sem_value[j]`. -/
  | reserve (j : Fin 4)
  /-- Another party records a layout: `vkf->layout[j] = l`. -/
  | setLayout (j : Fin 4) (l : VkImageLayout)
  deriving DecidableEq, Repr

def OtherUpdate.apply : OtherUpdate → AVVkFrame → AVVkFrame
  | .reserve j, f => { f with semValue := Function.update f.semValue j (f.semValue j + 1) }
  | .setLayout j l, f => { f with layout := Function.update f.layout j l }

/-- The others' updates applied in order. -/
def applyUpdates (us : List OtherUpdate) (f : AVVkFrame) : AVVkFrame :=
  us.foldl (fun f u => u.apply f) f

/-- How many of `us` increment the counter of image `j`. -/
def increments (j : Fin 4) (us : List OtherUpdate) : Nat :=
  us.countP (· == .reserve j)

/-- The layout of image `j` after `us`, starting from `l`. -/
def lastLayout (j : Fin 4) : List OtherUpdate → VkImageLayout → VkImageLayout
  | [], l => l
  | .setLayout k l' :: us, l => lastLayout j us (if k = j then l' else l)
  | .reserve _ :: us, l => lastLayout j us l

/-- `mapper_unmap`'s two windows on a frame, with the others' updates `pre`, `mid` and `post`
around them; `ok` and `newLayout` are what its holds reported. -/
def unmapInterleaved (numImages : Nat) (willProcess ok : Fin 4 → Bool)
    (newLayout : Fin 4 → VkImageLayout) (pre mid post : List OtherUpdate) (f0 : AVVkFrame) :
    AVVkFrame :=
  let r := reserveWindow numImages willProcess (applyUpdates pre f0)
  applyUpdates post (commitWindow numImages willProcess ok newLayout r.2 (applyUpdates mid r.1))

/-- **`mapper_unmap` is the run with no other party.** Once its first loop and its hold loop
have run, `mapper_unmap` returns, and the frame it writes back is `unmapInterleaved` with
nothing between its windows. -/
theorem mapperUnmap_frame {holdEx : HoldEx} {m : RaHwdecMapper} {w : World} {src : HwImage}
    {ref : FrameRef} {wp : Fin 4 → Bool} {s : HoldState} (hsrc : m.src = some src)
    (hvkf : m.priv.vkf = some ref) (hwp : markWillProcess m.priv = .ok wp)
    (hs : holdLoop m.priv (reserveWindow m.priv.numImages wp (w.frames ref)).2 holdEx = .ok s) :
    ∃ r, mapperUnmap holdEx m w = .ok r ∧
      r.2.frames ref = unmapInterleaved m.priv.numImages wp s.ok s.newLayout [] [] [] (w.frames ref) :=
  ⟨_, mapperUnmap_eq hsrc hvkf hwp hs, by simp [unmapEnd, unmapInterleaved, applyUpdates]⟩

/-! ## The others' updates -/

theorem applyUpdates_semValue (j : Fin 4) :
    ∀ (us : List OtherUpdate) (f : AVVkFrame),
      (applyUpdates us f).semValue j = f.semValue j + (increments j us : BitVec 64)
  | [], f => by simp [applyUpdates, increments]
  | u :: us, f => by
    have ih := applyUpdates_semValue j us (u.apply f)
    simp only [applyUpdates, List.foldl_cons] at ih ⊢
    rw [ih]
    cases u with
    | reserve k =>
      by_cases hk : k = j
      · subst hk; simp [OtherUpdate.apply, increments, List.countP_cons]; ring
      · simp [OtherUpdate.apply, increments, List.countP_cons, Function.update_noteq (Ne.symm hk), hk]
    | setLayout k l => simp [OtherUpdate.apply, increments, List.countP_cons]

theorem applyUpdates_layout (j : Fin 4) :
    ∀ (us : List OtherUpdate) (f : AVVkFrame),
      (applyUpdates us f).layout j = lastLayout j us (f.layout j)
  | [], f => rfl
  | u :: us, f => by
    have ih := applyUpdates_layout j us (u.apply f)
    simp only [applyUpdates, List.foldl_cons] at ih ⊢
    rw [ih]
    cases u with
    | reserve k => rfl
    | setLayout k l =>
      simp only [lastLayout, OtherUpdate.apply]
      by_cases hk : k = j
      · subst hk; simp
      · simp [hk, Function.update_noteq (Ne.symm hk)]

theorem lastLayout_append (j : Fin 4) (us vs : List OtherUpdate) (l : VkImageLayout) :
    lastLayout j (us ++ vs) l = lastLayout j vs (lastLayout j us l) := by
  induction us generalizing l with
  | nil => rfl
  | cons u us ih => cases u <;> simp [lastLayout, ih]

/-! ## The interleaved run -/

/-- **No lost increment, and whose layout wins.** For a touched image, after any interleaving
of the others' updates with `mapper_unmap`'s two windows: if the hold succeeded, the counter is
the first one plus all the others' increments plus one, and the layout is the hold's with only
`post`'s writes after it; if the hold failed, the layout is what the others made of it. An
image that is not touched gets only the others' updates. -/
theorem unmap_interleaved_updates (numImages : Nat) (willProcess ok : Fin 4 → Bool)
    (newLayout : Fin 4 → VkImageLayout) (pre mid post : List OtherUpdate) (f0 : AVVkFrame)
    (j : Fin 4) :
    (Touched numImages willProcess j → ok j = true →
        (unmapInterleaved numImages willProcess ok newLayout pre mid post f0).semValue j =
            f0.semValue j + (increments j (pre ++ mid ++ post) : BitVec 64) + 1 ∧
          (unmapInterleaved numImages willProcess ok newLayout pre mid post f0).layout j =
            lastLayout j post (newLayout j)) ∧
      (Touched numImages willProcess j → ok j = false →
        (unmapInterleaved numImages willProcess ok newLayout pre mid post f0).layout j =
          lastLayout j (pre ++ mid ++ post) (f0.layout j)) ∧
      (¬ Touched numImages willProcess j →
        (unmapInterleaved numImages willProcess ok newLayout pre mid post f0).semValue j =
            f0.semValue j + (increments j (pre ++ mid ++ post) : BitVec 64) ∧
          (unmapInterleaved numImages willProcess ok newLayout pre mid post f0).layout j =
            lastLayout j (pre ++ mid ++ post) (f0.layout j)) := by
  simp only [unmapInterleaved, applyUpdates_semValue, applyUpdates_layout, commitWindow_semValue,
    commitWindow_layout, reserveWindow_semValue, reserveWindow_layout, lastLayout_append,
    increments, List.countP_append]
  refine ⟨fun ht hok => ?_, fun ht hok => ?_, fun ht => ?_⟩
  · simp only [ht, hok, true_and, if_true, Bool.true_eq_false, and_false, if_false, and_true]
    push_cast; ring
  · simp [ht, hok]
  · simp only [ht, false_and, if_false, and_true]
    push_cast; ring

/-- A layout another party writes between the two windows is overwritten by the commit
window when the hold succeeded. -/
theorem commit_overwrites_layout :
    (unmapInterleaved 1 (fun _ => true) (fun _ => true) (fun _ => 5) [] [.setLayout 0 7] []
      ⟨fun _ => 1, fun _ => 0, fun _ => 100, fun _ => 0, fun _ => 0⟩).layout 0 = 5 := rfl

/-- **The rollback forgets the window.** When the hold on a touched image failed, its counter
ends at the first value plus the increments of `pre` and `post` only: those made between the
two windows are undone by `sem_value[j] = reserved_sem_value[j] - 1`. -/
theorem rollback_loses_increments (numImages : Nat) (willProcess ok : Fin 4 → Bool)
    (newLayout : Fin 4 → VkImageLayout) (pre mid post : List OtherUpdate) (f0 : AVVkFrame)
    (j : Fin 4) (ht : Touched numImages willProcess j) (hok : ok j = false) :
    (unmapInterleaved numImages willProcess ok newLayout pre mid post f0).semValue j =
      f0.semValue j + (increments j (pre ++ post) : BitVec 64) := by
  simp only [unmapInterleaved, applyUpdates_semValue, commitWindow_semValue, reserveWindow_reserved,
    increments, List.countP_append]
  simp only [ht, hok, and_self, if_true]
  push_cast; ring

/-- Another party reserves image 0 between the windows of an unmap whose hold failed: its
increment is undone, the counter ends where it began. -/
theorem rollback_loses_increments_one_reserve :
    Touched 1 (fun _ => true) 0 ∧
      (unmapInterleaved 1 (fun _ => true) (fun _ => false) (fun _ => 5) [] [.reserve 0] []
        ⟨fun _ => 1, fun _ => 0, fun _ => 100, fun _ => 41, fun _ => 0⟩).semValue 0 = 41 :=
  ⟨by decide, (rollback_loses_increments 1 (fun _ => true) (fun _ => false) (fun _ => 5) [] [.reserve 0]
    [] ⟨fun _ => 1, fun _ => 0, fun _ => 100, fun _ => 41, fun _ => 0⟩ 0 (by decide) rfl).trans rfl⟩

end Dmpv.Hwdec
