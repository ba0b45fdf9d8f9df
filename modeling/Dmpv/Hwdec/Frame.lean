import Dmpv.Basic
import Mathlib.Logic.Function.Basic
import Mathlib.Tactic.FinCases

/- The state the Vulkan frame mapper works on (`video/out/hwdec/hwdec_vulkan.c`,
   lines 36-45 and 324-503), and the pieces both `mapper_map` and `mapper_unmap` are
   built from.

   A decoded frame is an `AVVkFrame` owned by FFmpeg and reached through a pointer; the
   mapper copies a snapshot of it into its private state (`struct vulkan_mapper_priv`)
   when it maps, and writes the frame back in two windows under the frame's lock when
   it unmaps. Fixed arrays of four entries are functions on `Fin 4`; the frames live in
   a store indexed by pointer, so that a NULL frame pointer is `none` and a call on it
   is visible. What the mapper cannot do is a `Fault`.

   This module defines

   1. the frame, the private state, the mapper and the world around it;
   2. `planeImage`, the plane-to-image rule both functions apply
      (`p->layout.num_planes > 1 && num_images == 1 ? 0 : i`);
   3. `texScan`, the loop `for (int i = 0; p->tex[i] != NULL; i++)` of `mapper_unmap`,
      which reads `p->tex[4]` when the four entries are all set;
   4. `reserveWindow` and `commitWindow`, the two lock windows of `mapper_unmap`, as
      functions of the frame, with one lemma per field. -/

namespace Dmpv.Hwdec

/-! ## Handles and the frame -/

/-- Vulkan handles and enums the mapper copies but never looks into: `VkImage`,
`VkSemaphore`, `VkImageLayout`, `VkFormat`, `VkImageUsageFlags`. `0` is `VK_NULL_HANDLE`. -/
abbrev VkImage := Nat
abbrev VkSemaphore := Nat
abbrev VkImageLayout := Nat
abbrev VkFormat := Nat

/-- A `pl_tex` handle, and an `ra_tex` (numbered by allocation). -/
abbrev PlTex := Nat
abbrev RaTex := Nat

abbrev FrameRef := Nat

/-- An `AVVkFrame`, as far as the mapper reads and writes it: the first four entries of its
per-image arrays (the mapper never indexes past 3). -/
structure AVVkFrame where
  img : Fin 4 → VkImage
  layout : Fin 4 → VkImageLayout
  sem : Fin 4 → VkSemaphore
  semValue : Fin 4 → BitVec 64
  access : Fin 4 → Nat

/-- The fields of the frames context (`AVHWFramesContext` and its `AVVulkanFramesContext`)
that `mapper_map` reads. -/
structure AVHWFramesContext where
  width : Nat
  height : Nat
  usage : Nat

/-- The hardware `mp_image` in `mapper->src`: its frames context and `planes[0]`, the frame. -/
structure HwImage where
  hwfc : AVHWFramesContext
  vkf : FrameRef

/-- `p->layout`: the software layout of the mapped format; only `num_planes` is read, and an
`mp_image` has at most `MP_MAX_PLANES = 4` planes. -/
structure MpImageLayout where
  numPlanes : Nat
  numPlanes_le : numPlanes ≤ 4

structure VulkanMapperPriv where
  layout : MpImageLayout
  vkf : Option FrameRef
  tex : Fin 4 → Option PlTex
  img : Fin 4 → VkImage
  imgLayout : Fin 4 → VkImageLayout
  sem : Fin 4 → VkSemaphore
  semValue : Fin 4 → BitVec 64
  numImages : Nat

/-- The fields of `struct ra_hwdec_mapper` the driver uses: `src`, `tex[4]` and `priv`. -/
structure RaHwdecMapper where
  src : Option HwImage
  tex : Fin 4 → Option RaTex
  priv : VulkanMapperPriv

inductive Aspect where
  | color
  | plane0
  | plane1
  | plane2
  deriving DecidableEq, Repr

structure PlVulkanWrapParams where
  image : VkImage
  width : Nat
  height : Nat
  format : VkFormat
  usage : Nat
  aspect : Aspect
  deriving DecidableEq, Repr

/-- The semaphore and value of a `pl_vulkan_release_params` or `pl_vulkan_hold_params`. -/
structure PlVulkanSem where
  sem : VkSemaphore
  value : BitVec 64
  deriving DecidableEq, Repr

/-- The libplacebo calls the mapper makes: `pl_vulkan_release_ex` with the texture, the layout
it is in and the semaphore to wait on, `pl_vulkan_hold_ex` with the texture and the semaphore
value to signal. -/
inductive PlCall where
  | wrap (params : PlVulkanWrapParams)
  | release (tex : PlTex) (layout : VkImageLayout) (sem : PlVulkanSem)
  | hold (tex : PlTex) (sem : PlVulkanSem)
  | destroy (tex : PlTex)
  deriving DecidableEq, Repr

/-- Everything outside the mapper that it changes: the decoder's frames, the libplacebo calls
made so far (oldest first), the `ra_tex` allocator and the `ra_tex`s freed (oldest first). -/
structure World where
  frames : FrameRef → AVVkFrame
  plCalls : List PlCall
  raNext : RaTex
  raFreed : List RaTex

/-- What the mapper does that C leaves undefined: `vkfc->lock_frame(hwfc, vkf)` with
`vkf == NULL`, which FFmpeg's lock dereferences; the loop condition `p->tex[i] != NULL` reading
`p->tex[4]`, past the array; and `mapper_map` dereferencing a NULL `mapper->src`. -/
inductive Fault where
  | nullFrame
  | texOutOfBounds
  | nullSrc
  deriving DecidableEq, Repr

/-! ## The plane-to-image rule -/

/-- The image of plane `i`: `p->layout.num_planes > 1 && num_images == 1 ? 0 : i`. -/
def planeImage (numPlanes numImages : Nat) (i : Fin 4) : Fin 4 :=
  if numPlanes > 1 ∧ numImages = 1 then 0 else i

def indices : List (Fin 4) := [0, 1, 2, 3]

@[simp] theorem mem_indices (j : Fin 4) : j ∈ indices := by
  fin_cases j <;> decide

/-! ## The sentinel loop over `p->tex` -/

/-- `for (int i = 0; (p->tex[i] != NULL); i++) body`, over the indices `is` still to come. The
body only changes the entry it is at, so reading the condition from the array as it was
before the loop reads what the loop reads. With no index left the condition reads past the
array. -/
def texScan {σ : Type} (tex : Fin 4 → Option PlTex) (body : Fin 4 → PlTex → σ → σ) :
    List (Fin 4) → σ → Except Fault σ
  | [], _ => .error .texOutOfBounds
  | i :: is, s =>
    match tex i with
    | none => .ok s
    | some t => texScan tex body is (body i t s)

/-! ## The lock windows of `mapper_unmap` -/

/-- Image `i` is touched: `i < num_images` and `will_process[i]`. -/
def Touched (numImages : Nat) (willProcess : Fin 4 → Bool) (i : Fin 4) : Prop :=
  i.val < numImages ∧ willProcess i = true

instance (numImages : Nat) (willProcess : Fin 4 → Bool) (i : Fin 4) :
    Decidable (Touched numImages willProcess i) :=
  inferInstanceAs (Decidable (_ ∧ _))

/-- The reservation window: `reserved_sem_value[i] = ++vkf->sem_value[i]` for each touched
image (`reserved_sem_value` is zero elsewhere). -/
def reserveWindow (numImages : Nat) (willProcess : Fin 4 → Bool) (f : AVVkFrame) :
    AVVkFrame × (Fin 4 → BitVec 64) :=
  ({ f with semValue := fun i =>
      if Touched numImages willProcess i then f.semValue i + 1 else f.semValue i },
   fun i => if Touched numImages willProcess i then f.semValue i + 1 else 0)

/-- The commit window: for each touched image, the new layout if its hold succeeded and the
counter set back to `reserved_sem_value[i] - 1` if it failed; `access[i] = 0` for every image. -/
def commitWindow (numImages : Nat) (willProcess : Fin 4 → Bool) (ok : Fin 4 → Bool)
    (newLayout : Fin 4 → VkImageLayout) (reserved : Fin 4 → BitVec 64) (f : AVVkFrame) :
    AVVkFrame :=
  { f with
    layout := fun i =>
      if Touched numImages willProcess i ∧ ok i = true then newLayout i else f.layout i
    semValue := fun i =>
      if Touched numImages willProcess i ∧ ok i = false then reserved i - 1 else f.semValue i
    access := fun i => if i.val < numImages then 0 else f.access i }

section Windows

variable {numImages : Nat} {willProcess ok : Fin 4 → Bool} {newLayout : Fin 4 → VkImageLayout}
  {reserved : Fin 4 → BitVec 64} {f : AVVkFrame} {i : Fin 4}

@[simp] theorem reserveWindow_semValue :
    (reserveWindow numImages willProcess f).1.semValue i =
      if Touched numImages willProcess i then f.semValue i + 1 else f.semValue i := rfl

@[simp] theorem reserveWindow_layout :
    (reserveWindow numImages willProcess f).1.layout = f.layout := rfl

@[simp] theorem reserveWindow_access :
    (reserveWindow numImages willProcess f).1.access = f.access := rfl

@[simp] theorem reserveWindow_reserved :
    (reserveWindow numImages willProcess f).2 i =
      if Touched numImages willProcess i then f.semValue i + 1 else 0 := rfl

@[simp] theorem commitWindow_layout :
    (commitWindow numImages willProcess ok newLayout reserved f).layout i =
      if Touched numImages willProcess i ∧ ok i = true then newLayout i else f.layout i := rfl

@[simp] theorem commitWindow_semValue :
    (commitWindow numImages willProcess ok newLayout reserved f).semValue i =
      if Touched numImages willProcess i ∧ ok i = false then reserved i - 1
      else f.semValue i := rfl

@[simp] theorem commitWindow_access :
    (commitWindow numImages willProcess ok newLayout reserved f).access i =
      if i.val < numImages then 0 else f.access i := rfl

end Windows

end Dmpv.Hwdec
