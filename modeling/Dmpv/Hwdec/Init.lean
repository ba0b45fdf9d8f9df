import Dmpv.Hwdec.QueueFamily

/- `vulkan_init` (`video/out/hwdec/hwdec_vulkan.c`, lines 70-276): the decode device is
   built on the renderer's own Vulkan device and registered with the player.

   The run is a straight line with early exits. What it does to the outside is a list of
   `InitEffect`s: the allocations of `qf`, `qf_vid`, `hw_device_ctx` and the queue-lock
   context, the frees of the `error:` label (`talloc_free` and `av_buffer_unref` of a
   NULL pointer do nothing, so only non-NULL pointers are freed), and the call of
   `hwdec_devices_add`. The outcomes of the calls into libplacebo and FFmpeg are the
   fields of a `VulkanInitEnv`, each free. A multi-queue build on a device with 62 or more
   decode-capable families writes past `device_hwctx->qf[64]` before `av_hwdevice_ctx_init`:
   that run is the fault `qfOutOfBounds`.

   The runs are listed once (`vulkanInit_effects`): an early return or an unwind through
   `error:` unless every call succeeds, the fault, or the registration. From that list,

   1. `vulkan_init_registers_iff` characterises the runs that register a device: a
      libplacebo Vulkan context, the `VK_KHR_video_decode_queue` extension, at least one
      queue family, both allocations, and `av_hwdevice_ctx_init` succeeding. Nothing asks
      for a decode-capable family: with none, the legacy strategy passes decode index
      `-1` and the multi-queue one passes only three entries, and FFmpeg decides
      (`registers_without_decode_family`). On every other run nothing is registered and
      `qf`, `qf_vid` and `hw_device_ctx` are freed as often as they were allocated;
   2. `vulkan_uninit` (lines 278-290) completes every run that does not fault: after it, each
      resource is freed as often as it was allocated, the queue-lock context included, which
      `vulkan_init` never frees, on `error:` either (`vulkan_init_uninit_released`). -/

namespace Dmpv.Hwdec

inductive Resource where
  | qf
  | qfVid
  | hwDeviceCtx
  | lockCtx
  deriving DecidableEq, Repr

/-- The queue-family part of `AVVulkanDeviceContext`, as the build's libavutil has it. -/
inductive QueueAssignment where
  | multi (d : DeviceQueueFamilies)
  | legacy (l : LegacyQueueFamilies)
  deriving DecidableEq, Repr

/-- The fields of `AVVulkanDeviceContext` that `vulkan_init` sets and the rest of the player
reads: the queue lock hooks (installed, as `lock_queue` / `unlock_queue`), the enabled device
extensions, and the queue families. -/
structure AVVulkanDeviceContext where
  queueLockHooks : Bool
  enabledDevExtensions : List String
  queues : QueueAssignment
  deriving DecidableEq, Repr

structure MpHwdecCtx where
  driverName : String
  avDeviceRef : AVVulkanDeviceContext
  hwImgfmt : String
  deriving DecidableEq, Repr

/-- What `vulkan_init` does outside itself, in order; `register` is `hwdec_devices_add`. -/
inductive InitEffect where
  | alloc (r : Resource)
  | free (r : Resource)
  | register (ctx : MpHwdecCtx)
  deriving DecidableEq, Repr

/-- What `vulkan_init` cannot do: the multi-queue loop writes past `device_hwctx->qf[64]`. -/
inductive InitFault where
  | qfOutOfBounds
  deriving DecidableEq, Repr

/-- The outcomes of everything `vulkan_init` asks of libplacebo, Vulkan and FFmpeg: whether
`ra_vk_ctx_get` and `ra_pl_get` return non-NULL, the device extensions, libplacebo's graphics,
transfer and compute families, what `vkGetPhysicalDeviceQueueFamilyProperties2` reports,
whether `av_hwdevice_ctx_alloc` and the queue-lock `talloc_zero` return non-NULL, the return
value of `av_hwdevice_ctx_init`, and whether the build's libavutil is 59.34.100 or later. -/
structure VulkanInitEnv where
  vkCtx : Bool
  gpu : Bool
  extensions : List String
  queues : PlVulkanQueues
  queueFamilies : List QueueFamilyProperties
  hwDeviceCtxAlloc : Bool
  lockCtxAlloc : Bool
  hwdeviceCtxInit : Int
  newQueueApi : Bool

/-- The queue families `vulkan_init` writes into the device context, or `none` where it writes
past `qf`. -/
def assignQueues (env : VulkanInitEnv) : Option QueueAssignment :=
  if env.newQueueApi then (assignQueuesMulti env.queues env.queueFamilies).map .multi
  else some (.legacy (assignQueuesLegacy env.queues env.queueFamilies))

/-- The `error:` label after `qf` and `qf_vid` were allocated; `hwDeviceCtx` says whether
`hw_device_ctx` was. -/
def errorLabel (hwDeviceCtx : Bool) : List InitEffect :=
  [.free .qf, .free .qfVid] ++ if hwDeviceCtx then [.free .hwDeviceCtx] else []

def vulkanInit (env : VulkanInitEnv) : Except InitFault (Int × List InitEffect) :=
  if !env.vkCtx then .ok (0, []) else
  if !env.gpu then .ok (0, []) else
  if !env.extensions.contains "VK_KHR_video_decode_queue" then .ok (0, []) else
  -- `num_qf == 0`: `goto error` with every pointer still NULL
  if env.queueFamilies.length = 0 then .ok (-1, []) else
  let allocs : List InitEffect := [.alloc .qf, .alloc .qfVid]
  if !env.hwDeviceCtxAlloc then .ok (-1, allocs ++ errorLabel false) else
  let allocs := allocs ++ [.alloc .hwDeviceCtx]
  if !env.lockCtxAlloc then .ok (-1, allocs ++ errorLabel true) else
  let allocs := allocs ++ [.alloc .lockCtx]
  match assignQueues env with
  | none => .error .qfOutOfBounds
  | some queues =>
    let device : AVVulkanDeviceContext := ⟨true, env.extensions, queues⟩
    if env.hwdeviceCtxInit < 0 then .ok (-1, allocs ++ errorLabel true) else
    .ok (0, allocs ++ [.register ⟨"vulkan", device, "IMGFMT_VULKAN"⟩, .free .qf, .free .qfVid])

/-! ## The runs -/

def ReachesAssignment (env : VulkanInitEnv) : Prop :=
  env.vkCtx = true ∧ env.gpu = true ∧ "VK_KHR_video_decode_queue" ∈ env.extensions ∧
    env.queueFamilies ≠ [] ∧ env.hwDeviceCtxAlloc = true ∧ env.lockCtxAlloc = true

/-- A multi-queue build on a device with more decode-capable families than `qf` has room for
after libplacebo's three. -/
def OverflowsQf (env : VulkanInitEnv) : Prop :=
  env.newQueueApi = true ∧ qfCapacity < 3 + (decodeFamilies env.queueFamilies 0).length

theorem assignQueues_eq_none_iff (env : VulkanInitEnv) :
    assignQueues env = none ↔ OverflowsQf env := by
  unfold assignQueues OverflowsQf
  cases env.newQueueApi
  · simp
  · rw [if_pos rfl, assignQueuesMulti_eq]
    split_ifs with h
    · simpa using h
    · simpa using Nat.lt_of_not_le h

/-- What the device context receives on a device without a decode-capable family: libplacebo's
three families in `qf`, or, before libavutil 59.34.100, decode index `-1` with no decode
queues. -/
def queuesWithoutDecode (vk : PlVulkanQueues) (newQueueApi : Bool) : QueueAssignment :=
  if newQueueApi then
    .multi ⟨[plQueueFamily vk.queueGraphics vkQueueGraphicsBit,
      plQueueFamily vk.queueTransfer vkQueueTransferBit,
      plQueueFamily vk.queueCompute vkQueueComputeBit], 3⟩
  else
    .legacy ⟨vk.queueGraphics.index, vk.queueGraphics.count, vk.queueTransfer.index,
      vk.queueTransfer.count, vk.queueCompute.index, vk.queueCompute.count, -1, 0⟩

theorem assignQueues_without_decode (env : VulkanInitEnv)
    (h : decodeFamilies env.queueFamilies 0 = []) :
    assignQueues env = some (queuesWithoutDecode env.queues env.newQueueApi) := by
  unfold assignQueues queuesWithoutDecode
  cases env.newQueueApi
  · simp [assignQueuesLegacy, scanDecodeIndex_eq, h]
  · simp [assignQueuesMulti_eq, h, qfCapacity]

def unwindAllocated : List InitEffect :=
  [.alloc .qf, .alloc .qfVid, .alloc .hwDeviceCtx, .alloc .lockCtx] ++ errorLabel true

/-- The effects of the runs that register nothing: the early returns, which allocate nothing,
and the unwinds through `error:` after the allocations made so far. -/
def unwindEffects : List (List InitEffect) :=
  [[], [.alloc .qf, .alloc .qfVid] ++ errorLabel false,
    [.alloc .qf, .alloc .qfVid, .alloc .hwDeviceCtx] ++ errorLabel true, unwindAllocated]

def registerEffects (env : VulkanInitEnv) (q : QueueAssignment) : List InitEffect :=
  [.alloc .qf, .alloc .qfVid, .alloc .hwDeviceCtx, .alloc .lockCtx,
    .register ⟨"vulkan", ⟨true, env.extensions, q⟩, "IMGFMT_VULKAN"⟩, .free .qf, .free .qfVid]

/-- **The runs of `vulkan_init`.** A run that reaches the queue assignment with families
overflowing `qf` faults. Every other run returns: with one of the `unwindEffects` when a check
before the assignment or `av_hwdevice_ctx_init` fails, and otherwise with the registration of
the device and the queue families assigned. -/
theorem vulkanInit_effects (env : VulkanInitEnv) :
    (ReachesAssignment env ∧ OverflowsQf env → vulkanInit env = .error .qfOutOfBounds) ∧
      (¬ (ReachesAssignment env ∧ OverflowsQf env) → ∃ r, vulkanInit env = .ok r ∧
        (r.2 ∈ unwindEffects ∧ ¬ (ReachesAssignment env ∧ 0 ≤ env.hwdeviceCtxInit) ∨
          ∃ q, assignQueues env = some q ∧ ReachesAssignment env ∧ 0 ≤ env.hwdeviceCtxInit ∧
            r.2 = registerEffects env q)) := by
  refine ⟨fun ⟨⟨h1, h2, h3, h4, h5, h6⟩, ho⟩ => ?_, fun hno => ?_⟩
  · simp [vulkanInit, h1, h2, h3, h4, h5, h6, (assignQueues_eq_none_iff env).2 ho]
  by_cases hr : ReachesAssignment env
  · -- past every check: the queue families fit, and `av_hwdevice_ctx_init` decides
    obtain ⟨q, hq⟩ := Option.ne_none_iff_exists'.1
      fun h => hno ⟨hr, (assignQueues_eq_none_iff env).1 h⟩
    have hrun : vulkanInit env = if env.hwdeviceCtxInit < 0 then .ok (-1, unwindAllocated)
        else .ok (0, registerEffects env q) := by
      obtain ⟨h1, h2, h3, h4, h5, h6⟩ := hr
      simp [vulkanInit, h1, h2, h3, h4, h5, h6, hq, unwindAllocated, registerEffects]
    rw [hrun]
    by_cases hi : env.hwdeviceCtxInit < 0
    · exact ⟨_, if_pos hi, .inl ⟨by simp [unwindEffects], fun h => absurd h.2 (by omega)⟩⟩
    · exact ⟨_, if_neg hi, .inr ⟨q, hq, hr, by omega, rfl⟩⟩
  · refine (?_ : ∃ r, vulkanInit env = .ok r ∧ r.2 ∈ unwindEffects).imp
      fun r h => ⟨h.1, .inl ⟨h.2, fun h' => hr h'.1⟩⟩
    unfold vulkanInit
    -- the checks in the code's order: the first that fails returns early or unwinds
    by_cases h1 : env.vkCtx = true
    swap; · simp [h1, unwindEffects]
    by_cases h2 : env.gpu = true
    swap; · simp [*, unwindEffects]
    by_cases h3 : "VK_KHR_video_decode_queue" ∈ env.extensions
    swap; · simp [*, unwindEffects]
    by_cases h4 : env.queueFamilies = []
    · simp [*, unwindEffects]
    by_cases h5 : env.hwDeviceCtxAlloc = true
    swap; · simp [*, unwindEffects]
    by_cases h6 : env.lockCtxAlloc = true
    swap; · simp [*, unwindEffects]
    exact absurd ⟨h1, h2, h3, h4, h5, h6⟩ hr

/-! ## Registration -/

def InitEffect.isRegister : InitEffect → Bool
  | .register _ => true
  | _ => false

def registers (effs : List InitEffect) : Bool := effs.any InitEffect.isRegister

/-- Every allocation of `r` in the run is matched by a free. -/
def Released (effs : List InitEffect) (r : Resource) : Prop :=
  effs.count (.alloc r) = effs.count (.free r)

instance (effs : List InitEffect) (r : Resource) : Decidable (Released effs r) :=
  inferInstanceAs (Decidable (_ = _))

theorem unwindEffects_released :
    ∀ effs ∈ unwindEffects, registers effs = false ∧
      Released effs .qf ∧ Released effs .qfVid ∧ Released effs .hwDeviceCtx := by
  decide

/-- **When `vulkan_init` registers a device.** A run that reaches the queue assignment on a
multi-queue build with 62 or more decode-capable families writes past `qf[64]`. Every other run
returns, and registers exactly when it has a Vulkan context with a `pl_gpu`, the decode
extension, at least one queue family, both allocations and a successful `av_hwdevice_ctx_init`;
a registered device without a decode-capable family carries only libplacebo's three families,
or decode index `-1`. A run that registers nothing leaves `qf`, `qf_vid` and `hw_device_ctx`
released. -/
theorem vulkan_init_registers_iff (env : VulkanInitEnv) :
    (ReachesAssignment env ∧ OverflowsQf env → vulkanInit env = .error .qfOutOfBounds) ∧
      (¬ (ReachesAssignment env ∧ OverflowsQf env) → ∃ r, vulkanInit env = .ok r ∧
        (registers r.2 = true ↔ ReachesAssignment env ∧ 0 ≤ env.hwdeviceCtxInit) ∧
        (registers r.2 = false →
          Released r.2 .qf ∧ Released r.2 .qfVid ∧ Released r.2 .hwDeviceCtx) ∧
        (decodeFamilies env.queueFamilies 0 = [] → registers r.2 = true →
          .register ⟨"vulkan", ⟨true, env.extensions,
            queuesWithoutDecode env.queues env.newQueueApi⟩, "IMGFMT_VULKAN"⟩ ∈ r.2)) := by
  refine ⟨(vulkanInit_effects env).1, fun hno => ?_⟩
  obtain ⟨r, hr, hcases⟩ := (vulkanInit_effects env).2 hno
  refine ⟨r, hr, ?_⟩
  rcases hcases with ⟨hu, hnot⟩ | ⟨q, hq, hreach, hi, heff⟩
  · obtain ⟨hreg, hrel⟩ := unwindEffects_released _ hu
    exact ⟨iff_of_false (by simp [hreg]) hnot, fun _ => hrel, fun _ h => by simp [hreg] at h⟩
  · rw [heff]
    have hreg : registers (registerEffects env q) = true := by
      simp [registerEffects, registers, InitEffect.isRegister]
    refine ⟨iff_of_true hreg ⟨hreach, hi⟩, fun h => absurd hreg (by simp [h]), fun hd _ => ?_⟩
    -- without a decode-capable family, the families assigned are libplacebo's alone
    rw [assignQueues_without_decode env hd] at hq
    cases hq
    simp [registerEffects]

/-- A device whose only queue family does graphics, compute and transfer, and no decode: the
device is registered all the same, with only libplacebo's three families in `qf`. -/
theorem registers_without_decode_family :
    ([⟨0x7, 16, 0⟩] : List QueueFamilyProperties).all (fun q => !q.decodes) = true ∧
      vulkanInit ⟨true, true, ["VK_KHR_video_decode_queue"], ⟨⟨0, 1⟩, ⟨0, 1⟩, ⟨0, 1⟩⟩,
          [⟨0x7, 16, 0⟩], true, true, 0, true⟩ =
        .ok (0, [.alloc .qf, .alloc .qfVid, .alloc .hwDeviceCtx, .alloc .lockCtx,
          .register ⟨"vulkan", ⟨true, ["VK_KHR_video_decode_queue"],
            .multi ⟨[⟨0, 1, vkQueueGraphicsBit, 0⟩, ⟨0, 1, vkQueueTransferBit, 0⟩,
              ⟨0, 1, vkQueueComputeBit, 0⟩], 3⟩⟩, "IMGFMT_VULKAN"⟩,
          .free .qf, .free .qfVid]) :=
  ⟨by decide, rfl⟩

/-! ## `vulkan_uninit` -/

/-- The fields of `struct vulkan_hw_priv` that `vulkan_uninit` reads: whether
`p->hwctx.av_device_ref` holds the device and whether `p->lock_ctx` is set. The private state
starts zeroed. -/
structure VulkanHwPriv where
  avDeviceRef : Bool
  lockCtx : Bool
  deriving DecidableEq, Repr

/-- `p` as a run of `vulkan_init` leaves it: `p->hwctx` is filled in just before
`hwdec_devices_add`, and `p->lock_ctx` holds the queue-lock context from its allocation on, on
`error:` too. -/
def VulkanHwPriv.ofInit (effs : List InitEffect) : VulkanHwPriv :=
  ⟨registers effs, effs.contains (.alloc .lockCtx)⟩

/-- `vulkan_uninit` (lines 278-290): `av_buffer_unref(&p->hwctx.av_device_ref)` drops the
player's reference to the device context, and a set `p->lock_ctx` is freed after
`mp_mutex_destroy`. `hwdec_devices_remove` frees nothing. -/
def vulkanUninit (p : VulkanHwPriv) : List InitEffect :=
  (if p.avDeviceRef then [.free .hwDeviceCtx] else []) ++
    (if p.lockCtx then [.free .lockCtx] else [])

/-- On a run that registers nothing, `vulkan_uninit` completes the release: each resource is
freed as often as it was allocated, and the run itself never freed the queue-lock context. -/
theorem unwindEffects_uninit_released : ∀ effs ∈ unwindEffects,
    (∀ res, Released (effs ++ vulkanUninit (VulkanHwPriv.ofInit effs)) res) ∧
      effs.count (.free .lockCtx) = 0 := by
  intro effs h
  simp only [unwindEffects, List.mem_cons, List.mem_singleton, List.not_mem_nil, or_false] at h
  rcases h with rfl | rfl | rfl | rfl <;> exact ⟨fun res => by cases res <;> decide, by decide⟩

/-- **`vulkan_init` then `vulkan_uninit` leaks nothing.** A run of `vulkan_init` that reaches
the queue assignment with families overflowing `qf[64]` faults; on every other run, followed by
`vulkan_uninit` on the state it leaves, `qf`, `qf_vid`, `hw_device_ctx` and the queue-lock
context are each freed exactly as often as they are allocated, and `vulkan_init` itself never
frees the queue-lock context, also on `error:`, so that is `vulkan_uninit`'s work. -/
theorem vulkan_init_uninit_released (env : VulkanInitEnv) :
    (ReachesAssignment env ∧ OverflowsQf env → vulkanInit env = .error .qfOutOfBounds) ∧
      (¬ (ReachesAssignment env ∧ OverflowsQf env) → ∃ r, vulkanInit env = .ok r ∧
        (∀ res, Released (r.2 ++ vulkanUninit (VulkanHwPriv.ofInit r.2)) res) ∧
        r.2.count (.free .lockCtx) = 0) := by
  refine ⟨(vulkanInit_effects env).1, fun hno => ?_⟩
  obtain ⟨r, hr, hcases⟩ := (vulkanInit_effects env).2 hno
  refine ⟨r, hr, ?_⟩
  rcases hcases with ⟨hu, -⟩ | ⟨q, -, -, -, heff⟩
  · exact unwindEffects_uninit_released _ hu
  · rw [heff]
    refine ⟨fun res => ?_, by simp [registerEffects]⟩
    cases res <;> simp [Released, registerEffects, vulkanUninit, VulkanHwPriv.ofInit, registers,
      InitEffect.isRegister]

end Dmpv.Hwdec
