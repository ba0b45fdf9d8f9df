import Dmpv.Basic

/- Which queue families `vulkan_init` hands to FFmpeg (`video/out/hwdec/hwdec_vulkan.c`,
   lines 187-250).

   libplacebo has already chosen a graphics, a transfer and a compute family; the
   decode family is found by scanning what `vkGetPhysicalDeviceQueueFamilyProperties2`
   reports. The code has two strategies, chosen at compile time by the libavutil
   version:

   * from 59.34.100 on (`assignQueuesMulti`), the three libplacebo families go into
     `device_hwctx->qf`, followed by every decode-capable family. `qf` is FFmpeg's array of
     64 entries (`libavutil/hwcontext_vulkan.h`, outside this repository), and the code
     writes `qf[nb_qf++]` without a bound check: a write past it is the fault `none`;
   * before it (`assignQueuesLegacy`), one index per kind of work is set, and the decode
     index is overwritten by each decode-capable family of the scan, so the last wins.

   `decodeFamilies` says what the scan is for, from the family list alone: the
   decode-capable families in ascending index. `queue_strategies_agree` proves that with at
   most 61 of them the multi-queue strategy records exactly these after its three fixed
   entries, and that with 62 or more it writes past `qf`; the legacy decode index and queue
   count are those of the last of them, or `-1` and `0` when there is none. -/

namespace Dmpv.Hwdec

/-! ## The data -/

/-- `VkQueueFlagBits` values the code names (Vulkan's `vulkan_core.h`). -/
def vkQueueGraphicsBit : Nat := 0x1
def vkQueueComputeBit : Nat := 0x2
def vkQueueTransferBit : Nat := 0x4
def vkQueueVideoDecodeBitKhr : Nat := 0x20

/-- A queue family as `vkGetPhysicalDeviceQueueFamilyProperties2` reports it, with the
`videoCodecOperations` of the `VkQueueFamilyVideoPropertiesKHR` chained to it. -/
structure QueueFamilyProperties where
  queueFlags : Nat
  queueCount : Nat
  videoCodecOperations : Nat
  deriving DecidableEq, Repr, Inhabited

def QueueFamilyProperties.decodes (q : QueueFamilyProperties) : Bool :=
  q.queueFlags &&& vkQueueVideoDecodeBitKhr != 0

/-- `struct pl_vulkan_queue`: the family libplacebo uses for a kind of work, and how many of
its queues. -/
structure PlVulkanQueue where
  index : Nat
  count : Nat
  deriving DecidableEq, Repr

structure PlVulkanQueues where
  queueGraphics : PlVulkanQueue
  queueTransfer : PlVulkanQueue
  queueCompute : PlVulkanQueue
  deriving DecidableEq, Repr

structure AVVulkanDeviceQueueFamily where
  idx : Nat
  num : Nat
  flags : Nat
  videoCaps : Nat
  deriving DecidableEq, Repr

/-! ## The multi-queue strategy (libavutil 59.34.100 and later) -/

/-- `qf` and `nb_qf` of `AVVulkanDeviceContext`: the entries written so far and their count. -/
structure DeviceQueueFamilies where
  qf : List AVVulkanDeviceQueueFamily
  nbQf : Nat
  deriving DecidableEq, Repr

def qfCapacity : Nat := 64

/-- `device_hwctx->qf[device_hwctx->nb_qf++] = e`, or `none` when `nb_qf` is already past the
array. -/
def DeviceQueueFamilies.push (d : DeviceQueueFamilies) (e : AVVulkanDeviceQueueFamily) :
    Option DeviceQueueFamilies :=
  if d.nbQf < qfCapacity then some ⟨d.qf ++ [e], d.nbQf + 1⟩ else none

def decodeQueueFamily (i : Nat) (q : QueueFamilyProperties) : AVVulkanDeviceQueueFamily :=
  ⟨i, q.queueCount, vkQueueVideoDecodeBitKhr, q.videoCodecOperations⟩

/-- `for (int i = 0; i < num_qf; i++) if (flags & VK_QUEUE_VIDEO_DECODE_BIT_KHR) ...`, from
family `i` on. -/
def addDecodeQueueFamilies :
    List QueueFamilyProperties → Nat → DeviceQueueFamilies → Option DeviceQueueFamilies
  | [], _, d => some d
  | q :: qs, i, d =>
    if q.decodes then (d.push (decodeQueueFamily i q)).bind (addDecodeQueueFamilies qs (i + 1))
    else addDecodeQueueFamilies qs (i + 1) d

/-- The libplacebo family of one kind of work as an entry; `video_caps` stays zero. -/
def plQueueFamily (q : PlVulkanQueue) (flags : Nat) : AVVulkanDeviceQueueFamily :=
  ⟨q.index, q.count, flags, 0⟩

/-- The `#if LIBAVUTIL_VERSION_INT >= AV_VERSION_INT(59, 34, 100)` branch. -/
def assignQueuesMulti (vk : PlVulkanQueues) (qf : List QueueFamilyProperties) :
    Option DeviceQueueFamilies := do
  let d ← (⟨[], 0⟩ : DeviceQueueFamilies).push (plQueueFamily vk.queueGraphics vkQueueGraphicsBit)
  let d ← d.push (plQueueFamily vk.queueTransfer vkQueueTransferBit)
  let d ← d.push (plQueueFamily vk.queueCompute vkQueueComputeBit)
  addDecodeQueueFamilies qf 0 d

/-! ## The legacy strategy -/

structure LegacyQueueFamilies where
  queueFamilyIndex : Nat
  nbGraphicsQueues : Nat
  queueFamilyTxIndex : Nat
  nbTxQueues : Nat
  queueFamilyCompIndex : Nat
  nbCompQueues : Nat
  queueFamilyDecodeIndex : Int
  nbDecodeQueues : Nat
  deriving DecidableEq, Repr

/-- `decode_index` after the scan from family `i` on, starting from `d`. -/
def scanDecodeIndex : List QueueFamilyProperties → Nat → Int → Int
  | [], _, d => d
  | q :: qs, i, d => scanDecodeIndex qs (i + 1) (if q.decodes then i else d)

/-- The `#else` branch. -/
def assignQueuesLegacy (vk : PlVulkanQueues) (qf : List QueueFamilyProperties) :
    LegacyQueueFamilies :=
  let decodeIndex := scanDecodeIndex qf 0 (-1)
  { queueFamilyIndex := vk.queueGraphics.index
    nbGraphicsQueues := vk.queueGraphics.count
    queueFamilyTxIndex := vk.queueTransfer.index
    nbTxQueues := vk.queueTransfer.count
    queueFamilyCompIndex := vk.queueCompute.index
    nbCompQueues := vk.queueCompute.count
    queueFamilyDecodeIndex := decodeIndex
    nbDecodeQueues := if decodeIndex ≥ 0 then (qf.getD decodeIndex.toNat default).queueCount else 0 }

/-! ## What the scan is for -/

/-- The decode-capable families among `qf`, numbered from `i`, in ascending index. -/
def decodeFamilies (qf : List QueueFamilyProperties) (i : Nat) : List AVVulkanDeviceQueueFamily :=
  (qf.enumFrom i).filterMap fun p => if p.2.decodes then some (decodeQueueFamily p.1 p.2) else none

@[simp] theorem decodeFamilies_nil (i : Nat) : decodeFamilies [] i = [] := rfl

theorem decodeFamilies_cons (q : QueueFamilyProperties) (qs : List QueueFamilyProperties) (i : Nat) :
    decodeFamilies (q :: qs) i =
      if q.decodes then decodeQueueFamily i q :: decodeFamilies qs (i + 1)
      else decodeFamilies qs (i + 1) := by
  by_cases h : q.decodes <;> simp [decodeFamilies, List.filterMap_cons, h]

theorem decodeFamilies_length_cons (q : QueueFamilyProperties) (qs : List QueueFamilyProperties)
    (i : Nat) :
    (decodeFamilies (q :: qs) i).length =
      (if q.decodes then 1 else 0) + (decodeFamilies qs (i + 1)).length := by
  rw [decodeFamilies_cons]
  split <;> simp [Nat.add_comm]

/-- The multi-queue loop appends exactly the decode-capable families, as long as they fit in
`qf`; one more and it writes past the array. -/
theorem addDecodeQueueFamilies_eq (qs : List QueueFamilyProperties) (i : Nat)
    (d : DeviceQueueFamilies) (hd : d.nbQf ≤ qfCapacity) :
    addDecodeQueueFamilies qs i d =
      if d.nbQf + (decodeFamilies qs i).length ≤ qfCapacity then
        some ⟨d.qf ++ decodeFamilies qs i, d.nbQf + (decodeFamilies qs i).length⟩
      else none := by
  induction qs generalizing i d with
  | nil => simp [addDecodeQueueFamilies, hd]
  | cons q qs ih =>
    rw [addDecodeQueueFamilies, decodeFamilies_length_cons, decodeFamilies_cons]
    by_cases h : q.decodes
    · simp only [h, if_true, DeviceQueueFamilies.push]
      by_cases hlt : d.nbQf < qfCapacity
      · simp only [hlt, if_true, Option.some_bind,
          ih (i + 1) ⟨d.qf ++ [decodeQueueFamily i q], d.nbQf + 1⟩ hlt, List.append_assoc,
          List.singleton_append]
        congr 1 <;> simp only [Nat.add_assoc, Nat.add_comm 1]
      · simp only [hlt, if_false, Option.none_bind]
        rw [if_neg (by omega)]
    · simp only [h, ih _ _ hd]
      simp

/-- The legacy scan ends on the last decode-capable family, or keeps its start. -/
theorem scanDecodeIndex_eq (qs : List QueueFamilyProperties) (i : Nat) (d : Int) :
    scanDecodeIndex qs i d = (((decodeFamilies qs i).getLast?.map fun e => (e.idx : Int))).getD d := by
  induction qs generalizing i d with
  | nil => rfl
  | cons q qs ih =>
    rw [scanDecodeIndex, ih, decodeFamilies_cons]
    by_cases h : q.decodes
    · simp only [h, if_true, List.getLast?_cons]
      cases (decodeFamilies qs (i + 1)).getLast? <;> rfl
    · simp only [h]; rfl

/-- Every entry for a family carries that family's queue count, at its index. -/
theorem decodeFamilies_getD (qs : List QueueFamilyProperties) (i : Nat) :
    ∀ e ∈ decodeFamilies qs i, i ≤ e.idx ∧ (qs.getD (e.idx - i) default).queueCount = e.num := by
  induction qs generalizing i with
  | nil => simp
  | cons q qs ih =>
    intro e he
    rw [decodeFamilies_cons] at he
    have tail : e ∈ decodeFamilies qs (i + 1) →
        i ≤ e.idx ∧ ((q :: qs).getD (e.idx - i) default).queueCount = e.num := by
      intro h
      obtain ⟨hle, hq⟩ := ih (i + 1) e h
      refine ⟨by omega, ?_⟩
      rw [show e.idx - i = (e.idx - (i + 1)) + 1 by omega]
      simpa using hq
    split at he
    · rcases List.mem_cons.1 he with rfl | h
      · simp [decodeQueueFamily]
      · exact tail h
    · exact tail he

/-- The multi-queue strategy: libplacebo's three families, then the decode-capable ones, or
`none` where they do not fit in `qf`. -/
theorem assignQueuesMulti_eq (vk : PlVulkanQueues) (qf : List QueueFamilyProperties) :
    assignQueuesMulti vk qf =
      if 3 + (decodeFamilies qf 0).length ≤ qfCapacity then
        some ⟨[plQueueFamily vk.queueGraphics vkQueueGraphicsBit,
          plQueueFamily vk.queueTransfer vkQueueTransferBit,
          plQueueFamily vk.queueCompute vkQueueComputeBit] ++ decodeFamilies qf 0,
          3 + (decodeFamilies qf 0).length⟩
      else none :=
  addDecodeQueueFamilies_eq qf 0 _ (show 3 ≤ qfCapacity by decide)

theorem assignQueuesLegacy_decode (vk : PlVulkanQueues) (qf : List QueueFamilyProperties) :
    (assignQueuesLegacy vk qf).queueFamilyDecodeIndex =
        ((decodeFamilies qf 0).getLast?.map fun e => (e.idx : Int)).getD (-1) ∧
      (assignQueuesLegacy vk qf).nbDecodeQueues =
        ((decodeFamilies qf 0).getLast?.map (·.num)).getD 0 := by
  refine ⟨scanDecodeIndex_eq qf 0 (-1), ?_⟩
  simp only [assignQueuesLegacy, scanDecodeIndex_eq]
  cases hl : (decodeFamilies qf 0).getLast? with
  | none => simp
  | some e =>
    have he := decodeFamilies_getD qf 0 e (List.mem_of_getLast?_eq_some hl)
    simpa using he.2

/-- **The two strategies agree, up to 61 decode-capable families.** With at most 61, the
multi-queue strategy records the graphics, transfer and compute families and then one entry per
decode-capable family, in ascending index, with its queue count and codec operations; with 62
or more it writes past `qf[64]`. The legacy strategy's decode index and queue count are those
of the last such entry, or `-1` and `0`. -/
theorem queue_strategies_agree (vk : PlVulkanQueues) (qf : List QueueFamilyProperties) :
    (3 + (decodeFamilies qf 0).length ≤ qfCapacity →
      assignQueuesMulti vk qf =
        some ⟨[plQueueFamily vk.queueGraphics vkQueueGraphicsBit,
          plQueueFamily vk.queueTransfer vkQueueTransferBit,
          plQueueFamily vk.queueCompute vkQueueComputeBit] ++ decodeFamilies qf 0,
          3 + (decodeFamilies qf 0).length⟩) ∧
      (qfCapacity < 3 + (decodeFamilies qf 0).length → assignQueuesMulti vk qf = none) ∧
      (assignQueuesLegacy vk qf).queueFamilyDecodeIndex =
        ((decodeFamilies qf 0).getLast?.map fun e => (e.idx : Int)).getD (-1) ∧
      (assignQueuesLegacy vk qf).nbDecodeQueues =
        ((decodeFamilies qf 0).getLast?.map (·.num)).getD 0 := by
  rw [assignQueuesMulti_eq]
  exact ⟨fun h => if_pos h, fun h => if_neg (by omega), assignQueuesLegacy_decode vk qf⟩

/-- Sixty-two decode-capable families: the multi-queue strategy's 65th write lands past `qf`. -/
theorem multi_overflows_at_62_decode_families :
    (decodeFamilies (List.replicate 62 ⟨vkQueueVideoDecodeBitKhr, 1, 0⟩) 0).length = 62 ∧
      assignQueuesMulti ⟨⟨0, 1⟩, ⟨0, 1⟩, ⟨0, 1⟩⟩ (List.replicate 62 ⟨vkQueueVideoDecodeBitKhr, 1, 0⟩) =
        none := by
  decide

end Dmpv.Hwdec
