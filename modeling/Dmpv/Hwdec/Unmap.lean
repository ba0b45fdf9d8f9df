import Dmpv.Hwdec.Frame

/- `mapper_unmap` (`video/out/hwdec/hwdec_vulkan.c`, lines 324-402): hand the frame back to
   the decoder.

   The function is the sequence of its parts, each a definition here:

   1. `markWillProcess`: the first sentinel loop marks the image of every leading
      non-NULL `p->tex[i]`;
   2. the reservation window on `p->vkf` (`reserveWindow`);
   3. `holdLoop`: the second sentinel loop calls `pl_vulkan_hold_ex` once per marked
      image, at the first plane that maps to it, and clears `p->tex`;
   4. the commit window (`commitWindow`);
   5. `unmapEnd`: the `end:` label frees `mapper->tex[i]` for `i < num_planes` and sets
      `p->vkf = NULL`.

   The guard is `mapper->src`, not `p->vkf`: with a source set and no frame recorded the
   function reaches `vkfc->lock_frame(hwfc, NULL)` (`mapperUnmap_of_no_frame`). The
   outcomes of the holds are a free `HoldEx`. -/

namespace Dmpv.Hwdec

/-- The outcome of the `pl_vulkan_hold_ex` made in the iteration at plane `i`: the layout it
reports through `out_layout`, or `none` when it returns false. -/
abbrev HoldEx := Fin 4 → Option VkImageLayout

/-- The first loop: `will_process[index] = true` for the image of each leading non-NULL
texture. -/
def markWillProcess (p : VulkanMapperPriv) : Except Fault (Fin 4 → Bool) :=
  texScan p.tex
    (fun i _ wp => Function.update wp (planeImage p.layout.numPlanes p.numImages i) true)
    indices (fun _ => false)

/-- What the hold loop carries: `processed[]`, `ok[]`, `new_layout[]`, `p->tex` as it is
cleared, and the calls made. -/
structure HoldState where
  processed : Fin 4 → Bool
  ok : Fin 4 → Bool
  newLayout : Fin 4 → VkImageLayout
  tex : Fin 4 → Option PlTex
  calls : List PlCall

def holdStep (p : VulkanMapperPriv) (reserved : Fin 4 → BitVec 64) (holdEx : HoldEx)
    (i : Fin 4) (t : PlTex) (s : HoldState) : HoldState :=
  let index := planeImage p.layout.numPlanes p.numImages i
  let s : HoldState :=
    if s.processed index then s
    else
      { s with
        ok := Function.update s.ok index (holdEx i).isSome
        newLayout := match holdEx i with
          | some l => Function.update s.newLayout index l
          | none => s.newLayout
        processed := Function.update s.processed index true
        calls := s.calls ++ [.hold t ⟨p.sem index, reserved index⟩] }
  { s with tex := Function.update s.tex i none }

/-- The second loop, from nothing processed and `new_layout[] = {0}`. -/
def holdLoop (p : VulkanMapperPriv) (reserved : Fin 4 → BitVec 64) (holdEx : HoldEx) :
    Except Fault HoldState :=
  texScan p.tex (holdStep p reserved holdEx) indices
    ⟨fun _ => false, fun _ => false, fun _ => 0, p.tex, []⟩

/-- The `end:` label: `ra_tex_free(mapper->ra, &mapper->tex[i])` for `i < num_planes` (each
non-NULL entry is freed and cleared), then `p->vkf = NULL`. -/
def unmapEnd (m : RaHwdecMapper) (w : World) : RaHwdecMapper × World :=
  let n := m.priv.layout.numPlanes
  ({ m with
      tex := fun i => if i.val < n then none else m.tex i
      priv := { m.priv with vkf := none } },
   { w with raFreed := w.raFreed ++ indices.filterMap fun i => if i.val < n then m.tex i else none })

def mapperUnmap (holdEx : HoldEx) (m : RaHwdecMapper) (w : World) :
    Except Fault (RaHwdecMapper × World) :=
  match m.src with
  | none => .ok (unmapEnd m w)
  | some _ =>
    markWillProcess m.priv >>= fun willProcess =>
    match m.priv.vkf with
    | none => .error .nullFrame
    | some ref =>
      let (f, reserved) := reserveWindow m.priv.numImages willProcess (w.frames ref)
      holdLoop m.priv reserved holdEx >>= fun s =>
      let f := commitWindow m.priv.numImages willProcess s.ok s.newLayout reserved f
      .ok (unmapEnd { m with priv := { m.priv with tex := s.tex } }
        { w with frames := Function.update w.frames ref f, plCalls := w.plCalls ++ s.calls })

/-- **`mapper_unmap` with a frame.** Once its first loop and its hold loop have run, it writes
the two windows' frame back, appends the holds to the calls, and runs `end:`. -/
theorem mapperUnmap_eq {holdEx : HoldEx} {m : RaHwdecMapper} {w : World} {src : HwImage}
    {ref : FrameRef} {wp : Fin 4 → Bool} {s : HoldState} (hsrc : m.src = some src)
    (hvkf : m.priv.vkf = some ref) (hwp : markWillProcess m.priv = .ok wp)
    (hs : holdLoop m.priv (reserveWindow m.priv.numImages wp (w.frames ref)).2 holdEx = .ok s) :
    mapperUnmap holdEx m w = .ok (unmapEnd { m with priv := { m.priv with tex := s.tex } }
      { w with
        frames := Function.update w.frames ref
          (commitWindow m.priv.numImages wp s.ok s.newLayout
            (reserveWindow m.priv.numImages wp (w.frames ref)).2
            (reserveWindow m.priv.numImages wp (w.frames ref)).1)
        plCalls := w.plCalls ++ s.calls }) := by
  simp only [mapperUnmap, hsrc, hwp, ok_bind, hvkf, hs]

/-! ## What `mapper_unmap` does without a frame -/

theorem mapperUnmap_of_no_src (holdEx : HoldEx) {m : RaHwdecMapper} (w : World)
    (h : m.src = none) : mapperUnmap holdEx m w = .ok (unmapEnd m w) := by
  simp [mapperUnmap, h]

theorem texScan_ok {σ : Type} {tex : Fin 4 → Option PlTex} (body : Fin 4 → PlTex → σ → σ)
    {j : Fin 4} (hj : tex j = none) : ∀ is : List (Fin 4), j ∈ is → ∀ s, ∃ s',
      texScan tex body is s = .ok s' := by
  intro is
  induction is with
  | nil => simp
  | cons i is ih =>
    intro hmem s
    unfold texScan
    split
    · exact ⟨s, rfl⟩
    · rcases List.mem_cons.1 hmem with rfl | h
      · simp_all
      · exact ih h _

theorem markWillProcess_ok {p : VulkanMapperPriv} {j : Fin 4} (hj : p.tex j = none) :
    ∃ wp, markWillProcess p = .ok wp :=
  texScan_ok _ hj indices (mem_indices j) _

/-- The no-frame branch: once the first loop has finished, a source with no frame recorded
reaches `vkfc->lock_frame(hwfc, NULL)`. -/
theorem mapperUnmap_of_scan_no_frame (holdEx : HoldEx) {m : RaHwdecMapper} (w : World)
    {src : HwImage} {wp : Fin 4 → Bool} (hsrc : m.src = some src) (hvkf : m.priv.vkf = none)
    (hwp : markWillProcess m.priv = .ok wp) : mapperUnmap holdEx m w = .error .nullFrame := by
  simp only [mapperUnmap, hsrc, hwp, ok_bind, hvkf]

/-- **No frame, a source set.** When `p->vkf` is NULL but `mapper->src` is not, and some
`p->tex[i]` is NULL, `mapper_unmap` calls `vkfc->lock_frame(hwfc, NULL)`. -/
theorem mapperUnmap_of_no_frame (holdEx : HoldEx) {m : RaHwdecMapper} (w : World) {src : HwImage}
    (hsrc : m.src = some src) (hvkf : m.priv.vkf = none) {j : Fin 4} (hj : m.priv.tex j = none) :
    mapperUnmap holdEx m w = .error .nullFrame :=
  let ⟨_, hwp⟩ := markWillProcess_ok hj
  mapperUnmap_of_scan_no_frame holdEx w hsrc hvkf hwp

/-- The mapper as `mapper_map`'s `error:` label hands it over after `pl_vulkan_wrap` failed at
the only plane of a one-image frame: a source, no frame, no texture. -/
theorem mapperUnmap_of_no_frame_at_unwind :
    mapperUnmap (fun _ => none)
      ⟨some ⟨⟨1920, 1088, 0⟩, 0⟩, fun _ => none,
        ⟨⟨1, by decide⟩, none, fun _ => none, fun i => if i = 0 then 1 else 0, fun _ => 0,
          fun _ => 1, fun _ => 5, 1⟩⟩
      ⟨fun _ => ⟨fun i => if i = 0 then 1 else 0, fun _ => 0, fun _ => 1, fun _ => 5, fun _ => 1⟩,
        [], 0, []⟩ = .error .nullFrame :=
  mapperUnmap_of_no_frame _ _ rfl rfl (j := 0) rfl

/-! ## Four textures -/

theorem texScan_full {σ : Type} {tex : Fin 4 → Option PlTex} (body : Fin 4 → PlTex → σ → σ) :
    ∀ is : List (Fin 4), (∀ i ∈ is, tex i ≠ none) → ∀ s,
      texScan tex body is s = .error .texOutOfBounds
  | [], _, _ => rfl
  | i :: is, h, s => by
    obtain ⟨t, ht⟩ := Option.ne_none_iff_exists'.1 (h i (List.mem_cons_self _ _))
    simp only [texScan, ht]
    exact texScan_full body is (fun j hj => h j (List.mem_cons_of_mem _ hj)) _

/-- **Four textures.** When all four entries of `p->tex` are set, as `mapper_map` leaves them
after mapping four planes, `mapper_unmap` reads `p->tex[4]`. -/
theorem mapperUnmap_of_full_tex (holdEx : HoldEx) {m : RaHwdecMapper} (w : World) {src : HwImage}
    (hsrc : m.src = some src) (hfull : ∀ i, m.priv.tex i ≠ none) :
    mapperUnmap holdEx m w = .error .texOutOfBounds := by
  have hmark : markWillProcess m.priv = .error .texOutOfBounds :=
    texScan_full _ indices (fun i _ => hfull i) _
  simp only [mapperUnmap, hsrc, hmark, error_bind]

/-- The mapper after `mapper_map` mapped the four planes of a four-image frame. -/
theorem mapperUnmap_of_full_tex_four_planes :
    mapperUnmap (fun _ => some 0)
      ⟨some ⟨⟨1920, 1088, 0⟩, 0⟩, fun i => some i.val,
        ⟨⟨4, le_refl 4⟩, some 0, fun i => some (i.val + 1), fun i => i.val + 1, fun _ => 0,
          fun i => i.val + 1, fun _ => 5, 4⟩⟩
      ⟨fun _ => ⟨fun i => i.val + 1, fun _ => 0, fun i => i.val + 1, fun _ => 5, fun _ => 1⟩,
        [], 4, []⟩ = .error .texOutOfBounds :=
  mapperUnmap_of_full_tex _ _ rfl (by decide)

end Dmpv.Hwdec
