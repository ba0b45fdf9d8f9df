import Dmpv.Hwdec.Unmap

/- `mapper_map` (`video/out/hwdec/hwdec_vulkan.c`, lines 404-503): import a decoded frame
   as renderer textures.

   Under the frame's lock it counts the leading non-NULL images (at most four) and copies
   their handles, layouts, semaphores and counter values into the private state; then for
   each plane it picks an image and an aspect by the plane-to-image rule, wraps the
   image with `pl_vulkan_wrap`, releases it to the renderer with `pl_vulkan_release_ex`
   (waiting on the snapshot's counter value), and wraps the texture as an `ra_tex`. On
   any failure it jumps to `error:`, which calls `mapper_unmap` and returns `-1`; on
   success it records the frame in `p->vkf` and returns `0`.

   The outcomes of the libplacebo calls are a free `MapEnv`. Every failure in the plane
   loop reaches `mapper_unmap` before `p->vkf` is set, so the unwind calls
   `lock_frame(hwfc, NULL)` (`mapperMap_of_planes_fail`). -/

namespace Dmpv.Hwdec

/-- The outcomes of the calls one `mapper_map` makes, by plane. -/
structure MapEnv where
  /-- `pl_vulkan_get(p_owner->gpu)` is not NULL. -/
  vulkan : Bool
  /-- `mp_image_plane_w(&raw_layout, i)` and `mp_image_plane_h(&raw_layout, i)`: the plane's
  size in the frames context's `width` x `height`. -/
  planeW : Fin 4 → Nat
  planeH : Fin 4 → Nat
  /-- `av_vkfmt_from_pixfmt(hwfc->sw_format)[i]`. -/
  vkFmt : Fin 4 → VkFormat
  /-- What `pl_vulkan_wrap` returns for plane `i`. -/
  wrap : Fin 4 → Option PlTex
  /-- Whether `mppl_wrap_tex` succeeds for plane `i`. -/
  wrapTex : Fin 4 → Bool
  /-- The holds of the `mapper_unmap` that `error:` calls. -/
  holdEx : HoldEx

/-- `num_images`: `for (num_images = 0; num_images < 4 && img[num_images] != VK_NULL_HANDLE;
num_images++);`, over the indices still to come. -/
def countImages (img : Fin 4 → VkImage) : List (Fin 4) → Nat
  | [] => 0
  | i :: is => if img i = 0 then 0 else countImages img is + 1

/-- The snapshot window: `num_images`, and the first `num_images` entries of `img`, `layout`,
`sem` and `sem_value` copied; the other entries of the private arrays keep what they held. -/
def snapshot (f : AVVkFrame) (p : VulkanMapperPriv) : VulkanMapperPriv :=
  let n := countImages f.img indices
  { p with
    img := fun i => if i.val < n then f.img i else p.img i
    imgLayout := fun i => if i.val < n then f.layout i else p.imgLayout i
    sem := fun i => if i.val < n then f.sem i else p.sem i
    semValue := fun i => if i.val < n then f.semValue i else p.semValue i
    numImages := n }

@[simp] theorem snapshot_layout (f : AVVkFrame) (p : VulkanMapperPriv) :
    (snapshot f p).layout = p.layout := rfl

@[simp] theorem snapshot_vkf (f : AVVkFrame) (p : VulkanMapperPriv) :
    (snapshot f p).vkf = p.vkf := rfl

@[simp] theorem snapshot_tex (f : AVVkFrame) (p : VulkanMapperPriv) :
    (snapshot f p).tex = p.tex := rfl

/-- The image and aspect of plane `i`; `none` is `default: goto error`, a fourth plane in a
frame of one image. -/
def planeAspect (numPlanes numImages : Nat) (i : Fin 4) : Option (Fin 4 × Aspect) :=
  if numPlanes > 1 ∧ numImages = 1 then
    match i with
    | 0 => some (0, .plane0)
    | 1 => some (0, .plane1)
    | 2 => some (0, .plane2)
    | _ => none
  else some (i, .color)

/-- One iteration of the plane loop; `false` when it jumps to `error:`. -/
def mapPlane (env : MapEnv) (hwfc : AVHWFramesContext) (i : Fin 4) (m : RaHwdecMapper)
    (w : World) : Bool × RaHwdecMapper × World :=
  let p := m.priv
  match planeAspect p.layout.numPlanes p.numImages i with
  | none => (false, m, w)
  | some (index, aspect) =>
    let w := { w with plCalls := w.plCalls ++
      [.wrap ⟨p.img index, env.planeW i, env.planeH i, env.vkFmt i, hwfc.usage, aspect⟩] }
    match env.wrap i with
    | none => (false, { m with priv := { p with tex := Function.update p.tex i none } }, w)
    | some t =>
      let p := { p with tex := Function.update p.tex i (some t) }
      let w := { w with
        plCalls := w.plCalls ++ [.release t (p.imgLayout index) ⟨p.sem index, p.semValue index⟩]
        raNext := w.raNext + 1 }
      if env.wrapTex i then
        (true, { m with priv := p, tex := Function.update m.tex i (some (w.raNext - 1)) }, w)
      else
        -- `pl_tex_destroy(p_owner->gpu, tex)` clears `p->tex[i]`; the `ra_tex` is freed unused
        (false, { m with priv := { p with tex := Function.update p.tex i none } },
          { w with plCalls := w.plCalls ++ [.destroy t] })

/-- `for (int i = 0; i < p->layout.num_planes; i++)`, over the planes still to come. -/
def mapPlanes (env : MapEnv) (hwfc : AVHWFramesContext) :
    List (Fin 4) → RaHwdecMapper → World → Bool × RaHwdecMapper × World
  | [], m, w => (true, m, w)
  | i :: is, m, w =>
    match mapPlane env hwfc i m w with
    | (true, m, w) => mapPlanes env hwfc is m w
    | (false, m, w) => (false, m, w)

/-- `mapper_map`: its return value, the mapper and the world. -/
def mapperMap (env : MapEnv) (m : RaHwdecMapper) (w : World) :
    Except Fault (Int × RaHwdecMapper × World) :=
  if !env.vulkan then .ok (-1, m, w) else
  match m.src with
  | none => .error .nullSrc
  | some src =>
    let m := { m with priv := snapshot (w.frames src.vkf) m.priv }
    match mapPlanes env src.hwfc (indices.take m.priv.layout.numPlanes) m w with
    | (true, m, w) => .ok (0, { m with priv := { m.priv with vkf := some src.vkf } }, w)
    | (false, m, w) => mapperUnmap env.holdEx m w >>= fun r => .ok (-1, r.1, r.2)

/-! ## Spec lemmas -/

/-- A plane's image is the one the plane-to-image rule gives. -/
theorem planeAspect_image {numPlanes numImages : Nat} {i index : Fin 4} {a : Aspect}
    (h : planeAspect numPlanes numImages i = some (index, a)) :
    index = planeImage numPlanes numImages i := by
  unfold planeAspect at h
  unfold planeImage
  split at h
  · rw [if_pos ‹_›]; split at h <;> simp_all
  · rw [if_neg ‹_›]; simp_all

/-- **One iteration of the plane loop** writes `p->tex[i]` and `mapper->tex` only, and one that
fails leaves `p->tex[i]` NULL or as it found it. -/
theorem mapPlane_mapper (env : MapEnv) (hwfc : AVHWFramesContext) (i : Fin 4) (m : RaHwdecMapper)
    (w : World) : ∃ ptx mtex,
      (mapPlane env hwfc i m w).2.1 =
        { m with tex := mtex, priv := { m.priv with tex := Function.update m.priv.tex i ptx } } ∧
      ((mapPlane env hwfc i m w).1 = false → ptx = none ∨ ptx = m.priv.tex i) := by
  unfold mapPlane
  dsimp only
  split
  · exact ⟨m.priv.tex i, m.tex, by simp, fun _ => .inr rfl⟩
  · split
    · exact ⟨none, m.tex, rfl, fun _ => .inl rfl⟩
    · split
      · exact ⟨_, _, rfl, fun h => by cases h⟩
      · exact ⟨none, m.tex, by simp, fun _ => .inl rfl⟩

/-- The plane loop only writes `p->tex` and `mapper->tex`. -/
theorem mapPlanes_shape (env : MapEnv) (hwfc : AVHWFramesContext) :
    ∀ (is : List (Fin 4)) (m : RaHwdecMapper) (w : World), ∃ ptex mtex,
      (mapPlanes env hwfc is m w).2.1 = { m with tex := mtex, priv := { m.priv with tex := ptex } }
  | [], m, _ => ⟨m.priv.tex, m.tex, rfl⟩
  | i :: is, m, w => by
    obtain ⟨ptx, mtex, h1, -⟩ := mapPlane_mapper env hwfc i m w
    unfold mapPlanes
    split
    · next m' w' h =>
      simp only [h] at h1
      subst h1
      exact mapPlanes_shape env hwfc is _ w'
    · next m' w' h => simp only [h] at h1; exact ⟨_, mtex, h1⟩

/-- The plane loop stops with the failing plane's `p->tex[i]` NULL, provided every plane it
reaches starts NULL. -/
theorem mapPlanes_fail_tex (env : MapEnv) (hwfc : AVHWFramesContext) :
    ∀ (is : List (Fin 4)) (m m' : RaHwdecMapper) (w w' : World),
      (∀ i ∈ is, m.priv.tex i = none) → is.Nodup →
        mapPlanes env hwfc is m w = (false, m', w') → ∃ j, m'.priv.tex j = none
  | [], _, _, _, _, _, _, h => by simp [mapPlanes] at h
  | i :: is, m, m', w, w', hnull, hnd, h => by
    obtain ⟨ptx, mtex, h1, hfail⟩ := mapPlane_mapper env hwfc i m w
    unfold mapPlanes at h
    split at h
    · next m1 w1 hm =>
      simp only [hm] at h1
      refine mapPlanes_fail_tex env hwfc is m1 m' w1 w' (fun j hj => ?_) (List.nodup_cons.1 hnd).2 h
      have hne : j ≠ i := fun e => (List.nodup_cons.1 hnd).1 (e ▸ hj)
      simp only [h1, Function.update_noteq hne]
      exact hnull j (List.mem_cons_of_mem _ hj)
    · next m1 w1 hm =>
      cases h
      simp only [hm] at h1
      rw [hm] at hfail
      refine ⟨i, ?_⟩
      simp only [h1, Function.update_same]
      rcases hfail rfl with rfl | rfl
      · rfl
      · exact hnull i (List.mem_cons_self _ _)

/-- **A failed map does not return.** If the plane loop of `mapper_map` fails, for a mapper
with a source, no frame recorded and `p->tex` cleared (as `mapper_unmap` leaves them), the
unwind reaches `vkfc->lock_frame(hwfc, NULL)`. -/
theorem mapperMap_of_planes_fail {env : MapEnv} {src : HwImage} {mt : Fin 4 → Option RaTex}
    {p : VulkanMapperPriv} {w : World} (hv : env.vulkan = true) (hvkf : p.vkf = none)
    (htex : ∀ i, p.tex i = none)
    (hfail : (mapPlanes env src.hwfc (indices.take p.layout.numPlanes)
      ⟨some src, mt, snapshot (w.frames src.vkf) p⟩ w).1 = false) :
    mapperMap env ⟨some src, mt, p⟩ w = .error .nullFrame := by
  simp only [mapperMap, hv, Bool.not_true, snapshot_layout]
  rcases hmp : mapPlanes env src.hwfc (indices.take p.layout.numPlanes)
    ⟨some src, mt, snapshot (w.frames src.vkf) p⟩ w with ⟨b, m', w'⟩
  rw [hmp] at hfail
  cases hfail
  obtain ⟨ptex, mtex, hshape⟩ := mapPlanes_shape env src.hwfc (indices.take p.layout.numPlanes)
    ⟨some src, mt, snapshot (w.frames src.vkf) p⟩ w
  rw [hmp] at hshape
  simp only at hshape
  obtain ⟨j, hj⟩ := mapPlanes_fail_tex env src.hwfc _ _ m' w w' (fun i _ => htex i)
    ((List.take_sublist _ indices).nodup (by decide)) hmp
  obtain ⟨wp, hwp⟩ := markWillProcess_ok hj
  simp only [Bool.false_eq_true, if_false, mapperUnmap_of_scan_no_frame env.holdEx w'
    (by rw [hshape] : m'.src = some src) (by rw [hshape]; exact hvkf) hwp]
  rfl

/-- `pl_vulkan_wrap` fails at the only plane of a one-image frame. -/
theorem mapperMap_of_planes_fail_one_plane :
    mapperMap ⟨true, fun _ => 1920, fun _ => 1088, fun _ => 0, fun _ => none, fun _ => true,
        fun _ => none⟩
      ⟨some ⟨⟨1920, 1088, 0⟩, 0⟩, fun _ => none,
        ⟨⟨1, by decide⟩, none, fun _ => none, fun _ => 0, fun _ => 0, fun _ => 0, fun _ => 0, 0⟩⟩
      ⟨fun _ => ⟨fun i => if i = 0 then 1 else 0, fun _ => 0, fun _ => 1, fun _ => 5, fun _ => 1⟩,
        [], 0, []⟩ = .error .nullFrame :=
  mapperMap_of_planes_fail rfl rfl (fun _ => rfl) rfl

/-- **A map that returns `0`** records the frame and leaves the snapshot as it took it, but
for `p->tex`. -/
theorem mapperMap_ok_priv {env : MapEnv} {m m₁ : RaHwdecMapper} {w w₁ : World} {src : HwImage}
    (hsrc : m.src = some src) (h : mapperMap env m w = .ok (0, m₁, w₁)) :
    ∃ ptex, m₁.priv = { snapshot (w.frames src.vkf) m.priv with tex := ptex, vkf := some src.vkf } := by
  unfold mapperMap at h
  split at h
  · simp at h
  · rw [hsrc] at h
    obtain ⟨ptex, mtex, hshape⟩ := mapPlanes_shape env src.hwfc
      (indices.take m.priv.layout.numPlanes) ⟨some src, m.tex, snapshot (w.frames src.vkf) m.priv⟩ w
    simp only [snapshot_layout] at h hshape
    rcases hmp : mapPlanes env src.hwfc (indices.take m.priv.layout.numPlanes)
      ⟨some src, m.tex, snapshot (w.frames src.vkf) m.priv⟩ w with ⟨b, m', w'⟩
    rw [hmp] at h hshape
    cases b
    · cases hu : mapperUnmap env.holdEx m' w' <;> simp [hu] at h
    · simp only [Except.ok.injEq, Prod.mk.injEq] at h
      obtain ⟨-, rfl, -⟩ := h
      simp only at hshape
      exact ⟨ptex, by subst hshape; rfl⟩

/-- A frame of four images with four planes (`yuva420p` as four images): every plane is wrapped
and `mapper_map` returns `0` with the four entries of `p->tex` set; the next `mapper_unmap`
reads `p->tex[4]`. -/
theorem map_then_unmap_four_planes :
    ∃ m w, mapperMap ⟨true, fun _ => 1920, fun _ => 1088, fun _ => 0, fun i => some (i.val + 1),
        fun _ => true, fun _ => some 0⟩
      ⟨some ⟨⟨1920, 1088, 0⟩, 0⟩, fun _ => none,
        ⟨⟨4, le_refl 4⟩, none, fun _ => none, fun _ => 0, fun _ => 0, fun _ => 0, fun _ => 0, 0⟩⟩
      ⟨fun _ => ⟨fun i => i.val + 1, fun _ => 0, fun i => i.val + 1, fun _ => 5, fun _ => 1⟩,
        [], 0, []⟩ = .ok (0, m, w) ∧
      mapperUnmap (fun _ => some 0) m w = .error .texOutOfBounds :=
  ⟨_, _, rfl, rfl⟩

end Dmpv.Hwdec
