import Dmpv.Hwdec.Map

/- One mapping session: a `mapper_map` that succeeds, then the `mapper_unmap` that ends it
   (`video/out/hwdec/hwdec_vulkan.c`, lines 324-503), with no other party touching the frame
   in between.

   The code is written for two shapes of frame: one image holding all the planes
   (`num_planes > 1 && num_images == 1`, at most three planes, one aspect each), and one
   image per plane. On these shapes with at most three planes, a session does what the
   spec's import/export protocol asks (`map_unmap_session`):

   * the map wraps every plane, releases it waiting on the snapshot's counter of its
     image, and leaves the mapper `Mapped`;
   * the unmap makes one hold per image the planes use (`touchedImages`), signalling one
     above the snapshot's counter; a hold that succeeds commits its layout and keeps the
     increment, one that fails rolls the counter back; every image's `access` is cleared;
     the `ra_tex` the map created are freed and the mapper is `Unmapped` again.

   The proof follows the code's loops: each sentinel loop over `p->tex` is a fold over the
   planes set (`texScan_prefix`); the plane loop of the map is computed once for any list of
   planes (`mapPlanes_ok`), and the hold loop once per shape (`holdSteps_own_images`,
   `holdSteps_processed`, assembled in `holdLoop_session`). The map and the unmap are then
   characterised on their own, on any frame (`mapperMap_of_unmapped`,
   `mapperUnmap_of_mapped_any`), and a session is the two in sequence. Four planes are the case
   the sentinel loop gets wrong (`map_then_unmap_four_planes`); a frame with fewer images than
   planes, not all in one, is the case the plane-to-image rule gets wrong: the plane at index
   `num_images` is released and held on the semaphore the mapper kept from before, the hold
   signalling `0` (`session_plane_past_frame_images`). -/

namespace Dmpv.Hwdec

/-! ## The states of a session -/

/-- After a successful `mapper_map` of `numPlanes` planes from frame `ref`: the frame is
recorded, and exactly the first `numPlanes` entries of `p->tex` and `mapper->tex` are set. -/
def Mapped (numPlanes : Nat) (ref : FrameRef) (m : RaHwdecMapper) : Prop :=
  m.priv.vkf = some ref ∧ (∀ i, m.priv.tex i ≠ none ↔ i.val < numPlanes) ∧
    ∀ i, m.tex i ≠ none ↔ i.val < numPlanes

/-- Between sessions: no frame recorded, no texture held. -/
def Unmapped (m : RaHwdecMapper) : Prop :=
  m.priv.vkf = none ∧ (∀ i, m.priv.tex i = none) ∧ ∀ i, m.tex i = none

/-- The images the planes use, by the spec's plane-to-image rule: image `0` when several planes
share one image, else one image per plane. -/
def touchedImages (numPlanes numImages : Nat) : List (Fin 4) :=
  if numPlanes > 1 ∧ numImages = 1 then [0] else indices.take numPlanes

/-! ## The loops over a prefix of `p->tex` -/

@[simp] theorem mem_take_indices (k : Nat) (i : Fin 4) : i ∈ indices.take k ↔ i.val < k := by
  rcases Nat.lt_or_ge k 4 with hk | hk
  · have : k = 0 ∨ k = 1 ∨ k = 2 ∨ k = 3 := by omega
    rcases this with rfl | rfl | rfl | rfl <;> fin_cases i <;> decide
  · rw [List.take_of_length_le (by simpa [indices] using hk)]
    simp only [mem_indices, true_iff]; omega

theorem indexOf_take_indices {k : Nat} {i : Fin 4} (h : i.val < k) :
    (indices.take k).indexOf i = i.val := by
  rcases Nat.lt_or_ge k 4 with hk | hk
  · have : k = 0 ∨ k = 1 ∨ k = 2 ∨ k = 3 := by omega
    rcases this with rfl | rfl | rfl | rfl <;> fin_cases i <;> first | rfl | simp at h
  · rw [List.take_of_length_le (by simpa [indices] using hk)]
    fin_cases i <;> rfl

theorem indices_split {k : Nat} (hk : k < 4) :
    indices = indices.take k ++ ⟨k, hk⟩ :: indices.drop (k + 1) := by
  have : k = 0 ∨ k = 1 ∨ k = 2 ∨ k = 3 := by omega
  rcases this with rfl | rfl | rfl | rfl <;> rfl

theorem texScan_append {σ : Type} {tex : Fin 4 → Option PlTex} (body : Fin 4 → PlTex → σ → σ)
    (t : Fin 4 → PlTex) {j : Fin 4} (hj : tex j = none) (rest : List (Fin 4)) :
    ∀ (l : List (Fin 4)) (s : σ), (∀ i ∈ l, tex i = some (t i)) →
      texScan tex body (l ++ j :: rest) s = .ok (l.foldl (fun s i => body i (t i) s) s)
  | [], s, _ => by simp [texScan, hj]
  | i :: l, s, h => by
    simp only [List.cons_append, texScan, h i (List.mem_cons_self _ _), List.foldl_cons]
    exact texScan_append body t hj rest l _ fun i hi => h i (List.mem_cons_of_mem _ hi)

/-- **The sentinel loop over `k < 4` entries** is the fold of its body over them. -/
theorem texScan_prefix {σ : Type} {tex : Fin 4 → Option PlTex} (body : Fin 4 → PlTex → σ → σ)
    (t : Fin 4 → PlTex) {k : Nat} (hk : k < 4)
    (htex : ∀ i, tex i = if i.val < k then some (t i) else none) (s : σ) :
    texScan tex body indices s = .ok ((indices.take k).foldl (fun s i => body i (t i) s) s) := by
  rw [indices_split hk]
  rw [List.take_left' (by simp [indices]; omega)]
  exact texScan_append body t (by simp [htex]) _ _ s fun i hi => by
    simp [htex, (mem_take_indices k i).1 hi]

/-! ## The first loop of `mapper_unmap` -/

theorem foldl_mark (g : Fin 4 → Fin 4) :
    ∀ (l : List (Fin 4)) (wp : Fin 4 → Bool) (j : Fin 4),
      l.foldl (fun wp i => Function.update wp (g i) true) wp j = (decide (j ∈ l.map g) || wp j)
  | [], _, _ => by simp
  | i :: l, wp, j => by
    rw [List.foldl_cons, foldl_mark g l, List.map_cons]
    by_cases h : j = g i
    · subst h; simp
    · simp [Function.update_noteq h, h]

/-- The images the planes use, as the first loop marks them. -/
theorem mem_map_planeImage {numPlanes numImages : Nat} (hP : 1 ≤ numPlanes) (j : Fin 4) :
    j ∈ (indices.take numPlanes).map (planeImage numPlanes numImages) ↔
      j ∈ touchedImages numPlanes numImages := by
  unfold touchedImages planeImage
  split_ifs with h
  · simp only [List.mem_map, mem_take_indices, List.mem_singleton]
    exact ⟨fun ⟨_, _, h⟩ => h.symm, fun h => ⟨0, by simpa using hP, h.symm⟩⟩
  · simp

/-- On the two shapes, every touched image is one the snapshot filled. -/
theorem touchedImages_lt {numPlanes numImages : Nat} (hn : numImages = numPlanes ∨ numImages = 1)
    {j : Fin 4} (hj : j ∈ touchedImages numPlanes numImages) : j.val < numImages := by
  unfold touchedImages at hj
  split_ifs at hj with h
  · simp only [List.mem_singleton] at hj; subst hj; simp [h.2]
  · simp only [mem_take_indices] at hj; omega

/-! ## The plane loop of `mapper_map` -/

/-- Every plane of a frame whose planes share one image has an aspect, up to the third. -/
theorem planeAspect_isSome {numPlanes numImages : Nat} {i : Fin 4} (hi : i.val < 3) :
    (planeAspect numPlanes numImages i).isSome = true := by
  unfold planeAspect
  split
  · fin_cases i <;> simp_all
  · rfl

/-- A plane whose wrap and `mppl_wrap_tex` succeed: its texture is set, it is released waiting
on its image's counter, and the next `ra_tex` is stored. -/
theorem mapPlane_ok {env : MapEnv} {hwfc : AVHWFramesContext} {i : Fin 4} {m : RaHwdecMapper}
    {w : World} {index : Fin 4} {a : Aspect} {tx : PlTex}
    (ha : planeAspect m.priv.layout.numPlanes m.priv.numImages i = some (index, a))
    (hw : env.wrap i = some tx) (ht : env.wrapTex i = true) :
    mapPlane env hwfc i m w =
      (true,
        { m with priv := { m.priv with tex := Function.update m.priv.tex i (some tx) }
                 tex := Function.update m.tex i (some w.raNext) },
        { w with
          plCalls := w.plCalls ++
            [.wrap ⟨m.priv.img index, env.planeW i, env.planeH i, env.vkFmt i, hwfc.usage, a⟩,
             .release tx (m.priv.imgLayout index) ⟨m.priv.sem index, m.priv.semValue index⟩]
          raNext := w.raNext + 1 }) := by
  simp [mapPlane, ha, hw, ht]

/-- **The plane loop when every wrap succeeds.** Each plane of `l` gets its texture and the
`ra_tex` numbered by its position, in order, and is released waiting on the counter of its
image. -/
theorem mapPlanes_ok (env : MapEnv) (hwfc : AVHWFramesContext) (t : Fin 4 → PlTex) :
    ∀ (l : List (Fin 4)) (m : RaHwdecMapper) (w : World), l.Nodup →
      (∀ i ∈ l, (planeAspect m.priv.layout.numPlanes m.priv.numImages i).isSome = true ∧
        env.wrap i = some (t i) ∧ env.wrapTex i = true) →
      ∃ calls, mapPlanes env hwfc l m w =
        (true,
          { m with priv := { m.priv with tex := fun i => if i ∈ l then some (t i) else m.priv.tex i }
                   tex := fun i => if i ∈ l then some (w.raNext + l.indexOf i) else m.tex i },
          { w with plCalls := w.plCalls ++ calls, raNext := w.raNext + l.length }) ∧
        ∀ i ∈ l, let index := planeImage m.priv.layout.numPlanes m.priv.numImages i
          PlCall.release (t i) (m.priv.imgLayout index) ⟨m.priv.sem index, m.priv.semValue index⟩ ∈
            calls
  | [], m, w, _, _ => ⟨[], by simp [mapPlanes], by simp⟩
  | i :: l, m, w, hnd, h => by
    obtain ⟨ha, hw, ht⟩ := h i (List.mem_cons_self _ _)
    obtain ⟨⟨index, a⟩, ha⟩ := Option.isSome_iff_exists.1 ha
    have hi : i ∉ l := (List.nodup_cons.1 hnd).1
    obtain ⟨calls, hrun, hrel⟩ := mapPlanes_ok env hwfc t l
      { m with priv := { m.priv with tex := Function.update m.priv.tex i (some (t i)) }
               tex := Function.update m.tex i (some w.raNext) }
      { w with
        plCalls := w.plCalls ++
          [.wrap ⟨m.priv.img index, env.planeW i, env.planeH i, env.vkFmt i, hwfc.usage, a⟩,
           .release (t i) (m.priv.imgLayout index) ⟨m.priv.sem index, m.priv.semValue index⟩]
        raNext := w.raNext + 1 }
      (List.nodup_cons.1 hnd).2 fun j hj => h j (List.mem_cons_of_mem _ hj)
    refine ⟨[.wrap ⟨m.priv.img index, env.planeW i, env.planeH i, env.vkFmt i, hwfc.usage, a⟩,
      .release (t i) (m.priv.imgLayout index) ⟨m.priv.sem index, m.priv.semValue index⟩] ++ calls,
      ?_, fun j hj => ?_⟩
    · simp only [mapPlanes, mapPlane_ok ha hw ht, hrun, List.append_assoc, List.length_cons]
      refine Prod.ext rfl (Prod.ext ?_ ?_)
      · simp only [RaHwdecMapper.mk.injEq, VulkanMapperPriv.mk.injEq, true_and, and_true]
        constructor <;> funext j <;> by_cases hj : j = i
        · subst hj; simp [hi]
        · simp only [hj, Function.update_noteq hj, List.mem_cons, false_or,
            List.indexOf_cons_ne l (Ne.symm hj), Nat.succ_eq_add_one, Nat.add_assoc, Nat.add_comm 1]
        · subst hj; simp [hi]
        · simp [hj, Function.update_noteq hj]
      · simp only [World.mk.injEq, true_and, and_true, Nat.add_assoc, Nat.add_comm 1]
    · rcases List.mem_cons.1 hj with rfl | hj
      · rw [← planeAspect_image ha]; simp
      · exact List.mem_append_right _ (hrel j hj)

section HoldLoop

variable (p : VulkanMapperPriv) (reserved : Fin 4 → BitVec 64) (holdEx : HoldEx)
  (t : Fin 4 → PlTex)

theorem holdStep_of_processed {i : Fin 4} {tx : PlTex} {s : HoldState}
    (h : s.processed (planeImage p.layout.numPlanes p.numImages i) = true) :
    holdStep p reserved holdEx i tx s = { s with tex := Function.update s.tex i none } := by
  simp [holdStep, h]

theorem holdStep_fresh {i : Fin 4} {tx : PlTex} {s : HoldState}
    (h : s.processed (planeImage p.layout.numPlanes p.numImages i) = false) :
    holdStep p reserved holdEx i tx s =
      let index := planeImage p.layout.numPlanes p.numImages i
      { processed := Function.update s.processed index true
        ok := Function.update s.ok index (holdEx i).isSome
        newLayout := Function.update s.newLayout index ((holdEx i).getD (s.newLayout index))
        tex := Function.update s.tex i none
        calls := s.calls ++ [.hold tx ⟨p.sem index, reserved index⟩] } := by
  simp only [holdStep, h, Bool.false_eq_true, if_false]
  cases holdEx i <;> simp

/-- Steps whose image is already processed only clear their texture. -/
theorem holdSteps_processed :
    ∀ (l : List (Fin 4)) (s : HoldState),
      (∀ i ∈ l, s.processed (planeImage p.layout.numPlanes p.numImages i) = true) →
      l.foldl (fun s i => holdStep p reserved holdEx i (t i) s) s =
        { s with tex := fun j => if j ∈ l then none else s.tex j }
  | [], s, _ => by simp
  | i :: l, s, h => by
    rw [List.foldl_cons, holdStep_of_processed p reserved holdEx (h i (List.mem_cons_self _ _)),
      holdSteps_processed l { s with tex := Function.update s.tex i none }
        fun j hj => h j (List.mem_cons_of_mem _ hj)]
    simp only [HoldState.mk.injEq, true_and, and_true]
    funext j
    by_cases hj : j = i
    · subst hj; simp
    · simp [Function.update_noteq hj, hj]

/-- **One image per plane.** Each plane makes its own hold. -/
theorem holdSteps_own_images :
    ∀ (l : List (Fin 4)) (s : HoldState), l.Nodup →
      (∀ i ∈ l, planeImage p.layout.numPlanes p.numImages i = i) →
      (∀ i ∈ l, s.processed i = false) →
      l.foldl (fun s i => holdStep p reserved holdEx i (t i) s) s =
        { processed := fun j => decide (j ∈ l) || s.processed j
          ok := fun j => if j ∈ l then (holdEx j).isSome else s.ok j
          newLayout := fun j => if j ∈ l then (holdEx j).getD (s.newLayout j) else s.newLayout j
          tex := fun j => if j ∈ l then none else s.tex j
          calls := s.calls ++ l.map fun j => .hold (t j) ⟨p.sem j, reserved j⟩ }
  | [], s, _, _, _ => by simp
  | i :: l, s, hnd, hg, hp => by
    have hgi := hg i (List.mem_cons_self _ _)
    have hne : ∀ j ∈ l, j ≠ i := fun j hj e => (List.nodup_cons.1 hnd).1 (e ▸ hj)
    rw [List.foldl_cons, holdStep_fresh p reserved holdEx (by rw [hgi]; exact hp i (List.mem_cons_self _ _))]
    simp only [hgi]
    rw [holdSteps_own_images l _ (List.nodup_cons.1 hnd).2 (fun j hj => hg j (List.mem_cons_of_mem _ hj))
      fun j hj => by simp [Function.update_noteq (hne j hj), hp j (List.mem_cons_of_mem _ hj)]]
    simp only [HoldState.mk.injEq, List.map_cons, List.append_assoc, List.singleton_append,
      and_true]
    refine ⟨funext fun j => ?_, funext fun j => ?_, funext fun j => ?_, funext fun j => ?_⟩ <;>
    · by_cases hj : j = i
      · subst hj; simp [(List.nodup_cons.1 hnd).1]
      · simp [Function.update_noteq hj, hj]

end HoldLoop

/-- **The hold loop of a session.** On `numPlanes ≤ 3` planes set in `p->tex`, whatever the
number of images, the loop makes one hold per touched image, at its first plane, and records
the outcome and layout of each. -/
theorem holdLoop_session {numPlanes numImages : Nat} (hP : 1 ≤ numPlanes ∧ numPlanes ≤ 3)
    {p : VulkanMapperPriv}
    (hpP : p.layout.numPlanes = numPlanes) (hpn : p.numImages = numImages) {t : Fin 4 → PlTex}
    (htex : ∀ i, p.tex i = if i.val < numPlanes then some (t i) else none)
    (reserved : Fin 4 → BitVec 64) (holdEx : HoldEx) :
    ∃ s, holdLoop p reserved holdEx = .ok s ∧
      (∀ j, s.ok j = (decide (j ∈ touchedImages numPlanes numImages) && (holdEx j).isSome)) ∧
      (∀ j, s.newLayout j =
        if j ∈ touchedImages numPlanes numImages then (holdEx j).getD 0 else 0) ∧
      (∀ j, s.tex j = none) ∧
      s.calls = (touchedImages numPlanes numImages).map
        fun j => .hold (t j) ⟨p.sem j, reserved j⟩ := by
  refine ⟨_, texScan_prefix _ t (by omega) htex _, ?_⟩
  have htex' : ∀ j, (if j ∈ indices.take numPlanes then none else p.tex j) = none := fun j => by
    simp only [mem_take_indices, htex]; split_ifs <;> rfl
  by_cases hs : numPlanes > 1 ∧ numImages = 1
  · -- one image: the first plane holds image 0, the others find it processed
    have hg : ∀ i, planeImage p.layout.numPlanes p.numImages i = 0 := fun i => by
      simp [planeImage, hpP, hpn, hs]
    obtain ⟨k, rfl⟩ : ∃ k, numPlanes = k + 1 := ⟨numPlanes - 1, by omega⟩
    have htake : indices.take (k + 1) = 0 :: [1, 2, 3].take k := rfl
    rw [htake] at htex'
    rw [htake, List.foldl_cons, holdStep_fresh p reserved holdEx (by rw [hg]), hg,
      holdSteps_processed p reserved holdEx t _ _ fun i _ => by
        rw [hg]; exact Function.update_same (0 : Fin 4) true fun _ => false]
    simp only [touchedImages, hs, and_self, if_true, List.map_cons, List.map_nil, List.nil_append,
      List.mem_singleton]
    refine ⟨fun j => ?_, fun j => ?_, fun j => ?_, trivial⟩ <;> by_cases hj : j = 0 <;>
      try (subst hj; simp)
    · simp [hj, Function.update_noteq hj]
    · simp [hj, Function.update_noteq hj]
    · simpa [hj, Function.update_noteq hj] using htex' j
  · -- one image per plane: every plane holds its own image
    rw [holdSteps_own_images p reserved holdEx t _ _ ((List.take_sublist _ _).nodup (by decide))
      (fun i _ => by simp [planeImage, hpP, hpn, hs]) fun _ _ => rfl]
    simp only [touchedImages, hs, if_false, List.nil_append, Bool.or_false]
    refine ⟨fun j => ?_, fun j => ?_, htex', trivial⟩ <;> by_cases hj : j ∈ indices.take numPlanes <;>
      simp [hj]

/-! ## `mapper_map` from an unmapped state -/

/-- **Mapping an unmapped session.** When `pl_vulkan_wrap` and `mppl_wrap_tex` succeed for each
of `numPlanes ≤ 3` planes, `mapper_map` returns `0` with the frame snapshotted and recorded, the
first `numPlanes` textures set, the `ra_tex` numbered in plane order, and each plane released
waiting on the snapshot's counter of its image. -/
theorem mapperMap_of_unmapped {env : MapEnv} (hv : env.vulkan = true) {t : Fin 4 → PlTex}
    {m : RaHwdecMapper} {src : HwImage} (w : World) (hsrc : m.src = some src) (hun : Unmapped m)
    (hP : m.priv.layout.numPlanes ≤ 3)
    (hwrap : ∀ i : Fin 4, i.val < m.priv.layout.numPlanes →
      env.wrap i = some (t i) ∧ env.wrapTex i = true) :
    ∃ m₁ w₁, mapperMap env m w = .ok (0, m₁, w₁) ∧ m₁.src = some src ∧
      m₁.priv.vkf = some src.vkf ∧ m₁.priv.layout = m.priv.layout ∧
      m₁.priv.numImages = countImages (w.frames src.vkf).img indices ∧
      (∀ i, m₁.priv.tex i = if i.val < m.priv.layout.numPlanes then some (t i) else none) ∧
      (∀ i, m₁.tex i = if i.val < m.priv.layout.numPlanes then some (w.raNext + i.val) else none) ∧
      (∀ j : Fin 4, j.val < countImages (w.frames src.vkf).img indices →
        m₁.priv.sem j = (w.frames src.vkf).sem j) ∧
      w₁.frames = w.frames ∧ w₁.raFreed = w.raFreed ∧
      w₁.raNext = w.raNext + m.priv.layout.numPlanes ∧
      ∀ i : Fin 4, i.val < m.priv.layout.numPlanes →
        let p := snapshot (w.frames src.vkf) m.priv
        let index := planeImage m.priv.layout.numPlanes p.numImages i
        PlCall.release (t i) (p.imgLayout index) ⟨p.sem index, p.semValue index⟩ ∈ w₁.plCalls := by
  obtain ⟨calls, hrun, hrel⟩ := mapPlanes_ok env src.hwfc t (indices.take m.priv.layout.numPlanes)
    { m with priv := snapshot (w.frames src.vkf) m.priv } w
    ((List.take_sublist _ _).nodup (by decide)) fun i hi => by
      have hi := (mem_take_indices _ i).1 hi
      exact ⟨planeAspect_isSome (by omega), hwrap i hi⟩
  have heq : mapperMap env m w = .ok (0,
      { m with
        priv := { snapshot (w.frames src.vkf) m.priv with
          vkf := some src.vkf
          tex := fun i => if i.val < m.priv.layout.numPlanes then some (t i) else none }
        tex := fun i => if i.val < m.priv.layout.numPlanes then some (w.raNext + i.val) else none },
      { w with plCalls := w.plCalls ++ calls, raNext := w.raNext + m.priv.layout.numPlanes }) := by
    rw [hsrc] at hrun
    simp only [mapperMap, hv, Bool.not_true, Bool.false_eq_true, if_false, hsrc, snapshot_layout,
      hrun]
    have hlen : (indices.take m.priv.layout.numPlanes).length = m.priv.layout.numPlanes := by
      simp [indices]; omega
    simp only [hlen, mem_take_indices, snapshot_tex, hun.2.1, hun.2.2, Except.ok.injEq,
      Prod.mk.injEq, RaHwdecMapper.mk.injEq, true_and, and_true]
    funext i
    split_ifs with h
    · rw [indexOf_take_indices h]
    · rfl
  exact ⟨_, _, heq, hsrc, rfl, rfl, rfl, fun _ => rfl, fun _ => rfl,
    fun j hj => by simp [snapshot, hj], rfl, rfl, rfl,
    fun i hi => List.mem_append_right _ (hrel i ((mem_take_indices _ i).2 hi))⟩

/-! ## `mapper_unmap` from a mapped state -/

/-- **Unmapping a mapped mapper, on any frame.** From a mapper whose first `numPlanes ≤ 3`
textures are set, `mapper_unmap` returns the mapper to `Unmapped`, holds each touched image once
on the mapper's semaphore for it, and frees the textures the session holds. The value a hold
signals is one above the frame's counter for an image below `num_images`, and `0` for one
past it, which the windows never reserved; on the frame, only touched images below
`num_images` take the hold's outcome: the increment and the layout kept where it succeeded,
the counter rolled back where it failed. `access` is cleared below `num_images`. -/
theorem mapperUnmap_of_mapped_any (holdEx : HoldEx) {m : RaHwdecMapper} {w : World}
    {src : HwImage} {ref : FrameRef} {t : Fin 4 → PlTex} (hsrc : m.src = some src)
    (hvkf : m.priv.vkf = some ref) (hP : 1 ≤ m.priv.layout.numPlanes ∧ m.priv.layout.numPlanes ≤ 3)
    (htex : ∀ i, m.priv.tex i = if i.val < m.priv.layout.numPlanes then some (t i) else none)
    (hmtex : ∀ i : Fin 4, m.priv.layout.numPlanes ≤ i.val → m.tex i = none) :
    ∃ m' w', mapperUnmap holdEx m w = .ok (m', w') ∧ Unmapped m' ∧
      w'.plCalls = w.plCalls ++ (touchedImages m.priv.layout.numPlanes m.priv.numImages).map
        (fun j => .hold (t j) ⟨m.priv.sem j,
          if j.val < m.priv.numImages then (w.frames ref).semValue j + 1 else 0⟩) ∧
      w'.raFreed = w.raFreed ++
        indices.filterMap (fun i => if i.val < m.priv.layout.numPlanes then m.tex i else none) ∧
      (∀ j, (w'.frames ref).semValue j =
        if j ∈ touchedImages m.priv.layout.numPlanes m.priv.numImages ∧ j.val < m.priv.numImages ∧
          (holdEx j).isSome
        then (w.frames ref).semValue j + 1 else (w.frames ref).semValue j) ∧
      (∀ j, (w'.frames ref).layout j =
        if j ∈ touchedImages m.priv.layout.numPlanes m.priv.numImages ∧ j.val < m.priv.numImages
        then (holdEx j).getD ((w.frames ref).layout j) else (w.frames ref).layout j) ∧
      (∀ j, (w'.frames ref).access j =
        if j.val < m.priv.numImages then 0 else (w.frames ref).access j) ∧
      (∀ r, r ≠ ref → w'.frames r = w.frames r) ∧
      (w'.frames ref).img = (w.frames ref).img ∧ m'.priv.layout = m.priv.layout ∧
      w'.raNext = w.raNext := by
  have hwp : markWillProcess m.priv =
      .ok fun j => decide (j ∈ touchedImages m.priv.layout.numPlanes m.priv.numImages) := by
    rw [markWillProcess, texScan_prefix _ t (by omega) htex]
    congr 1; funext j
    simp only [foldl_mark, Bool.or_false, mem_map_planeImage hP.1]
  have htouch : ∀ j, Touched m.priv.numImages
      (fun j => decide (j ∈ touchedImages m.priv.layout.numPlanes m.priv.numImages)) j ↔
      j ∈ touchedImages m.priv.layout.numPlanes m.priv.numImages ∧ j.val < m.priv.numImages :=
    fun j => ⟨fun h => ⟨by simpa using h.2, h.1⟩, fun h => ⟨h.2, by simpa using h.1⟩⟩
  obtain ⟨s, hs, hok, hlay, hstex, hcalls⟩ := holdLoop_session hP rfl rfl htex
    (reserveWindow m.priv.numImages _ (w.frames ref)).2 holdEx
  refine ⟨_, _, mapperUnmap_eq hsrc hvkf hwp hs, ⟨rfl, hstex, fun i => ?_⟩, ?_, rfl,
    fun j => ?_, fun j => ?_, fun j => ?_, fun r hr => Function.update_noteq hr _ _,
    by simp [unmapEnd, commitWindow, reserveWindow], rfl, rfl⟩
  · -- `end:` clears the textures below `num_planes`; the others were never set
    simp only [unmapEnd]
    split_ifs with h
    · rfl
    · exact hmtex i (by omega)
  · simp only [unmapEnd, hcalls]
    congr 1
    refine List.map_congr_left fun j hj => ?_
    by_cases hn : j.val < m.priv.numImages <;> simp [htouch, hj, hn]
  all_goals simp only [unmapEnd, Function.update_same, commitWindow_semValue, commitWindow_layout,
    commitWindow_access, reserveWindow_semValue, reserveWindow_reserved, reserveWindow_layout,
    reserveWindow_access, htouch, hok, hlay]
  · by_cases hj : j ∈ touchedImages m.priv.layout.numPlanes m.priv.numImages ∧
        j.val < m.priv.numImages <;>
      cases h : (holdEx j).isSome <;> simp [hj, h, BitVec.add_sub_cancel]
  · by_cases hj : j ∈ touchedImages m.priv.layout.numPlanes m.priv.numImages ∧
        j.val < m.priv.numImages <;>
      cases h : holdEx j <;> simp [hj, h]

/-- **Unmapping a mapped session.** From a mapper whose first `numPlanes ≤ 3` textures are set,
on one image or one image per plane, `mapper_unmap` returns the mapper to `Unmapped`, holds each
touched image once signalling one above its current counter, frees the textures the session
holds, and on the frame keeps the increment and the layout where the hold succeeded, rolls the
counter back where it failed, and clears `access` for every image. -/
theorem mapperUnmap_of_mapped (holdEx : HoldEx) {m : RaHwdecMapper} {w : World} {src : HwImage}
    {ref : FrameRef} {t : Fin 4 → PlTex} (hsrc : m.src = some src) (hvkf : m.priv.vkf = some ref)
    (hP : 1 ≤ m.priv.layout.numPlanes ∧ m.priv.layout.numPlanes ≤ 3)
    (hn : m.priv.numImages = m.priv.layout.numPlanes ∨ m.priv.numImages = 1)
    (htex : ∀ i, m.priv.tex i = if i.val < m.priv.layout.numPlanes then some (t i) else none)
    (hmtex : ∀ i : Fin 4, m.priv.layout.numPlanes ≤ i.val → m.tex i = none) :
    ∃ m' w', mapperUnmap holdEx m w = .ok (m', w') ∧ Unmapped m' ∧
      w'.plCalls = w.plCalls ++ (touchedImages m.priv.layout.numPlanes m.priv.numImages).map
        (fun j => .hold (t j) ⟨m.priv.sem j, (w.frames ref).semValue j + 1⟩) ∧
      w'.raFreed = w.raFreed ++
        indices.filterMap (fun i => if i.val < m.priv.layout.numPlanes then m.tex i else none) ∧
      (∀ j, (w'.frames ref).semValue j =
        if j ∈ touchedImages m.priv.layout.numPlanes m.priv.numImages ∧ (holdEx j).isSome
        then (w.frames ref).semValue j + 1 else (w.frames ref).semValue j) ∧
      (∀ j, (w'.frames ref).layout j =
        if j ∈ touchedImages m.priv.layout.numPlanes m.priv.numImages
        then (holdEx j).getD ((w.frames ref).layout j) else (w.frames ref).layout j) ∧
      (∀ j, (w'.frames ref).access j =
        if j.val < m.priv.numImages then 0 else (w.frames ref).access j) ∧
      (∀ r, r ≠ ref → w'.frames r = w.frames r) ∧
      (w'.frames ref).img = (w.frames ref).img ∧ m'.priv.layout = m.priv.layout ∧
      w'.raNext = w.raNext := by
  obtain ⟨m', w', h, hun, hcalls, hfreed, hsem, hlay, hrest⟩ :=
    mapperUnmap_of_mapped_any holdEx (w := w) hsrc hvkf hP htex hmtex
  -- on these shapes every touched image is below `num_images`
  have hlt := fun j (hj : j ∈ touchedImages m.priv.layout.numPlanes m.priv.numImages) =>
    touchedImages_lt hn hj
  refine ⟨m', w', h, hun, ?_, hfreed, fun j => ?_, fun j => ?_, hrest⟩
  · rw [hcalls]
    congr 1
    exact List.map_congr_left fun j hj => by rw [if_pos (hlt j hj)]
  · by_cases hj : j ∈ touchedImages m.priv.layout.numPlanes m.priv.numImages <;>
      simp [hsem, hj, hlt]
  · by_cases hj : j ∈ touchedImages m.priv.layout.numPlanes m.priv.numImages <;>
      simp [hlay, hj, hlt]

/-! ## A whole session -/

/-- On the two shapes, the plane-to-image rule only picks images the snapshot filled. -/
theorem planeImage_lt {numPlanes numImages : Nat} (hn : numImages = numPlanes ∨ numImages = 1)
    {i : Fin 4} (hi : i.val < numPlanes) : (planeImage numPlanes numImages i).val < numImages := by
  unfold planeImage
  split_ifs with h
  · simp [h.2]
  · omega

/-- The `ra_tex` the session stored, freed in plane order by `end:`. -/
theorem filterMap_numbered {k : Nat} (hk : k ≤ 3) (base : Nat) :
    indices.filterMap (fun i => if i.val < k then
      (if i.val < k then some (base + i.val) else none) else none) = List.range' base k := by
  have : k = 0 ∨ k = 1 ∨ k = 2 ∨ k = 3 := by omega
  rcases this with rfl | rfl | rfl | rfl <;> rfl

/-- **A mapping session.** On a frame of one image holding up to three planes, or of one image
per plane (up to three), with every wrap succeeding and any outcome of the holds: `mapper_map`
returns `0` and leaves the mapper `Mapped`, each plane released waiting on the counter `v` of its
image; the `mapper_unmap` after it makes one hold per touched image, signalling `v + 1`, leaves
the mapper `Unmapped` and frees exactly the `ra_tex` the map created; on the frame, a touched
image keeps `v + 1` and takes the hold's layout if its hold succeeded, and is back at `v` with
its layout unchanged if not; every other image keeps its counter and layout, every image of the
frame has `access` cleared, and no other frame changes. -/
theorem map_unmap_session {env : MapEnv} (hv : env.vulkan = true) {t : Fin 4 → PlTex}
    (holdEx : HoldEx) {m : RaHwdecMapper} {src : HwImage} (w : World) (hsrc : m.src = some src)
    (hun : Unmapped m) (hP : 1 ≤ m.priv.layout.numPlanes ∧ m.priv.layout.numPlanes ≤ 3)
    (hn : countImages (w.frames src.vkf).img indices = m.priv.layout.numPlanes ∨
      countImages (w.frames src.vkf).img indices = 1)
    (hwrap : ∀ i : Fin 4, i.val < m.priv.layout.numPlanes →
      env.wrap i = some (t i) ∧ env.wrapTex i = true) :
    ∃ m₁ w₁ m₂ w₂, mapperMap env m w = .ok (0, m₁, w₁) ∧
      Mapped m.priv.layout.numPlanes src.vkf m₁ ∧
      (∀ i : Fin 4, i.val < m.priv.layout.numPlanes →
        let index := planeImage m.priv.layout.numPlanes (countImages (w.frames src.vkf).img indices) i
        PlCall.release (t i) ((w.frames src.vkf).layout index)
          ⟨(w.frames src.vkf).sem index, (w.frames src.vkf).semValue index⟩ ∈ w₁.plCalls) ∧
      mapperUnmap holdEx m₁ w₁ = .ok (m₂, w₂) ∧ Unmapped m₂ ∧
      w₂.plCalls = w₁.plCalls ++
        (touchedImages m.priv.layout.numPlanes (countImages (w.frames src.vkf).img indices)).map
          (fun j => .hold (t j) ⟨(w.frames src.vkf).sem j, (w.frames src.vkf).semValue j + 1⟩) ∧
      w₂.raFreed = w.raFreed ++ List.range' w.raNext m.priv.layout.numPlanes ∧
      (∀ j, (w₂.frames src.vkf).semValue j =
        if j ∈ touchedImages m.priv.layout.numPlanes (countImages (w.frames src.vkf).img indices) ∧
          (holdEx j).isSome
        then (w.frames src.vkf).semValue j + 1 else (w.frames src.vkf).semValue j) ∧
      (∀ j, (w₂.frames src.vkf).layout j =
        if j ∈ touchedImages m.priv.layout.numPlanes (countImages (w.frames src.vkf).img indices)
        then (holdEx j).getD ((w.frames src.vkf).layout j) else (w.frames src.vkf).layout j) ∧
      (∀ j, (w₂.frames src.vkf).access j =
        if j.val < countImages (w.frames src.vkf).img indices then 0
        else (w.frames src.vkf).access j) ∧
      ∀ r, r ≠ src.vkf → w₂.frames r = w.frames r := by
  obtain ⟨m₁, w₁, hmap, hsrc₁, hvkf₁, hlayout, hnum, htex₁, hmtex₁, hsem₁, hframes, hfreed₁, hnext₁,
    hrel⟩ :=
    mapperMap_of_unmapped hv w hsrc hun hP.2 hwrap
  obtain ⟨m₂, w₂, hunmap, hun₂, hcalls, hfreed, hsem, hlay, hacc, hother, -⟩ :=
    mapperUnmap_of_mapped holdEx (w := w₁) hsrc₁ hvkf₁ (by rw [hlayout]; exact hP)
      (by rw [hlayout, hnum]; exact hn) (by rw [hlayout]; exact htex₁)
      fun i hi => by rw [hmtex₁, if_neg (by rw [hlayout] at hi; omega)]
  simp only [hlayout, hnum, hframes] at hcalls hfreed hsem hlay hacc hother
  refine ⟨m₁, w₁, m₂, w₂, hmap, ⟨hvkf₁, fun i => ?_, fun i => ?_⟩, fun i hi => ?_, hunmap, hun₂, ?_,
    ?_, hsem, hlay, hacc, hother⟩
  · rw [htex₁]; split_ifs with h <;> simp [h]
  · rw [hmtex₁]; split_ifs with h <;> simp [h]
  · have := hrel i hi
    simpa [snapshot, hlayout, hnum, planeImage_lt hn hi] using this
  · rw [hcalls]
    congr 1
    refine List.map_congr_left fun j hj => ?_
    rw [hsem₁ j (touchedImages_lt hn hj)]
  · rw [hfreed, hfreed₁]
    congr 1
    simp only [hmtex₁]
    exact filterMap_numbered hP.2 w.raNext

/-- Two planes in one image (`nv12`), the hold succeeding with layout `7`: the counter ends one
above the snapshot's `41`. -/
theorem map_unmap_session_nv12 :
    ∃ m₁ w₁ m₂ w₂,
      mapperMap ⟨true, fun _ => 1920, fun _ => 1088, fun _ => 0, fun i => some (i.val + 1),
          fun _ => true, fun _ => none⟩
        ⟨some ⟨⟨1920, 1088, 0⟩, 0⟩, fun _ => none,
          ⟨⟨2, by decide⟩, none, fun _ => none, fun _ => 0, fun _ => 0, fun _ => 0, fun _ => 0, 0⟩⟩
        ⟨fun _ => ⟨fun i => if i = 0 then 1 else 0, fun _ => 3, fun _ => 9, fun _ => 41,
          fun _ => 1⟩, [], 0, []⟩ = .ok (0, m₁, w₁) ∧
      mapperUnmap (fun _ => some 7) m₁ w₁ = .ok (m₂, w₂) ∧
      (w₂.frames 0).semValue 0 = 42 ∧ (w₂.frames 0).layout 0 = 7 :=
  let ⟨m₁, w₁, m₂, w₂, hmap, _, _, hunmap, _, _, _, hsem, hlay, _⟩ :=
    map_unmap_session (t := fun i => i.val + 1)
      (m := ⟨some ⟨⟨1920, 1088, 0⟩, 0⟩, fun _ => none,
        ⟨⟨2, by decide⟩, none, fun _ => none, fun _ => 0, fun _ => 0, fun _ => 0, fun _ => 0, 0⟩⟩)
      (show MapEnv.vulkan ⟨true, fun _ => 1920, fun _ => 1088, fun _ => 0, fun i => some (i.val + 1),
        fun _ => true, fun _ => none⟩ = true from rfl) (fun _ => some 7)
      ⟨fun _ => ⟨fun i => if i = 0 then 1 else 0, fun _ => 3, fun _ => 9, fun _ => 41, fun _ => 1⟩,
        [], 0, []⟩ rfl ⟨rfl, fun _ => rfl, fun _ => rfl⟩ ⟨by decide, by decide⟩ (Or.inr rfl)
      fun _ _ => ⟨rfl, rfl⟩
  ⟨m₁, w₁, m₂, w₂, hmap, hunmap, by rw [hsem]; decide, by rw [hlay]; decide⟩

/-- **A plane past the frame's images.** On a frame with fewer images than planes that do not
all share one image (`num_images < num_planes`, `num_images != 1`), the plane at index
`num_images` is mapped and unmapped with what the mapper held before the map, not with the
frame: it is released waiting on the old `p->sem[i]` at the old `p->sem_value[i]`, and held on
that semaphore signalling `0`, a value no window reserved. Whatever that hold reports, the
frame's counter and layout at that index keep their values. -/
theorem session_plane_past_frame_images {env : MapEnv} (hv : env.vulkan = true)
    {t : Fin 4 → PlTex} (holdEx : HoldEx) {m : RaHwdecMapper} {src : HwImage} (w : World)
    (hsrc : m.src = some src) (hun : Unmapped m) (hP : m.priv.layout.numPlanes ≤ 3)
    (hshape : countImages (w.frames src.vkf).img indices < m.priv.layout.numPlanes)
    (hone : countImages (w.frames src.vkf).img indices ≠ 1)
    (hwrap : ∀ i : Fin 4, i.val < m.priv.layout.numPlanes →
      env.wrap i = some (t i) ∧ env.wrapTex i = true)
    (j : Fin 4) (hj : j.val = countImages (w.frames src.vkf).img indices) :
    ∃ m₁ w₁ m₂ w₂, mapperMap env m w = .ok (0, m₁, w₁) ∧
      mapperUnmap holdEx m₁ w₁ = .ok (m₂, w₂) ∧
      PlCall.release (t j) (m.priv.imgLayout j) ⟨m.priv.sem j, m.priv.semValue j⟩ ∈ w₁.plCalls ∧
      PlCall.hold (t j) ⟨m.priv.sem j, 0⟩ ∈ w₂.plCalls ∧
      (w₂.frames src.vkf).semValue j = (w.frames src.vkf).semValue j ∧
      (w₂.frames src.vkf).layout j = (w.frames src.vkf).layout j := by
  obtain ⟨m₁, w₁, hmap, hsrc₁, hvkf₁, hlayout, hnum, htex₁, hmtex₁, -, hframes, -, -, hrel⟩ :=
    mapperMap_of_unmapped hv w hsrc hun hP hwrap
  obtain ⟨ptex, hpriv⟩ := mapperMap_ok_priv hsrc hmap
  obtain ⟨m₂, w₂, hunmap, -, hcalls, -, hsem, hlay, -⟩ :=
    mapperUnmap_of_mapped_any holdEx (w := w₁) hsrc₁ hvkf₁ (by rw [hlayout]; omega)
      (by rw [hlayout]; exact htex₁) fun i hi => by rw [hmtex₁, if_neg (by rw [hlayout] at hi; omega)]
  -- the plane-to-image rule sends the plane to its own index, which the snapshot did not fill
  have hown : planeImage m.priv.layout.numPlanes (countImages (w.frames src.vkf).img indices) j = j := by
    simp [planeImage, hone]
  have hpast : ¬ j.val < countImages (w.frames src.vkf).img indices := by omega
  have htouched : j ∈ touchedImages m.priv.layout.numPlanes (countImages (w.frames src.vkf).img indices) := by
    simp [touchedImages, hone]; omega
  rw [hlayout, hnum] at hcalls hsem hlay
  refine ⟨m₁, w₁, m₂, w₂, hmap, hunmap, ?_, ?_, ?_, ?_⟩
  · simpa [snapshot, hown, hpast] using hrel j (by omega)
  · rw [hcalls, hpriv]
    exact List.mem_append_right _ (List.mem_map.2 ⟨j, htouched, by simp [snapshot, hpast]⟩)
  · rw [hsem, if_neg fun h => hpast h.2.1, hframes]
  · rw [hlay, if_neg fun h => hpast h.2, hframes]

/-- A three-plane frame of two images: the third plane is released on the mapper's old
semaphore `7` at `99` and held on it signalling `0`; the frame's third counter stays `41`. -/
theorem session_plane_past_frame_images_two_images :
    ∃ m₁ w₁ m₂ w₂,
      mapperMap ⟨true, fun _ => 1920, fun _ => 1088, fun _ => 0, fun i => some (i.val + 1),
          fun _ => true, fun _ => none⟩
        ⟨some ⟨⟨1920, 1088, 0⟩, 0⟩, fun _ => none,
          ⟨⟨3, by decide⟩, none, fun _ => none, fun _ => 0, fun _ => 0, fun _ => 7, fun _ => 99, 0⟩⟩
        ⟨fun _ => ⟨fun i => if i.val < 2 then 1 else 0, fun _ => 3, fun _ => 9, fun _ => 41,
          fun _ => 1⟩, [], 0, []⟩ = .ok (0, m₁, w₁) ∧
      mapperUnmap (fun _ => some 5) m₁ w₁ = .ok (m₂, w₂) ∧
      PlCall.release 3 0 ⟨7, 99⟩ ∈ w₁.plCalls ∧ PlCall.hold 3 ⟨7, 0⟩ ∈ w₂.plCalls ∧
      (w₂.frames 0).semValue 2 = 41 ∧ (w₂.frames 0).layout 2 = 3 :=
  session_plane_past_frame_images (t := fun i => i.val + 1)
    (m := ⟨some ⟨⟨1920, 1088, 0⟩, 0⟩, fun _ => none,
      ⟨⟨3, by decide⟩, none, fun _ => none, fun _ => 0, fun _ => 0, fun _ => 7, fun _ => 99, 0⟩⟩)
    rfl (fun _ => some 5)
    ⟨fun _ => ⟨fun i => if i.val < 2 then 1 else 0, fun _ => 3, fun _ => 9, fun _ => 41, fun _ => 1⟩,
      [], 0, []⟩ rfl ⟨rfl, fun _ => rfl, fun _ => rfl⟩ (by decide) (by decide) (by decide)
    (fun _ _ => ⟨rfl, rfl⟩) 2 (by decide)

/-! ## Runs of sessions -/

/-- A run of sessions on one mapper, as its caller (the renderer's mapper wrapper, outside this
file) makes them: for each frame it points `mapper->src` at the frame's image, calls
`mapper_map`, renders, and calls `mapper_unmap`. -/
def runSessions : List (MapEnv × HoldEx × HwImage) → RaHwdecMapper → World →
    Except Fault (RaHwdecMapper × World)
  | [], m, w => .ok (m, w)
  | (env, holdEx, src) :: rest, m, w =>
    mapperMap env { m with src := some src } w >>= fun r =>
    mapperUnmap holdEx r.2.1 r.2.2 >>= fun r' => runSessions rest r'.1 r'.2

/-- **Every texture is freed once.** Over any run of sessions on the shapes the code handles,
each with every wrap succeeding and any outcome of the holds, no call faults, the mapper ends
`Unmapped`, and the `ra_tex` freed are exactly those created, each once, in order. -/
theorem run_sessions_frees_each_texture :
    ∀ (sessions : List (MapEnv × HoldEx × HwImage)) (m : RaHwdecMapper) (w : World),
      Unmapped m → 1 ≤ m.priv.layout.numPlanes ∧ m.priv.layout.numPlanes ≤ 3 →
      (∀ x ∈ sessions, x.1.vulkan = true ∧
        (countImages (w.frames x.2.2.vkf).img indices = m.priv.layout.numPlanes ∨
          countImages (w.frames x.2.2.vkf).img indices = 1) ∧
        ∃ t : Fin 4 → PlTex, ∀ i : Fin 4, i.val < m.priv.layout.numPlanes →
          x.1.wrap i = some (t i) ∧ x.1.wrapTex i = true) →
      ∃ m' w', runSessions sessions m w = .ok (m', w') ∧ Unmapped m' ∧
        w'.raNext = w.raNext + sessions.length * m.priv.layout.numPlanes ∧
        w'.raFreed = w.raFreed ++ List.range' w.raNext (sessions.length * m.priv.layout.numPlanes)
  | [], m, w, hun, _, _ => ⟨m, w, rfl, hun, by simp, by simp⟩
  | (env, holdEx, src) :: rest, m, w, hun, hP, hs => by
    obtain ⟨hv, hn, t, hwrap⟩ := hs _ (List.mem_cons_self _ _)
    obtain ⟨m₁, w₁, hmap, hsrc₁, hvkf₁, hlayout, hnum, htex₁, hmtex₁, -, hframes, hfreed₁, hnext₁,
      -⟩ := mapperMap_of_unmapped hv (m := { m with src := some src }) w rfl hun hP.2 hwrap
    obtain ⟨m₂, w₂, hunmap, hun₂, -, hfreed₂, -, -, -, hother, himg, hlayout₂, hnext₂⟩ :=
      mapperUnmap_of_mapped holdEx (w := w₁) hsrc₁ hvkf₁ (by rw [hlayout]; exact hP)
        (by rw [hlayout, hnum]; exact hn) (by rw [hlayout]; exact htex₁)
        fun i hi => by rw [hmtex₁, if_neg (by rw [hlayout] at hi; omega)]
    rw [hlayout] at hlayout₂ hfreed₂
    have hframes₂ : ∀ r, (w₂.frames r).img = (w.frames r).img := fun r => by
      by_cases hr : r = src.vkf
      · subst hr; rw [himg, hframes]
      · rw [hother r hr, hframes]
    obtain ⟨m', w', hrun, hun', hnext', hfreed'⟩ := run_sessions_frees_each_texture rest m₂ w₂ hun₂
      (by rw [hlayout₂]; exact hP) fun x hx => by
        rw [hlayout₂, hframes₂]; exact hs x (List.mem_cons_of_mem _ hx)
    refine ⟨m', w', by simp only [runSessions, hmap, hunmap, ok_bind, hrun], hun', ?_, ?_⟩
    · rw [hnext', hnext₂, hnext₁, hlayout₂, List.length_cons, Nat.succ_mul, Nat.add_assoc,
        Nat.add_comm m.priv.layout.numPlanes]
    · have hfree : w₂.raFreed = w.raFreed ++ List.range' w.raNext m.priv.layout.numPlanes := by
        rw [hfreed₂, hfreed₁]
        congr 1
        simp only [hmtex₁]
        exact filterMap_numbered hP.2 w.raNext
      rw [hfreed', hfree, hnext₂, hnext₁, hlayout₂, List.append_assoc, List.range'_append_1,
        List.length_cons, Nat.succ_mul]

/-- Two `nv12` frames in a row, the first hold succeeding and the second failing: the four
`ra_tex` created are freed, in order. -/
theorem run_sessions_two_nv12_frames :
    ∃ m' w', runSessions
        [(⟨true, fun _ => 1920, fun _ => 1088, fun _ => 0, fun i => some (i.val + 1), fun _ => true,
            fun _ => none⟩, fun _ => some 7, ⟨⟨1920, 1088, 0⟩, 0⟩),
         (⟨true, fun _ => 1920, fun _ => 1088, fun _ => 0, fun i => some (i.val + 1), fun _ => true,
            fun _ => none⟩, fun _ => none, ⟨⟨1920, 1088, 0⟩, 0⟩)]
        ⟨none, fun _ => none,
          ⟨⟨2, by decide⟩, none, fun _ => none, fun _ => 0, fun _ => 0, fun _ => 0, fun _ => 0, 0⟩⟩
        ⟨fun _ => ⟨fun i => if i = 0 then 1 else 0, fun _ => 3, fun _ => 9, fun _ => 41,
          fun _ => 1⟩, [], 0, []⟩ = .ok (m', w') ∧ w'.raFreed = [0, 1, 2, 3] :=
  let ⟨m', w', hrun, _, _, hfreed⟩ := run_sessions_frees_each_texture _ _ _
    ⟨rfl, fun _ => rfl, fun _ => rfl⟩ ⟨by decide, by decide⟩ fun x hx => by
      simp only [List.mem_cons, List.mem_singleton, List.not_mem_nil, or_false] at hx
      rcases hx with rfl | rfl <;> exact ⟨rfl, Or.inr rfl, fun i => i.val + 1, fun _ _ => ⟨rfl, rfl⟩⟩
  ⟨m', w', hrun, hfreed⟩

end Dmpv.Hwdec
