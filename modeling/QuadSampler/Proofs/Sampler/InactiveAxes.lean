import QuadSampler.Proofs.Filtering.NumbersTotal
import QuadSampler.Proofs.Filtering.Offsets
import QuadSampler.Proofs.Filtering.Progress
import QuadSampler.Proofs.Sampler.SharedCache

/-!
# Axes that are not addressed have no say

A texture with fewer than three addressed axes is described by triples all the same: three wrap
modes, three flags, up to three coordinates with their derivatives. What the triples hold past the
addressed axes has no influence, neither on the path that serves a state nor on any answer.

Two calls are compared that agree along the addressed axes (`Axes.SameBelow`) and are free to differ
elsewhere. The agreement is followed from stage to stage: places, derivatives, levels of detail,
levels, and the images of both paths. Cubes are left out of the comparison of answers, since the
third coordinate is part of their directions, and so are states that compare, for which it is the
reference.
-/

namespace QuadSampler

/-! ## Agreement along addressed axes -/

/-- Whether two triples are the same along the first `dims` axes. -/
structure Axes.SameBelow {α : Type} (dims : Nat) (a b : Axes α) : Prop where
  s : 1 ≤ dims → a.s = b.s
  t : 2 ≤ dims → a.t = b.t
  r : 3 ≤ dims → a.r = b.r

theorem Axes.SameBelow.refl {α : Type} (dims : Nat) (a : Axes α) : a.SameBelow dims a :=
  ⟨fun _ ↦ rfl, fun _ ↦ rfl, fun _ ↦ rfl⟩

theorem Axes.SameBelow.map {α β : Type} {dims : Nat} {a b : Axes α} (h : a.SameBelow dims b)
    (f : α → β) : (a.map f).SameBelow dims (b.map f) where
  s hs := congrArg f (h.s hs)
  t ht := congrArg f (h.t ht)
  r hr := congrArg f (h.r hr)

theorem Axes.SameBelow.sub {α : Type} [Sub α] {dims : Nat} {a₁ a₂ b₁ b₂ : Axes α}
    (ha : a₁.SameBelow dims a₂) (hb : b₁.SameBelow dims b₂) :
    (a₁ - b₁).SameBelow dims (a₂ - b₂) where
  s hs := show a₁.s - b₁.s = a₂.s - b₂.s by rw [ha.s hs, hb.s hs]
  t ht := show a₁.t - b₁.t = a₂.t - b₂.t by rw [ha.t ht, hb.t ht]
  r hr := show a₁.r - b₁.r = a₂.r - b₂.r by rw [ha.r hr, hb.r hr]

namespace StaticState

/-- The state with other wrap modes and other power-of-two flags. -/
def withAxes (state : StaticState) (wrap : Axes WrapMode) (powerOfTwo : Axes Bool) : StaticState :=
  { state with wrap, powerOfTwo }

section WithAxes

variable (state : StaticState) (wrap : Axes WrapMode) (powerOfTwo : Axes Bool)

@[simp] theorem wrap_withAxes : (state.withAxes wrap powerOfTwo).wrap = wrap := rfl

@[simp] theorem dims_withAxes : (state.withAxes wrap powerOfTwo).dims = state.dims := rfl

@[simp] theorem normalized_withAxes :
    (state.withAxes wrap powerOfTwo).normalized = state.normalized := rfl

@[simp] theorem format_withAxes : (state.withAxes wrap powerOfTwo).format = state.format := rfl

end WithAxes

/-- What is asked for along an addressed axis only may be something else where the axis is not
addressed. -/
theorem ite_withAxes {β : Type} {state : StaticState} (wrap : Axes WrapMode)
    (powerOfTwo : Axes Bool) {axis : Nat} {a b c : β} (h : axis ≤ state.dims → a = b) :
    (if axis ≤ (state.withAxes wrap powerOfTwo).dims then b else c)
      = if axis ≤ state.dims then a else c := by
  by_cases haxis : axis ≤ state.dims
  · rw [if_pos haxis, if_pos (by exact haxis), h haxis]
  · rw [if_neg haxis, if_neg (by exact haxis)]

end StaticState

/-- Whether derivatives are the same along the first `dims` axes, where they are given. -/
inductive LodSource.SameBelow (dims : Nat) : LodSource → LodSource → Prop
  | quad : SameBelow dims .quad .quad
  | explicit (lod : Quad Single) : SameBelow dims (.explicit lod) (.explicit lod)
  | gradients {across₁ across₂ down₁ down₂ : Axes (Quad Single)}
      (across : across₁.SameBelow dims across₂) (down : down₁.SameBelow dims down₂) :
      SameBelow dims (.gradients across₁ down₁) (.gradients across₂ down₂)

/-- Whether two requests are the same but for coordinates and derivatives past the first `dims`
axes. -/
structure Request.SameBelow (dims : Nat) (r₁ r₂ : Request) : Prop where
  unit_eq : r₁.unit = r₂.unit
  coord_eq : ∀ axis < dims, r₁.coord axis = r₂.coord axis
  lod : r₁.lod.SameBelow dims r₂.lod
  bias_eq : r₁.bias = r₂.bias

/-! ## Paths -/

section Paths

variable {state : StaticState} {wrap : Axes WrapMode} {powerOfTwo : Axes Bool}

private theorem SimpleWrap.ofState?_withAxes (hwrap : state.wrap.SameBelow state.dims wrap)
    (powerOfTwo : Axes Bool) : ofState? (state.withAxes wrap powerOfTwo) = ofState? state := by
  have hs := StaticState.ite_withAxes wrap powerOfTwo (c := some clampToEdge)
    fun hs ↦ congrArg ofMode? (hwrap.s hs)
  have ht := StaticState.ite_withAxes wrap powerOfTwo (c := some clampToEdge)
    fun ht ↦ congrArg ofMode? (hwrap.t ht)
  have hr := StaticState.ite_withAxes wrap powerOfTwo (c := some clampToEdge)
    fun hr ↦ congrArg ofMode? (hwrap.r hr)
  simp only [ofState?, Nat.lt_iff_add_one_le, StaticState.format_withAxes,
    StaticState.wrap_withAxes, hs, ht, hr]

theorem Sampler.path_specialize_withAxes (hwrap : state.wrap.SameBelow state.dims wrap)
    (powerOfTwo : Axes Bool) (mode : Mode) :
    (specialize (state.withAxes wrap powerOfTwo) mode).path = (specialize state mode).path := by
  cases mode with
  | nop => rfl
  | normal =>
    rw [specialize, specialize, SimpleWrap.ofState?_withAxes hwrap]
    cases SimpleWrap.ofState? state <;> rfl

end Paths

/-! ## Places and levels of detail -/

/-- Whether two places are the same along the first `dims` axes. -/
structure Place.SameBelow (dims : Nat) (p q : Place) : Prop where
  coords : p.coords.SameBelow dims q.coords
  face_eq : p.face = q.face

/-- Whether the derivatives of a lane are the same along the first `dims` axes. -/
structure Gradient.SameBelow (dims : Nat) (g₁ g₂ : Gradient) : Prop where
  across : g₁.across.SameBelow dims g₂.across
  down : g₁.down.SameBelow dims g₂.down

private theorem Lod.footprint_congr {state : StaticState} {g₁ g₂ : Gradient}
    (h : g₁.SameBelow state.dims g₂) (extent : Axes Nat) :
    footprint state extent g₁ = footprint state extent g₂ := by
  have hs : 1 ≤ state.dims := state.target.dims_pos
  simp only [footprint, h.across.s hs, h.down.s hs]
  by_cases ht : 2 ≤ state.dims
  · by_cases hr : 3 ≤ state.dims
    · simp only [if_pos ht, if_pos hr, h.across.t ht, h.down.t ht, h.across.r hr, h.down.r hr]
    · simp only [if_pos ht, if_neg hr, h.across.t ht, h.down.t ht]
  · by_cases hr : 3 ≤ state.dims
    · omega
    · simp only [if_neg ht, if_neg hr]

namespace Request

variable {state : StaticState} {r₁ r₂ : Request} (h : r₁.SameBelow state.dims r₂)
  (hflat : state.target ≠ .cube)
include h hflat

theorem SameBelow.places (lane : Fin 4) :
    ((r₁.places state).get lane).SameBelow state.dims ((r₂.places state).get lane) := by
  simp only [Request.places, Quad.get_ofFn, if_neg hflat]
  refine ⟨⟨fun hs ↦ ?_, fun ht ↦ ?_, fun hr ↦ ?_⟩, rfl⟩
  · simp only [direction, h.coord_eq 0 hs]
  · simp only [direction, h.coord_eq 1 ht]
  · simp only [direction, h.coord_eq 2 hr]

theorem SameBelow.quadGradient :
    (quadGradient (r₁.places state)).SameBelow state.dims (quadGradient (r₂.places state)) := by
  have hplaces := h.places hflat
  exact ⟨(hplaces 1).coords.sub (hplaces 0).coords, (hplaces 2).coords.sub (hplaces 0).coords⟩

theorem SameBelow.gradients (lane : Fin 4) :
    ((r₁.gradients state (r₁.places state)).get lane).SameBelow state.dims
      ((r₂.gradients state (r₂.places state)).get lane) := by
  have hlod := h.lod
  rw [Request.gradients, Request.gradients]
  generalize r₁.lod = lod₁ at hlod ⊢
  generalize r₂.lod = lod₂ at hlod ⊢
  cases hlod with
  | quad =>
    rw [Quad.get_splat, Quad.get_splat]
    exact h.quadGradient hflat
  | explicit lod => exact ⟨.refl _ _, .refl _ _⟩
  | gradients across down =>
    simp only [if_neg hflat, Quad.get_ofFn]
    exact ⟨across.map (·.get lane), down.map (·.get lane)⟩

omit hflat in
private theorem SameBelow.explicitLod_eq : r₁.explicitLod = r₂.explicitLod := by
  have hlod := h.lod
  rw [explicitLod, explicitLod]
  generalize r₁.lod = lod₁ at hlod ⊢
  generalize r₂.lod = lod₂ at hlod ⊢
  cases hlod <;> rfl

/-- Levels of detail read derivatives along addressed axes only. -/
theorem SameBelow.lods_eq (surface : Surface) :
    r₁.lods state surface (r₁.places state) = r₂.lods state surface (r₂.places state) := by
  have hgradients := h.gradients hflat
  have hselect : ∀ lane bias explicit,
      Lod.select Single.log2 state surface ((r₁.gradients state (r₁.places state)).get lane)
          bias explicit
        = Lod.select Single.log2 state surface ((r₂.gradients state (r₂.places state)).get lane)
          bias explicit := by
    intro lane bias explicit
    simp only [Lod.select, Lod.footprint_congr (hgradients lane)]
  simp only [lods, h.bias_eq, h.explicitLod_eq, hselect]

end Request

/-! ## Images -/

section Images

variable {state : StaticState} {wrap : Axes WrapMode} {powerOfTwo : Axes Bool} {p q : Place}

private theorem StaticState.dims_cases (state : StaticState) :
    state.dims = 1 ∨ state.dims = 2 ∨ state.dims = 3 := by
  rw [dims]
  cases state.target <;> decide

namespace LevelView

private theorem wrapAxes_withAxes (wrap : Axes WrapMode)
    (hpow : state.powerOfTwo.SameBelow state.dims powerOfTwo) (view : LevelView) :
    (view.wrapAxes state).SameBelow state.dims
      (view.wrapAxes (state.withAxes wrap powerOfTwo)) where
  s hs := congrArg (WrapAxis.mk view.extent.s · state.normalized) (hpow.s hs)
  t ht := congrArg (WrapAxis.mk view.extent.t · state.normalized) (hpow.t ht)
  r hr := congrArg (WrapAxis.mk view.extent.r · state.normalized) (hpow.r hr)

private theorem fetchNumbers_withAxes (hwrap : state.wrap.SameBelow state.dims wrap)
    (powerOfTwo : Axes Bool) (view : LevelView) (border : Color Single) (p : Axes Int32) :
    view.fetchNumbers (state.withAxes wrap powerOfTwo) border p
      = view.fetchNumbers state border p := by
  have hbeside : view.isBeside (state.withAxes wrap powerOfTwo) p = view.isBeside state p := by
    rw [Bool.eq_iff_iff, isBeside_iff, isBeside_iff, StaticState.Beside, StaticState.Beside,
      StaticState.wrap_withAxes, StaticState.dims_withAxes, hwrap.s state.target.dims_pos]
    refine or_congr Iff.rfl (or_congr (and_congr_right fun ht ↦ ?_) (and_congr_right fun hr ↦ ?_))
    · rw [hwrap.t ht]
    · rw [hwrap.r hr]
  simp only [fetchNumbers, hbeside, StaticState.format_withAxes]

private theorem sliceOf_withAxes (hplace : p.SameBelow state.dims q) :
    sliceOf (state.withAxes wrap powerOfTwo) q = sliceOf state p := by
  rw [sliceOf, sliceOf, hplace.face_eq]
  rfl

variable (hwrap : state.wrap.SameBelow state.dims wrap)
  (hpow : state.powerOfTwo.SameBelow state.dims powerOfTwo) (hplace : p.SameBelow state.dims q)
include hwrap hpow hplace

private theorem nearestNumbers_withAxes (view : LevelView) (border : Color Single) :
    view.nearestNumbers (state.withAxes wrap powerOfTwo) border q
      = view.nearestNumbers state border p := by
  have haxes := wrapAxes_withAxes wrap hpow view
  have hs := state.target.dims_pos
  have hy : (if 2 ≤ (state.withAxes wrap powerOfTwo).dims then
        wrap.t.nearest (view.wrapAxes (state.withAxes wrap powerOfTwo)).t q.coords.t else .ok 0)
      = if 2 ≤ state.dims then state.wrap.t.nearest (view.wrapAxes state).t p.coords.t
        else .ok 0 :=
    StaticState.ite_withAxes wrap powerOfTwo fun ht ↦ by
      rw [hwrap.t ht, haxes.t ht, hplace.coords.t ht]
  have hz : (if 3 ≤ (state.withAxes wrap powerOfTwo).dims then
        wrap.r.nearest (view.wrapAxes (state.withAxes wrap powerOfTwo)).r q.coords.r
          else .ok (sliceOf state p))
      = if 3 ≤ state.dims then state.wrap.r.nearest (view.wrapAxes state).r p.coords.r
        else .ok (sliceOf state p) :=
    StaticState.ite_withAxes wrap powerOfTwo fun hr ↦ by
      rw [hwrap.r hr, haxes.r hr, hplace.coords.r hr]
  simp only [nearestNumbers_eq, StaticState.wrap_withAxes, hwrap.s hs, haxes.s hs,
    hplace.coords.s hs, fetchNumbers_withAxes hwrap, sliceOf_withAxes hplace, hy, hz]

private theorem linearNumbers_withAxes (view : LevelView) (border : Color Single) :
    view.linearNumbers (state.withAxes wrap powerOfTwo) border q
      = view.linearNumbers state border p := by
  have haxes := wrapAxes_withAxes wrap hpow view
  have hs := state.target.dims_pos
  simp only [linearNumbers, StaticState.wrap_withAxes, StaticState.dims_withAxes, hwrap.s hs,
    haxes.s hs, hplace.coords.s hs, fetchNumbers_withAxes hwrap, sliceOf_withAxes hplace]
  rcases state.dims_cases with hdims | hdims | hdims
  · simp only [if_pos hdims]
  · have ht : 2 ≤ state.dims := by omega
    simp only [if_neg (show ¬ state.dims = 1 by omega), if_pos hdims, hwrap.t ht, haxes.t ht,
      hplace.coords.t ht]
  · have ht : 2 ≤ state.dims := by omega
    have hr : 3 ≤ state.dims := by omega
    simp only [if_neg (show ¬ state.dims = 1 by omega), if_neg (show ¬ state.dims = 2 by omega),
      hwrap.t ht, haxes.t ht, hplace.coords.t ht, hwrap.r hr, haxes.r hr, hplace.coords.r hr]

private theorem imageNumbers_withAxes (filter : ImageFilter) (view : LevelView)
    (border : Color Single) :
    view.imageNumbers (state.withAxes wrap powerOfTwo) border filter q
      = view.imageNumbers state border filter p := by
  cases filter with
  | nearest => exact nearestNumbers_withAxes hwrap hpow hplace view border
  | linear => exact linearNumbers_withAxes hwrap hpow hplace view border

end LevelView

namespace FixedPoint

private theorem offsetAxes_withAxes (wraps : Axes SimpleWrap) (wrap : Axes WrapMode)
    (hpow : state.powerOfTwo.SameBelow state.dims powerOfTwo) (view : LevelView) :
    (offsetAxes wraps state view).SameBelow state.dims
      (offsetAxes wraps (state.withAxes wrap powerOfTwo) view) where
  s hs := congrArg (OffsetAxis.mk _ _ _) (hpow.s hs)
  t ht := congrArg (OffsetAxis.mk _ _ _) (hpow.t ht)
  r hr := congrArg (OffsetAxis.mk _ _ _) (hpow.r hr)

private theorem imageBytes_withAxes (hpow : state.powerOfTwo.SameBelow state.dims powerOfTwo)
    (hplace : p.SameBelow state.dims q) (wraps : Axes SimpleWrap) (filter : ImageFilter)
    (view : LevelView) :
    imageBytes wraps (state.withAxes wrap powerOfTwo) filter view q
      = imageBytes wraps state filter view p := by
  have haxes := offsetAxes_withAxes wraps wrap hpow view
  have hs := state.target.dims_pos
  have hslice : sliceOffset (state.withAxes wrap powerOfTwo) view q = sliceOffset state view p := by
    rw [sliceOffset, sliceOffset, hplace.face_eq]
    rfl
  rw [imageBytes_eq_imageWith, imageBytes_eq_imageWith]
  cases filter with
  | nearest =>
    let along (axis : OffsetAxis) (c : Single) : Except Fault Int32 :=
      axis.nearest (whole (ofCoord c axis.length state.normalized false))
    have hy : (if 2 ≤ (state.withAxes wrap powerOfTwo).dims then
          along (offsetAxes wraps (state.withAxes wrap powerOfTwo) view).t q.coords.t else .ok 0)
        = if 2 ≤ state.dims then along (offsetAxes wraps state view).t p.coords.t else .ok 0 :=
      StaticState.ite_withAxes wrap powerOfTwo fun ht ↦ by rw [haxes.t ht, hplace.coords.t ht]
    have hz : (if 3 ≤ (state.withAxes wrap powerOfTwo).dims then
          along (offsetAxes wraps (state.withAxes wrap powerOfTwo) view).r q.coords.r
            else .ok (sliceOffset state view p))
        = if 3 ≤ state.dims then along (offsetAxes wraps state view).r p.coords.r
          else .ok (sliceOffset state view p) :=
      StaticState.ite_withAxes wrap powerOfTwo fun hr ↦ by rw [haxes.r hr, hplace.coords.r hr]
    simp only [along] at hy hz
    simp only [imageWith, StaticState.normalized_withAxes, haxes.s hs, hplace.coords.s hs, hslice,
      hy, hz]
    rfl
  | linear =>
    simp only [imageWith, StaticState.dims_withAxes, StaticState.normalized_withAxes, haxes.s hs,
      hplace.coords.s hs, hslice]
    rcases state.dims_cases with hdims | hdims | hdims
    · simp only [if_pos hdims]
      rfl
    · have ht : 2 ≤ state.dims := by omega
      simp only [if_neg (show ¬ state.dims = 1 by omega), if_pos hdims, haxes.t ht,
        hplace.coords.t ht]
      rfl
    · have ht : 2 ≤ state.dims := by omega
      have hr : 3 ≤ state.dims := by omega
      simp only [if_neg (show ¬ state.dims = 1 by omega), if_neg (show ¬ state.dims = 2 by omega),
        haxes.t ht, hplace.coords.t ht, haxes.r hr, hplace.coords.r hr]
      rfl

end FixedPoint

end Images

/-! ## Sampling -/

section Sampling

variable {state : StaticState} {wrap : Axes WrapMode} {powerOfTwo : Axes Bool}
  {r₁ r₂ : Request}

theorem Sampler.finish_withAxes (hcompare : state.compareMode = .off)
    (reference₁ reference₂ : Single) (color : Color Single) :
    finish (state.withAxes wrap powerOfTwo) reference₂ color = finish state reference₁ color := by
  have hcompare' : (state.withAxes wrap powerOfTwo).compareMode = .off := hcompare
  rw [finish, finish, StaticState.compare, StaticState.compare, hcompare, hcompare']
  rfl

/-- Two calls on one path that agree along the addressed axes have one answer, or both have none. -/
theorem Sampler.sample_withAxes (hwrap : state.wrap.SameBelow state.dims wrap)
    (hpow : state.powerOfTwo.SameBelow state.dims powerOfTwo) (hflat : state.target ≠ .cube)
    (hcompare : state.compareMode = .off) (hrequest : r₁.SameBelow state.dims r₂) (path : Path)
    (surface : Surface) :
    sample ⟨state.withAxes wrap powerOfTwo, path⟩ surface r₂ = sample ⟨state, path⟩ surface r₁ := by
  have hplaces := hrequest.places hflat
  have hlods : r₂.lods (state.withAxes wrap powerOfTwo) surface
        (r₂.places (state.withAxes wrap powerOfTwo))
      = r₁.lods state surface (r₁.places state) := (hrequest.lods_eq hflat surface).symm
  have hlevels : ∀ lods, Levels.ofLods (state.withAxes wrap powerOfTwo) surface lods
      = Levels.ofLods state surface lods := fun _ ↦ rfl
  have hfinish : ∀ colors : Quad (Color Single),
      Quad.zipWith (finish (state.withAxes wrap powerOfTwo)) (r₂.coord 2) colors
        = Quad.zipWith (finish state) (r₁.coord 2) colors := by
    intro colors
    ext lane
    rw [Quad.get_zipWith, Quad.get_zipWith, finish_withAxes hcompare]
  have hmin : (state.withAxes wrap powerOfTwo).minFilter = state.minFilter := rfl
  have hmag : (state.withAxes wrap powerOfTwo).magFilter = state.magFilter := rfl
  cases path with
  | white => rfl
  | numbers =>
    have hcolors : ∀ levels : Levels, ∀ lods, levels.filterNumbers (state.withAxes wrap powerOfTwo)
          surface.border (r₂.places (state.withAxes wrap powerOfTwo)) lods
        = levels.filterNumbers state surface.border (r₁.places state) lods := by
      intro levels lods
      rw [Levels.filterNumbers, Levels.filterNumbers]
      refine filterByLod_congr hmin hmag lods fun filter ↦ ?_
      refine (Levels.related_refl (R := Eq) (fun _ ↦ rfl) levels).filter_eq ?_
      rintro lane view _ rfl
      exact LevelView.imageNumbers_withAxes hwrap hpow (hplaces lane) filter view _
    simp only [sample, hlods, hlevels, hcolors, hfinish]
  | fixedPoint wraps =>
    have hcolors : ∀ levels : Levels, ∀ lods, levels.filterBytes wraps
          (state.withAxes wrap powerOfTwo) (r₂.places (state.withAxes wrap powerOfTwo)) lods
        = levels.filterBytes wraps state (r₁.places state) lods := by
      intro levels lods
      rw [Levels.filterBytes, Levels.filterBytes]
      refine filterByLod_congr hmin hmag lods fun filter ↦ ?_
      refine (Levels.related_refl (R := Eq) (fun _ ↦ rfl) levels).filter_eq ?_
      rintro lane view _ rfl
      exact FixedPoint.imageBytes_withAxes hpow (hplaces lane) wraps filter view
    simp only [sample, hlods, hlevels, hcolors, hfinish]

end Sampling

/-- **Axes that are not addressed are inert.** Two states that differ in nothing but the wrap modes
and power-of-two flags of axes their target does not address are served by one path, in any mode.
Unless the target is a cube or the state compares, samplers for the two answer alike, on units with
any surfaces, to requests that differ in nothing but their coordinates and derivatives along such
axes: with the same colours, or both with none. -/
theorem inactive_axes_inert {state : StaticState} {wrap : Axes WrapMode} {powerOfTwo : Axes Bool}
    (hwrap : state.wrap.SameBelow state.dims wrap)
    (hpow : state.powerOfTwo.SameBelow state.dims powerOfTwo) (mode : Mode) :
    (Sampler.specialize (state.withAxes wrap powerOfTwo) mode).path
        = (Sampler.specialize state mode).path ∧
    (state.target ≠ .cube → state.compareMode = .off →
      ∀ (surfaces : Nat → Surface) (r₁ r₂ : Request), r₁.SameBelow state.dims r₂ →
        (Sampler.specialize (state.withAxes wrap powerOfTwo) mode).sample (surfaces r₂.unit) r₂
          = (Sampler.specialize state mode).sample (surfaces r₁.unit) r₁) := by
  have hpath := Sampler.path_specialize_withAxes hwrap powerOfTwo mode
  refine ⟨hpath, fun hflat hcompare surfaces r₁ r₂ hrequest ↦ ?_⟩
  have hsampler : ∀ state, Sampler.specialize state mode
      = ⟨state, (Sampler.specialize state mode).path⟩ :=
    fun state ↦ congrArg (Sampler.mk · _) (Sampler.state_specialize state mode)
  rw [hsampler, hsampler state, hpath, hrequest.unit_eq]
  exact Sampler.sample_withAxes hwrap hpow hflat hcompare hrequest _ _

/-- The checkered texture with another wrap mode and another flag through its slices, sampled with a
third coordinate that is no number and with derivatives along it. -/
theorem inactive_axes_inert_checker :
    let state := Binding.checker.staticState
      { Settings.plain with mipFilter := .linear, maxLod := 1 }
    let other := state.withAxes { state.wrap with r := .clampToBorder }
      { state.powerOfTwo with r := false }
    let texel := Quad.splat Single.half
    let r₁ := Request.ofCoords 0 [texel, texel] (.gradients (.splat texel) (.splat texel))
    let r₂ := Request.ofCoords 0 [texel, texel, .splat .nan]
      (.gradients { Axes.splat texel with r := .splat (.infinite false) } (.splat texel))
    (Sampler.specialize other .normal).path = (Sampler.specialize state .normal).path ∧
      (Sampler.specialize other .normal).sample (TextureUnits.checker.surface 0) r₂
        = (Sampler.specialize state .normal).sample (TextureUnits.checker.surface 0) r₁ := by
  intro state other texel r₁ r₂
  have hpast : ¬ 3 ≤ state.dims := by decide
  have hwrap : state.wrap.SameBelow state.dims other.wrap :=
    ⟨fun _ ↦ rfl, fun _ ↦ rfl, fun hr ↦ absurd hr hpast⟩
  have hpow : state.powerOfTwo.SameBelow state.dims other.powerOfTwo :=
    ⟨fun _ ↦ rfl, fun _ ↦ rfl, fun hr ↦ absurd hr hpast⟩
  have hrequest : r₁.SameBelow state.dims r₂ := by
    refine ⟨rfl, fun axis haxis ↦ ?_, .gradients ?_ ?_, rfl⟩
    · match axis, haxis with
      | 0, _ | 1, _ => rfl
    · exact ⟨fun _ ↦ rfl, fun _ ↦ rfl, fun hr ↦ absurd hr hpast⟩
    · exact .refl _ _
  obtain ⟨hpath, hsample⟩ := inactive_axes_inert hwrap hpow .normal
  exact ⟨hpath, hsample (by decide) rfl TextureUnits.checker.surface r₁ r₂ hrequest⟩

end QuadSampler
