import QuadSampler.Proofs.Sampler.WholeLevels

/-!
# When the magnifying filter shows

The magnifying filter is for levels of detail below zero. If the limits of a surface are not below
zero, nothing selected is, not even from not-a-number, and every lane is minified
(`Request.zero_le_lod`).

A state with one filter for both gets there by another route: one run of the filter instead of two
runs and a choice, and no level of detail at all if the mip filter does not ask for one. With the
mip filter `base` the first level is read whatever the level of detail is, and any other mip filter
has the level of detail computed whatever the image filters are, so both routes read the same levels
(`Request.levels_withMagFilter`).
-/

namespace QuadSampler

universe u

def StaticState.withMagFilter (state : StaticState) (magFilter : ImageFilter) : StaticState :=
  { state with magFilter }

private theorem filterByLod_eq_ok_of_minified {C : Type u} {state : StaticState}
    {lods : Option (Quad Single)} {run : ImageFilter → Except Fault (Quad C)} {colors : Quad C}
    (hminified : ∀ lane, Single.le 0 ((lods.getD (.splat 0)).get lane) = true)
    (h : filterByLod state lods run = .ok colors) : run state.minFilter = .ok colors := by
  by_cases hsame : state.minFilter = state.magFilter
  · rwa [filterByLod_of_eq hsame] at h
  · rw [filterByLod, if_neg hsame] at h
    obtain ⟨minified, hmin, h⟩ := bind_eq_ok.1 h
    obtain ⟨magnified, -, h⟩ := bind_eq_ok.1 h
    obtain rfl := Except.ok.inj h
    simp only [hminified, if_true]
    exact hmin

section Surface

variable (state : StaticState) {surface : Surface}

theorem Request.zero_le_lod (request : Request) (hlow : Single.le 0 surface.minLod = true)
    (hlimits : surface.minLod.le surface.maxLod = true) (places : Quad Place) (lane : Fin 4) :
    Single.le 0 (((request.lods state surface places).getD (.splat 0)).get lane) = true := by
  rw [lods]
  split
  · obtain ⟨a, b, hmin, hmax, hab⟩ := Single.exists_position_of_le hlimits
    rw [Option.getD_some, Quad.get_ofFn]
    obtain ⟨p, hp, hap, -⟩ := Lod.exists_position_select Single.log2 state hmin hmax hab
      ((request.gradients state places).get lane) (request.bias.map (·.get lane))
      (request.explicitLod.map (·.get lane))
    have h0 : 0 ≤ a := (Single.le_iff_of_position Single.position_zero hmin).1 hlow
    exact (Single.le_iff_of_position Single.position_zero hp).2 (h0.trans hap)
  · rw [Option.getD_none, Quad.get_splat]
    decide

theorem Request.levels_withMagFilter (request : Request) (surface : Surface)
    (magFilter : ImageFilter) :
    request.levels (state.withMagFilter magFilter) surface = request.levels state surface := by
  have hplaces : request.places (state.withMagFilter magFilter) = request.places state := rfl
  have hmip : (state.withMagFilter magFilter).mipFilter = state.mipFilter := rfl
  rw [levels, levels, hplaces]
  by_cases hbase : state.mipFilter = .base
  · simp only [Levels.ofLods, hmip, hbase]
    rfl
  · have hneeds : ∀ state : StaticState, state.mipFilter ≠ .base → state.needsLod = true := by
      intro state hmip
      rw [StaticState.needsLod, bne_iff_ne.2 hmip, Bool.or_true]
    rw [lods, lods, if_pos (hneeds _ hbase), if_pos (hneeds _ (hmip ▸ hbase))]
    rfl

/-- An answer without magnified lanes is also the answer of the state that minifies only. -/
theorem Sampler.sample_withMagFilter (hlow : Single.le 0 surface.minLod = true)
    (hlimits : surface.minLod.le surface.maxLod = true) {path : Path} {request : Request}
    {colors : Quad (Color Single)} (h : sample ⟨state, path⟩ surface request = .ok colors) :
    sample ⟨state.withMagFilter state.minFilter, path⟩ surface request = .ok colors := by
  have hlevels := request.levels_withMagFilter state surface state.minFilter
  have hminified := request.zero_le_lod state hlow hlimits (request.places state)
  cases path with
  | white => exact h
  | numbers =>
    obtain ⟨numbers, hnumbers, h⟩ := bind_eq_ok.1 h
    refine bind_eq_ok.2 ⟨numbers, ?_, h⟩
    have hmin := filterByLod_eq_ok_of_minified hminified hnumbers
    rw [Levels.filterNumbers, filterByLod_of_eq rfl]
    exact (congrArg (fun levels : Levels ↦ levels.filterNumbersBy state surface.border
      (request.places state) state.minFilter) hlevels).trans hmin
  | fixedPoint wraps =>
    obtain ⟨bytes, hbytes, h⟩ := bind_eq_ok.1 h
    refine bind_eq_ok.2 ⟨bytes, ?_, h⟩
    have hmin := filterByLod_eq_ok_of_minified hminified hbytes
    rw [Levels.filterBytes, filterByLod_of_eq rfl]
    exact (congrArg (fun levels : Levels ↦ levels.filter (FixedPoint.imageBytes wraps state
      state.minFilter) FixedPoint.mixLevels (request.places state)) hlevels).trans hmin

end Surface

/-- A bound texture answers every request, on every path that serves its state, if extents stay
within `2 ^ 23`. -/
theorem Sampler.exists_sample_of_serves {source : Source} {binding : Binding} {settings : Settings}
    (h : binding.texture.BuiltFrom source)
    (hsize : ∀ k < binding.texture.levelCount, (binding.texture.levelBytes k).size < 2 ^ 31)
    (hextent : source.extent.s ≤ 2 ^ 23 ∧ source.extent.t ≤ 2 ^ 23 ∧ source.extent.r ≤ 2 ^ 23)
    {path : Path} (hpath : path.Serves (binding.staticState settings)) (request : Request) :
    ∃ colors, sample ⟨binding.staticState settings, path⟩ binding.surface request
      = .ok colors := by
  cases path with
  | fixedPoint wraps => exact exists_sample_fixedPoint h hsize hpath request
  | white => exact hpath.elim
  | numbers =>
    obtain ⟨hs, ht, hr⟩ := hextent
    have hcount : binding.surface.lastLevel + 1 = source.levelCount := h.lastLevel_add_one
    have hlt : source.extent.s < 2 ^ 31 ∧ source.extent.t < 2 ^ 31 ∧ source.extent.r < 2 ^ 31 := by
      omega
    refine exists_sample_numbers_of_readable h.lastLevel_lt (fun k hk ↦ ?_) (fun _ k hk ↦ ?_)
      request
    · exact LevelView.readable_ofSurface h settings hlt (by omega)
    · exact clampsExactly_ofSurface_of_le h hlt ⟨fun _ ↦ hs, fun _ ↦ ht, fun _ ↦ hr⟩ (by omega)

/-- **From level of detail zero on the magnifying filter does not show.** On a unit with a texture
of levels below `2 ^ 31` bytes and extents up to `2 ^ 23`, bound with limits of the level of detail
that are not below zero, every request is answered on every path that serves the state, and the
state with the minifying filter in the place of the magnifying one answers the same. Both states
have samplers with the same path. -/
theorem magnifying_filter_shows_below_zero_only {source : Source} {binding : Binding}
    {units : TextureUnits} {request : Request}
    (hbuild : Texture.build source = .ok binding.texture)
    (hsize : ∀ k < binding.texture.levelCount, (binding.texture.levelBytes k).size < 2 ^ 31)
    (hextent : source.extent.s ≤ 2 ^ 23 ∧ source.extent.t ≤ 2 ^ 23 ∧ source.extent.r ≤ 2 ^ 23)
    (hunit : units.get? request.unit = some binding)
    (hlow : Single.le 0 binding.minLod = true)
    (hlimits : binding.minLod.le binding.maxLod = true) (settings : Settings) :
    let state := binding.staticState settings
    let minifying := state.withMagFilter state.minFilter
    let surface := units.surface request.unit
    (∀ mode, (Sampler.specialize minifying mode).path = (Sampler.specialize state mode).path) ∧
    ∀ path : Path, path.Serves state → path.Serves minifying ∧
      ∃ colors, Sampler.sample ⟨state, path⟩ surface request = .ok colors ∧
        Sampler.sample ⟨minifying, path⟩ surface request = .ok colors := by
  rw [TextureUnits.surface_of_get?_eq_some hunit]
  intro state minifying surface
  have hwraps : SimpleWrap.ofState? minifying = SimpleWrap.ofState? state := rfl
  refine ⟨fun mode ↦ ?_, fun path hpath ↦ ⟨?_, ?_⟩⟩
  · cases mode with
    | nop => rfl
    | normal =>
      rw [Sampler.specialize, Sampler.specialize, hwraps]
      split <;> rfl
  · cases path with
    | fixedPoint wraps => exact hwraps.trans hpath
    | numbers => trivial
    | white => exact hpath
  · obtain ⟨colors, hcolors⟩ := Sampler.exists_sample_of_serves
      (Texture.builtFrom_of_build hbuild) hsize hextent hpath request
    exact ⟨colors, hcolors, Sampler.sample_withMagFilter state hlow hlimits hcolors⟩

/-- The checkered texture under two filters, in fixed point and in numbers, for levels of detail
below zero and one that is no number. -/
theorem magnifying_filter_shows_below_zero_only_checker :
    let settings := { Settings.plain with minFilter := .linear, maxLod := 1 }
    let binding := Binding.ofSettings .checker settings
    let units : TextureUnits := ⟨.replicate maxUnits (some binding)⟩
    let surface := units.surface 0
    let state := binding.staticState settings
    let minifying := state.withMagFilter .linear
    let request := Request.ofCoords 0 [.splat 0, .splat 0]
      (.explicit ⟨-1, .nan, .infinite true, Single.half⟩)
    ∀ path ∈ [Path.fixedPoint ⟨.repeating, .repeating, .clampToEdge⟩, .numbers],
      ∃ colors, Sampler.sample ⟨state, path⟩ surface request = .ok colors ∧
        Sampler.sample ⟨minifying, path⟩ surface request = .ok colors := by
  intro settings binding units surface state minifying request path hpath
  have hunit : units.get? request.unit = some binding := rfl
  obtain ⟨-, hpaths⟩ := magnifying_filter_shows_below_zero_only build_checker (by decide)
    (by decide) hunit (by decide) (by decide) settings
  have hserves : path.Serves state := by
    rcases List.mem_pair.1 hpath with rfl | rfl
    · rfl
    · trivial
  exact (hpaths path hserves).2

end QuadSampler
