import QuadSampler.Proofs.Filtering.Progress
import QuadSampler.Proofs.LevelView.Fetch

/-!
# Filtering in numbers is always answered

The path in numbers serves every state. Here it is shown to answer every request, on any level that
is `Readable`: whatever the coordinates are, wrapping makes indices that a fetch reaches. The one
thing to ask for is that lengths stay within `2 ^ 23` where `mirrorClampToEdge` meets a linear
filter (`LevelView.ClampsExactly`).
-/

namespace QuadSampler

namespace LevelView

variable {state : StaticState} {view : LevelView} {place : Place}

theorem Readable.isTexel_sliceOf (h : Readable state view) (hplace : place.IsOnFace state) :
    IsTexel view.extent.r (sliceOf state place) := by
  rw [Place.IsOnFace] at hplace
  rw [sliceOf]
  by_cases hcube : state.target = .cube
  · rw [if_pos hcube] at hplace ⊢
    rw [h.six_faces hcube]
    exact hplace
  · rw [if_neg hcube]
    exact ⟨le_refl _, h.pos_r⟩

theorem nearestNumbers_eq (state : StaticState) (view : LevelView) (border : Color Single)
    (place : Place) :
    view.nearestNumbers state border place =
      (state.wrap.s.nearest (view.wrapAxes state).s place.coords.s >>= fun x ↦
        (if 2 ≤ state.dims then state.wrap.t.nearest (view.wrapAxes state).t place.coords.t
          else .ok 0) >>= fun y ↦
          (if 3 ≤ state.dims then state.wrap.r.nearest (view.wrapAxes state).r place.coords.r
            else .ok (sliceOf state place)) >>= fun z ↦
            view.fetchNumbers state border ⟨x, y, z⟩) := by
  rw [nearestNumbers]
  split <;> split <;> rfl

private theorem Readable.exists_nearestNumbers_eq_ok (h : Readable state view)
    (hplace : place.IsOnFace state) (border : Color Single) :
    ∃ color, view.nearestNumbers state border place = .ok color := by
  obtain ⟨x, hx, hxs⟩ : ∃ x, state.wrap.s.nearest (view.wrapAxes state).s place.coords.s = .ok x ∧
      state.wrap.s.Serves view.extent.s x := WrapMode.exists_nearest_eq_ok _ _ h.sound_s _
  obtain ⟨y, hy, hys⟩ : ∃ y, (if 2 ≤ state.dims
      then state.wrap.t.nearest (view.wrapAxes state).t place.coords.t else .ok 0) = .ok y ∧
        (IsTexel view.extent.t y ∨ 2 ≤ state.dims ∧ state.wrap.t.Serves view.extent.t y) := by
    by_cases hdims : 2 ≤ state.dims
    · rw [if_pos hdims]
      obtain ⟨y, hy, hys⟩ := state.wrap.t.exists_nearest_eq_ok
        (view.wrapAxes state).t (h.sound_t hdims) place.coords.t
      exact ⟨y, hy, .inr ⟨hdims, hys⟩⟩
    · exact ⟨0, if_neg hdims, .inl ⟨le_refl _, h.pos_t⟩⟩
  obtain ⟨z, hz, hzs⟩ : ∃ z, (if 3 ≤ state.dims
      then state.wrap.r.nearest (view.wrapAxes state).r place.coords.r
      else .ok (sliceOf state place)) = .ok z ∧
        (IsTexel view.extent.r z ∨ 3 ≤ state.dims ∧ state.wrap.r.Serves view.extent.r z) := by
    by_cases hdims : 3 ≤ state.dims
    · rw [if_pos hdims]
      obtain ⟨z, hz, hzs⟩ := state.wrap.r.exists_nearest_eq_ok
        (view.wrapAxes state).r (h.sound_r hdims) place.coords.r
      exact ⟨z, hz, .inr ⟨hdims, hzs⟩⟩
    · exact ⟨sliceOf state place, if_neg hdims, .inl (h.isTexel_sliceOf hplace)⟩
  rw [nearestNumbers_eq]
  exact exists_bind_eq_ok hx (exists_bind_eq_ok hy (exists_bind_eq_ok hz
    (h.exists_fetchNumbers_eq_ok (p := ⟨x, y, z⟩) ⟨hxs, hys, hzs⟩ border)))

/-- Whether lengths suit `mirrorClampToEdge` under a linear filter, wherever it is used. -/
structure ClampsExactly (state : StaticState) (view : LevelView) : Prop where
  s : state.wrap.s = .mirrorClampToEdge → view.extent.s.toInt ≤ 2 ^ 23
  t : 2 ≤ state.dims → state.wrap.t = .mirrorClampToEdge → view.extent.t.toInt ≤ 2 ^ 23
  r : 3 ≤ state.dims → state.wrap.r = .mirrorClampToEdge → view.extent.r.toInt ≤ 2 ^ 23

theorem clampsExactly_unbound (state : StaticState) (level : Int32) :
    ClampsExactly state (.ofSurface state .unbound level) := by
  have hextent := extent_unbound state level
  have hone : (1 : Int32).toInt ≤ 2 ^ 23 := by decide
  refine ⟨fun _ ↦ by rwa [hextent], fun _ _ ↦ by rwa [hextent], fun _ _ ↦ ?_⟩
  rw [hextent]
  dsimp only
  split <;> decide

private theorem Readable.exists_linearNumbers_eq_ok (h : Readable state view)
    (hplace : place.IsOnFace state) (hclamp : ClampsExactly state view) (border : Color Single) :
    ∃ color, view.linearNumbers state border place = .ok color := by
  have hfetch : ∀ {x y z : Int32}, state.wrap.s.Serves view.extent.s x →
      (IsTexel view.extent.t y ∨ 2 ≤ state.dims ∧ state.wrap.t.Serves view.extent.t y) →
      (IsTexel view.extent.r z ∨ 3 ≤ state.dims ∧ state.wrap.r.Serves view.extent.r z) →
      ∃ color, view.fetchNumbers state border ⟨x, y, z⟩ = .ok color :=
    fun {x y z} hx hy hz ↦ h.exists_fetchNumbers_eq_ok (p := ⟨x, y, z⟩) ⟨hx, hy, hz⟩ border
  obtain ⟨along, halong, hs₁, hs₂⟩ : ∃ w,
      state.wrap.s.linear (view.wrapAxes state).s place.coords.s = .ok w ∧
        state.wrap.s.Serves view.extent.s w.first ∧ state.wrap.s.Serves view.extent.s w.second :=
    state.wrap.s.exists_linear_eq_ok (view.wrapAxes state).s h.sound_s hclamp.s place.coords.s
  rw [linearNumbers]
  refine exists_bind_eq_ok halong ?_
  by_cases hdims : state.dims = 1
  · have hrow : IsTexel view.extent.t 0 := ⟨le_refl _, h.pos_t⟩
    have hslice : IsTexel view.extent.r 0 := ⟨le_refl _, h.pos_r⟩
    rw [if_pos hdims]
    exact Straddle.exists_blend_eq_ok (hfetch hs₁ (.inl hrow) (.inl hslice))
      (hfetch hs₂ (.inl hrow) (.inl hslice))
  · have hdims₂ : 2 ≤ state.dims := by
      have := state.target.dims_pos
      rw [StaticState.dims] at hdims ⊢
      omega
    obtain ⟨down, hdown, ht₁, ht₂⟩ : ∃ w,
        state.wrap.t.linear (view.wrapAxes state).t place.coords.t = .ok w ∧
          state.wrap.t.Serves view.extent.t w.first ∧
            state.wrap.t.Serves view.extent.t w.second :=
      state.wrap.t.exists_linear_eq_ok (view.wrapAxes state).t (h.sound_t hdims₂) (hclamp.t hdims₂)
        place.coords.t
    -- the four corners in one slice, whichever slice the last axis chooses
    have hsquare : ∀ z,
        (IsTexel view.extent.r z ∨ 3 ≤ state.dims ∧ state.wrap.r.Serves view.extent.r z) →
        ∃ color, (down.blend lerpColor fun y ↦ along.blend lerpColor fun x ↦
          view.fetchNumbers state border ⟨x, y, z⟩) = .ok color := by
      intro z hz
      refine Straddle.exists_blend_eq_ok ?_ ?_
      · exact Straddle.exists_blend_eq_ok (hfetch hs₁ (.inr ⟨hdims₂, ht₁⟩) hz)
          (hfetch hs₂ (.inr ⟨hdims₂, ht₁⟩) hz)
      · exact Straddle.exists_blend_eq_ok (hfetch hs₁ (.inr ⟨hdims₂, ht₂⟩) hz)
          (hfetch hs₂ (.inr ⟨hdims₂, ht₂⟩) hz)
    rw [if_neg hdims]
    refine exists_bind_eq_ok hdown ?_
    by_cases hflat : state.dims = 2
    · rw [if_pos hflat]
      exact hsquare _ (.inl (h.isTexel_sliceOf hplace))
    · have hdims₃ : 3 ≤ state.dims := by omega
      obtain ⟨through, hthrough, hr₁, hr₂⟩ : ∃ w,
          state.wrap.r.linear (view.wrapAxes state).r place.coords.r = .ok w ∧
            state.wrap.r.Serves view.extent.r w.first ∧
              state.wrap.r.Serves view.extent.r w.second :=
        state.wrap.r.exists_linear_eq_ok (view.wrapAxes state).r (h.sound_r hdims₃)
          (hclamp.r hdims₃) place.coords.r
      rw [if_neg hflat]
      refine exists_bind_eq_ok hthrough ?_
      refine Straddle.exists_blend_eq_ok ?_ ?_
      · exact hsquare through.first (.inr ⟨hdims₃, hr₁⟩)
      · exact hsquare through.second (.inr ⟨hdims₃, hr₂⟩)

theorem Readable.exists_imageNumbers_eq_ok (h : Readable state view)
    (hplace : place.IsOnFace state) {filter : ImageFilter}
    (hclamp : filter = .linear → ClampsExactly state view) (border : Color Single) :
    ∃ color, view.imageNumbers state border filter place = .ok color := by
  cases filter with
  | nearest => exact h.exists_nearestNumbers_eq_ok hplace border
  | linear => exact h.exists_linearNumbers_eq_ok hplace (hclamp rfl) border

end LevelView

/-! ## Sampling -/

/-- A request is answered if all levels of the surface can be read. -/
theorem exists_sample_numbers_of_readable {state : StaticState} {surface : Surface}
    (hlast : surface.lastLevel < 2 ^ 31 - 1)
    (hread : ∀ k ≤ surface.lastLevel,
      LevelView.Readable state (.ofSurface state surface (Int32.ofNat k)))
    (hclamp : state.minFilter = .linear ∨ state.magFilter = .linear → ∀ k ≤ surface.lastLevel,
      LevelView.ClampsExactly state (.ofSurface state surface (Int32.ofNat k)))
    (request : Request) :
    ∃ colors, Sampler.sample ⟨state, .numbers⟩ surface request = .ok colors := by
  let places := request.places state
  let lods := request.lods state surface places
  let levels := Levels.ofLods state surface lods
  obtain ⟨colors, hcolors⟩ : ∃ colors,
      levels.filterNumbers state surface.border places lods = .ok colors := by
    refine exists_filterByLod_eq_ok lods fun filter hfilter ↦ ?_
    refine Levels.exists_filter_eq_ok fun lane view hview ↦ ?_
    obtain ⟨k, hk, rfl⟩ := Levels.exists_of_reads_ofLods hlast hview
    refine (hread k hk).exists_imageNumbers_eq_ok (request.isOnFace_places state lane) ?_ _
    rintro rfl
    exact hclamp (hfilter.imp Eq.symm Eq.symm) k hk
  rw [Sampler.sample]
  exact exists_bind_eq_ok hcolors ⟨_, rfl⟩

/-- With one filter and no further level, a quad in numbers is one image for each lane. -/
theorem exists_sample_numbers_of_lanes {state : StaticState} {surface : Surface}
    {request : Request} (hsame : state.minFilter = state.magFilter)
    (hmip : state.mipFilter = .base ∨ state.mipFilter = .nearest)
    {P : Fin 4 → Color Single → Prop}
    (hlane : ∀ lane, ∃ color,
      ((Levels.ofLods state surface (request.lods state surface (request.places state))).base.get
        lane).imageNumbers state surface.border state.minFilter ((request.places state).get lane)
          = .ok color ∧ P lane (Sampler.finish state ((request.coord 2).get lane) color)) :
    ∃ colors, Sampler.sample ⟨state, .numbers⟩ surface request = .ok colors ∧
      ∀ lane, P lane (colors.get lane) := by
  obtain ⟨colors, hcolors, hP⟩ := Quad.exists_ofFnM_eq_ok_and hlane
  rw [Sampler.sample]
  refine exists_bind_eq_ok_and (a := colors) ?_ ⟨_, rfl, fun lane ↦ ?_⟩
  · rw [Levels.filterNumbers, filterByLod_of_eq hsame, Levels.filterNumbersBy,
      Levels.filter_of_next_eq_none (Levels.next_ofLods hmip _ _)]
    exact hcolors
  · rw [Quad.get_zipWith]
    exact hP lane

/-- Whether extents are at most `2 ^ 23` along axes that combine `mirrorClampToEdge` with a linear
filter. Axes that a target does not address never have greater ones. -/
def Settings.ClampsWithin (settings : Settings) (extent : Axes Nat) : Prop :=
  settings.minFilter = .linear ∨ settings.magFilter = .linear →
    (settings.wrap.s = .mirrorClampToEdge → extent.s ≤ 2 ^ 23) ∧
    (settings.wrap.t = .mirrorClampToEdge → extent.t ≤ 2 ^ 23) ∧
    (settings.wrap.r = .mirrorClampToEdge → extent.r ≤ 2 ^ 23)

theorem clampsExactly_ofSurface_of_le {binding : Binding} {source : Source} {settings : Settings}
    (h : binding.texture.BuiltFrom source)
    (hlt : source.extent.s < 2 ^ 31 ∧ source.extent.t < 2 ^ 31 ∧ source.extent.r < 2 ^ 31)
    (hle : (settings.wrap.s = .mirrorClampToEdge → source.extent.s ≤ 2 ^ 23) ∧
      (settings.wrap.t = .mirrorClampToEdge → source.extent.t ≤ 2 ^ 23) ∧
      (settings.wrap.r = .mirrorClampToEdge → source.extent.r ≤ 2 ^ 23)) {k : Nat}
    (hk : k < source.levelCount) :
    LevelView.ClampsExactly (binding.staticState settings)
      (.ofSurface (binding.staticState settings) binding.surface (Int32.ofNat k)) := by
  obtain ⟨hs, ht, hr⟩ := hle
  have hextent := (packed_ofSurface h (binding.staticState settings) h.target_eq hlt
    hk).map_toInt_extent
  simp only [Axes.map, Axes.mk.injEq] at hextent
  have hle_s := source.extentAt_s_le h.pos_s k
  have hle_t := source.extentAt_t_le h.pos_t k
  have hle_r := source.extentAt_r_le h.pos_r k
  refine ⟨fun hmode ↦ ?_, fun _ hmode ↦ ?_, fun _ hmode ↦ ?_⟩
  · have := hs hmode
    omega
  · have := ht hmode
    omega
  · have := hr hmode
    omega

theorem clampsExactly_ofSurface {binding : Binding} {source : Source} {settings : Settings}
    (h : binding.texture.BuiltFrom source)
    (hlt : source.extent.s < 2 ^ 31 ∧ source.extent.t < 2 ^ 31 ∧ source.extent.r < 2 ^ 31)
    (hclamp : settings.ClampsWithin source.extent)
    (hfilter : settings.minFilter = .linear ∨ settings.magFilter = .linear) {k : Nat}
    (hk : k < source.levelCount) :
    LevelView.ClampsExactly (binding.staticState settings)
      (.ofSurface (binding.staticState settings) binding.surface (Int32.ofNat k)) :=
  clampsExactly_ofSurface_of_le h hlt (hclamp hfilter) hk

/-- **Every request is answered in numbers.** It is on a unit with a texture bound, under any state
derived from the binding, if extents fit index words and stay within `2 ^ 23` where
`mirrorClampToEdge` meets a linear filter. On a unit with nothing bound it is under any state at
all. -/
theorem exists_sample_numbers_eq_ok (units : TextureUnits) (request : Request) :
    (∀ (source : Source) (binding : Binding) (settings : Settings),
      Texture.build source = .ok binding.texture → units.get? request.unit = some binding →
      (source.extent.s < 2 ^ 31 ∧ source.extent.t < 2 ^ 31 ∧ source.extent.r < 2 ^ 31) →
      settings.ClampsWithin source.extent →
      ∃ colors, Sampler.sample ⟨binding.staticState settings, .numbers⟩
        (units.surface request.unit) request = .ok colors) ∧
    (units.get? request.unit = none →
      ∀ state, ∃ colors, Sampler.sample ⟨state, .numbers⟩
        (units.surface request.unit) request = .ok colors) := by
  constructor
  · intro source binding settings hbuild hunit hlt hclamp
    rw [TextureUnits.surface_of_get?_eq_some hunit]
    have h := Texture.builtFrom_of_build hbuild
    have hcount : binding.surface.lastLevel + 1 = source.levelCount := h.lastLevel_add_one
    refine exists_sample_numbers_of_readable h.lastLevel_lt (fun k hk ↦ ?_) (fun hfilter k hk ↦ ?_)
      request
    · exact LevelView.readable_ofSurface h settings hlt (by omega)
    · exact clampsExactly_ofSurface h hlt hclamp hfilter (by omega)
  · intro hunit state
    rw [TextureUnits.surface_of_get?_eq_none hunit]
    exact exists_sample_numbers_of_readable (by decide)
      (fun k _ ↦ LevelView.readable_unbound state _)
      (fun _ k _ ↦ LevelView.clampsExactly_unbound state _) request

/-- A request with coordinates that are no numbers, on the checkered texture and where nothing is
bound. -/
theorem exists_sample_numbers_eq_ok_checker :
    let request := Request.ofCoords 0 [.splat .nan, .splat (.infinite true)]
    let state := { Binding.checker.staticState .plain with target := .cube, format := .rgba32Float }
    (∃ colors, Sampler.sample ⟨Binding.checker.staticState .plain, .numbers⟩
      (TextureUnits.checker.surface 0) request = .ok colors) ∧
    (∃ colors, Sampler.sample ⟨state, .numbers⟩ (TextureUnits.empty.surface 0) request
      = .ok colors) := by
  intro request state
  constructor
  · refine (exists_sample_numbers_eq_ok .checker request).1 .checker .checker .plain build_checker
      rfl (by decide) ?_
    rintro (hmin | hmag)
    · exact nomatch hmin
    · exact nomatch hmag
  · exact (exists_sample_numbers_eq_ok .empty request).2 rfl state

end QuadSampler
