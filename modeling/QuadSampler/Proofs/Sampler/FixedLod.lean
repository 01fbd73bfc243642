import QuadSampler.Proofs.Filtering.Progress
import QuadSampler.Proofs.Filtering.UnsharedSides
import QuadSampler.Proofs.LevelOfDetail.Bracket
import QuadSampler.Proofs.Sampler.LaneIndependence
import QuadSampler.Texture.Units

/-!
# Limits that leave one level of detail

A state whose limits of the level of detail are one number skips the computation of the level of
detail and takes the lower limit. The computation would end at the same place, since its last step
moves whatever came out between the limits (`Lod.position_select_of_limits`).

The same place is not the same number. A limit of zero may be met with either sign, and only the
shortcut keeps the sign of the limit. So the levels of detail are compared by what they are used
for (`Lod.UsedAlike`). The integers that levels are do not see the sign of a zero; a weight does,
but only if it is a zero itself. The limits are shared by the four lanes, so no lane has a share
of its further level then, and it is not blended in.
-/

namespace QuadSampler

universe u

/-! ## Numbers at one place -/

namespace Single

section Place

variable {x y : Single} (h : x.position = y.position)
include h

private theorem rank_congr : x.rank = y.rank := by rw [rank, rank, h]

private theorem le_congr_right (z : Single) : z.le x = z.le y := by rw [le, le, related, related, h]

private theorem floorInt32_congr : x.floorInt32 = y.floorInt32 := by
  obtain rfl | ⟨hx, hy⟩ := eq_or_isAt_zero h
  · rfl
  · rw [hx.floorInt32, hy.floorInt32]

private theorem toInt32_roundAway_congr : x.roundAway.toInt32 = y.roundAway.toInt32 := by
  obtain rfl | ⟨hx, hy⟩ := eq_or_isAt_zero h
  · rfl
  · rw [← Int.zero_mul (gridPerOne : Int)] at hx hy
    rw [hx.roundAway_of_whole.toInt32, hy.roundAway_of_whole.toInt32]

private theorem position_clamp_unit_congr : (x.clamp 0 1).position = (y.clamp 0 1).position := by
  rw [position_clamp x position_zero isAt_one.position,
    position_clamp y position_zero isAt_one.position, rank_congr h]

end Place

end Single

/-! ## What a level of detail is used for -/

namespace Lod

/-- Whether two levels of detail are used alike: they are one number, minify or magnify alike, and
choose the same levels with the same shares, of however many levels. -/
structure UsedAlike (lod lod' : Single) : Prop where
  same : lod.same lod' = true
  filterAt : ∀ state : StaticState, state.filterAt lod = state.filterAt lod'
  nearestLevel : ∀ last, nearestLevel lod last = nearestLevel lod' last
  first : ∀ last, (blend lod last).first = (blend lod' last).first
  second : ∀ last, (blend lod last).second = (blend lod' last).second
  weight : ∀ last, (blend lod last).weight.same (blend lod' last).weight = true

section Place

variable {lod lod' : Single}

private theorem nearestLevel_congr (h : lod.position = lod'.position) (last : Nat) :
    nearestLevel lod last = nearestLevel lod' last := by
  rw [nearestLevel, nearestLevel, Single.toInt32_roundAway_congr h]

private theorem first_blend_congr (h : lod.position = lod'.position) (last : Nat) :
    (blend lod last).first = (blend lod' last).first := by
  simp only [blend, Single.floorInt32_congr h]

private theorem second_blend_congr (h : lod.position = lod'.position) (last : Nat) :
    (blend lod last).second = (blend lod' last).second := by
  simp only [blend, Single.floorInt32_congr h]

private theorem position_weight_blend_congr (h : lod.position = lod'.position) (last : Nat) :
    (blend lod last).weight.position = (blend lod' last).weight.position := by
  have hfirst := first_blend_congr h last
  simp only [blend] at hfirst ⊢
  rw [hfirst]
  exact Single.position_clamp_unit_congr (Single.position_add_congr h rfl)

/-- Numbers at one place are used alike as levels of detail. -/
theorem usedAlike_of_position {p : Int} (h : lod.position = some p) (h' : lod'.position = some p) :
    UsedAlike lod lod' where
  same := Single.same_of_position h h'
  filterAt state := by
    rw [StaticState.filterAt, StaticState.filterAt, Single.le_congr_right (h.trans h'.symm)]
  nearestLevel := nearestLevel_congr (h.trans h'.symm)
  first := first_blend_congr (h.trans h'.symm)
  second := second_blend_congr (h.trans h'.symm)
  weight last := by
    have hweight := position_blend_weight lod last
    exact Single.same_of_position hweight
      ((position_weight_blend_congr (h.trans h'.symm) last).symm.trans hweight)

private theorem isAt_zero_weight_blend (h : lod.IsAt 0) (last : Nat) :
    (blend lod last).weight.IsAt 0 := by
  have hfirst : (blend lod last).first = 0 := by
    have hclamp := toInt_clampIndex_zero lod.floorInt32 (max (Int32.ofNat last - 1) 0)
    have hfloor : lod.floorInt32.toInt = 0 := by
      rw [h.floorInt32, Int.zero_ediv]
      rfl
    rw [hfloor, toInt_max, Int32.toInt_zero] at hclamp
    refine Int32.toInt_inj.1 ?_
    simp only [blend, Int32.toInt_zero]
    omega
  have hzero : (Single.ofInt32 0).IsAt 0 := by
    have hword := Single.isAt_ofInt32 (i := 0) (by decide)
    rwa [Int32.toInt_zero, Int.zero_mul] at hword
  have hposition : (lod - Single.ofInt32 0).position = some 0 := by
    rw [h.position_sub hzero]
    rfl
  have hweight := position_blend_weight lod last
  rw [hfirst, Single.rank_of_position hposition] at hweight
  exact Single.isAt_of_position hweight (by decide)

end Place

/-- Where the limits stand at one place, what is selected stands there, computed or not. -/
theorem position_select_of_limits (log2 : Single → Single) (state : StaticState) {surface : Surface}
    {p : Int} (hmin : surface.minLod.position = some p) (hmax : surface.maxLod.position = some p)
    (g : Gradient) (bias explicit : Option Single) :
    (select log2 state surface g bias explicit).position = some p := by
  obtain ⟨q, hq, hlow, hhigh⟩ :=
    exists_position_select log2 state hmin hmax (le_refl p) g bias explicit
  rw [hq, le_antisymm hhigh hlow]

end Lod

/-! ## Filtering -/

namespace Levels

variable {C : Type u}

theorem filter_of_blends_eq_false {levels : Levels} (h : levels.blends = false)
    (image : LevelView → Place → Except Fault C) (mix : Single → C → C → C)
    (places : Quad Place) :
    levels.filter image mix places
      = Quad.ofFnM fun lane ↦ image (levels.base.get lane) (places.get lane) := by
  cases hnext : levels.next with
  | none => exact filter_of_next_eq_none hnext image mix places
  | some next =>
    rw [blends_of_next hnext] at h
    simp only [filter, hnext, h, Bool.false_eq_true, ite_false]
    exact bind_pure _

variable {state : StaticState} {surface : Surface} {lods lods' : Quad Single}

theorem blends_ofLods_of_isAt_zero (h : ∀ lane, (lods.get lane).IsAt 0) :
    (ofLods state surface (some lods)).blends = false := by
  cases hmip : state.mipFilter with
  | base => rw [blends, next_ofLods (.inl hmip)]
  | nearest => rw [blends, next_ofLods (.inr hmip)]
  | linear =>
    have hlane : ∀ lane,
        Single.lt 0 (Lod.blend (lods.get lane) surface.lastLevel).weight = false := fun lane ↦ by
      have hweight := Lod.isAt_zero_weight_blend (h lane) surface.lastLevel
      rw [← Bool.not_eq_true, Single.lt_iff_of_position Single.position_zero hweight.position]
      exact lt_irrefl 0
    simp only [blends, ofLods, hmip, Option.getD_some]
    have hnone : lods.any (fun _ ↦ false) = false := rfl
    rw [← hnone]
    refine Quad.any_congr fun lane ↦ ?_
    rw [Quad.get_map, Quad.get_map, hlane]

private theorem base_ofLods_congr
    (h : ∀ lane, (lods.get lane).position = (lods'.get lane).position) (lane : Fin 4) :
    (ofLods state surface (some lods)).base.get lane
      = (ofLods state surface (some lods')).base.get lane := by
  cases hmip : state.mipFilter with
  | base => rw [base_ofLods hmip, base_ofLods hmip]
  | nearest =>
    simp only [ofLods, hmip, Option.getD_some, Quad.get_map, Lod.nearestLevel_congr (h lane)]
  | linear =>
    simp only [ofLods, hmip, Option.getD_some, Quad.get_map, Lod.first_blend_congr (h lane)]

theorem filter_ofLods_congr {p : Int} (h : ∀ lane, (lods.get lane).position = some p)
    (h' : ∀ lane, (lods'.get lane).position = some p)
    (image : LevelView → Place → Except Fault C) (mix : Single → C → C → C)
    (places : Quad Place) :
    (ofLods state surface (some lods)).filter image mix places
      = (ofLods state surface (some lods')).filter image mix places := by
  by_cases hp : p = 0
  · subst hp
    have hzero : ∀ lane, (lods.get lane).IsAt 0 := fun lane ↦
      Single.isAt_of_position (h lane) (by decide)
    have hzero' : ∀ lane, (lods'.get lane).IsAt 0 := fun lane ↦
      Single.isAt_of_position (h' lane) (by decide)
    rw [filter_of_blends_eq_false (blends_ofLods_of_isAt_zero hzero),
      filter_of_blends_eq_false (blends_ofLods_of_isAt_zero hzero')]
    simp only [base_ofLods_congr fun lane ↦ (h lane).trans (h' lane).symm]
  · -- away from zero, numbers at one place are one number
    have hlods : lods = lods' := Quad.ext_get fun lane ↦ by
      obtain heq | ⟨hzero, -⟩ := Single.eq_or_isAt_zero ((h lane).trans (h' lane).symm)
      · exact heq
      · exact absurd (Option.some.inj ((h lane).symm.trans hzero.position)) hp
    rw [hlods]

end Levels

private theorem filterByLod_congr_lods {C : Type u} {state : StaticState} {lods lods' : Quad Single}
    (h : ∀ lane, (lods.get lane).position = (lods'.get lane).position)
    (run : ImageFilter → Except Fault (Quad C)) :
    filterByLod state (some lods) run = filterByLod state (some lods') run := by
  simp only [filterByLod, Option.getD_some, Single.le_congr_right (h _)]

/-! ## Sampling -/

/-- The state that computes the level of detail even if it has only one value to take. -/
def StaticState.computingLod (state : StaticState) : StaticState := { state with lodFixed := false }

section Sampling

variable (state : StaticState) {surface : Surface} {p : Int}

theorem Request.position_lods_of_limits (request : Request)
    (hmin : surface.minLod.position = some p) (hmax : surface.maxLod.position = some p)
    {places : Quad Place} {lods : Quad Single}
    (h : request.lods state surface places = some lods) (lane : Fin 4) :
    (lods.get lane).position = some p := by
  rw [Request.lods] at h
  split at h
  · obtain rfl := Option.some.inj h
    rw [Quad.get_ofFn]
    exact Lod.position_select_of_limits _ _ hmin hmax _ _ _
  · cases h

private theorem Request.lods_computingLod (request : Request) (surface : Surface)
    (places : Quad Place) :
    request.lods state surface places = request.lods state.computingLod surface places ∨
      ∃ lods lods', request.lods state surface places = some lods ∧
        request.lods state.computingLod surface places = some lods' := by
  have hneeds : state.computingLod.needsLod = state.needsLod := rfl
  rw [lods, lods, hneeds]
  split
  · exact .inr ⟨_, _, rfl, rfl⟩
  · exact .inl rfl

/-- Where the limits stand at one place, a quad gets the same colours whether or not levels of
detail are computed. -/
theorem Request.filterByLod_computingLod {C : Type u} (request : Request)
    (hmin : surface.minLod.position = some p) (hmax : surface.maxLod.position = some p)
    (places : Quad Place)
    (image : ImageFilter → LevelView → Place → Except Fault C) (mix : Single → C → C → C) :
    let lods := request.lods state surface places
    let lods' := request.lods state.computingLod surface places
    (filterByLod state lods fun filter ↦
        (Levels.ofLods state surface lods).filter (image filter) mix places)
      = filterByLod state lods' fun filter ↦
        (Levels.ofLods state surface lods').filter (image filter) mix places := by
  intro lods lods'
  obtain heq | ⟨q, q', hq, hq'⟩ := request.lods_computingLod state surface places
  · simp only [lods, lods', heq]
  · have hplace := request.position_lods_of_limits state hmin hmax hq
    have hplace' := request.position_lods_of_limits state.computingLod hmin hmax hq'
    simp only [lods, lods', hq, hq']
    rw [filterByLod_congr_lods fun lane ↦ (hplace lane).trans (hplace' lane).symm]
    exact filterByLod_congr rfl rfl _ fun filter ↦
      Levels.filter_ofLods_congr hplace hplace' _ _ _

theorem Sampler.sample_computingLod (hmin : surface.minLod.position = some p)
    (hmax : surface.maxLod.position = some p) (path : Path) (request : Request) :
    sample ⟨state, path⟩ surface request = sample ⟨state.computingLod, path⟩ surface request := by
  have hcolors {C : Type} := request.filterByLod_computingLod (C := C) state hmin hmax
    (request.places state)
  cases path with
  | fixedPoint wraps =>
    exact congrArg (· >>= _) (hcolors (FixedPoint.imageBytes wraps state) FixedPoint.mixLevels)
  | numbers =>
    exact congrArg (· >>= _) (hcolors (LevelView.imageNumbers state surface.border) lerpColor)
  | white => rfl

theorem Sampler.exists_specialize_computingLod (mode : Mode) :
    ∃ path, specialize state mode = ⟨state, path⟩ ∧
      specialize state.computingLod mode = ⟨state.computingLod, path⟩ := by
  cases mode with
  | nop => exact ⟨.white, rfl, rfl⟩
  | normal =>
    have hwraps : SimpleWrap.ofState? state.computingLod = SimpleWrap.ofState? state := rfl
    rw [specialize, specialize, hwraps]
    split <;> exact ⟨_, rfl, rfl⟩

end Sampling

/-- **One level of detail needs no computation.** Where the limits of the level of detail are one
number, the derived state leaves its computation out. On every surface with these limits, whatever
its bias, it selects levels of detail that are used as the computed ones are, for every logarithm,
and every request, with whatever numbers in it, is answered as with the computation, or fails as it
does. -/
theorem fixed_lod_changes_nothing (view : View) {settings : Settings} {surface : Surface}
    (hlimits : settings.minLod.same settings.maxLod = true)
    (hmin : surface.minLod = settings.minLod) (hmax : surface.maxLod = settings.maxLod) :
    let state := StaticState.derive view settings
    state.lodFixed = true ∧
    (∀ log2 g bias explicit, Lod.UsedAlike (Lod.select log2 state surface g bias explicit)
      (Lod.select log2 state.computingLod surface g bias explicit)) ∧
    ∀ mode request, (Sampler.specialize state mode).sample surface request
      = (Sampler.specialize state.computingLod mode).sample surface request := by
  intro state
  obtain ⟨p, hp, hp'⟩ := Single.exists_position_of_same hlimits
  rw [← hmin] at hp
  rw [← hmax] at hp'
  refine ⟨hlimits, fun log2 g bias explicit ↦ ?_, fun mode request ↦ ?_⟩
  · exact Lod.usedAlike_of_position
      (Lod.position_select_of_limits log2 state hp hp' g bias explicit)
      (Lod.position_select_of_limits log2 state.computingLod hp hp' g bias explicit)
  · obtain ⟨path, hsampler, hcomputing⟩ := Sampler.exists_specialize_computingLod state mode
    rw [hsampler, hcomputing]
    exact Sampler.sample_computingLod state hp hp' path request

/-- On the checkered texture between limits of zero with different signs, for derivatives that are
no numbers and an infinite level. The computation ends at the other zero. -/
theorem fixed_lod_changes_nothing_checker :
    let settings := { Settings.plain with minLod := -0, mipFilter := .linear }
    let state := StaticState.derive Texture.checker.view settings
    let surface := (Binding.ofSettings .checker settings).surface
    let select (state : StaticState) := Lod.select Single.log2 state surface
      ⟨.splat .nan, .splat .nan⟩ (some 1) (some (.infinite false))
    let request := Request.ofCoords 0 [.splat 0, .splat .nan] (.explicit (.splat 3))
    select state ≠ select state.computingLod ∧
      Lod.UsedAlike (select state) (select state.computingLod) ∧
      (Sampler.specialize state .normal).sample surface request
        = (Sampler.specialize state.computingLod .normal).sample surface request := by
  intro settings state surface select request
  have hlimits : settings.minLod.same settings.maxLod = true := by decide
  have hmin : surface.minLod = settings.minLod := rfl
  have hmax : surface.maxLod = settings.maxLod := rfl
  obtain ⟨-, halike, hsample⟩ :=
    fixed_lod_changes_nothing Texture.checker.view hlimits hmin hmax
  exact ⟨by decide, halike _ _ _ _, hsample .normal request⟩

end QuadSampler
