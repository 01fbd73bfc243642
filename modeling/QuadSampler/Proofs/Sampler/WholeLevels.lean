import QuadSampler.Proofs.Filtering.Offsets
import QuadSampler.Proofs.LevelOfDetail.Bracket
import QuadSampler.Proofs.Sampler.BlendAccuracy

/-!
# Where blends of levels are levels

At a whole level of detail a linear mip filter has nothing to blend, and at either end of the levels
neither. There it should answer what a nearest mip filter answers. It comes to the level in three
ways (`Lod.Blend.Shows`). At a whole level below the last, the level is the first of the two and the
second has no share. At the last level it is the second, with all of the share. If there is only one
level, it is both, with whatever share.

The blend of bytes is exact in all three: a share of zero gives the first byte, 256 of 256ths the
second, and between equal bytes nothing is rounded. So it does not matter whether the second level
is read for the sake of another lane.
-/

namespace QuadSampler

namespace Lod

open Single (gridPerOne)

/-- A level of detail that is a whole number, not above zero, or not below the last level. -/
def IsWhole (lod : Single) (last : Nat) : Prop :=
  (∃ i : Int, lod.IsAt (i * gridPerOne)) ∨ lod.le 0 = true ∨ (Single.ofNat last).le lod = true

/-- A blend of levels comes down to one level: the first without a share of the second, the second
with all of the share, or both being that level. -/
def Blend.Shows (b : Blend) (level : Int32) : Prop :=
  b.first = level ∧ b.weight.IsAt 0 ∨ b.second = level ∧ b.weight.IsAt gridPerOne ∨
    b.first = level ∧ b.second = level

section Last

variable {lod : Single} {last : Nat} (hlast : last < 2 ^ 24)
include hlast

private theorem nearestLevel_mul_grid (h : IsWhole lod last) :
    (nearestLevel lod last).toInt * gridPerOne = min (max lod.rank 0) (last * gridPerOne) := by
  have hgrid := Single.natCast_gridPerOne_pos
  have hend := Single.isAt_ofNat hlast.le
  have hrange : 0 ≤ (last : Int) * gridPerOne := Int.mul_nonneg (Int.natCast_nonneg _) hgrid.le
  rw [toInt_nearestLevel hlast]
  obtain ⟨i, hi⟩ | hlow | hhigh := h
  · rw [hi.roundAway_of_whole.rank, hi.rank, Int.mul_ediv_cancel _ hgrid.ne',
      min_mul_of_nonneg _ _ hgrid.le, max_mul_of_nonneg _ _ hgrid.le, Int.zero_mul]
  · -- up to zero, the number nearest to it is not above zero either
    have hzero : (0 : Single).IsAt (0 * gridPerOne) := Single.isAt_ofNat (n := 0) (by decide)
    have hle := Single.rank_le_of_le hlow
    have hround := Single.rank_roundAway_mono hle
    rw [hzero.roundAway_of_whole.rank, Int.zero_mul] at hround
    rw [hzero.rank, Int.zero_mul] at hle
    have hfloor := Int.ediv_le_ediv hgrid hround
    rw [Int.zero_ediv] at hfloor
    have hlevel : min (max (lod.roundAway.rank / gridPerOne) 0) (last : Int) = 0 := by omega
    rw [hlevel, Int.zero_mul]
    omega
  · have hle := Single.rank_le_of_le hhigh
    have hround := Single.rank_roundAway_mono hle
    rw [hend.roundAway_of_whole.rank] at hround
    rw [hend.rank] at hle
    have hfloor := Int.ediv_le_ediv hgrid hround
    rw [Int.mul_ediv_cancel _ hgrid.ne'] at hfloor
    have hlevel : min (max (lod.roundAway.rank / gridPerOne) 0) (last : Int) = last := by omega
    rw [hlevel]
    omega

/-- At a whole level a linear mip filter shows the level that a nearest mip filter chooses. -/
theorem shows_of_isWhole (h : IsWhole lod last) :
    (blend lod last).Shows (nearestLevel lod last) := by
  have hgrid := Single.natCast_gridPerOne_pos
  have hwithin := isWithin_blend hlast lod
  have hlevel := nearestLevel_mul_grid hlast h
  have hsecond := hwithin.second_eq
  have hfirst := hwithin.first_nonneg
  have hle := hwithin.first_le_second
  obtain ⟨w, hw, hw0, hw1, hsum⟩ := blend_spec lod hlast
  rcases Nat.eq_zero_or_pos last with rfl | hpos
  · have hrange : (nearestLevel lod 0).toInt = 0 := by
      rw [toInt_nearestLevel hlast]
      omega
    refine .inr (.inr ⟨Int32.toInt_inj.1 ?_, Int32.toInt_inj.1 ?_⟩) <;> omega
  · have hlevels : max last 1 = last := by omega
    rw [hlevels, ← hlevel] at hsum
    -- the weight is what the first level lacks of a whole number, so it is zero or one
    obtain ⟨d, hd⟩ : ∃ d, (nearestLevel lod last).toInt = (blend lod last).first.toInt + d :=
      ⟨_, (add_sub_cancel _ _).symm⟩
    rw [hd, Int.add_mul] at hsum
    obtain rfl : w = d * gridPerOne := Int.add_left_cancel hsum
    have hd0 : 0 ≤ d := by
      by_contra hneg
      nlinarith
    have hd1 : d ≤ 1 := by
      by_contra hlarge
      nlinarith
    obtain rfl | rfl : d = 0 ∨ d = 1 := by omega
    · rw [Int.zero_mul] at hw
      exact .inl ⟨Int32.toInt_inj.1 (by omega), hw⟩
    · rw [Int.one_mul] at hw
      have hrange : (nearestLevel lod last).toInt ≤ last := by
        rw [toInt_nearestLevel hlast]
        omega
      exact .inr (.inl ⟨Int32.toInt_inj.1 (by omega), hw⟩)

end Last

end Lod

/-! ## Bytes -/

namespace FixedPoint

private theorem mixLevels_of_isAt_one {w : Single} (hw : w.IsAt Single.gridPerOne)
    (a b : Color UInt8) :
    mixLevels w a b = b := by
  have hproduct : (w * 256).IsAt (256 * Single.gridPerOne) := by
    refine Single.isAt_of_position ?_ isAt_256.representable.1
    rw [hw.position_mul isAt_256, Int.mul_comm,
      Single.place_mul_self isAt_256.representable Single.gridPerOne_pos]
  exact mix_of_256 (hproduct.toInt_floorInt32 (by decide)) a b

end FixedPoint

/-! ## Lanes -/

namespace Levels

variable {image : LevelView → Place → Except Fault (Color UInt8)} {place : Place}

/-- A lane whose blend comes down to a level has the colour of that level, whether or not further
levels are blended in for other lanes. -/
theorem filterLane_eq_of_shows {blends : Bool} {view : Int32 → LevelView} {b : Lod.Blend}
    {level : Int32} {c c' : Color UInt8} (h : b.Shows level)
    (hshare : FixedPoint.IsWeight (FixedPoint.levelShare b.weight))
    (hpos : Single.lt 0 b.weight = true → blends = true)
    (hblend : filterLane blends (view b.first) (some ⟨view b.second, b.weight⟩) image
      FixedPoint.mixLevels place = .ok c)
    (hlevel : image (view level) place = .ok c') : c = c' := by
  obtain ⟨near, hnear, hblend⟩ := bind_eq_ok.1 hblend
  cases blends with
  | false =>
    obtain rfl := Except.ok.inj hblend
    obtain ⟨rfl, -⟩ | ⟨-, hone⟩ | ⟨rfl, -⟩ := h
    · exact Except.ok.inj (hnear.symm.trans hlevel)
    · -- a share of one would have been blended in
      have hgrid := Single.natCast_gridPerOne_pos
      exact nomatch hpos ((Single.lt_iff_of_position Single.position_zero hone.position).2 hgrid)
    · exact Except.ok.inj (hnear.symm.trans hlevel)
  | true =>
    obtain ⟨far, hfar, hblend⟩ := bind_eq_ok.1 hblend
    obtain rfl := Except.ok.inj hblend
    obtain ⟨rfl, hzero⟩ | ⟨rfl, hone⟩ | ⟨rfl, hsecond⟩ := h
    · rw [FixedPoint.mixLevels_of_isAt_zero hzero]
      exact Except.ok.inj (hnear.symm.trans hlevel)
    · rw [FixedPoint.mixLevels_of_isAt_one hone]
      exact Except.ok.inj (hfar.symm.trans hlevel)
    · rw [hsecond] at hfar
      obtain rfl := Except.ok.inj (hfar.symm.trans hnear)
      have hself : FixedPoint.mixLevels b.weight far far = far := FixedPoint.mix_self hshare far
      rw [hself]
      exact Except.ok.inj (hfar.symm.trans hlevel)

end Levels

/-! ## Two mip filters -/

def StaticState.withMipFilter (state : StaticState) (mipFilter : MipFilter) : StaticState :=
  { state with mipFilter }

/-- The level of detail that a lane of a request selects. -/
def Request.lodAt (request : Request) (state : StaticState) (surface : Surface) (lane : Fin 4) :
    Single :=
  Lod.select Single.log2 state surface ((request.gradients state (request.places state)).get lane)
    (request.bias.map (·.get lane)) (request.explicitLod.map (·.get lane))

section MipFilters

variable {state : StaticState} {surface : Surface} {request : Request} {lane : Fin 4}
  {wraps : Axes SimpleWrap} {colors : Quad (Color Single)}

private theorem Request.lods_withMipFilter {mipFilter : MipFilter} (hmip : mipFilter ≠ .base)
    (request : Request) (state : StaticState) (surface : Surface) :
    request.lods (state.withMipFilter mipFilter) surface
        (request.places (state.withMipFilter mipFilter))
      = some (Quad.ofFn (request.lodAt state surface)) := by
  have hneeds : (state.withMipFilter mipFilter).needsLod = true := by
    have hne : (mipFilter != .base) = true := bne_iff_ne.2 hmip
    rw [StaticState.needsLod, StaticState.withMipFilter, hne, Bool.or_true]
  rw [lods, if_pos hneeds]
  rfl

private theorem Request.filterAt_withMipFilter {mipFilter : MipFilter} (hmip : mipFilter ≠ .base)
    (lane : Fin 4) :
    request.filterAt (state.withMipFilter mipFilter) surface lane
      = state.filterAt (request.lodAt state surface lane) := by
  rw [filterAt, request.lods_withMipFilter hmip, Option.getD_some, Quad.get_ofFn]
  rfl

private theorem Sampler.exists_filterLane_linear
    (h : sample ⟨state.withMipFilter .linear, .fixedPoint wraps⟩ surface request = .ok colors)
    (lane : Fin 4) :
    let lod := request.lodAt state surface lane
    let b := Lod.blend lod surface.lastLevel
    let view := LevelView.ofSurface state surface
    ∃ blends color, (Single.lt 0 b.weight = true → blends = true) ∧
      Levels.filterLane blends (view b.first) (some ⟨view b.second, b.weight⟩)
        (FixedPoint.imageBytes wraps state (state.filterAt lod)) FixedPoint.mixLevels
        ((request.places state).get lane) = .ok color ∧
      colors.get lane = finish state ((request.coord 2).get lane) color.toUnit := by
  intro lod b view
  obtain ⟨color, hcolor, heq⟩ := exists_filterLane_bytes h lane
  have hmip : MipFilter.linear ≠ .base := by decide
  have hbase : (request.levels (state.withMipFilter .linear) surface).base.get lane
      = view b.first := by
    rw [Request.levels, request.lods_withMipFilter hmip]
    simp only [Levels.ofLods, StaticState.withMipFilter, Option.getD_some, Quad.get_map,
      Quad.get_ofFn]
    rfl
  have hnext : (request.levels (state.withMipFilter .linear) surface).next.map (·.get lane)
      = some ⟨view b.second, b.weight⟩ := by
    rw [Request.levels, request.lods_withMipFilter hmip]
    simp only [Levels.ofLods, StaticState.withMipFilter, Option.getD_some, Option.map_some,
      Quad.get_map, Quad.get_ofFn]
    rfl
  rw [hbase, hnext, Request.filterAt_withMipFilter hmip] at hcolor
  exact ⟨_, color, fun hpos ↦ Levels.blends_of_pos hnext hpos, hcolor, heq⟩

private theorem Sampler.exists_image_nearest
    (h : sample ⟨state.withMipFilter .nearest, .fixedPoint wraps⟩ surface request = .ok colors)
    (lane : Fin 4) :
    let lod := request.lodAt state surface lane
    ∃ color, FixedPoint.imageBytes wraps state (state.filterAt lod)
        (.ofSurface state surface (Lod.nearestLevel lod surface.lastLevel))
        ((request.places state).get lane) = .ok color ∧
      colors.get lane = finish state ((request.coord 2).get lane) color.toUnit := by
  intro lod
  obtain ⟨color, hcolor, heq⟩ := exists_filterLane_bytes h lane
  have hmip : MipFilter.nearest ≠ .base := by decide
  have hbase : (request.levels (state.withMipFilter .nearest) surface).base.get lane
      = .ofSurface state surface (Lod.nearestLevel lod surface.lastLevel) := by
    rw [Request.levels, request.lods_withMipFilter hmip]
    simp only [Levels.ofLods, StaticState.withMipFilter, Option.getD_some, Quad.get_map,
      Quad.get_ofFn]
    rfl
  have hnext : (request.levels (state.withMipFilter .nearest) surface).next = none :=
    Levels.next_ofLods (.inr rfl) _ _
  rw [hbase, hnext, Request.filterAt_withMipFilter hmip] at hcolor
  obtain ⟨near, hnear, hcolor⟩ := bind_eq_ok.1 hcolor
  obtain rfl := Except.ok.inj hcolor
  exact ⟨near, hnear, heq⟩

end MipFilters

/-! ## Sampling -/

theorem Sampler.exists_sample_fixedPoint {source : Source} {binding : Binding}
    {settings : Settings} {wraps : Axes SimpleWrap} (h : binding.texture.BuiltFrom source)
    (hsize : ∀ k < binding.texture.levelCount, (binding.texture.levelBytes k).size < 2 ^ 31)
    (hwraps : SimpleWrap.ofState? (binding.staticState settings) = some wraps)
    (request : Request) :
    ∃ colors, sample ⟨binding.staticState settings, .fixedPoint wraps⟩ binding.surface request
      = .ok colors := by
  let state := binding.staticState settings
  have hlt := h.extent_lt (hsize 0 binding.texture.levelCount_pos)
  obtain ⟨colors, hcolors⟩ : ∃ colors, (request.levels state binding.surface).filterBytes wraps
      state (request.places state) (request.lods state binding.surface (request.places state))
        = .ok colors := by
    refine exists_filterByLod_eq_ok _ fun filter _ ↦ ?_
    refine Levels.exists_filter_eq_ok fun lane view hview ↦ ?_
    obtain ⟨k, hk, rfl, haddressed⟩ := exists_byteAddressed_of_reads h hsize hwraps hview
    obtain ⟨hs, ht, hr⟩ := soundLength_ofSurface h settings hlt hk
    have hfit : FixedPoint.AxesFit (FixedPoint.offsetAxes wraps state _) :=
      FixedPoint.axesFit_of_byteAddressed haddressed hs ht hr
    refine FixedPoint.exists_imageBytes_eq_ok haddressed hfit
      (FixedPoint.isOffset_sliceOffset hfit (fun hcube ↦ ?_)
        (request.isOnFace_places state lane)) filter
    simp only [LevelView.ofSurface, if_pos hcube]
  exact exists_bind_eq_ok hcolors ⟨_, rfl⟩

/-- **At whole levels, blending levels is choosing one.** Where a texture of levels below `2 ^ 31`
bytes is served in fixed point under a linear mip filter, it is under a nearest one too, and both
samplers answer every request. In every lane whose selected level of detail is a whole number, not
above zero, or not below the last level, they answer the same colour, whatever is selected in the
other lanes. -/
theorem mip_filters_meet_at_whole_levels {source : Source} {binding : Binding} {settings : Settings}
    {units : TextureUnits} {request : Request} {wraps : Axes SimpleWrap}
    (hbuild : Texture.build source = .ok binding.texture)
    (hsize : ∀ k < binding.texture.levelCount, (binding.texture.levelBytes k).size < 2 ^ 31)
    (hunit : units.get? request.unit = some binding)
    (hpath : (Sampler.specialize (binding.staticState { settings with mipFilter := .linear })
      .normal).path = .fixedPoint wraps) :
    let linear := binding.staticState { settings with mipFilter := .linear }
    let nearest := binding.staticState { settings with mipFilter := .nearest }
    let surface := units.surface request.unit
    (Sampler.specialize nearest .normal).path = .fixedPoint wraps ∧
    ∃ blended chosen,
      (Sampler.specialize linear .normal).sample surface request = .ok blended ∧
      (Sampler.specialize nearest .normal).sample surface request = .ok chosen ∧
      ∀ lane, Lod.IsWhole (request.lodAt linear surface lane) surface.lastLevel →
        blended.get lane = chosen.get lane := by
  rw [TextureUnits.surface_of_get?_eq_some hunit]
  obtain ⟨hwraps, hlinear⟩ := Sampler.specialize_of_path hpath
  intro linear nearest surface
  have h := Texture.builtFrom_of_build hbuild
  -- the mip filter plays no part in the choice of a path
  have hwraps' : SimpleWrap.ofState? (binding.staticState { settings with mipFilter := .nearest })
      = some wraps := hwraps
  have hnearest : Sampler.specialize nearest .normal = ⟨nearest, .fixedPoint wraps⟩ := by
    simp only [Sampler.specialize, nearest, hwraps']
  rw [hlinear, hnearest]
  let state := binding.staticState settings
  obtain ⟨blended, hblended⟩ : ∃ colors, Sampler.sample
      ⟨state.withMipFilter .linear, .fixedPoint wraps⟩ surface request = .ok colors :=
    Sampler.exists_sample_fixedPoint h hsize hwraps request
  obtain ⟨chosen, hchosen⟩ : ∃ colors, Sampler.sample
      ⟨state.withMipFilter .nearest, .fixedPoint wraps⟩ surface request = .ok colors :=
    Sampler.exists_sample_fixedPoint h hsize hwraps' request
  refine ⟨rfl, blended, chosen, hblended, hchosen, fun lane hwhole ↦ ?_⟩
  have hlast : surface.lastLevel < 2 ^ 24 := by
    have hmax : maxLevels < 2 ^ 24 := by decide
    have hcount : surface.lastLevel + 1 = source.levelCount := h.lastLevel_add_one
    have := h.levelCount_le
    omega
  obtain ⟨blends, near, hpos, hnear, heq⟩ := Sampler.exists_filterLane_linear hblended lane
  obtain ⟨color, hcolor, heq'⟩ := Sampler.exists_image_nearest hchosen lane
  rw [heq, heq', Levels.filterLane_eq_of_shows (Lod.shows_of_isWhole hlast hwhole)
    (FixedPoint.isWeight_levelShare_clamp _) hpos hnear hcolor]

/-- The checkered texture below, between and at its two levels: the second lane lies
between the two and makes the others blend. -/
theorem mip_filters_meet_at_whole_levels_checker :
    let settings := { Settings.plain with maxLod := 1 }
    let binding := Binding.ofSettings .checker settings
    let units : TextureUnits := ⟨.replicate maxUnits (some binding)⟩
    let linear := binding.staticState { settings with mipFilter := .linear }
    let nearest := binding.staticState { settings with mipFilter := .nearest }
    let request := Request.ofCoords 0 [.splat 0, .splat 0]
      (.explicit ⟨-1, Single.half, 1, .infinite false⟩)
    ∃ blended chosen,
      (Sampler.specialize linear .normal).sample (units.surface 0) request = .ok blended ∧
      (Sampler.specialize nearest .normal).sample (units.surface 0) request = .ok chosen ∧
      ∀ lane ≠ 1, blended.get lane = chosen.get lane := by
  intro settings binding units linear nearest request
  have hpath : (Sampler.specialize linear .normal).path
      = .fixedPoint ⟨.repeating, .repeating, .clampToEdge⟩ := rfl
  have hunit : units.get? request.unit = some binding := rfl
  obtain ⟨-, blended, chosen, hblended, hchosen, hlanes⟩ :=
    mip_filters_meet_at_whole_levels build_checker (by decide) hunit hpath
  refine ⟨blended, chosen, hblended, hchosen, fun lane hlane ↦ hlanes lane ?_⟩
  have hlow : (request.lodAt linear (units.surface 0) 0).le 0 = true := by decide +kernel
  have hhigh : ∀ lane, 2 ≤ lane → (Single.ofNat (units.surface 0).lastLevel).le
      (request.lodAt linear (units.surface 0) lane) = true := by decide +kernel
  match lane with
  | 0 => exact .inr (.inl hlow)
  | 1 => exact absurd rfl hlane
  | 2 => exact .inr (.inr (hhigh 2 (by decide)))
  | 3 => exact .inr (.inr (hhigh 3 (by decide)))

end QuadSampler
