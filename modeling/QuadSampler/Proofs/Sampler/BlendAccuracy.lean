import QuadSampler.Proofs.Filtering.BlendTree
import QuadSampler.Proofs.Filtering.ByteBlends
import QuadSampler.Proofs.Sampler.LaneIndependence

/-!
# Accuracy of blended bytes

A linear filter of the fixed-point path reads the texels at the corners of a cell, on one of two
sides along each addressed axis, and nests blends over them. `FixedPoint.ReadsCell` says that the
reads are answered, and what with. The image is then the nest of blends over the cell
(`FixedPoint.ReadsCell.imageBytes_eq_ok`), and what holds of nests of bytes holds of each of its
channels.

Two levels are blended once more. Where no lane gives its further level a share above zero, the
further levels are not read at all. That is no exception: such a share is zero in 256ths, and a
blend with share zero is the first colour (`FixedPoint.exists_filter_eq_mixLevels`).
-/

namespace QuadSampler

universe u

private theorem Straddle.blend_eq_ok {W : Type} {C : Type u} {mix : W → C → C → C}
    {read : Int32 → Except Fault C} {w : Straddle W} {first second : C}
    (hfirst : read w.first = .ok first) (hsecond : read w.second = .ok second) :
    w.blend mix read = .ok (mix w.weight first second) := by
  rw [Straddle.blend, hfirst, hsecond]
  rfl

private theorem StaticState.length_activeAxes (state : StaticState) :
    state.activeAxes.length = state.dims := by
  rw [activeAxes, dims]
  cases state.target <;> rfl

namespace FixedPoint

/-! ## Weights -/

theorem toInt_fraction (c : Int32) : (fraction c).toInt = c.toInt % 256 := by
  have hmask : (256 - 1 : Int32) = 255 := rfl
  have h256 : (256 : Int32).toInt = (2 ^ 8 : Nat) := rfl
  rw [fraction, ← hmask, toInt_and_sub_one h256, h256]
  rfl

/-- The low eight bits of a coordinate are its remainder by 256, below zero too. -/
theorem fraction_eq_ofInt (c : Int32) : fraction c = .ofInt (c.toInt % 256) := by
  rw [← toInt_fraction, Int32.ofInt_toInt]

private theorem isWeight_fraction (c : Int32) : IsWeight (fraction c) := by
  rw [IsWeight, toInt_fraction]
  omega

/-! ## Cells -/

/-- The offsets of the two texels around a place along an axis, and the weight of the second. -/
def straddle (wraps : Axes SimpleWrap) (state : StaticState) (view : LevelView) (place : Place)
    (axis : Fin 3) : Except Fault (Straddle Int32) :=
  ((offsetAxes wraps state view).get axis).straddle state.normalized (place.coords.get axis)

/-- The weight of the second texel along an axis, in 256ths: what the coordinate in fixed point
leaves over whole texels. -/
def cellWeight (state : StaticState) (view : LevelView) (place : Place) (axis : Fin 3) : Int32 :=
  .ofInt ((ofCoord (place.coords.get axis) (view.extent.get axis) state.normalized true).toInt
    % 256)

/-- The offset of a corner of a cell along an axis. A corner is the set of the axes along which it
is on the second side. -/
def cornerSide (sides : Fin 3 → Straddle Int32) (corner : Finset (Fin 3)) (axis : Fin 3) : Int32 :=
  if axis ∈ corner then (sides axis).second else (sides axis).first

/-- The offset of a corner of a cell in the level, from that of the slice on. -/
def cornerOffset (state : StaticState) (view : LevelView) (place : Place)
    (sides : Fin 3 → Straddle Int32) (corner : Finset (Fin 3)) : Int32 :=
  state.activeAxes.foldl (fun offset axis ↦ offset + cornerSide sides corner axis)
    (sliceOffset state view place)

/-- Whether the texels around a place are read, and are the given ones: along each addressed axis
there are two sides, and at each corner of the cell between them there is a texel. -/
def ReadsCell (wraps : Axes SimpleWrap) (state : StaticState) (view : LevelView) (place : Place)
    (texels : Finset (Fin 3) → Color UInt8) : Prop :=
  ∃ sides : Fin 3 → Straddle Int32,
    (∀ axis ∈ state.activeAxes, straddle wraps state view place axis = .ok (sides axis)) ∧
    ∀ corner ⊆ state.activeAxes.toFinset,
      view.fetchBytes state (cornerOffset state view place sides corner) = .ok (texels corner)

/-- The exact value of a channel at a place: the texels of its cell, each with the product of its
shares. -/
def exactByte (state : StaticState) (view : LevelView) (place : Place)
    (texels : Finset (Fin 3) → Color UInt8) (channel : Fin 4) : ℚ :=
  exactBlend state.activeAxes.toFinset (fun axis ↦ (cellWeight state view place axis).toInt / 256)
    fun corner ↦ ((texels corner).get channel).toNat

theorem cellWeight_eq_fraction (state : StaticState) (view : LevelView) (place : Place)
    (axis : Fin 3) : cellWeight state view place axis
      = fraction (ofCoord (place.coords.get axis) (view.extent.get axis) state.normalized true) :=
  (fraction_eq_ofInt _).symm

theorem isWeight_cellWeight (state : StaticState) (view : LevelView) (place : Place)
    (axis : Fin 3) : IsWeight (cellWeight state view place axis) :=
  cellWeight_eq_fraction state view place axis ▸ isWeight_fraction _

variable {wraps : Axes SimpleWrap} {state : StaticState} {view : LevelView} {place : Place}
  {texels : Finset (Fin 3) → Color UInt8}

private theorem weight_of_straddle {axis : Fin 3} {w : Straddle Int32}
    (h : straddle wraps state view place axis = .ok w) :
    w.weight = cellWeight state view place axis := by
  obtain ⟨⟨first, second⟩, -, h⟩ := bind_eq_ok.1 h
  obtain rfl := Except.ok.inj h
  rw [cellWeight_eq_fraction]
  match axis with
  | 0 | 1 | 2 => rfl

private theorem square_eq_ok {C : Type} {blend : Int32 → C → C → C} {fetch : Int32 → Except Fault C}
    {sides : Fin 3 → Straddle Int32} {value : Finset (Fin 3) → C} {z : Int32}
    (h : ∀ corner ⊆ {0, 1},
      fetch (z + cornerSide sides corner 0 + cornerSide sides corner 1) = .ok (value corner)) :
    ((sides 1).blend blend fun y ↦ (sides 0).blend blend fun x ↦ fetch (x + y + z))
      = .ok (blendOver blend (fun axis ↦ (sides axis).weight) [1, 0] value) := by
  have hcorner : ∀ x y : Int32, x + y + z = z + x + y := fun x y ↦ by
    rw [Int32.add_comm, ← Int32.add_assoc]
  simp only [hcorner]
  have hnear : ((sides 0).blend blend fun x ↦ fetch (z + x + (sides 1).first))
      = .ok (blend (sides 0).weight (value ∅) (value {0})) :=
    Straddle.blend_eq_ok (by simpa [cornerSide] using h ∅ (by decide))
      (by simpa [cornerSide] using h {0} (by decide))
  have hfar : ((sides 0).blend blend fun x ↦ fetch (z + x + (sides 1).second))
      = .ok (blend (sides 0).weight (value {1}) (value {1, 0})) :=
    Straddle.blend_eq_ok (by simpa [cornerSide] using h {1} (by decide))
      (by simpa [cornerSide] using h {1, 0} (by decide))
  exact Straddle.blend_eq_ok hnear hfar

/-- The image at a place is the nest of blends over its cell. -/
theorem ReadsCell.imageBytes_eq_ok (h : ReadsCell wraps state view place texels) :
    imageBytes wraps state .linear view place
      = .ok (blendOver mix (cellWeight state view place) state.activeAxes.reverse texels) := by
  obtain ⟨sides, hsides, hreads⟩ := h
  have hweight : ∀ axis ∈ state.activeAxes.reverse,
      cellWeight state view place axis = (sides axis).weight := fun axis haxis ↦
    (weight_of_straddle (hsides axis (List.mem_reverse.1 haxis))).symm
  rw [blendOver_congr hweight]
  have hside : ∀ axis : Fin 3, axis.val < state.dims →
      straddle wraps state view place axis = .ok (sides axis) := fun axis haxis ↦
    hsides axis (StaticState.mem_activeAxes.2 haxis)
  have hdims : state.dims = 1 ∨ state.dims = 2 ∨ state.dims = 3 := by
    rw [StaticState.dims]
    cases state.target <;> decide
  have hslice : state.dims ≠ 2 → sliceOffset state view place = 0 := fun hne ↦
    if_neg fun hcube ↦ hne (by rw [StaticState.dims, hcube]; rfl)
  simp only [cornerOffset, StaticState.activeAxes] at hreads ⊢
  refine bind_eq_ok.2 ⟨sides 0, hside 0 (by omega), ?_⟩
  rcases hdims with hdims | hdims | hdims
  · rw [hdims, hslice (by omega)] at hreads
    rw [hdims, if_pos rfl]
    refine Straddle.blend_eq_ok ?_ ?_
    · simpa [cornerSide, blendOver] using hreads ∅ (by decide)
    · simpa [cornerSide, blendOver] using hreads {0} (by decide)
  · rw [hdims] at hreads ⊢
    rw [if_neg (by decide)]
    refine bind_eq_ok.2 ⟨sides 1, hside 1 (by omega), ?_⟩
    exact square_eq_ok hreads
  · rw [hdims, hslice (by omega)] at hreads
    rw [hdims, if_neg (by decide)]
    refine bind_eq_ok.2 ⟨sides 1, hside 1 (by omega), ?_⟩
    refine bind_eq_ok.2 ⟨sides 2, hside 2 (by omega), ?_⟩
    refine Straddle.blend_eq_ok (square_eq_ok fun corner hcorner ↦ ?_)
      (square_eq_ok fun corner hcorner ↦ ?_)
    · have hnot : 2 ∉ corner := fun hmem ↦ absurd (hcorner hmem) (by decide)
      rw [Int32.add_assoc, Int32.add_comm]
      simpa [cornerSide, hnot] using hreads corner (hcorner.trans (by decide))
    · rw [Int32.add_assoc, Int32.add_comm]
      simpa [cornerSide] using
        hreads (insert 2 corner) (Finset.insert_subset (by decide) (hcorner.trans (by decide)))

/-- Whether a colour blends the texels of a cell accurately: each channel lies between two texels,
and half a byte for each axis is the most that it is off. -/
structure IsBlendOfCell (state : StaticState) (view : LevelView) (place : Place)
    (texels : Finset (Fin 3) → Color UInt8) (color : Color UInt8) : Prop where
  exists_corner_le : ∀ channel, ∃ corner ⊆ state.activeAxes.toFinset,
    (texels corner).get channel ≤ color.get channel
  exists_le_corner : ∀ channel, ∃ corner ⊆ state.activeAxes.toFinset,
    color.get channel ≤ (texels corner).get channel
  error_le : ∀ channel,
    |((color.get channel).toNat : ℚ) - exactByte state view place texels channel| ≤ state.dims / 2
  /-- Where no axis gives its second side a share, the colour is that of the first texel. -/
  eq_first : (∀ axis ∈ state.activeAxes, (cellWeight state view place axis).toInt = 0) →
    color = texels ∅

private theorem isBlendOfCell_blendOver (state : StaticState) (view : LevelView) (place : Place)
    (texels : Finset (Fin 3) → Color UInt8) :
    IsBlendOfCell state view place texels
      (blendOver mix (cellWeight state view place) state.activeAxes.reverse texels) := by
  have hmem := fun axis ↦ (isWeight_cellWeight state view place axis).mixByte_mem
  refine ⟨fun channel ↦ ?_, fun channel ↦ ?_, fun channel ↦ ?_, fun hzero ↦ ?_⟩
  · rw [get_blendOver, ← List.toFinset_reverse]
    refine exists_blendOver (R := fun u v ↦ u ≤ v) UInt8.le_refl UInt8.le_trans
      (fun axis _ a b ↦ ?_) _
    simp only [UInt8.le_iff_toNat_le]
    have := hmem axis a b
    omega
  · rw [get_blendOver, ← List.toFinset_reverse]
    refine exists_blendOver (R := fun u v ↦ v ≤ u) UInt8.le_refl (fun h h' ↦ UInt8.le_trans h' h)
      (fun axis _ a b ↦ ?_) _
    simp only [UInt8.le_iff_toNat_le]
    have := hmem axis a b
    omega
  · have herror := abs_blendOver_sub_le (List.nodup_reverse.2 state.nodup_activeAxes)
      (fun axis _ ↦ isWeight_cellWeight state view place axis)
      fun corner ↦ (texels corner).get channel
    rwa [← get_blendOver, List.toFinset_reverse, List.length_reverse,
      StaticState.length_activeAxes] at herror
  · refine Color.ext_get fun channel ↦ ?_
    rw [get_blendOver]
    exact blendOver_of_zero (fun axis haxis ↦ hzero axis (List.mem_reverse.1 haxis)) _

end FixedPoint

/-! ## Two levels -/

namespace Single

private theorem toInt_floorInt32_nonpos {x : Single} {p : Int} (hx : x.position = some p)
    (hp : p ≤ 0) :
    x.floorInt32.toInt ≤ 0 := by
  cases x with
  | nan => exact nomatch hx
  | infinite s =>
    cases s with
    | true => decide
    | false =>
      have hend : (overflow : Int) = p := Option.some.inj hx
      have hpos : 0 < overflow := by decide
      omega
  | finite s m hm =>
    have hat : (finite s m hm).IsAt (signed s m) := ⟨s, m, hm, rfl, rfl⟩
    have hsigned : signed s m = p := Option.some.inj hx
    have hdiv : signed s m / gridPerOne ≤ 0 :=
      Int.ediv_le_of_le_mul natCast_gridPerOne_pos (by omega)
    rw [hat.floorInt32, toInt_saturate]
    omega

end Single

namespace FixedPoint

/-- The share of the second of two levels, in 256ths. -/
def levelShare (w : Single) : Int32 := (w * 256).floorInt32

theorem isAt_256 : (256 : Single).IsAt (256 * Single.gridPerOne) :=
  Single.isAt_ofNat (n := 256) (by decide)

private theorem toInt_levelShare_nonpos {w : Single} (h : Single.lt 0 w = false) :
    (levelShare w).toInt ≤ 0 := by
  cases w with
  | nan => decide +kernel
  | infinite s =>
    cases s with
    | true => decide +kernel
    | false => exact absurd h (by decide)
  | finite s m hm =>
    have hat : (Single.finite s m hm).IsAt (Single.signed s m) := ⟨s, m, hm, rfl, rfl⟩
    have hle : Single.signed s m ≤ 0 := by
      rw [← not_lt, ← Single.lt_iff_of_position Single.position_zero hat.position, h]
      exact Bool.false_ne_true
    refine Single.toInt_floorInt32_nonpos (hat.position_mul isAt_256) ?_
    have hgrid := Single.natCast_gridPerOne_pos
    have hproduct : Single.signed s m * (256 * Single.gridPerOne) ≤ 0 :=
      Int.mul_nonpos_of_nonpos_of_nonneg hle (by omega)
    have hzero : Single.Representable (0 : Int).natAbs :=
      Single.representable_grid (n := 0) (by decide)
    calc Single.place (Single.signed s m * (256 * Single.gridPerOne)) Single.gridPerOne
        ≤ Single.place (0 * Single.gridPerOne) Single.gridPerOne :=
          Single.place_mono Single.gridPerOne_pos Single.gridPerOne_pos
            (Int.mul_le_mul_of_nonneg_right (by omega) hgrid.le)
      _ = 0 := Single.place_mul_self hzero Single.gridPerOne_pos

theorem isWeight_levelShare_clamp (x : Single) : IsWeight (levelShare (x.clamp 0 1)) := by
  have hgrid := Single.natCast_gridPerOne_pos
  have hone : (1 : Single).position = some (1 * Single.gridPerOne : Int) :=
    (Single.isAt_ofNat (n := 1) (by decide)).position
  obtain ⟨p, hp, hlow, hhigh⟩ :=
    Single.position_clamp_mem x Single.position_zero hone (by omega)
  have hend : Single.gridPerOne * 256 < Single.overflow := by decide
  have hat : (x.clamp 0 1).IsAt p := Single.isAt_of_position hp (by omega)
  have hzero : Single.Representable (0 : Int).natAbs :=
    Single.representable_grid (n := 0) (by decide)
  obtain ⟨hlow', hhigh'⟩ := Single.place_mem (z := p * (256 * Single.gridPerOne))
    Single.gridPerOne_pos hzero isAt_256.representable
    (by rw [Int.zero_mul]; exact Int.mul_nonneg hlow (by omega))
    (by nlinarith)
  have hproduct : (x.clamp 0 1 * 256).IsAt _ :=
    Single.isAt_of_position (hat.position_mul isAt_256) (by omega)
  have hdiv := Int.ediv_nonneg hlow' hgrid.le
  have hdiv' := Int.ediv_le_of_le_mul hgrid hhigh'
  rw [IsWeight, levelShare, hproduct.floorInt32, Single.toInt_saturate]
  omega

/-- Each lane has the blend of its two levels, also where no lane gives its further level a share
and these are left alone. -/
theorem exists_filter_eq_mixLevels {levels : Levels} {next : Quad NextLevel} {places : Quad Place}
    {image : LevelView → Place → Except Fault (Color UInt8)} {near far : Fin 4 → Color UInt8}
    (hnext : levels.next = some next)
    (hnear : ∀ lane, image (levels.base.get lane) (places.get lane) = .ok (near lane))
    (hfar : ∀ lane, image (next.get lane).view (places.get lane) = .ok (far lane))
    (hshare : ∀ lane, IsWeight (levelShare (next.get lane).weight)) :
    ∃ colors, levels.filter image mixLevels places = .ok colors ∧ ∀ lane,
      colors.get lane = mixLevels (next.get lane).weight (near lane) (far lane) := by
  obtain ⟨colors, hcolors⟩ : ∃ colors, levels.filter image mixLevels places = .ok colors := by
    refine Levels.exists_filter_eq_ok ?_
    rintro lane view (rfl | ⟨next', hnext', rfl⟩)
    · exact ⟨_, hnear lane⟩
    · obtain rfl := Option.some.inj (hnext.symm.trans hnext')
      exact ⟨_, hfar lane⟩
  refine ⟨colors, hcolors, fun lane ↦ ?_⟩
  have hmap : levels.next.map (·.get lane) = some (next.get lane) := by rw [hnext]; rfl
  have hlane := Levels.filterLane_of_filter hcolors lane
  rw [hmap] at hlane
  obtain ⟨near', hnear', hlane⟩ := bind_eq_ok.1 hlane
  obtain rfl := Except.ok.inj (hnear'.symm.trans (hnear lane))
  cases hblends : levels.blends with
  | true =>
    rw [hblends] at hlane
    obtain ⟨far', hfar', hlane⟩ := bind_eq_ok.1 hlane
    obtain rfl := Except.ok.inj (hfar'.symm.trans (hfar lane))
    exact (Except.ok.inj hlane).symm
  | false =>
    rw [hblends] at hlane
    have hnot : Single.lt 0 (next.get lane).weight = false := by
      rw [← Bool.not_eq_true]
      intro hpos
      rw [Levels.blends_of_pos hmap hpos] at hblends
      exact nomatch hblends
    have hzero : (levelShare (next.get lane).weight).toInt = 0 :=
      Int.le_antisymm (toInt_levelShare_nonpos hnot) (hshare lane).1
    exact (Except.ok.inj hlane).symm.trans (mix_of_zero hzero _ _).symm

/-- Whether a colour blends those of two levels accurately: each channel lies between the two, is
that of one level at either end of the share, and is off by half a byte more than they are. -/
structure IsBlendOfLevels (state : StaticState) (share : Int) (near far : Color UInt8)
    (exactNear exactFar : Fin 4 → ℚ) (color : Color UInt8) : Prop where
  min_le : ∀ channel,
    min (near.get channel).toNat (far.get channel).toNat ≤ (color.get channel).toNat
  le_max : ∀ channel,
    (color.get channel).toNat ≤ max (near.get channel).toNat (far.get channel).toNat
  eq_near : share = 0 → color = near
  eq_far : share = 256 → color = far
  error_le : ∀ channel, |((color.get channel).toNat : ℚ)
    - ((1 - share / 256) * exactNear channel + share / 256 * exactFar channel)|
      ≤ (state.dims + 1) / 2

private theorem isBlendOfLevels_mixLevels {w : Single} (hw : IsWeight (levelShare w))
    {near far : Color UInt8} {exactNear exactFar : Fin 4 → ℚ}
    (hnear : ∀ channel, |((near.get channel).toNat : ℚ) - exactNear channel| ≤ state.dims / 2)
    (hfar : ∀ channel, |((far.get channel).toNat : ℚ) - exactFar channel| ≤ state.dims / 2) :
    IsBlendOfLevels state (levelShare w).toInt near far exactNear exactFar
      (mixLevels w near far) := by
  have hget : ∀ channel, (mixLevels w near far).get channel
      = mixByte (levelShare w) (near.get channel) (far.get channel) :=
    Color.get_zipWith _ near far
  refine ⟨fun channel ↦ ?_, fun channel ↦ ?_, fun h ↦ mix_of_zero h near far,
    fun h ↦ mix_of_256 h near far, fun channel ↦ ?_⟩
  · rw [hget]
    exact (hw.mixByte_mem _ _).1
  · rw [hget]
    exact (hw.mixByte_mem _ _).2
  · rw [hget]
    refine (hw.abs_mixByte_sub_le (hnear channel) (hfar channel)).trans (le_of_eq ?_)
    ring

end FixedPoint

/-- **Blends of bytes are accurate.** Whenever the texels around a place are read, the fixed-point
path blends them into a colour that lies between them, channel by channel, is off from the exact
blend by at most half a byte for each axis, and does not fall where the texels do not. A blend of
two levels is as accurate, with another half byte for the rounding of its own, and the shares that
levels of detail give are always such that this applies. None of these blends leaves the range of a
byte. -/
theorem fixed_point_blends_accurate (wraps : Axes SimpleWrap) (state : StaticState) :
    (∀ view place texels, FixedPoint.ReadsCell wraps state view place texels →
      ∃ color, FixedPoint.imageBytes wraps state .linear view place = .ok color ∧
        FixedPoint.IsBlendOfCell state view place texels color ∧
        ∀ view' place' texels' color', FixedPoint.ReadsCell wraps state view' place' texels' →
          FixedPoint.imageBytes wraps state .linear view' place' = .ok color' →
          (∀ axis ∈ state.activeAxes, FixedPoint.cellWeight state view' place' axis
            = FixedPoint.cellWeight state view place axis) →
          ∀ channel, (∀ corner ⊆ state.activeAxes.toFinset,
            (texels corner).get channel ≤ (texels' corner).get channel) →
            color.get channel ≤ color'.get channel) ∧
    (∀ (levels : Levels) (next : Quad NextLevel) (places : Quad Place)
        (texels further : Fin 4 → Finset (Fin 3) → Color UInt8), levels.next = some next →
      (∀ lane, FixedPoint.ReadsCell wraps state (levels.base.get lane) (places.get lane)
        (texels lane)) →
      (∀ lane, FixedPoint.ReadsCell wraps state (next.get lane).view (places.get lane)
        (further lane)) →
      (∀ lane, FixedPoint.IsWeight (FixedPoint.levelShare (next.get lane).weight)) →
      ∃ colors, levels.filter (FixedPoint.imageBytes wraps state .linear) FixedPoint.mixLevels
          places = .ok colors ∧
        ∀ lane, ∃ near far,
          FixedPoint.imageBytes wraps state .linear (levels.base.get lane) (places.get lane)
            = .ok near ∧
          FixedPoint.imageBytes wraps state .linear (next.get lane).view (places.get lane)
            = .ok far ∧
          FixedPoint.IsBlendOfLevels state (FixedPoint.levelShare (next.get lane).weight).toInt
            near far
            (FixedPoint.exactByte state (levels.base.get lane) (places.get lane) (texels lane))
            (FixedPoint.exactByte state (next.get lane).view (places.get lane) (further lane))
            (colors.get lane)) ∧
    (∀ lod last, FixedPoint.IsWeight (FixedPoint.levelShare (Lod.blend lod last).weight)) ∧
    ∀ w, FixedPoint.IsWeight w → ∀ a b, ((FixedPoint.mixByte w a b).toNat : Int)
      = a.toNat + ((b.toNat - a.toNat) * w.toInt + 128) / 256 := by
  refine ⟨fun view place texels h ↦ ?_, fun levels next places texels further hnext hnear hfar
    hshare ↦ ?_, fun lod last ↦ FixedPoint.isWeight_levelShare_clamp _, fun w hw ↦ hw.toNat_mixByte⟩
  · refine ⟨_, h.imageBytes_eq_ok, FixedPoint.isBlendOfCell_blendOver state view place texels, ?_⟩
    intro view' place' texels' color' h' hcolor' hweight channel hle
    obtain rfl := Except.ok.inj (h'.imageBytes_eq_ok.symm.trans hcolor')
    rw [FixedPoint.get_blendOver, FixedPoint.get_blendOver,
      FixedPoint.blendOver_congr fun axis haxis ↦ hweight axis (List.mem_reverse.1 haxis)]
    refine FixedPoint.blendOver_mono
      (fun axis _ ↦ FixedPoint.isWeight_cellWeight state view place axis) fun corner hcorner ↦ ?_
    rw [List.toFinset_reverse] at hcorner
    exact hle corner hcorner
  · obtain ⟨colors, hcolors, hlane⟩ := FixedPoint.exists_filter_eq_mixLevels hnext
      (fun lane ↦ (hnear lane).imageBytes_eq_ok) (fun lane ↦ (hfar lane).imageBytes_eq_ok) hshare
    refine ⟨colors, hcolors, fun lane ↦ ⟨_, _, (hnear lane).imageBytes_eq_ok,
      (hfar lane).imageBytes_eq_ok, ?_⟩⟩
    rw [hlane]
    exact FixedPoint.isBlendOfLevels_mixLevels (hshare lane)
      (FixedPoint.isBlendOfCell_blendOver ..).error_le
      (FixedPoint.isBlendOfCell_blendOver ..).error_le

/-- Between the four texels of the checkered texture, and between its two levels. -/
theorem fixed_point_blends_accurate_checker :
    let wraps : Axes SimpleWrap := ⟨.repeating, .repeating, .clampToEdge⟩
    let state := Binding.checker.staticState .plain
    let surface := TextureUnits.checker.surface 0
    let view := LevelView.ofSurface state surface 0
    let place : Place := ⟨.splat Single.half, 0⟩
    let levels : Levels :=
      ⟨.splat view, some (.splat ⟨.ofSurface state surface 1, Single.half⟩)⟩
    (∃ color, FixedPoint.imageBytes wraps state .linear view place = .ok color ∧
      FixedPoint.IsBlendOfCell state view place
        (fun corner ↦ if corner.card = 1 then ⟨255, 255, 255, 255⟩ else ⟨0, 0, 0, 255⟩) color) ∧
    ∃ colors, levels.filter (FixedPoint.imageBytes wraps state .linear) FixedPoint.mixLevels
      (.splat place) = .ok colors := by
  intro wraps state surface view place levels
  let texels : Finset (Fin 3) → Color UInt8 :=
    fun corner ↦ if corner.card = 1 then ⟨255, 255, 255, 255⟩ else ⟨0, 0, 0, 255⟩
  have hnear : FixedPoint.ReadsCell wraps state view place texels :=
    ⟨fun axis ↦ if axis = 0 then ⟨0, 1, 128⟩ else ⟨0, 2, 128⟩, by decide +kernel,
      by decide +kernel⟩
  have hfar : FixedPoint.ReadsCell wraps state (.ofSurface state surface 1) place
      fun _ ↦ ⟨128, 128, 128, 255⟩ :=
    ⟨fun _ ↦ ⟨0, 0, 0⟩, by decide +kernel, by decide +kernel⟩
  obtain ⟨hcell, hlevels, -⟩ := fixed_point_blends_accurate wraps state
  obtain ⟨color, hcolor, haccurate, -⟩ := hcell view place texels hnear
  obtain ⟨colors, hcolors, -⟩ := hlevels levels _ (.splat place) (fun _ ↦ texels) _ rfl
    (fun lane ↦ by simpa only [levels, Quad.get_splat] using hnear)
    (fun lane ↦ by simpa only [Quad.get_splat] using hfar) (by decide +kernel)
  exact ⟨⟨color, hcolor, haccurate⟩, colors, hcolors⟩

end QuadSampler
