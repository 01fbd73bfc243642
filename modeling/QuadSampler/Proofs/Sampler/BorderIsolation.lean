import QuadSampler.Proofs.Addressing.Weight
import QuadSampler.Proofs.Filtering.BlendTree
import QuadSampler.Proofs.Sampler.LaneIndependence

/-!
# Past the border no texel shows

With `clampToBorder` along an axis, a lane far enough outside its level has the border colour, and
the bytes of the texture play no part in it.

For a nearest filter this is a matter of one index. A linear filter fetches up to eight texels, and
outside the level the coordinate is held at half a texel from it, where the weight is zero. Behind
the last texel both indices lie beside the texture. Before the first texel the second index is that
of the first texel, so a texel is blended in with weight zero after all
(`LevelView.BlendsFirst`). In numbers that is nothing only if the difference to the border is
finite: the answer is exactly the border or not-a-number, and which of the two depends on what is
blended in (`LevelView.PastBorder.exists_sameAt_or_eq_nan`).

Along the other axes the border is blended with itself, which leaves it alone as long as weights are
finite (`WrapMode.Scales`).
-/

namespace QuadSampler

/-! ## Images past the border -/

private theorem StaticState.beside_of_misses {state : StaticState} {extent : Axes Int}
    {p : Axes Int32} {axis : Fin 3} (hactive : axis ∈ state.activeAxes)
    (h : (state.wrap.get axis).Misses (extent.get axis) (p.get axis)) : state.Beside extent p := by
  rw [mem_activeAxes] at hactive
  match axis with
  | 0 => exact .inl h
  | 1 => exact .inr (.inl ⟨hactive, h⟩)
  | 2 => exact .inr (.inr ⟨hactive, h⟩)

namespace LevelView

variable {state : StaticState} {view : LevelView} {place : Place} {border color : Color Single}

private theorem eq_border_of_beside {p : Axes Int32}
    (h : state.Beside (view.extent.map Int32.toInt) p)
    (hfetch : view.fetchNumbers state border p = .ok color) : color = border := by
  simp only [fetchNumbers, isBeside_iff.2 h, if_true] at hfetch
  obtain ⟨texel, -, hcolor⟩ := bind_eq_ok.1 hfetch
  exact (Except.ok.inj hcolor).symm

private theorem exists_fetch_of_nearestNumbers
    (h : view.nearestNumbers state border place = .ok color) :
    ∃ p, (∀ axis ∈ state.activeAxes, (state.wrap.get axis).nearest ((view.wrapAxes state).get axis)
        (place.coords.get axis) = .ok (p.get axis)) ∧
      view.fetchNumbers state border p = .ok color := by
  rw [nearestNumbers_eq] at h
  obtain ⟨x, hx, h⟩ := bind_eq_ok.1 h
  obtain ⟨y, hy, h⟩ := bind_eq_ok.1 h
  obtain ⟨z, hz, h⟩ := bind_eq_ok.1 h
  refine ⟨⟨x, y, z⟩, fun axis hactive ↦ ?_, h⟩
  rw [StaticState.mem_activeAxes] at hactive
  match axis with
  | 0 => exact hx
  | 1 =>
    rw [if_pos (show 2 ≤ state.dims from hactive)] at hy
    exact hy
  | 2 =>
    rw [if_pos (show 3 ≤ state.dims from hactive)] at hz
    exact hz

theorem length_wrapAxes (state : StaticState) (view : LevelView) (axis : Fin 3) :
    ((view.wrapAxes state).get axis).length = view.extent.get axis := by
  match axis with
  | 0 | 1 | 2 => rfl

section Border

variable {axis : Fin 3} {length : Nat} (hactive : axis ∈ state.activeAxes)
  (hwrap : state.wrap.get axis = .clampToBorder)
  (hlength : view.extent.get axis = Int32.ofNat length) (hle : length ≤ 2 ^ 22)
include hactive hwrap hlength hle

private theorem beside_of_outside {p : Axes Int32}
    (h : ¬ (0 ≤ (p.get axis).toInt ∧ (p.get axis).toInt < length)) :
    state.Beside (view.extent.map Int32.toInt) p := by
  refine StaticState.beside_of_misses hactive ⟨by rw [hwrap]; rfl, ?_⟩
  rwa [Axes.get_map, hlength, Int32.toInt_ofNat_of_lt (by omega)]

private theorem eq_border_of_nearestNumbers {z : Int}
    (hc : (((view.wrapAxes state).get axis).toTexels (place.coords.get axis)).IsAt z)
    (hout : Single.lt (((view.wrapAxes state).get axis).toTexels (place.coords.get axis)) 0 = true ∨
      Single.le (Single.ofNat length)
        (((view.wrapAxes state).get axis).toTexels (place.coords.get axis)) = true)
    (h : view.nearestNumbers state border place = .ok color) : color = border := by
  obtain ⟨p, hp, hfetch⟩ := exists_fetch_of_nearestNumbers h
  have hindex := hp axis hactive
  rw [hwrap] at hindex
  exact eq_border_of_beside (beside_of_outside hactive hwrap hlength hle
    (WrapMode.nearest_clampToBorder_of_outside ((length_wrapAxes state view axis).trans hlength)
      hle hc hout hindex)) hfetch

/-- If the first of the two indices along the axis with the border lies outside it, and its second
has no share, then the blends of the filter make an edged tree. If the second lies outside as well,
so is all that is blended in along the axis covered. -/
theorem edged_of_linearNumbers (hflat : state.target ≠ .cube)
    {w : Straddle Single} (hw : view.straddle state place axis = .ok w) (hzero : w.weight.IsAt 0)
    (hfirst : ¬ (0 ≤ w.first.toInt ∧ w.first.toInt < length))
    (hweights : ∀ other ∈ state.activeAxes, other ≠ axis → ∀ v,
      view.straddle state place other = .ok v → v.weight.IsFinite)
    (h : view.linearNumbers state border place = .ok color) :
    ∃ tree, view.blendTree state place = .ok tree ∧
      tree.color (view.fetchNumbers state border) = .ok color ∧
      tree.Edged (state.Beside (view.extent.map Int32.toInt)) axis ∧
      (¬ (0 ≤ w.second.toInt ∧ w.second.toInt < length) → ∀ second ∈ tree.seconds axis,
        second.Covered (state.Beside (view.extent.map Int32.toInt))) := by
  rw [linearNumbers_eq_blendTree hflat] at h
  obtain ⟨tree, htree, hcolor⟩ := bind_eq_ok.1 h
  obtain ⟨straddles, heq, hnodup, hmem⟩ := exists_ofStraddles_of_blendTree htree
  have hfinite : ∀ v ∈ straddles, v.1 ≠ axis → v.2.weight.IsFinite := by
    rintro ⟨other, v⟩ hv hne
    obtain ⟨hother, hstraddle⟩ := (hmem other v).1 hv
    exact hweights other hother hne v hstraddle
  have haxis := (hmem axis w).2 ⟨hactive, hw⟩
  have hbeside : ∀ {i : Int32}, ¬ (0 ≤ i.toInt ∧ i.toInt < length) → ∀ q : Axes Int32,
      q.get axis = i → state.Beside (view.extent.map Int32.toInt) q := by
    rintro _ hout q rfl
    exact beside_of_outside hactive hwrap hlength hle hout
  refine ⟨tree, htree, hcolor, ?_, fun hsecond second hmem' ↦ ?_⟩
  · rw [heq]
    exact BlendTree.edged_ofStraddles hnodup haxis hzero hfinite (hbeside hfirst)
  · rw [heq] at hmem'
    exact BlendTree.covered_of_mem_seconds hnodup haxis hfinite (hbeside hsecond) hmem'

end Border

end LevelView

/-! ## Channels past the border -/

/-- Whether two colours have the same number in a channel. -/
def Color.SameAt (channel : Selector) (c d : Color Single) : Prop :=
  Single.same (Selector.select 0 1 c channel) (Selector.select 0 1 d channel) = true

instance (channel : Selector) (c d : Color Single) : Decidable (c.SameAt channel d) :=
  inferInstanceAs (Decidable (_ = true))

private theorem Color.sameAt_apply {swizzle : Swizzle} {channel : Selector} {c d : Color Single} :
    (swizzle.apply 0 1 c).SameAt channel (swizzle.apply 0 1 d)
      ↔ c.SameAt (Selector.select .zero .one swizzle channel) d := by
  rw [SameAt, SameAt, Swizzle.select_apply, Swizzle.select_apply]

namespace Single

private theorem IsFinite.same_self {x : Single} (h : x.IsFinite) : x.same x = true := by
  obtain ⟨z, hz⟩ := h
  exact same_of_position hz.position hz.position

private theorem IsAt.isFinite_sub {x y : Single} {z : Int} (hx : x.IsAt z) (hy : y.IsAt z) :
    (x - y).IsFinite := by
  have hposition := hx.position_sub hy
  rw [Int.sub_self] at hposition
  exact (isAt_zero_of_position Nat.one_pos hposition).isFinite

end Single

theorem select_eq_of_constant {channel : Selector} (h : ¬ (channel ≠ .zero ∧ channel ≠ .one))
    (c d : Color Single) : Selector.select 0 1 c channel = Selector.select 0 1 d channel := by
  cases channel with
  | zero | one => rfl
  | x | y | z | w => exact absurd ⟨nofun, nofun⟩ h

private theorem isFinite_select {border : Color Single}
    (h : ∀ value ∈ border.toList, value.IsFinite)
    (channel : Selector) : (Selector.select 0 1 border channel).IsFinite := by
  cases channel with
  | x | y | z | w => exact h _ (by simp [Color.toList, Selector.select])
  | zero => exact Single.isFinite_zero
  | one => exact ⟨_, Single.isAt_ofNat (n := 1) (by decide)⟩

namespace BlendTree

variable {P : Axes Int32 → Prop} {axis : Fin 3} {fetch : Axes Int32 → Except Fault (Color Single)}
  {border color : Color Single} {tree : BlendTree}
  (hfetch : ∀ p, P p → ∀ texel, fetch p = .ok texel → texel = border)
  (hborder : ∀ value ∈ border.toList, value.IsFinite)
include hfetch hborder

theorem Edged.sameAt_or_eq_nan (h : Edged P axis tree) (hcolor : tree.color fetch = .ok color)
    (channel : Selector) :
    (tree.DiffersFinitely axis fetch border channel → color.SameAt channel border) ∧
      (¬ tree.DiffersFinitely axis fetch border channel →
        Selector.select 0 1 color channel = .nan) := by
  obtain ⟨z, hz⟩ := isFinite_select hborder channel
  by_cases hchannel : channel ≠ .zero ∧ channel ≠ .one
  · refine ⟨fun hdiffers ↦ ?_, h.color_eq_nan hfetch hchannel hz hcolor⟩
    exact Single.same_of_position
      (h.isAt_color hfetch hchannel hz hcolor hdiffers).position hz.position
  · have hdiffers : tree.DiffersFinitely axis fetch border channel := by
      intro second _ other _
      rw [select_eq_of_constant hchannel other border]
      exact hz.isFinite_sub hz
    refine ⟨fun _ ↦ ?_, fun hnot ↦ absurd hdiffers hnot⟩
    rw [Color.SameAt, select_eq_of_constant hchannel color border]
    exact hz.isFinite.same_self

private theorem differsFinitely_of_covered (h : ∀ second ∈ tree.seconds axis, Covered P second)
    (channel : Selector) : tree.DiffersFinitely axis fetch border channel := by
  obtain ⟨z, hz⟩ := isFinite_select hborder channel
  intro second hmem other hother
  by_cases hchannel : channel ≠ .zero ∧ channel ≠ .one
  · exact ((h second hmem).isAt_color hfetch hchannel hz hother).isFinite_sub hz
  · rw [select_eq_of_constant hchannel other border]
    exact hz.isFinite_sub hz

end BlendTree

/-! ## Places past the border -/

namespace LevelView

/-- A coordinate along an axis of a level, in texels. -/
def texelsAlong (state : StaticState) (view : LevelView) (coords : Axes Single) (axis : Fin 3) :
    Single :=
  ((view.wrapAxes state).get axis).toTexels (coords.get axis)

/-- Whether coordinates are past the border of a level along an axis of the given length: outside
the level for a nearest filter, and half a texel further out for a linear one. A linear filter also
asks that the other coordinates make finite weights. -/
structure PastBorder (state : StaticState) (view : LevelView) (coords : Axes Single) (axis : Fin 3)
    (length : Nat) : Prop where
  length_eq : view.extent.get axis = Int32.ofNat length
  length_le : length ≤ 2 ^ 22
  isFinite : (view.texelsAlong state coords axis).IsFinite
  outside : state.minFilter = .nearest →
    Single.lt (view.texelsAlong state coords axis) 0 = true ∨
      Single.le (Single.ofNat length) (view.texelsAlong state coords axis) = true
  halfOutside : state.minFilter = .linear →
    Single.le (view.texelsAlong state coords axis) (-Single.half) = true ∨
      Single.le (Single.ofNat length + Single.half) (view.texelsAlong state coords axis) = true
  scales : state.minFilter = .linear → ∀ other ∈ state.activeAxes, other ≠ axis →
    (state.wrap.get other).Scales ((view.wrapAxes state).get other) (coords.get other)

/-- Whether coordinates are before the first texel of an axis under a linear filter, which blends
that texel in with weight zero. -/
def BlendsFirst (state : StaticState) (view : LevelView) (coords : Axes Single) (axis : Fin 3) :
    Prop :=
  state.minFilter = .linear ∧ Single.le (view.texelsAlong state coords axis) (-Single.half) = true

section Past

variable {state : StaticState} {view : LevelView} {place : Place} {border color : Color Single}
  {axis : Fin 3} {length : Nat} (hextent : ∀ other ∈ state.activeAxes, view.extent.get other ≠ 0)
  (hpast : view.PastBorder state place.coords axis length)
include hextent hpast

theorem PastBorder.isFinite_weight (hfilter : state.minFilter = .linear) {other : Fin 3}
    (hother : other ∈ state.activeAxes) (hne : other ≠ axis) {v : Straddle Single}
    (hv : view.straddle state place other = .ok v) : v.weight.IsFinite := by
  refine (hpast.scales hfilter other hother hne).isFinite_weight ?_ hv
  rw [length_wrapAxes]
  exact hextent other hother

variable (hactive : axis ∈ state.activeAxes) (hwrap : state.wrap.get axis = .clampToBorder)
  (hflat : state.target ≠ .cube) (hborder : ∀ value ∈ border.toList, value.IsFinite)
  (h : view.imageNumbers state border state.minFilter place = .ok color)
include hactive hwrap hflat hborder h

/-- Where no texel is blended in, a place past the border has the border colour. -/
theorem PastBorder.sameAt (hnot : ¬ view.BlendsFirst state place.coords axis)
    (channel : Selector) : color.SameAt channel border := by
  obtain ⟨z, hz⟩ := hpast.isFinite
  have hlength := (length_wrapAxes state view axis).trans hpast.length_eq
  cases hfilter : state.minFilter with
  | nearest =>
    rw [hfilter] at h
    obtain rfl := eq_border_of_nearestNumbers hactive hwrap hpast.length_eq hpast.length_le hz
      (hpast.outside hfilter) h
    exact (isFinite_select hborder channel).same_self
  | linear =>
    rw [hfilter] at h
    have hbehind := (hpast.halfOutside hfilter).resolve_left fun hbefore ↦ hnot ⟨hfilter, hbefore⟩
    obtain ⟨w, hw, hfirst, hsecond, hzero⟩ :=
      WrapMode.linear_clampToBorder_of_ge hlength hpast.length_le hz hbehind
    obtain ⟨tree, -, hcolor, hedged, hcovered⟩ := edged_of_linearNumbers hactive hwrap
      hpast.length_eq hpast.length_le hflat (by rw [straddle, hwrap]; exact hw) hzero (by omega)
      (fun other hother hne v hv ↦ hpast.isFinite_weight hextent hfilter hother hne hv) h
    have hfetch : ∀ p, state.Beside (view.extent.map Int32.toInt) p → ∀ texel,
        view.fetchNumbers state border p = .ok texel → texel = border :=
      fun p hp texel htexel ↦ eq_border_of_beside hp htexel
    exact (hedged.sameAt_or_eq_nan hfetch hborder hcolor channel).1
      (BlendTree.differsFinitely_of_covered hfetch hborder (hcovered (by omega)) channel)

/-- Where the first texel is blended in, a place past the border has in each channel the border
colour or not-a-number. -/
theorem PastBorder.exists_sameAt_or_eq_nan (hfirst : view.BlendsFirst state place.coords axis) :
    ∃ tree, view.blendTree state place = .ok tree ∧ ∀ channel,
      (tree.DiffersFinitely axis (view.fetchNumbers state border) border channel →
        color.SameAt channel border) ∧
      (¬ tree.DiffersFinitely axis (view.fetchNumbers state border) border channel →
        Selector.select 0 1 color channel = .nan) := by
  obtain ⟨z, hz⟩ := hpast.isFinite
  obtain ⟨hfilter, hbefore⟩ := hfirst
  have hlength := (length_wrapAxes state view axis).trans hpast.length_eq
  rw [hfilter] at h
  obtain ⟨w, hw, hfirst, hzero⟩ :=
    WrapMode.linear_clampToBorder_of_le hlength hpast.length_le hz hbefore
  obtain ⟨tree, htree, hcolor, hedged, -⟩ := edged_of_linearNumbers hactive hwrap
    hpast.length_eq hpast.length_le hflat (by rw [straddle, hwrap]; exact hw) hzero (by omega)
    (fun other hother hne v hv ↦ hpast.isFinite_weight hextent hfilter hother hne hv) h
  exact ⟨tree, htree, fun channel ↦ hedged.sameAt_or_eq_nan
    (fun p hp texel htexel ↦ eq_border_of_beside hp htexel) hborder hcolor channel⟩

end Past

end LevelView

/-! ## Levels of a bound texture -/

theorem Levels.exists_base_ofLods (state : StaticState) (surface : Surface)
    (lods : Option (Quad Single)) (lane : Fin 4) :
    ∃ level, (ofLods state surface lods).base.get lane = .ofSurface state surface level := by
  rw [ofLods]
  cases state.mipFilter with
  | base => exact ⟨0, Quad.get_splat _ lane⟩
  | nearest => exact ⟨_, Quad.get_map _ _ lane⟩
  | linear => exact ⟨_, Quad.get_map _ _ lane⟩

private theorem ofNat_levelExtent_ne_zero {base : Nat} (h : base < 2 ^ 32) (level : Nat) :
    Int32.ofNat (levelExtent base level) ≠ 0 := by
  intro hzero
  have hpos := levelExtent_pos base level
  have hlt : levelExtent base level < 2 ^ 32 := by
    rw [levelExtent]
    have := Nat.div_le_self base (2 ^ min level 31)
    omega
  have hbits : (UInt32.ofNat (levelExtent base level)).toNat = 0 :=
    congrArg (fun i : Int32 ↦ i.toUInt32.toNat) hzero
  rw [UInt32.toNat_ofNat_of_lt' hlt] at hbits
  omega

theorem LevelView.extent_ofSurface_ne_zero {state : StaticState} {surface : Surface}
    (hwords : ∀ length ∈ surface.extent.toList, length < 2 ^ 32) (hflat : state.target ≠ .cube)
    {axis : Fin 3} (hactive : axis ∈ state.activeAxes) (level : Int32) :
    (ofSurface state surface level).extent.get axis ≠ 0 := by
  match axis, StaticState.mem_activeAxes.1 hactive with
  | 0, hs =>
    simp only [ofSurface, Axes.get, if_pos (show 0 < state.dims from hs)]
    exact ofNat_levelExtent_ne_zero (hwords _ (by simp [Axes.toList])) _
  | 1, ht =>
    simp only [ofSurface, Axes.get, if_pos (show 1 < state.dims from ht)]
    exact ofNat_levelExtent_ne_zero (hwords _ (by simp [Axes.toList])) _
  | 2, hr =>
    simp only [ofSurface, Axes.get, if_pos (show 2 < state.dims from hr), if_neg hflat]
    exact ofNat_levelExtent_ne_zero (hwords _ (by simp [Axes.toList])) _

/-! ## Lanes past the border -/

namespace Sampler

variable {state : StaticState} {surface : Surface} {request : Request}
  {colors : Quad (Color Single)}

/-- With one filter and no further level, each lane of an answer is the image of one level. -/
theorem exists_image_of_sample_numbers (hsame : state.minFilter = state.magFilter)
    (hmip : state.mipFilter = .base ∨ state.mipFilter = .nearest)
    (h : sample ⟨state, .numbers⟩ surface request = .ok colors) (lane : Fin 4) :
    ∃ color, ((request.levels state surface).base.get lane).imageNumbers state surface.border
        state.minFilter ((request.places state).get lane) = .ok color ∧
      colors.get lane = finish state ((request.coord 2).get lane) color := by
  obtain ⟨color, hcolor, heq⟩ := exists_filterLane_numbers h lane
  have hnext : (request.levels state surface).next = none := Levels.next_ofLods hmip _ _
  rw [hnext, Request.filterAt, StaticState.filterAt, ← hsame, ite_self] at hcolor
  obtain ⟨near, hnear, hcolor⟩ := bind_eq_ok.1 hcolor
  obtain rfl := Except.ok.inj hcolor
  exact ⟨near, hnear, heq⟩

theorem exists_sample_numbers_of_swizzle {source : Source} {binding : Binding} {settings : Settings}
    (h : binding.texture.BuiltFrom source) (swizzle : Swizzle)
    (hlt : source.extent.s < 2 ^ 31 ∧ source.extent.t < 2 ^ 31 ∧ source.extent.r < 2 ^ 31)
    (hclamp : settings.ClampsWithin source.extent) (request : Request) :
    ∃ colors, sample ⟨{ binding.staticState settings with swizzle }, .numbers⟩ binding.surface
      request = .ok colors := by
  have hcount : binding.surface.lastLevel + 1 = source.levelCount := h.lastLevel_add_one
  refine exists_sample_numbers_of_readable h.lastLevel_lt (fun k hk ↦ ?_) (fun hfilter k hk ↦ ?_)
    request
  · have hread := LevelView.readable_ofSurface h settings hlt (k := k) (by omega)
    exact ⟨hread.sound_s, hread.sound_t, hread.sound_r, hread.pos_t, hread.pos_r, hread.six_faces,
      hread.block_le⟩
  · have hexact := clampsExactly_ofSurface h hlt hclamp hfilter (k := k) (by omega)
    exact ⟨hexact.s, hexact.t, hexact.r⟩

end Sampler

/-! ## A white border above and below -/

/-- Settings with a white border above and below, under linear filters. -/
def Settings.framed : Settings :=
  { Settings.plain with
    wrap := ⟨.repeating, .clampToBorder, .repeating⟩
    minFilter := .linear
    magFilter := .linear
    mipFilter := .nearest
    maxLod := 1
    border := .splat 1 }

def Binding.framed : Binding := .ofSettings .infiniteSecondLevel .framed

def TextureUnits.framed : TextureUnits := ⟨.replicate maxUnits (some .framed)⟩

/-- **The border keeps texels out.** Take a texture on a unit, seen through any swizzle, that is no
cube, has extents of 32 bits and clamps to a finite border along some axis, under one filter for all
levels of detail and without blends of levels. Whatever the bytes of the texture are, a lane past
the border of its level gets the border colour, unless a linear filter blends the first texel in.
Then a channel has the border colour if what is blended in from there differs from it by finite
numbers, and else it is not-a-number.

A request is answered if extents fit index words and stay within `2 ^ 23` where `mirrorClampToEdge`
meets a linear filter. -/
theorem sample_border_isolated {source : Source} {binding : Binding} {settings : Settings}
    {units : TextureUnits} {request : Request} {swizzle : Swizzle} {state : StaticState}
    (hbuild : Texture.build source = .ok binding.texture)
    (hwords : ∀ length ∈ source.extent.toList, length < 2 ^ 32)
    (hunit : units.get? request.unit = some binding)
    (hstate : state = { binding.staticState settings with swizzle })
    (hflat : source.target ≠ .cube) (hcompare : settings.compareMode = .off)
    (hmip : settings.mipFilter = .base ∨ settings.mipFilter = .nearest)
    (hsame : settings.minFilter = settings.magFilter) {axis : Fin 3}
    (hactive : axis ∈ state.activeAxes) (hwrap : settings.wrap.get axis = .clampToBorder)
    (hborder : ∀ value ∈ binding.border.toList, value.IsFinite) :
    let surface := units.surface request.unit
    let answer := Sampler.sample ⟨state, .numbers⟩ surface request
    ((source.extent.s < 2 ^ 31 ∧ source.extent.t < 2 ^ 31 ∧ source.extent.r < 2 ^ 31) →
      settings.ClampsWithin source.extent → ∃ colors, answer = .ok colors) ∧
    ∀ colors, answer = .ok colors → ∀ lane length,
      let view := (request.levels state surface).base.get lane
      let coords := request.direction lane
      let border := swizzle.apply 0 1 binding.border
      view.PastBorder state coords axis length →
      (¬ view.BlendsFirst state coords axis →
        ∀ channel, (colors.get lane).SameAt channel border) ∧
      (view.BlendsFirst state coords axis →
        ∃ tree, view.blendTree state ((request.places state).get lane) = .ok tree ∧
          ∀ channel,
            let differs := tree.DiffersFinitely axis (view.fetchNumbers state binding.border)
              binding.border (Selector.select .zero .one swizzle channel)
            (differs → (colors.get lane).SameAt channel border) ∧
              (¬ differs → Selector.select 0 1 (colors.get lane) channel = .nan)) := by
  intro surface answer
  have h := Texture.builtFrom_of_build hbuild
  have hsurface : surface = binding.surface := TextureUnits.surface_of_get?_eq_some hunit
  constructor
  · intro hlt hclamp
    have hanswer : answer = Sampler.sample ⟨state, .numbers⟩ surface request := rfl
    rw [hanswer, hsurface, hstate]
    exact Sampler.exists_sample_numbers_of_swizzle h swizzle hlt hclamp request
  · intro colors hcolors lane length view coords border hpast
    have htarget : state.target ≠ .cube := by
      rw [hstate]
      rwa [show (binding.staticState settings).target = _ from h.target_eq]
    obtain ⟨level, hlevel⟩ : ∃ level, view = .ofSurface state surface level :=
      Levels.exists_base_ofLods state surface _ lane
    have hextent : ∀ other ∈ state.activeAxes, view.extent.get other ≠ 0 := by
      intro other hother
      rw [hlevel]
      refine LevelView.extent_ofSurface_ne_zero ?_ htarget hother level
      rwa [hsurface, surface_extent_eq h]
    obtain ⟨color, hcolor, hlane⟩ := Sampler.exists_image_of_sample_numbers (by rwa [hstate])
      (by rwa [hstate]) hcolors lane
    have hcoords : ((request.places state).get lane).coords = coords :=
      request.coords_places htarget lane
    have hfinish : colors.get lane = swizzle.apply 0 1 color := by
      rw [hlane, Sampler.finish, StaticState.compare, hstate]
      simp only [show (binding.staticState settings).compareMode = .off from hcompare]
    have hmode : state.wrap.get axis = .clampToBorder := by rwa [hstate]
    rw [show surface.border = binding.border by rw [hsurface]; rfl] at hcolor
    rw [← hcoords] at hpast ⊢
    rw [hfinish]
    constructor
    · intro hnot channel
      rw [Color.sameAt_apply]
      exact hpast.sameAt hextent hactive hmode htarget hborder hcolor hnot _
    · intro hfirst
      obtain ⟨tree, htree, hchannels⟩ :=
        hpast.exists_sameAt_or_eq_nan hextent hactive hmode htarget hborder hcolor hfirst
      refine ⟨tree, htree, fun channel ↦ ?_⟩
      rw [Color.sameAt_apply, Swizzle.select_apply]
      exact hchannels _

/-- A place one texel below the texture, in a lane of its own. -/
theorem sample_border_isolated_framed :
    let state := Binding.framed.staticState .framed
    let request := Request.ofCoords 0 [.splat Single.half, ⟨0, 2, .nan, 1⟩] (.explicit (.splat 0))
    ∃ colors, Sampler.sample ⟨state, .numbers⟩ (TextureUnits.framed.surface 0) request
        = .ok colors ∧
      ∀ channel, (colors.get 1).SameAt channel (.splat 1) := by
  intro state request
  have hunit : TextureUnits.framed.get? request.unit = some .framed := rfl
  have hclamp : Settings.framed.ClampsWithin Source.infiniteSecondLevel.extent :=
    fun _ ↦ ⟨nofun, nofun, nofun⟩
  let view := (request.levels state (TextureUnits.framed.surface 0)).base.get 1
  have hpast : view.PastBorder state (request.direction 1) 1 1 := by
    refine ⟨by decide +kernel, by decide, by decide +kernel, nofun,
      fun _ ↦ .inr (by decide +kernel), fun _ other hother hne ↦ ?_⟩
    match other with
    | 0 => exact ⟨by decide +kernel, fun _ ↦ by decide +kernel, nofun⟩
    | 1 => exact absurd rfl hne
    | 2 => exact absurd hother (by decide)
  have hnot : ¬ view.BlendsFirst state (request.direction 1) 1 := fun h ↦
    absurd h.2 (by decide +kernel)
  have hstate : state = { Binding.framed.staticState .framed with swizzle := .identity } := rfl
  have hwrap : Settings.framed.wrap.get 1 = .clampToBorder := rfl
  obtain ⟨hanswer, hborder⟩ := sample_border_isolated build_infiniteSecondLevel (by decide) hunit
    hstate (by decide) rfl (.inr rfl) rfl (by decide) hwrap (by decide)
  obtain ⟨colors, hcolors⟩ := hanswer (by decide) hclamp
  exact ⟨colors, hcolors, (hborder colors hcolors 1 1 hpast).1 hnot⟩

/-- Two ways in which texels show past the border. In lane 0 the first texel is infinite and is
blended in with weight zero, half a texel and more before it. In lane 1 a finite coordinate becomes
infinite in texels on the axis that repeats, and its weight is not-a-number. -/
theorem framed_lanes_lose_border :
    let state := Binding.framed.staticState .framed
    let sampler := Sampler.specialize state .normal
    let surface := TextureUnits.framed.surface 0
    let greatest := Single.ofBits 0x7f7fffff
    let request := Request.ofCoords 0
      [⟨Single.half, greatest, Single.half, Single.half⟩, ⟨-1, 2, Single.half, Single.half⟩]
      (.explicit ⟨1, 0, 0, 0⟩)
    Texture.build .infiniteSecondLevel = .ok Binding.framed.texture ∧
    TextureUnits.framed.get? 0 = some .framed ∧ sampler.path = .numbers ∧
    ∃ colors, sampler.sample surface request = .ok colors ∧ ∀ lane ∈ [0, 1],
      let view := (request.levels state surface).base.get lane
      let texels := view.texelsAlong state (request.direction lane) 1
      view.extent.get 1 = 1 ∧ texels.IsFinite ∧ (request.direction lane).s.IsFinite ∧
        (Single.le texels (-Single.half) = true ∨ Single.le (1 + Single.half) texels = true) ∧
        ¬ (colors.get lane).SameAt .x (state.swizzle.apply 0 1 Binding.framed.border) := by
  intro state sampler surface greatest request
  have hcolors : sampler.sample surface request = .ok
      ⟨⟨.nan, 1, 1, 1⟩, .splat .nan, ⟨0, 0, 0, 1⟩, ⟨0, 0, 0, 1⟩⟩ := by
    decide +kernel
  refine ⟨build_infiniteSecondLevel, rfl, rfl, _, hcolors, fun lane hlane ↦ ?_⟩
  rcases List.mem_pair.1 hlane with rfl | rfl
  · exact ⟨by decide +kernel, by decide +kernel, by decide +kernel, .inl (by decide +kernel),
      by decide +kernel⟩
  · exact ⟨by decide +kernel, by decide +kernel, by decide +kernel, .inr (by decide +kernel),
      by decide +kernel⟩

end QuadSampler
