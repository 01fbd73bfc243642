import QuadSampler.Proofs.Addressing.Fold
import QuadSampler.Proofs.Filtering.UnsharedSides
import QuadSampler.Proofs.Sampler.BorderIsolation

/-!
# Mirrored borders stay outside

Where the only axes with a border fold to it, a lane inside its level should not see the border
under a linear filter. It does see it close to the fold, where the texel on the other side of a
coordinate is the border (`folded_lanes_show_border`). From half a texel on it does not: up to the
middle of the last texel all that a lane fetches is the same for every border colour.

At that middle the border is fetched and has no share. So it changes a colour by the signs of zeros
at most, unless it is so far from the last texel that the difference is not finite.
-/

namespace QuadSampler

/-! ## Texels inside a level -/

theorem StaticState.exists_misses_of_beside {state : StaticState} {extent : Axes Int}
    {p : Axes Int32} (h : state.Beside extent p) :
    ∃ axis ∈ state.activeAxes, (state.wrap.get axis).Misses (extent.get axis) (p.get axis) := by
  obtain hs | ⟨hdims, ht⟩ | ⟨hdims, hr⟩ := h
  · exact ⟨0, mem_activeAxes.2 state.target.dims_pos, hs⟩
  · exact ⟨1, mem_activeAxes.2 hdims, ht⟩
  · exact ⟨2, mem_activeAxes.2 hdims, hr⟩

/-- Whether the axes with a border fold to it, and have at most `2 ^ 22` texels. -/
def StaticState.FoldsToBorders (state : StaticState) (extent : Axes Nat) : Prop :=
  ∀ axis ∈ state.activeAxes, (state.wrap.get axis).usesBorder = true →
    (state.wrap.get axis).foldsToBorder = true ∧ extent.get axis ≤ 2 ^ 22

namespace LevelView

variable {state : StaticState} {view : LevelView} {place : Place} {extent : Axes Nat}

/-- Whether coordinates are at least half a texel away from the folds and the far edges of all axes
with a border. -/
def FoldsInside (state : StaticState) (view : LevelView) (coords : Axes Single) : Prop :=
  ∀ axis ∈ state.activeAxes, (state.wrap.get axis).usesBorder = true →
    ((view.wrapAxes state).get axis).FoldsInside (coords.get axis)

/-- Whether coordinates are at the middle of the last texel along an axis with a border, which comes
next. -/
def MeetsBorder (state : StaticState) (view : LevelView) (coords : Axes Single) (axis : Fin 3) :
    Prop :=
  axis ∈ state.activeAxes ∧ (state.wrap.get axis).usesBorder = true ∧
    ((view.wrapAxes state).get axis).AtLastMiddle (coords.get axis)

section Inside

variable (hfolds : state.FoldsToBorders extent)
  (hlength : ∀ axis ∈ state.activeAxes, view.extent.get axis = Int32.ofNat (extent.get axis) ∧
    0 < extent.get axis)
include hfolds hlength

private theorem not_misses {axis : Fin 3} {i : Int32} (hactive : axis ∈ state.activeAxes)
    (hi : (state.wrap.get axis).usesBorder = true → 0 ≤ i.toInt ∧ i.toInt < extent.get axis) :
    ¬ (state.wrap.get axis).Misses (view.extent.get axis).toInt i := by
  rintro ⟨huses, hout⟩
  obtain ⟨hextent, -⟩ := hlength axis hactive
  obtain ⟨-, hle⟩ := hfolds axis hactive huses
  rw [hextent, Int32.toInt_ofNat_of_lt (by omega)] at hout
  exact hout (hi huses)

variable (hinside : view.FoldsInside state place.coords)
include hinside

private theorem mem_of_straddle {axis : Fin 3} {w : Straddle Single}
    (hactive : axis ∈ state.activeAxes) (huses : (state.wrap.get axis).usesBorder = true)
    (hw : view.straddle state place axis = .ok w) :
    (0 ≤ w.first.toInt ∧ w.first.toInt < extent.get axis) ∧
      (¬ view.MeetsBorder state place.coords axis →
        0 ≤ w.second.toInt ∧ w.second.toInt < extent.get axis) ∧
      (view.MeetsBorder state place.coords axis → w.weight.IsAt 0) := by
  obtain ⟨hmode, hle⟩ := hfolds axis hactive huses
  obtain ⟨hextent, hpos⟩ := hlength axis hactive
  obtain ⟨v, hv, hfirst, hsecond, hweight⟩ := WrapMode.exists_linear_of_foldsInside
    ((length_wrapAxes state view axis).trans hextent) hpos hle hmode (hinside axis hactive huses)
  obtain rfl : w = v := Except.ok.inj (hw.symm.trans hv)
  exact ⟨hfirst, fun hnot ↦ hsecond fun hlast ↦ hnot ⟨hactive, huses, hlast⟩,
    fun hmeets ↦ hweight hmeets.2.2⟩

/-- Inside a level, the texels of a linear filter are on the level, but for those without a
share. -/
theorem framed_of_blendTree {tree : BlendTree} (htree : view.blendTree state place = .ok tree) :
    tree.Framed (fun p ↦ ¬ state.Beside (view.extent.map Int32.toInt) p)
      (view.MeetsBorder state place.coords) := by
  obtain ⟨straddles, rfl, -, hmem⟩ := exists_ofStraddles_of_blendTree htree
  let Q (axis : Fin 3) (i : Int32) : Prop :=
    axis ∈ state.activeAxes → ¬ (state.wrap.get axis).Misses (view.extent.get axis).toInt i
  have hw : ∀ v ∈ straddles, view.straddle state place v.1 = .ok v.2 :=
    fun v hv ↦ ((hmem v.1 v.2).1 hv).2
  refine BlendTree.framed_ofStraddles (Q := Q) (fun p hp hbeside ↦ ?_) (fun v hv hactive ↦ ?_)
    (fun v hv hnot hactive ↦ ?_) (fun v hv hmeets ↦ ?_) (fun axis _ hactive ↦ ?_)
  · obtain ⟨axis, hactive, hmisses⟩ := StaticState.exists_misses_of_beside hbeside
    rw [Axes.get_map] at hmisses
    exact hp axis hactive hmisses
  · exact not_misses hfolds hlength hactive fun huses ↦
      (mem_of_straddle hfolds hlength hinside hactive huses (hw v hv)).1
  · exact not_misses hfolds hlength hactive fun huses ↦
      (mem_of_straddle hfolds hlength hinside hactive huses (hw v hv)).2.1 hnot
  · exact (mem_of_straddle hfolds hlength hinside hmeets.1 hmeets.2.1 (hw v hv)).2.2 hmeets
  · -- where nothing is blended along an axis, the index is zero
    have hpos := (hlength axis hactive).2
    refine not_misses hfolds hlength hactive fun _ ↦ ?_
    match axis with
    | 0 | 1 | 2 => exact ⟨le_refl _, Int.natCast_pos.2 hpos⟩

end Inside

private theorem exists_fetchNumbers_of_border {border : Color Single} (border' : Color Single)
    {p : Axes Int32} {texel : Color Single}
    (h : view.fetchNumbers state border p = .ok texel) :
    ∃ texel', view.fetchNumbers state border' p = .ok texel' := by
  obtain ⟨color, hcolor, -⟩ := bind_eq_ok.1 h
  exact ⟨_, bind_eq_ok.2 ⟨color, hcolor, rfl⟩⟩

end LevelView

/-! ## Answers up to the signs of zeros -/

private theorem CompareFunc.holds_congr {x y : Single} (f : CompareFunc) (reference : Single)
    (h : x.position = y.position) : f.holds reference x = f.holds reference y := by
  cases f <;> simp only [holds, Single.lt, Single.le, Single.same, Single.related, h]

theorem Sampler.position_finish_congr {state : StaticState} {channel : Selector}
    {c d : Color Single} (reference : Single)
    (h : (Selector.select 0 1 c (state.sourceOf channel)).position
      = (Selector.select 0 1 d (state.sourceOf channel)).position) :
    (Selector.select 0 1 (finish state reference c) channel).position
      = (Selector.select 0 1 (finish state reference d) channel).position := by
  rw [StaticState.sourceOf] at h
  rw [finish, finish, StaticState.compare, StaticState.compare]
  cases hcompare : state.compareMode with
  | off =>
    simp only [hcompare] at h ⊢
    rwa [Swizzle.select_apply, Swizzle.select_apply]
  | refToTexture =>
    simp only [hcompare] at h ⊢
    have hred : (state.swizzle.apply 0 1 c).red.position
        = (state.swizzle.apply 0 1 d).red.position := h
    rw [state.compareFunc.holds_congr reference hred]

namespace LevelView

variable {state : StaticState} {view : LevelView} {place : Place} {extent : Axes Nat}
  {border₁ border₂ color₁ color₂ : Color Single} {tree : BlendTree}
  (hframed : tree.Framed (fun p ↦ ¬ state.Beside (view.extent.map Int32.toInt) p)
    (view.MeetsBorder state place.coords))
  (hcolor₁ : tree.color (view.fetchNumbers state border₁) = .ok color₁)
  (hcolor₂ : tree.color (view.fetchNumbers state border₂) = .ok color₂)
include hframed hcolor₁ hcolor₂

private theorem position_color_eq_of_framed (channel : Selector)
    (hdrops : tree.DropsFinitely (view.MeetsBorder state place.coords)
        (view.fetchNumbers state border₁) channel ↔
      tree.DropsFinitely (view.MeetsBorder state place.coords)
        (view.fetchNumbers state border₂) channel) :
    (Selector.select 0 1 color₁ channel).position
      = (Selector.select 0 1 color₂ channel).position := by
  by_cases hchannel : channel ≠ .zero ∧ channel ≠ .one
  · by_cases hdrops₁ : tree.DropsFinitely (view.MeetsBorder state place.coords)
        (view.fetchNumbers state border₁) channel
    · refine hframed.position_color_eq hchannel (fun p hp ↦ ?_) hcolor₁ hcolor₂ hdrops₁
        (hdrops.1 hdrops₁)
      rw [fetchNumbers_of_not_beside hp, fetchNumbers_of_not_beside hp]
    · rw [hframed.color_eq_nan hchannel hcolor₁ hdrops₁,
        hframed.color_eq_nan hchannel hcolor₂ (mt hdrops.2 hdrops₁)]
  · rw [select_eq_of_constant hchannel color₁ color₂]

/-- Where no border comes next, two border colours make one colour. -/
theorem color_eq_of_framed (hnone : ∀ axis, ¬ view.MeetsBorder state place.coords axis) :
    color₁ = color₂ := by
  have heq : tree.color (view.fetchNumbers state border₁)
      = tree.color (view.fetchNumbers state border₂) :=
    hframed.color_eq hnone fun p hp ↦ by
      rw [fetchNumbers_of_not_beside hp, fetchNumbers_of_not_beside hp]
  rw [hcolor₁, hcolor₂] at heq
  exact Except.ok.inj heq

end LevelView

private theorem extent_ofSurface_zero {binding : Binding} {source : Source} {state : StaticState}
    (h : binding.texture.BuiltFrom source) (hflat : state.target ≠ .cube) {axis : Fin 3}
    (hactive : axis ∈ state.activeAxes) :
    (LevelView.ofSurface state binding.surface 0).extent.get axis
      = Int32.ofNat (source.extent.get axis) ∧ 0 < source.extent.get axis := by
  have hzero : (0 : Int32).toNatClampNeg = 0 := rfl
  have hextent := surface_extent_eq h
  match axis, StaticState.mem_activeAxes.1 hactive with
  | 0, hs =>
    simp only [LevelView.ofSurface, Axes.get, hextent, hzero, if_pos (show 0 < state.dims from hs),
      levelExtent_zero h.pos_s]
    exact ⟨trivial, h.pos_s⟩
  | 1, ht =>
    simp only [LevelView.ofSurface, Axes.get, hextent, hzero, if_pos (show 1 < state.dims from ht),
      levelExtent_zero h.pos_t]
    exact ⟨trivial, h.pos_t⟩
  | 2, hr =>
    simp only [LevelView.ofSurface, Axes.get, hextent, hzero, if_pos (show 2 < state.dims from hr),
      if_neg hflat, levelExtent_zero h.pos_r]
    exact ⟨trivial, h.pos_r⟩

/-! ## Two borders -/

def Binding.withBorder (binding : Binding) (border : Color Single) : Binding :=
  { binding with border }

theorem Binding.border_surface_withBorder (binding : Binding) (border : Color Single) :
    (binding.withBorder border).surface.border = border := rfl

/-- Under linear filters and without further levels, a request that is answered with one border is
answered with any other. Each lane is finished from the colours that one tree has with the two. -/
theorem Sampler.exists_sample_withBorder {state : StaticState} {binding : Binding}
    {request : Request} {border₁ : Color Single} {colors₁ : Quad (Color Single)}
    (hflat : state.target ≠ .cube) (hmin : state.minFilter = .linear)
    (hmag : state.magFilter = .linear) (hmip : state.mipFilter = .base)
    (h : sample ⟨state, .numbers⟩ (binding.withBorder border₁).surface request = .ok colors₁)
    (border₂ : Color Single) :
    let view := LevelView.ofSurface state binding.surface 0
    ∃ colors₂,
      sample ⟨state, .numbers⟩ (binding.withBorder border₂).surface request = .ok colors₂ ∧
      ∀ lane, ∃ tree color₁ color₂,
        view.blendTree state ((request.places state).get lane) = .ok tree ∧
        tree.color (view.fetchNumbers state border₁) = .ok color₁ ∧
        tree.color (view.fetchNumbers state border₂) = .ok color₂ ∧
        colors₁.get lane = finish state ((request.coord 2).get lane) color₁ ∧
        colors₂.get lane = finish state ((request.coord 2).get lane) color₂ := by
  intro view
  have hsame := hmin.trans hmag.symm
  let P (lane : Fin 4) (c : Color Single) : Prop := ∃ tree color₁ color₂,
    view.blendTree state ((request.places state).get lane) = .ok tree ∧
    tree.color (view.fetchNumbers state border₁) = .ok color₁ ∧
    tree.color (view.fetchNumbers state border₂) = .ok color₂ ∧
    colors₁.get lane = finish state ((request.coord 2).get lane) color₁ ∧
    c = finish state ((request.coord 2).get lane) color₂
  refine exists_sample_numbers_of_lanes (P := P) hsame (.inl hmip) fun lane ↦ ?_
  have hbase : ∀ border, (request.levels state (binding.withBorder border).surface).base.get lane
      = view := fun border ↦ Levels.base_ofLods hmip _ _ lane
  obtain ⟨color₁, hcolor₁, hlane⟩ := exists_image_of_sample_numbers hsame (.inl hmip) h lane
  rw [hbase, hmin, LevelView.imageNumbers, LevelView.linearNumbers_eq_blendTree hflat] at hcolor₁
  obtain ⟨tree, htree, hcolor₁⟩ := bind_eq_ok.1 hcolor₁
  obtain ⟨color₂, hcolor₂⟩ := BlendTree.exists_color_of_color
    (fun p texel htexel ↦ LevelView.exists_fetchNumbers_of_border border₂ htexel) hcolor₁
  refine ⟨color₂, ?_, tree, color₁, color₂, htree, hcolor₁, hcolor₂, hlane, rfl⟩
  rw [← Request.levels, hbase, Binding.border_surface_withBorder, hmin, LevelView.imageNumbers,
    LevelView.linearNumbers_eq_blendTree hflat]
  exact bind_eq_ok.2 ⟨tree, htree, hcolor₂⟩

/-! ## A zero beside the greatest number -/

/-- A zero and the greatest number side by side. -/
def Source.zeroBesideGreatest : Source := .flat ⟨#[0, 0, 0, 0, 255, 255, 127, 127]⟩ 2 1 .r32Float

def Texture.zeroBesideGreatest : Texture where
  bytes := ⟨#[0, 0, 0, 0, 255, 255, 127, 127]⟩
  layouts := [⟨⟨2, 1, 1⟩, 0, 8, 8⟩]
  format := .r32Float
  target := .texture2D
  layouts_ne_nil := List.cons_ne_nil _ _

theorem build_zeroBesideGreatest :
    Texture.build .zeroBesideGreatest = .ok .zeroBesideGreatest := rfl

/-- Settings with a border behind a fold on either side, under linear filters. -/
def Settings.folded : Settings :=
  { Settings.plain with
    wrap := ⟨.mirrorClampToBorder, .clampToEdge, .repeating⟩
    minFilter := .linear
    magFilter := .linear }

def Binding.zeroBesideGreatest : Binding := .ofSettings .zeroBesideGreatest .folded

/-- Units with the two numbers bound to each, within a border of one number. -/
def TextureUnits.zeroBesideGreatest (border : Single) : TextureUnits :=
  ⟨.replicate maxUnits (some (Binding.zeroBesideGreatest.withBorder (.splat border)))⟩

private theorem foldsToBorders_zeroBesideGreatest :
    (Binding.zeroBesideGreatest.staticState .folded).FoldsToBorders
      Source.zeroBesideGreatest.extent := by
  intro axis hactive huses
  match axis with
  | 0 => exact ⟨rfl, by decide⟩
  | 1 => exact nomatch huses
  | 2 => exact absurd hactive (by decide)

/-- **Mirrored borders stay outside, half a texel away from the fold.** Take a texture that is no
cube under linear filters, without further levels, through any swizzle, whose axes with a border all
fold to it and have at most `2 ^ 22` texels. Bound with one border or another, it answers the same
requests. A lane that is at least half a texel away from every fold and from every far edge with a
border gets the same colour from both. Only at the middle of a last texel, where the border comes
next without a share, a channel is the same up to the sign of a zero, and that if the differences
that are multiplied by zero are finite with both borders, or not so with either.

A request is answered if extents fit index words and stay within `2 ^ 23` where `mirrorClampToEdge`
meets a linear filter. -/
theorem mirrored_borders_stay_outside {source : Source} {binding : Binding} {settings : Settings}
    {units₁ units₂ : TextureUnits} {request : Request} {swizzle : Swizzle} {state : StaticState}
    {border₁ border₂ : Color Single} (hbuild : Texture.build source = .ok binding.texture)
    (hunit₁ : units₁.get? request.unit = some (binding.withBorder border₁))
    (hunit₂ : units₂.get? request.unit = some (binding.withBorder border₂))
    (hstate : state = { binding.staticState settings with swizzle })
    (hflat : source.target ≠ .cube) (hmin : settings.minFilter = .linear)
    (hmag : settings.magFilter = .linear) (hmip : settings.mipFilter = .base)
    (hfolds : state.FoldsToBorders source.extent) :
    let answer₁ := Sampler.sample ⟨state, .numbers⟩ (units₁.surface request.unit) request
    let answer₂ := Sampler.sample ⟨state, .numbers⟩ (units₂.surface request.unit) request
    let view := LevelView.ofSurface state binding.surface 0
    ((source.extent.s < 2 ^ 31 ∧ source.extent.t < 2 ^ 31 ∧ source.extent.r < 2 ^ 31) →
      settings.ClampsWithin source.extent → ∃ colors₁, answer₁ = .ok colors₁) ∧
    ∀ colors₁, answer₁ = .ok colors₁ → ∃ colors₂, answer₂ = .ok colors₂ ∧ ∀ lane,
      let coords := request.direction lane
      view.FoldsInside state coords →
      ((∀ axis, ¬ view.MeetsBorder state coords axis) → colors₁.get lane = colors₂.get lane) ∧
      ∃ tree, view.blendTree state ((request.places state).get lane) = .ok tree ∧ ∀ channel,
        let drops (border : Color Single) := tree.DropsFinitely (view.MeetsBorder state coords)
          (view.fetchNumbers state border) (state.sourceOf channel)
        (drops border₁ ↔ drops border₂) →
          (Selector.select 0 1 (colors₁.get lane) channel).position
            = (Selector.select 0 1 (colors₂.get lane) channel).position := by
  rw [TextureUnits.surface_of_get?_eq_some hunit₁, TextureUnits.surface_of_get?_eq_some hunit₂]
  intro answer₁ answer₂ view
  have h := Texture.builtFrom_of_build hbuild
  have htarget : state.target ≠ .cube := by
    rw [hstate]
    rwa [show (binding.staticState settings).target = _ from h.target_eq]
  constructor
  · intro hlt hclamp
    have hbound : (binding.withBorder border₁).texture.BuiltFrom source := h
    subst hstate
    exact Sampler.exists_sample_numbers_of_swizzle hbound swizzle hlt hclamp request
  · intro colors₁ hcolors₁
    obtain ⟨colors₂, hcolors₂, hlanes⟩ := Sampler.exists_sample_withBorder htarget
      (by rwa [hstate]) (by rwa [hstate]) (by rwa [hstate]) hcolors₁ border₂
    refine ⟨colors₂, hcolors₂, ?_⟩
    intro lane coords hinside
    obtain ⟨tree, color₁, color₂, htree, hcolor₁, hcolor₂, hlane₁, hlane₂⟩ := hlanes lane
    have hcoords : ((request.places state).get lane).coords = coords :=
      request.coords_places htarget lane
    rw [← hcoords] at hinside ⊢
    have hframed := LevelView.framed_of_blendTree hfolds
      (fun axis hactive ↦ extent_ofSurface_zero h htarget hactive) hinside htree
    rw [hlane₁, hlane₂]
    refine ⟨fun hnone ↦ ?_, tree, htree, ?_⟩
    · rw [LevelView.color_eq_of_framed hframed hcolor₁ hcolor₂ hnone]
    · intro channel drops hdrops
      exact Sampler.position_finish_congr _
        (LevelView.position_color_eq_of_framed hframed hcolor₁ hcolor₂ _ hdrops)

/-- Between the two texels, on either side of the fold, the border does not show. -/
theorem mirrored_borders_stay_outside_zero_beside_greatest :
    let state := Binding.zeroBesideGreatest.staticState .folded
    let request := Request.ofCoords 0 [⟨Single.half, -Single.half, 0, 1⟩, .splat 0]
    ∃ colors₁ colors₂,
      Sampler.sample ⟨state, .numbers⟩ ((TextureUnits.zeroBesideGreatest 0).surface 0) request
        = .ok colors₁ ∧
      Sampler.sample ⟨state, .numbers⟩ ((TextureUnits.zeroBesideGreatest 1).surface 0) request
        = .ok colors₂ ∧
        colors₁.get 0 = colors₂.get 0 ∧ colors₁.get 1 = colors₂.get 1 := by
  intro state request
  let view := LevelView.ofSurface state Binding.zeroBesideGreatest.surface 0
  have hunit (border : Single) : (TextureUnits.zeroBesideGreatest border).get? request.unit
      = some (Binding.zeroBesideGreatest.withBorder (.splat border)) := rfl
  have hstate : state = { Binding.zeroBesideGreatest.staticState .folded with
      swizzle := .identity } := rfl
  have hclamp : Settings.folded.ClampsWithin Source.zeroBesideGreatest.extent :=
    fun _ ↦ ⟨nofun, nofun, nofun⟩
  have hs : ∀ lane : Fin 4, lane = 0 ∨ lane = 1 →
      ((view.wrapAxes state).get 0).FoldsInside ((request.direction lane).get 0) ∧
        ¬ ((view.wrapAxes state).get 0).AtLastMiddle ((request.direction lane).get 0) := by
    decide +kernel
  obtain ⟨hanswer, hlanes⟩ := mirrored_borders_stay_outside build_zeroBesideGreatest (hunit 0)
    (hunit 1) hstate (by decide) rfl rfl rfl foldsToBorders_zeroBesideGreatest
  obtain ⟨colors₁, hcolors₁⟩ := hanswer (by decide) hclamp
  obtain ⟨colors₂, hcolors₂, hsame⟩ := hlanes colors₁ hcolors₁
  have hget : ∀ lane : Fin 4, lane = 0 ∨ lane = 1 → colors₁.get lane = colors₂.get lane := by
    intro lane hlane
    refine (hsame lane fun axis hactive huses ↦ ?_).1 fun axis hmeets ↦ ?_
    · match axis with
      | 0 => exact (hs lane hlane).1
      | 1 => exact nomatch huses
      | 2 => exact absurd hactive (by decide)
    · obtain ⟨hactive, huses, hlast⟩ := hmeets
      match axis with
      | 0 => exact (hs lane hlane).2 hlast
      | 1 => exact nomatch huses
      | 2 => exact absurd hactive (by decide)
  exact ⟨colors₁, colors₂, hcolors₁, hcolors₂, hget 0 (.inl rfl), hget 1 (.inr rfl)⟩

/-- Two ways in which the border shows inside the texture. In lane 0 the coordinate is at the fold,
and half of the colour is that of the border. In lane 1 it is at the middle of the last texel, and a
border of the opposite sign is too far away for its difference to be finite. -/
theorem folded_lanes_show_border :
    let state := Binding.zeroBesideGreatest.staticState .folded
    let sampler := Sampler.specialize state .normal
    let view := LevelView.ofSurface state Binding.zeroBesideGreatest.surface 0
    let greatest := Single.ofBits 0x7f7fffff
    let request := Request.ofCoords 0 [⟨0, Single.ofBits 0x3f400000, 0, 0⟩, .splat 0]
    Texture.build .zeroBesideGreatest = .ok Binding.zeroBesideGreatest.texture ∧
    (∀ border, (TextureUnits.zeroBesideGreatest border).get? 0
      = some (Binding.zeroBesideGreatest.withBorder (.splat border))) ∧
    sampler.path = .numbers ∧ state.FoldsToBorders Source.zeroBesideGreatest.extent ∧
    greatest.IsFinite ∧ view.extent.get 0 = 2 ∧
    (∀ lane ∈ [0, 1], Single.le (view.texelsAlong state (request.direction lane) 0).abs
      (2 - Single.half) = true) ∧
    ∃ colors₁ colors₂,
      sampler.sample ((TextureUnits.zeroBesideGreatest 0).surface 0) request = .ok colors₁ ∧
      sampler.sample ((TextureUnits.zeroBesideGreatest (-greatest)).surface 0) request
        = .ok colors₂ ∧
      ∀ lane ∈ [0, 1], ¬ (colors₁.get lane).SameAt .x (colors₂.get lane) := by
  intro state sampler view greatest request
  let folded : Color Single := .splat (Single.ofBits 0xfeffffff)
  have hcolors₁ : sampler.sample ((TextureUnits.zeroBesideGreatest 0).surface 0) request
      = .ok ⟨⟨0, 0, 0, Single.half⟩, ⟨greatest, 0, 0, 1⟩, ⟨0, 0, 0, Single.half⟩,
          ⟨0, 0, 0, Single.half⟩⟩ := by
    decide +kernel
  have hcolors₂ : sampler.sample ((TextureUnits.zeroBesideGreatest (-greatest)).surface 0) request
      = .ok ⟨folded, ⟨.nan, 0, 0, 1⟩, folded, folded⟩ := by
    decide +kernel
  exact ⟨build_zeroBesideGreatest, fun _ ↦ rfl, rfl, foldsToBorders_zeroBesideGreatest, by decide,
    rfl, by decide +kernel, _, _, hcolors₁, hcolors₂, by decide +kernel⟩

end QuadSampler
