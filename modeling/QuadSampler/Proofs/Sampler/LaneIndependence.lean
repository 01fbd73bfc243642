import QuadSampler.Proofs.Filtering.ByteBlends
import QuadSampler.Proofs.Filtering.NumbersTotal
import QuadSampler.Proofs.Single.Finite

/-!
# What a lane owes to the others

Two requests with explicit levels of detail that agree in one lane are compared. Everything up to
the colours is found lane by lane, so both requests have the same place, level of detail and levels
there (`Request.AgreeAt`). What is left is one bit: the further levels of a linear mip filter are
blended in for all lanes or for none, and that depends on whether some lane gives its further level
a share (`Levels.blends`).

So a lane without a share may be blended with weight zero because of its neighbours, and all turns
on whether that leaves its colour alone. In bytes it does. In numbers `a + 0 * (b - a)` is `a`
unless the difference is not finite, or `a` is the negative zero (`Single.StaysAtZero.lerp_eq`);
there the answer of the lane does depend on the others.
-/

namespace QuadSampler

universe u

/-! ## Weights of zero -/

namespace Single

/-- Whether a number stays as it is when another is blended in with weight zero: it does if it is
not-a-number, or if the difference to the other is finite and it is not the negative zero. -/
def StaysAtZero (a b : Single) : Prop :=
  a = nan ∨ (b - a).IsFinite ∧ a ≠ -0

private theorem neg_zero_eq : (-0 : Single) = finite true 0 (representable_of_lt (by decide)) := by
  decide

theorem add_of_isAt_zero {a e : Single} (ha : a ≠ -0) (he : e.IsAt 0) : a + e = a := by
  obtain ⟨t, n, hn, rfl, hn0⟩ := he
  obtain rfl : n = 0 := by rw [← natAbs_signed t n, hn0, Int.natAbs_zero]
  cases a with
  | nan => rfl
  | infinite s => rfl
  | finite s m hm =>
    have hsum : signed s m + signed t 0 = signed s m := by cases t <;> simp
    -- an exact sum keeps its sign, and a sum of zeros is positive if one of them is
    have hsign : (if signed s m + signed t 0 = 0 then s && t
        else decide (signed s m + signed t 0 < 0)) = s := by
      rw [hsum]
      by_cases hm0 : m = 0
      · subst hm0
        cases s with
        | false => rfl
        | true => exact absurd neg_zero_eq.symm ha
      · have hne : signed s m ≠ 0 := by rwa [← Int.natAbs_ne_zero, natAbs_signed]
        rw [if_neg hne]
        cases s with
        | false => exact decide_eq_false (by rw [signed_false]; omega)
        | true => exact decide_eq_true (by rw [signed_true]; omega)
    rw [finite_add_finite, hsign, hsum, natAbs_signed, round_one_of_representable _ hm]

private theorem isAt_zero_of_clamp {x : Single} (h : Single.lt 0 (x.clamp 0 1) = false) :
    (x.clamp 0 1).IsAt 0 := by
  have hone : (1 : Single).position = some (1 * gridPerOne : Int) :=
    (isAt_ofNat (n := 1) (by decide)).position
  obtain ⟨p, hp, hlow, -⟩ :=
    position_clamp_mem x position_zero hone (Int.mul_nonneg (by decide) natCast_gridPerOne_pos.le)
  have hnot : ¬ 0 < p := by
    rw [← lt_iff_of_position position_zero hp, h]
    exact Bool.false_ne_true
  obtain rfl : p = 0 := by omega
  exact isAt_of_position hp (by decide)

/-- What stays as it is at zero is not changed by a blend with weight zero. -/
theorem StaysAtZero.lerp_eq {w a b : Single} (h : StaysAtZero a b) (hw : w.IsAt 0) :
    lerp w a b = a := by
  rcases h with rfl | ⟨hfinite, ha⟩
  · rfl
  · exact add_of_isAt_zero ha (hw.mul_of_isAt_zero hfinite)

end Single

theorem FixedPoint.mixLevels_of_isAt_zero {w : Single} (hw : w.IsAt 0) (a b : Color UInt8) :
    mixLevels w a b = a := by
  have h256 : (256 : Single).IsAt (256 * Single.gridPerOne) :=
    Single.isAt_ofNat (n := 256) (by decide)
  have hfloor : (w * 256).floorInt32 = 0 := by
    rw [(hw.mul_of_isAt_zero h256.isFinite).floorInt32, Int.zero_ediv]
    rfl
  exact mix_of_zero (by rw [hfloor]; rfl) a b

/-! ## One lane of a quad -/

namespace Levels

variable {C : Type u} {levels : Levels} {image : LevelView → Place → Except Fault C}
  {mix : Single → C → C → C} {places : Quad Place} {lane : Fin 4}

/-- Whether further levels are blended in: they are in all lanes, as soon as one lane gives its
further level a share. -/
def blends (levels : Levels) : Bool :=
  match levels.next with
  | some next => next.any fun n ↦ Single.lt 0 n.weight
  | none => false

/-- What one lane gets from its levels, given whether further levels are blended in. -/
def filterLane (blends : Bool) (base : LevelView) (next : Option NextLevel)
    (image : LevelView → Place → Except Fault C) (mix : Single → C → C → C) (place : Place) :
    Except Fault C := do
  let near ← image base place
  match next, blends with
  | some next, true =>
    let far ← image next.view place
    return mix next.weight near far
  | _, _ => return near

theorem blends_of_next {next : Quad NextLevel} (h : levels.next = some next) :
    levels.blends = next.any fun n ↦ Single.lt 0 n.weight := by
  rw [blends, h]

theorem blends_of_pos {further : NextLevel}
    (hnext : levels.next.map (·.get lane) = some further)
    (hpos : Single.lt 0 further.weight = true) : levels.blends = true := by
  obtain ⟨next, heq, rfl⟩ := Option.map_eq_some_iff.1 hnext
  rw [blends_of_next heq]
  exact Quad.any_of_get lane hpos

/-- All that a lane learns of the others is whether further levels are blended in. -/
theorem filterLane_of_filter {colors : Quad C} (h : levels.filter image mix places = .ok colors)
    (lane : Fin 4) :
    filterLane levels.blends (levels.base.get lane) (levels.next.map (·.get lane)) image mix
      (places.get lane) = .ok (colors.get lane) := by
  obtain ⟨near, hnear, h⟩ := bind_eq_ok.1 h
  rw [filterLane]
  refine bind_eq_ok.2 ⟨_, Quad.ofFnM_eq_ok_iff.1 hnear lane, ?_⟩
  cases hnext : levels.next with
  | none =>
    rw [hnext] at h
    obtain rfl := Except.ok.inj h
    rfl
  | some next =>
    simp only [hnext] at h
    rw [← blends_of_next hnext] at h
    cases hblends : levels.blends with
    | true =>
      rw [if_pos hblends] at h
      obtain ⟨far, hfar, h⟩ := bind_eq_ok.1 h
      obtain rfl := Except.ok.inj h
      refine bind_eq_ok.2 ⟨_, Quad.ofFnM_eq_ok_iff.1 hfar lane, ?_⟩
      rw [Quad.get_ofFn]
      rfl
    | false =>
      rw [if_neg (by rw [hblends]; exact Bool.false_ne_true)] at h
      obtain rfl := Except.ok.inj h
      rfl

theorem filterLane_eq_or {blends₁ blends₂ : Bool} {base : LevelView} {next : Option NextLevel}
    {place : Place} {c₁ c₂ : C} (h₁ : filterLane blends₁ base next image mix place = .ok c₁)
    (h₂ : filterLane blends₂ base next image mix place = .ok c₂) :
    c₁ = c₂ ∨ blends₁ ≠ blends₂ ∧ ∃ further near far, next = some further ∧
      image base place = .ok near ∧ image further.view place = .ok far ∧
        (c₁ = near ∧ c₂ = mix further.weight near far ∨
          c₁ = mix further.weight near far ∧ c₂ = near) := by
  by_cases hblends : blends₁ = blends₂
  · rw [hblends] at h₁
    exact .inl (Except.ok.inj (h₁.symm.trans h₂))
  · obtain ⟨near, hnear, h₁⟩ := bind_eq_ok.1 h₁
    obtain ⟨near', hnear', h₂⟩ := bind_eq_ok.1 h₂
    obtain rfl := Except.ok.inj (hnear.symm.trans hnear')
    cases next with
    | none => exact .inl ((Except.ok.inj h₁).symm.trans (Except.ok.inj h₂))
    | some further =>
      right
      refine ⟨hblends, further, near, ?_⟩
      cases blends₁ with
      | true =>
        obtain rfl : blends₂ = false := by simpa using Ne.symm hblends
        obtain ⟨far, hfar, h₁⟩ := bind_eq_ok.1 h₁
        exact ⟨far, rfl, hnear, hfar, .inr ⟨(Except.ok.inj h₁).symm, (Except.ok.inj h₂).symm⟩⟩
      | false =>
        obtain rfl : blends₂ = true := by simpa using Ne.symm hblends
        obtain ⟨far, hfar, h₂⟩ := bind_eq_ok.1 h₂
        exact ⟨far, rfl, hnear, hfar, .inl ⟨(Except.ok.inj h₁).symm, (Except.ok.inj h₂).symm⟩⟩

end Levels

/-- The filter that suits a lane at its level of detail. -/
def StaticState.filterAt (state : StaticState) (lod : Single) : ImageFilter :=
  if Single.le 0 lod then state.minFilter else state.magFilter

private theorem get_of_filterByLod {C : Type u} {state : StaticState} {lods : Option (Quad Single)}
    {run : ImageFilter → Except Fault (Quad C)} {colors : Quad C}
    (h : filterByLod state lods run = .ok colors) (lane : Fin 4) :
    ∃ filtered, run (state.filterAt ((lods.getD (.splat 0)).get lane)) = .ok filtered ∧
      filtered.get lane = colors.get lane := by
  rw [StaticState.filterAt]
  by_cases hsame : state.minFilter = state.magFilter
  · rw [filterByLod_of_eq hsame] at h
    exact ⟨colors, by rw [← hsame, ite_self]; exact h, rfl⟩
  · rw [filterByLod, if_neg hsame] at h
    obtain ⟨minified, hmin, h⟩ := bind_eq_ok.1 h
    obtain ⟨magnified, hmag, h⟩ := bind_eq_ok.1 h
    obtain rfl := Except.ok.inj h
    rw [Quad.get_ofFn]
    split
    · exact ⟨minified, hmin, rfl⟩
    · exact ⟨magnified, hmag, rfl⟩

/-! ## Requests that agree in a lane -/

/-- Whether two requests with explicit levels of detail ask the same for one lane. -/
structure Request.AgreeAt (lane : Fin 4) (r₁ r₂ : Request) : Prop where
  coord_eq : ∀ n, (r₁.coord n).get lane = (r₂.coord n).get lane
  exists_lod_eq : ∃ lod₁ lod₂, r₁.lod = .explicit lod₁ ∧ r₂.lod = .explicit lod₂ ∧
    lod₁.get lane = lod₂.get lane
  bias_eq : r₁.bias.map (·.get lane) = r₂.bias.map (·.get lane)

section Agree

variable {lane : Fin 4} {r₁ r₂ : Request} (h : Request.AgreeAt lane r₁ r₂)
include h

private theorem Request.AgreeAt.places_eq (state : StaticState) :
    (r₁.places state).get lane = (r₂.places state).get lane := by
  have hdirection : r₁.direction lane = r₂.direction lane := by
    simp only [Request.direction, h.coord_eq]
  rw [Request.places, Request.places, Quad.get_ofFn, Quad.get_ofFn, hdirection]

private theorem Request.AgreeAt.lod_eq (state : StaticState) (surface : Surface) :
    ((r₁.lods state surface (r₁.places state)).getD (.splat 0)).get lane
      = ((r₂.lods state surface (r₂.places state)).getD (.splat 0)).get lane := by
  obtain ⟨lod₁, lod₂, hlod₁, hlod₂, hlod⟩ := h.exists_lod_eq
  rw [Request.lods, Request.lods]
  by_cases hneeds : state.needsLod = true
  · simp only [if_pos hneeds, Option.getD_some, Quad.get_ofFn, Request.gradients,
      Request.explicitLod, hlod₁, hlod₂, Quad.get_splat, Option.map_some, hlod, h.bias_eq]
  · rw [if_neg hneeds, if_neg hneeds]

end Agree

namespace Levels

variable {state : StaticState} {surface : Surface} {lods lods₁ lods₂ : Option (Quad Single)}
  {lane : Fin 4}

private theorem ofLods_congr
    (h : (lods₁.getD (.splat 0)).get lane = (lods₂.getD (.splat 0)).get lane) :
    (ofLods state surface lods₁).base.get lane = (ofLods state surface lods₂).base.get lane ∧
      (ofLods state surface lods₁).next.map (·.get lane)
        = (ofLods state surface lods₂).next.map (·.get lane) := by
  rw [ofLods, ofLods]
  cases state.mipFilter with
  | base => exact ⟨rfl, rfl⟩
  | nearest => simp only [Quad.get_map, h, Option.map_none, and_self]
  | linear => simp only [Quad.get_map, h, Option.map_some, and_self]

private theorem mipFilter_of_next {further : NextLevel}
    (hnext : (ofLods state surface lods).next.map (·.get lane) = some further) :
    state.mipFilter = .linear := by
  cases hmip : state.mipFilter with
  | linear => rfl
  | base | nearest =>
    rw [ofLods, hmip] at hnext
    cases hnext

private theorem weight_isAt_zero {further : NextLevel}
    (hnext : (ofLods state surface lods).next.map (·.get lane) = some further)
    (hweight : Single.lt 0 further.weight = false) : further.weight.IsAt 0 := by
  have hmip := mipFilter_of_next hnext
  simp only [ofLods, hmip, Option.map_some, Quad.get_map, Option.some.injEq] at hnext
  rw [← hnext] at hweight ⊢
  exact Single.isAt_zero_of_clamp hweight

end Levels

/-! ## Sampling -/

namespace Request

variable {state : StaticState} {surface : Surface}

def levels (request : Request) (state : StaticState) (surface : Surface) : Levels :=
  .ofLods state surface (request.lods state surface (request.places state))

/-- The filter that suits a lane of a request. -/
def filterAt (request : Request) (state : StaticState) (surface : Surface) (lane : Fin 4) :
    ImageFilter :=
  state.filterAt (((request.lods state surface (request.places state)).getD (.splat 0)).get lane)

variable {lane : Fin 4} {r₁ r₂ : Request}

private theorem AgreeAt.filterAt_eq (h : AgreeAt lane r₁ r₂) (state : StaticState)
    (surface : Surface) :
    r₁.filterAt state surface lane = r₂.filterAt state surface lane :=
  congrArg state.filterAt (h.lod_eq state surface)

private theorem AgreeAt.levels_eq (h : AgreeAt lane r₁ r₂) (state : StaticState)
    (surface : Surface) :
    (r₁.levels state surface).base.get lane = (r₂.levels state surface).base.get lane ∧
      (r₁.levels state surface).next.map (·.get lane)
        = (r₂.levels state surface).next.map (·.get lane) :=
  Levels.ofLods_congr (h.lod_eq state surface)

end Request

namespace Sampler

variable {state : StaticState} {surface : Surface} {request r₁ r₂ : Request} {lane : Fin 4}
  {colors colors₁ colors₂ : Quad (Color Single)}

theorem exists_filterLane_numbers
    (h : sample ⟨state, .numbers⟩ surface request = .ok colors) (lane : Fin 4) :
    let levels := request.levels state surface
    ∃ color, Levels.filterLane levels.blends (levels.base.get lane)
        (levels.next.map (·.get lane))
        (LevelView.imageNumbers state surface.border (request.filterAt state surface lane))
        lerpColor ((request.places state).get lane) = .ok color ∧
      colors.get lane = finish state ((request.coord 2).get lane) color := by
  intro levels
  obtain ⟨numbers, hnumbers, h⟩ := bind_eq_ok.1 h
  obtain rfl := Except.ok.inj h
  obtain ⟨filtered, hfiltered, hlane⟩ := get_of_filterByLod hnumbers lane
  refine ⟨filtered.get lane, Levels.filterLane_of_filter hfiltered lane, ?_⟩
  rw [Quad.get_zipWith, hlane]

theorem exists_filterLane_bytes {wraps : Axes SimpleWrap}
    (h : sample ⟨state, .fixedPoint wraps⟩ surface request = .ok colors) (lane : Fin 4) :
    let levels := request.levels state surface
    ∃ color, Levels.filterLane levels.blends (levels.base.get lane)
        (levels.next.map (·.get lane))
        (FixedPoint.imageBytes wraps state (request.filterAt state surface lane))
        FixedPoint.mixLevels ((request.places state).get lane) = .ok color ∧
      colors.get lane = finish state ((request.coord 2).get lane) color.toUnit := by
  intro levels
  obtain ⟨bytes, hbytes, h⟩ := bind_eq_ok.1 h
  obtain rfl := Except.ok.inj h
  obtain ⟨filtered, hfiltered, hlane⟩ := get_of_filterByLod hbytes lane
  refine ⟨filtered.get lane, Levels.filterLane_of_filter hfiltered lane, ?_⟩
  rw [Quad.get_zipWith, Quad.get_map, hlane]

/-- A lane that has no share in its further level, blended in for one request and not for the
other. -/
theorem isAt_zero_of_blends_ne (h : Request.AgreeAt lane r₁ r₂) {further : NextLevel}
    (hnext : (r₁.levels state surface).next.map (·.get lane) = some further)
    (hblends : (r₁.levels state surface).blends ≠ (r₂.levels state surface).blends) :
    Single.lt 0 further.weight = false ∧ further.weight.IsAt 0 := by
  have hweight : Single.lt 0 further.weight = false := by
    by_contra hpos
    rw [Bool.not_eq_false] at hpos
    have hnext₂ := hnext
    rw [(h.levels_eq state surface).2] at hnext₂
    exact hblends ((Levels.blends_of_pos hnext hpos).trans (Levels.blends_of_pos hnext₂ hpos).symm)
  exact ⟨hweight, Levels.weight_isAt_zero hnext hweight⟩

theorem get_eq_of_fixedPoint {wraps : Axes SimpleWrap} (h : Request.AgreeAt lane r₁ r₂)
    (h₁ : sample ⟨state, .fixedPoint wraps⟩ surface r₁ = .ok colors₁)
    (h₂ : sample ⟨state, .fixedPoint wraps⟩ surface r₂ = .ok colors₂) :
    colors₁.get lane = colors₂.get lane := by
  obtain ⟨c₁, hc₁, heq₁⟩ := exists_filterLane_bytes h₁ lane
  obtain ⟨c₂, hc₂, heq₂⟩ := exists_filterLane_bytes h₂ lane
  rw [← (h.levels_eq state surface).1, ← (h.levels_eq state surface).2,
    ← h.filterAt_eq state surface, ← h.places_eq state] at hc₂
  rw [heq₁, heq₂, h.coord_eq 2]
  rcases Levels.filterLane_eq_or hc₁ hc₂ with
    rfl | ⟨hblends, further, near, far, hnext, -, -, hcolors⟩
  · rfl
  · have hmix := FixedPoint.mixLevels_of_isAt_zero
      (isAt_zero_of_blends_ne h hnext hblends).2 near far
    rw [hmix] at hcolors
    rcases hcolors with ⟨rfl, rfl⟩ | ⟨rfl, rfl⟩ <;> rfl

/-- In numbers a lane gets the same colour from both requests, or it gets its first level from one
and from the other its first level with the further one blended in at weight zero. -/
theorem get_eq_or_of_numbers (h : Request.AgreeAt lane r₁ r₂)
    (h₁ : sample ⟨state, .numbers⟩ surface r₁ = .ok colors₁)
    (h₂ : sample ⟨state, .numbers⟩ surface r₂ = .ok colors₂) :
    let levels := r₁.levels state surface
    let image := LevelView.imageNumbers state surface.border (r₁.filterAt state surface lane)
    let place := (r₁.places state).get lane
    let answer := finish state ((r₁.coord 2).get lane)
    colors₁.get lane = colors₂.get lane ∨
      levels.blends ≠ (r₂.levels state surface).blends ∧ ∃ further near far,
        levels.next.map (·.get lane) = some further ∧
        image (levels.base.get lane) place = .ok near ∧ image further.view place = .ok far ∧
        (colors₁.get lane = answer near ∧
            colors₂.get lane = answer (lerpColor further.weight near far) ∨
          colors₁.get lane = answer (lerpColor further.weight near far) ∧
            colors₂.get lane = answer near) := by
  intro levels image place answer
  obtain ⟨c₁, hc₁, heq₁⟩ := exists_filterLane_numbers h₁ lane
  obtain ⟨c₂, hc₂, heq₂⟩ := exists_filterLane_numbers h₂ lane
  rw [← (h.levels_eq state surface).1, ← (h.levels_eq state surface).2,
    ← h.filterAt_eq state surface, ← h.places_eq state] at hc₂
  rw [← h.coord_eq 2] at heq₂
  rcases Levels.filterLane_eq_or hc₁ hc₂ with
    rfl | ⟨hblends, further, near, far, hnext, hnear, hfar, hcolors⟩
  · exact .inl (heq₁.trans heq₂.symm)
  · refine .inr ⟨hblends, further, near, far, hnext, hnear, hfar, ?_⟩
    rcases hcolors with ⟨rfl, rfl⟩ | ⟨rfl, rfl⟩
    · exact .inl ⟨heq₁, heq₂⟩
    · exact .inr ⟨heq₁, heq₂⟩

end Sampler

/-! ## Channels -/

/-- The filtered channel that a channel of the answer is made of: the one that the swizzle names for
it, or in a comparison the one that the swizzle names for red. -/
def StaticState.sourceOf (state : StaticState) (channel : Selector) : Selector :=
  match state.compareMode with
  | .off => Selector.select .zero .one state.swizzle channel
  | .refToTexture => state.swizzle.red

theorem Sampler.select_finish_congr {state : StaticState} {channel : Selector}
    {c d : Color Single} (reference : Single)
    (h : Selector.select 0 1 c (state.sourceOf channel)
      = Selector.select 0 1 d (state.sourceOf channel)) :
    Selector.select 0 1 (finish state reference c) channel
      = Selector.select 0 1 (finish state reference d) channel := by
  rw [StaticState.sourceOf] at h
  rw [finish, finish, StaticState.compare, StaticState.compare]
  cases hcompare : state.compareMode with
  | off =>
    simp only [hcompare] at h ⊢
    rw [Swizzle.select_apply, Swizzle.select_apply, h]
  | refToTexture =>
    simp only [hcompare] at h ⊢
    have hred : (state.swizzle.apply 0 1 c).red = (state.swizzle.apply 0 1 d).red := h
    rw [hred]

private theorem select_lerpColor_of_isAt_zero {w : Single} (hw : w.IsAt 0) {near far : Color Single}
    {channel : Selector}
    (h : Single.StaysAtZero (Selector.select 0 1 near channel) (Selector.select 0 1 far channel)) :
    Selector.select 0 1 (lerpColor w near far) channel = Selector.select 0 1 near channel := by
  cases channel with
  | zero | one => rfl
  | x | y | z | w => exact h.lerp_eq hw

/-! ## A second level that is not finite -/

/-- Two zeros side by side, and infinity as a second level. -/
def Source.infiniteSecondLevel : Source :=
  (Source.flat ⟨#[0, 0, 0, 0, 0, 0, 0, 0]⟩ 2 1 .r32Float).withFurther (.given [⟨#[0, 0, 128, 127]⟩])

def Texture.infiniteSecondLevel : Texture where
  bytes := ⟨#[0, 0, 0, 0, 0, 0, 0, 0, 0, 0, 128, 127]⟩
  layouts := [⟨⟨2, 1, 1⟩, 0, 8, 8⟩, ⟨⟨1, 1, 1⟩, 8, 4, 4⟩]
  format := .r32Float
  target := .texture2D
  layouts_ne_nil := List.cons_ne_nil _ _

theorem build_infiniteSecondLevel :
    Texture.build .infiniteSecondLevel = .ok .infiniteSecondLevel := rfl

def Settings.blended : Settings := { Settings.plain with mipFilter := .linear, maxLod := 1 }

def Binding.infiniteSecondLevel : Binding := .ofSettings .infiniteSecondLevel .blended

def TextureUnits.infiniteSecondLevel : TextureUnits :=
  ⟨.replicate maxUnits (some .infiniteSecondLevel)⟩

/-! ## Two requests -/

/-- **Lanes are answered on their own, up to blends with weight zero.** Two requests to one unit,
under any state and in any path, that give explicit levels of detail and agree in one lane get the
same colour there, whatever the other lanes ask for: in fixed point; under all mip filters but the
linear one; if both or neither have a lane with a share in its further level; and if the lane has
one itself. In what remains, a channel of the lane is the same if the filtered channel it is made of
stays as it is when that of the further level is blended in with weight zero. -/
theorem sample_lane_independent {units : TextureUnits} {state : StaticState} {path : Path}
    {r₁ r₂ : Request} {lane : Fin 4} {colors₁ colors₂ : Quad (Color Single)}
    (hunit : r₁.unit = r₂.unit) (h : Request.AgreeAt lane r₁ r₂)
    (h₁ : Sampler.sample ⟨state, path⟩ (units.surface r₁.unit) r₁ = .ok colors₁)
    (h₂ : Sampler.sample ⟨state, path⟩ (units.surface r₂.unit) r₂ = .ok colors₂) :
    let surface := units.surface r₁.unit
    let levels := r₁.levels state surface
    let next := levels.next.map (·.get lane)
    let image := LevelView.imageNumbers state surface.border (r₁.filterAt state surface lane)
    let place := (r₁.places state).get lane
    (path ≠ .numbers ∨ state.mipFilter ≠ .linear ∨
        levels.blends = (r₂.levels state surface).blends ∨
          (∃ further, next = some further ∧ Single.lt 0 further.weight = true) →
      colors₁.get lane = colors₂.get lane) ∧
    ∀ further near far, next = some further → image (levels.base.get lane) place = .ok near →
      image further.view place = .ok far → ∀ channel,
        Single.StaysAtZero (Selector.select 0 1 near (state.sourceOf channel))
          (Selector.select 0 1 far (state.sourceOf channel)) →
        Selector.select 0 1 (colors₁.get lane) channel
          = Selector.select 0 1 (colors₂.get lane) channel := by
  intro surface levels next image place
  rw [← hunit] at h₂
  cases path with
  | white =>
    have heq : colors₁ = colors₂ := (Except.ok.inj h₁).symm.trans (Except.ok.inj h₂)
    exact ⟨fun _ ↦ by rw [heq], fun _ _ _ _ _ _ _ _ ↦ by rw [heq]⟩
  | fixedPoint wraps =>
    have heq := Sampler.get_eq_of_fixedPoint h h₁ h₂
    exact ⟨fun _ ↦ heq, fun _ _ _ _ _ _ _ _ ↦ by rw [heq]⟩
  | numbers =>
    rcases Sampler.get_eq_or_of_numbers h h₁ h₂ with
      heq | ⟨hblends, further, near, far, hnext, hnear, hfar, hcolors⟩
    · exact ⟨fun _ ↦ heq, fun _ _ _ _ _ _ _ _ ↦ by rw [heq]⟩
    · obtain ⟨hweight, hzero⟩ := Sampler.isAt_zero_of_blends_ne h hnext hblends
      constructor
      · rintro (hpath | hmip | heq | ⟨further', hnext', hpos⟩)
        · exact absurd rfl hpath
        · exact absurd (Levels.mipFilter_of_next hnext) hmip
        · exact absurd heq hblends
        · obtain rfl := Option.some.inj (hnext.symm.trans hnext')
          exact absurd (hweight.symm.trans hpos) Bool.false_ne_true
      · intro further' near' far' hnext' hnear' hfar' channel hstays
        obtain rfl := Option.some.inj (hnext.symm.trans hnext')
        obtain rfl := Except.ok.inj (hnear.symm.trans hnear')
        obtain rfl := Except.ok.inj (hfar.symm.trans hfar')
        have hblend := select_lerpColor_of_isAt_zero hzero hstays
        rcases hcolors with ⟨hone, htwo⟩ | ⟨hone, htwo⟩ <;> rw [hone, htwo]
        · exact Sampler.select_finish_congr _ hblend.symm
        · exact Sampler.select_finish_congr _ hblend

/-- A lane half way to the infinite level, next to lanes at other levels of detail and other
coordinates. -/
theorem sample_lane_independent_infinite_second_level :
    let state := Binding.infiniteSecondLevel.staticState .blended
    let across : Quad Single := ⟨0, Single.half, .nan, 7⟩
    let r₁ := Request.ofCoords 0 [.splat Single.half] (.explicit ⟨0, Single.half, 0, 0⟩)
    let r₂ := Request.ofCoords 0 [across] (.explicit ⟨1, Single.half, .nan, 0⟩)
    ∃ colors₁ colors₂,
      Sampler.sample ⟨state, .numbers⟩ (TextureUnits.infiniteSecondLevel.surface 0) r₁
        = .ok colors₁ ∧
      Sampler.sample ⟨state, .numbers⟩ (TextureUnits.infiniteSecondLevel.surface 0) r₂
        = .ok colors₂ ∧
        colors₁.get 1 = colors₂.get 1 := by
  intro state across r₁ r₂
  have hagree : Request.AgreeAt 1 r₁ r₂ := by
    refine ⟨fun n ↦ ?_, ⟨_, _, rfl, rfl, rfl⟩, rfl⟩
    cases n <;> rfl
  have hunit : r₁.unit = r₂.unit := rfl
  have h₁ : Sampler.sample ⟨state, .numbers⟩ (TextureUnits.infiniteSecondLevel.surface 0) r₁
      = .ok ⟨⟨.nan, 0, 0, 1⟩, ⟨.infinite false, 0, 0, 1⟩, ⟨.nan, 0, 0, 1⟩, ⟨.nan, 0, 0, 1⟩⟩ := by
    decide +kernel
  have h₂ : Sampler.sample ⟨state, .numbers⟩ (TextureUnits.infiniteSecondLevel.surface 0) r₂
      = .ok ⟨⟨.infinite false, 0, 0, 1⟩, ⟨.infinite false, 0, 0, 1⟩, ⟨.nan, 0, 0, 1⟩,
          ⟨.nan, 0, 0, 1⟩⟩ := by
    decide +kernel
  have hshare : ∃ further,
      (r₁.levels state (TextureUnits.infiniteSecondLevel.surface 0)).next.map (·.get 1)
        = some further ∧ Single.lt 0 further.weight = true := by
    rw [← Option.any_eq_true]
    decide +kernel
  refine ⟨_, _, h₁, h₂, ?_⟩
  exact (sample_lane_independent hunit hagree h₁ h₂).1 (.inr (.inr (.inr hshare)))

/-- At level of detail zero a lane gets zero, but not next to a lane with a share in the infinite
second level: then it gets zero times infinity. -/
theorem blended_lane_depends_on_others :
    let sampler := Sampler.specialize (Binding.infiniteSecondLevel.staticState .blended) .normal
    let coords := [Quad.splat Single.half, .splat Single.half]
    let r₁ := Request.ofCoords 0 coords (.explicit (.splat 0))
    let r₂ := Request.ofCoords 0 coords (.explicit ⟨0, Single.half, 0, 0⟩)
    Texture.build .infiniteSecondLevel = .ok Binding.infiniteSecondLevel.texture ∧
    TextureUnits.infiniteSecondLevel.get? 0 = some .infiniteSecondLevel ∧ Request.AgreeAt 0 r₁ r₂ ∧
    ∃ colors₁ colors₂,
      sampler.sample (TextureUnits.infiniteSecondLevel.surface 0) r₁ = .ok colors₁ ∧
      sampler.sample (TextureUnits.infiniteSecondLevel.surface 0) r₂ = .ok colors₂ ∧
        colors₁.get 0 ≠ colors₂.get 0 := by
  intro sampler coords r₁ r₂
  have hagree : Request.AgreeAt 0 r₁ r₂ := ⟨fun _ ↦ rfl, ⟨_, _, rfl, rfl, rfl⟩, rfl⟩
  have h₁ : sampler.sample (TextureUnits.infiniteSecondLevel.surface 0) r₁
      = .ok (.splat ⟨0, 0, 0, 1⟩) := by
    decide +kernel
  have h₂ : sampler.sample (TextureUnits.infiniteSecondLevel.surface 0) r₂
      = .ok ⟨⟨.nan, 0, 0, 1⟩, ⟨.infinite false, 0, 0, 1⟩, ⟨.nan, 0, 0, 1⟩, ⟨.nan, 0, 0, 1⟩⟩ := by
    decide +kernel
  exact ⟨build_infiniteSecondLevel, rfl, hagree, _, _, h₁, h₂, by decide⟩

end QuadSampler
