import Mathlib.Data.List.Nodup
import QuadSampler.Proofs.Filtering.NumbersTotal
import QuadSampler.Proofs.Single.Finite

/-!
# Linear filters as trees of blends

A linear filter blends two, four or eight texels. `BlendTree` is the order in which it does so: the
leaves are the texels it fetches, and a node blends what comes from one side of a coordinate with
what comes from the other. The tree of a place (`LevelView.blendTree`) is found from the
coordinates alone, and its colour is the colour of the filter
(`LevelView.linearNumbers_eq_blendTree`), so what a filter makes of its texels is shown by induction
on trees.

Two kinds of trees matter where a texture has a border. A *covered* tree has the border colour in
all its leaves, and that is its colour. An *edged* tree has a covered side at each node along one
axis, and blends in the other side with weight zero. Then all turns on what stands on those other
sides (`BlendTree.seconds`): differences from the border that are finite are blended away, and any
other is multiplied by zero and leaves not-a-number.
-/

namespace QuadSampler

universe u

/-! ## Trees -/

/-- Texels, and blends of trees: along an axis, with the weight of the second. -/
inductive BlendTree where
  | texel (p : Axes Int32)
  | blend (axis : Fin 3) (weight : Single) (first second : BlendTree)

namespace BlendTree

/-- The colour of a tree, given those of its texels. -/
def color (fetch : Axes Int32 → Except Fault (Color Single)) :
    BlendTree → Except Fault (Color Single)
  | texel p => fetch p
  | blend _ weight first second => do
    let near ← first.color fetch
    let far ← second.color fetch
    return lerpColor weight near far

/-- The tree that blends along the given axes, the first of them last. On axes that are not given
the indices are those of `p`. -/
def ofStraddles : List (Fin 3 × Straddle Single) → Axes Int32 → BlendTree
  | [], p => texel p
  | (axis, w) :: inner, p =>
    blend axis w.weight (ofStraddles inner (p.set axis w.first))
      (ofStraddles inner (p.set axis w.second))

/-- What is blended in along an axis, at every node of that axis. -/
def seconds (axis : Fin 3) : BlendTree → List BlendTree
  | texel _ => []
  | blend other _ first second =>
    if other = axis then [second] else first.seconds axis ++ second.seconds axis

/-- Whether what is blended in along an axis differs from the border by finite numbers. -/
def DiffersFinitely (axis : Fin 3) (fetch : Axes Int32 → Except Fault (Color Single))
    (border : Color Single) (channel : Selector) (tree : BlendTree) : Prop :=
  ∀ second ∈ tree.seconds axis, ∀ color, second.color fetch = .ok color →
    (Selector.select 0 1 color channel - Selector.select 0 1 border channel).IsFinite

end BlendTree

/-! ## The tree of a place -/

/-- The axes that a state addresses, by number. -/
def StaticState.activeAxes (state : StaticState) : List (Fin 3) := [0, 1, 2].take state.dims

theorem StaticState.mem_activeAxes {state : StaticState} {axis : Fin 3} :
    axis ∈ state.activeAxes ↔ axis.val < state.dims := by
  rw [activeAxes, dims]
  cases state.target <;> revert axis <;> decide

theorem StaticState.nodup_activeAxes (state : StaticState) : state.activeAxes.Nodup :=
  (List.take_sublist _ _).nodup (by decide)

namespace LevelView

variable {state : StaticState} {view : LevelView} {place : Place}

/-- The two texels around a place along one axis. -/
def straddle (state : StaticState) (view : LevelView) (place : Place) (axis : Fin 3) :
    Except Fault (Straddle Single) :=
  (state.wrap.get axis).linear ((view.wrapAxes state).get axis) (place.coords.get axis)

/-- The blends of a linear filter, through the slices last. -/
def blendTree (state : StaticState) (view : LevelView) (place : Place) :
    Except Fault BlendTree := do
  let straddles ← state.activeAxes.mapM fun axis ↦ do
    return (axis, ← view.straddle state place axis)
  return .ofStraddles straddles.reverse (.splat 0)

theorem linearNumbers_eq_blendTree (hflat : state.target ≠ .cube) (border : Color Single) :
    view.linearNumbers state border place
      = view.blendTree state place >>= BlendTree.color (view.fetchNumbers state border) := by
  have hslice : sliceOf state place = 0 := if_neg hflat
  rw [linearNumbers, blendTree, StaticState.activeAxes, StaticState.dims, hslice]
  cases htarget : state.target with
  | cube => exact absurd htarget hflat
  | texture1D | texture2D | rect | texture3D =>
    simp only [Target.dims, List.take_succ_cons, List.take_zero, List.take_nil, List.mapM_cons,
      List.mapM_nil, bind_assoc, pure_bind]
    rfl

/-- The tree of a place blends along the addressed axes, along each by the two texels around it. -/
theorem exists_ofStraddles_of_blendTree {tree : BlendTree}
    (h : view.blendTree state place = .ok tree) :
    ∃ straddles, tree = .ofStraddles straddles (.splat 0) ∧ (straddles.map Prod.fst).Nodup ∧
      ∀ axis w, (axis, w) ∈ straddles ↔
        axis ∈ state.activeAxes ∧ view.straddle state place axis = .ok w := by
  obtain ⟨straddles, hstraddles, htree⟩ := bind_eq_ok.1 h
  obtain rfl := Except.ok.inj htree
  have haxes : straddles.map Prod.fst = state.activeAxes :=
    map_of_mapM_eq_ok hstraddles fun axis v hv ↦ by
      obtain ⟨w, -, hw⟩ := bind_eq_ok.1 hv
      exact congrArg Prod.fst (Except.ok.inj hw).symm
  have hright : ∀ axis w, (axis, w) ∈ straddles → view.straddle state place axis = .ok w := by
    intro axis w hmem
    obtain ⟨axis', -, hv⟩ := exists_of_mem_of_mapM_eq_ok hstraddles hmem
    obtain ⟨w', hw', heq⟩ := bind_eq_ok.1 hv
    obtain ⟨rfl, rfl⟩ := Prod.mk.inj (Except.ok.inj heq)
    exact hw'
  refine ⟨straddles.reverse, rfl, ?_, fun axis w ↦ ?_⟩
  · rw [List.map_reverse, haxes]
    exact List.nodup_reverse.2 state.nodup_activeAxes
  · rw [List.mem_reverse, ← haxes, List.mem_map]
    constructor
    · intro hmem
      exact ⟨⟨_, hmem, rfl⟩, hright axis w hmem⟩
    · rintro ⟨⟨⟨axis', w'⟩, hmem, rfl⟩, hw⟩
      obtain rfl := Except.ok.inj ((hright axis' w' hmem).symm.trans hw)
      exact hmem

end LevelView

/-! ## Blends of numbers -/

namespace Single

variable {w a a' b : Single} {z : Int}

theorem IsAt.add_of_isAt_zero (ha : a.IsAt z) (hb : b.IsAt 0) : (a + b).IsAt z := by
  have hposition := ha.position_add hb
  rw [Int.add_zero, place_one ha.representable] at hposition
  exact isAt_of_position hposition ha.representable.1

theorem IsAt.lerp_self (hw : w.IsFinite) (ha : a.IsAt z) (hb : b.IsAt z) : (lerp w a b).IsAt z := by
  have hposition := hb.position_sub ha
  rw [Int.sub_self] at hposition
  exact ha.add_of_isAt_zero (hw.mul_isAt_zero (isAt_zero_of_position Nat.one_pos hposition))

theorem IsAt.lerp_of_isAt_zero (ha : a.IsAt z) (hw : w.IsAt 0) (h : (b - a).IsFinite) :
    (lerp w a b).IsAt z :=
  ha.add_of_isAt_zero (hw.mul_of_isAt_zero h)

theorem lerp_eq_nan_of_isAt_zero (hw : w.IsAt 0) (h : ¬ (b - a).IsFinite) : lerp w a b = nan := by
  rw [lerp, hw.zero_mul_eq_nan h, add_nan]

theorem lerp_nan_left (w b : Single) : lerp w nan b = nan := rfl

theorem lerp_nan_right (w a : Single) : lerp w a nan = nan := by
  have hsub : nan - a = nan := rfl
  rw [lerp, hsub, mul_nan, add_nan]

private theorem IsFinite.of_position_eq {x y : Single} (h : x.position = y.position)
    (hx : x.IsFinite) :
    y.IsFinite := by
  obtain ⟨v, hv⟩ := hx
  exact ⟨v, isAt_of_position (h.symm.trans hv.position) hv.representable.1⟩

private theorem position_sub_congr (ha : a.IsAt z) (ha' : a'.IsAt z) (b : Single) :
    (b - a).position = (b - a').position := by
  cases b with
  | nan => rfl
  | finite s m hm =>
    have hb : (finite s m hm).IsAt (signed s m) := ⟨s, m, hm, rfl, rfl⟩
    rw [hb.position_sub ha, hb.position_sub ha']
  | infinite s =>
    obtain ⟨_, _, _, rfl, -⟩ := ha
    obtain ⟨_, _, _, rfl, -⟩ := ha'
    rfl

end Single

theorem select_lerpColor (w : Single) (c d : Color Single) {channel : Selector}
    (h : channel ≠ .zero ∧ channel ≠ .one) :
    Selector.select 0 1 (lerpColor w c d) channel
      = lerp w (Selector.select 0 1 c channel) (Selector.select 0 1 d channel) := by
  cases channel with
  | x | y | z | w => rfl
  | zero => exact absurd rfl h.1
  | one => exact absurd rfl h.2

/-! ## Covered trees -/

namespace BlendTree

/-- Trees with indices of one kind at all leaves, and finite weights. -/
inductive Covered (P : Axes Int32 → Prop) : BlendTree → Prop
  | texel {p : Axes Int32} (h : P p) : Covered P (texel p)
  | blend {axis : Fin 3} {weight : Single} {first second : BlendTree} (hweight : weight.IsFinite)
      (hfirst : Covered P first) (hsecond : Covered P second) :
      Covered P (blend axis weight first second)

/-- Trees with a covered side at each node along one axis, and no share for the other side. -/
inductive Edged (P : Axes Int32 → Prop) (axis : Fin 3) : BlendTree → Prop
  | edge {weight : Single} {first second : BlendTree} (hweight : weight.IsAt 0)
      (hfirst : Covered P first) : Edged P axis (blend axis weight first second)
  | blend {other : Fin 3} {weight : Single} {first second : BlendTree} (hne : other ≠ axis)
      (hweight : weight.IsFinite) (hfirst : Edged P axis first) (hsecond : Edged P axis second) :
      Edged P axis (blend other weight first second)

theorem exists_of_color_blend {axis : Fin 3} {weight : Single} {first second : BlendTree}
    {fetch : Axes Int32 → Except Fault (Color Single)} {color : Color Single}
    (h : (blend axis weight first second).color fetch = .ok color) :
    ∃ near far, first.color fetch = .ok near ∧ second.color fetch = .ok far ∧
      color = lerpColor weight near far := by
  obtain ⟨near, hnear, h⟩ := bind_eq_ok.1 h
  obtain ⟨far, hfar, h⟩ := bind_eq_ok.1 h
  exact ⟨near, far, hnear, hfar, (Except.ok.inj h).symm⟩

section Color

variable {P : Axes Int32 → Prop} {axis : Fin 3} {fetch : Axes Int32 → Except Fault (Color Single)}
  {border color : Color Single} {channel : Selector} {z : Int} {tree : BlendTree}
  (hfetch : ∀ p, P p → ∀ texel, fetch p = .ok texel → texel = border)
  (hchannel : channel ≠ .zero ∧ channel ≠ .one)
  (hborder : (Selector.select 0 1 border channel).IsAt z)
include hfetch hchannel hborder

/-- The colour of a covered tree is that of its leaves. -/
theorem Covered.isAt_color (h : Covered P tree) (hcolor : tree.color fetch = .ok color) :
    (Selector.select 0 1 color channel).IsAt z := by
  induction h generalizing color with
  | @texel p hp => rwa [hfetch p hp color hcolor]
  | blend hweight _ _ ihfirst ihsecond =>
    obtain ⟨near, far, hnear, hfar, rfl⟩ := exists_of_color_blend hcolor
    rw [select_lerpColor _ _ _ hchannel]
    exact (ihfirst hnear).lerp_self hweight (ihsecond hfar)

/-- The colour of an edged tree is the border colour if what stands on the other sides differs from
it by finite numbers. -/
theorem Edged.isAt_color (h : Edged P axis tree) (hcolor : tree.color fetch = .ok color)
    (hseconds : tree.DiffersFinitely axis fetch border channel) :
    (Selector.select 0 1 color channel).IsAt z := by
  induction h generalizing color with
  | @edge weight first second hweight hfirst =>
    obtain ⟨near, far, hnear, hfar, rfl⟩ := exists_of_color_blend hcolor
    have hat := hfirst.isAt_color hfetch hchannel hborder hnear
    have hfinite := hseconds second (by simp [seconds]) far hfar
    rw [select_lerpColor _ _ _ hchannel]
    exact hat.lerp_of_isAt_zero hweight (.of_position_eq (Single.position_sub_congr hborder hat _)
      hfinite)
  | @blend other weight first second hne hweight _ _ ihfirst ihsecond =>
    obtain ⟨near, far, hnear, hfar, rfl⟩ := exists_of_color_blend hcolor
    rw [DiffersFinitely, seconds, if_neg hne] at hseconds
    rw [select_lerpColor _ _ _ hchannel]
    refine (ihfirst hnear fun s hs ↦ ?_).lerp_self hweight (ihsecond hfar fun s hs ↦ ?_)
    · exact hseconds s (List.mem_append_left _ hs)
    · exact hseconds s (List.mem_append_right _ hs)

/-- Anything else there leaves not-a-number. -/
theorem Edged.color_eq_nan (h : Edged P axis tree) (hcolor : tree.color fetch = .ok color)
    (hseconds : ¬ tree.DiffersFinitely axis fetch border channel) :
    Selector.select 0 1 color channel = .nan := by
  induction h generalizing color with
  | @edge weight first second hweight hfirst =>
    obtain ⟨near, far, hnear, hfar, rfl⟩ := exists_of_color_blend hcolor
    have hat := hfirst.isAt_color hfetch hchannel hborder hnear
    rw [select_lerpColor _ _ _ hchannel]
    refine Single.lerp_eq_nan_of_isAt_zero hweight fun hfinite ↦ hseconds ?_
    intro s hs other hother
    obtain rfl : s = second := by simpa [seconds] using hs
    obtain rfl := Except.ok.inj (hother.symm.trans hfar)
    exact .of_position_eq (Single.position_sub_congr hat hborder _) hfinite
  | @blend other weight first second hne hweight _ _ ihfirst ihsecond =>
    obtain ⟨near, far, hnear, hfar, rfl⟩ := exists_of_color_blend hcolor
    rw [select_lerpColor _ _ _ hchannel]
    -- not-a-number on either side of a blend is what the blend gives
    by_cases hleft : first.DiffersFinitely axis fetch border channel
    · have hright : ¬ second.DiffersFinitely axis fetch border channel := by
        intro hright
        refine hseconds fun s hs ↦ ?_
        rw [seconds, if_neg hne] at hs
        exact (List.mem_append.1 hs).elim (hleft s) (hright s)
      rw [ihsecond hfar hright, Single.lerp_nan_right]
    · rw [ihfirst hnear hleft, Single.lerp_nan_left]

end Color

/-! ## Trees of straddles -/

section OfStraddles

variable {P : Axes Int32 → Prop} {axis : Fin 3} {w : Straddle Single}
  {straddles : List (Fin 3 × Straddle Single)}

private theorem covered_ofStraddles {p : Axes Int32}
    (hweights : ∀ v ∈ straddles, v.1 ≠ axis → v.2.weight.IsFinite)
    (hother : axis ∉ straddles.map Prod.fst) (hP : ∀ q, q.get axis = p.get axis → P q) :
    Covered P (ofStraddles straddles p) := by
  induction straddles generalizing p with
  | nil => exact .texel (hP p rfl)
  | cons v inner ih =>
    rw [List.map_cons, List.mem_cons, not_or] at hother
    have hinner : ∀ i, Covered P (ofStraddles inner (p.set v.1 i)) := fun i ↦
      ih (fun u hu ↦ hweights u (List.mem_cons_of_mem v hu)) hother.2 fun q hq ↦
        hP q (hq.trans (p.get_set_of_ne hother.1 i))
    exact .blend (hweights v List.mem_cons_self (Ne.symm hother.1)) (hinner _) (hinner _)

/-- Blends along distinct axes make an edged tree, if one of them has no share for its second side
and its first side is covered. -/
theorem edged_ofStraddles {p : Axes Int32} (hnodup : (straddles.map Prod.fst).Nodup)
    (hmem : (axis, w) ∈ straddles) (hzero : w.weight.IsAt 0)
    (hweights : ∀ v ∈ straddles, v.1 ≠ axis → v.2.weight.IsFinite)
    (hfirst : ∀ q, q.get axis = w.first → P q) : Edged P axis (ofStraddles straddles p) := by
  induction straddles generalizing p with
  | nil => exact (List.not_mem_nil hmem).elim
  | cons v inner ih =>
    rw [List.map_cons, List.nodup_cons] at hnodup
    rcases List.mem_cons.1 hmem with rfl | hmem
    · refine .edge hzero (covered_ofStraddles (fun u hu ↦ ?_) hnodup.1 fun q hq ↦ ?_)
      · exact hweights u (List.mem_cons_of_mem _ hu)
      · exact hfirst q (hq.trans (p.get_set_self axis w.first))
    · have hne : v.1 ≠ axis := by
        rintro rfl
        exact hnodup.1 (List.mem_map.2 ⟨_, hmem, rfl⟩)
      have hinner : ∀ i, Edged P axis (ofStraddles inner (p.set v.1 i)) := fun i ↦
        ih hnodup.2 hmem fun u hu ↦ hweights u (List.mem_cons_of_mem v hu)
      exact .blend hne (hweights v List.mem_cons_self hne) (hinner _) (hinner _)

theorem covered_of_mem_seconds {p : Axes Int32} (hnodup : (straddles.map Prod.fst).Nodup)
    (hmem : (axis, w) ∈ straddles) (hweights : ∀ v ∈ straddles, v.1 ≠ axis → v.2.weight.IsFinite)
    (hsecond : ∀ q, q.get axis = w.second → P q) {second : BlendTree}
    (h : second ∈ (ofStraddles straddles p).seconds axis) : Covered P second := by
  induction straddles generalizing p with
  | nil => exact (List.not_mem_nil hmem).elim
  | cons v inner ih =>
    rw [List.map_cons, List.nodup_cons] at hnodup
    rcases List.mem_cons.1 hmem with rfl | hmem
    · obtain rfl : second = ofStraddles inner (p.set axis w.second) := by
        simpa [ofStraddles, seconds] using h
      exact covered_ofStraddles (fun u hu ↦ hweights u (List.mem_cons_of_mem _ hu)) hnodup.1
        fun q hq ↦ hsecond q (hq.trans (p.get_set_self axis w.second))
    · have hne : v.1 ≠ axis := by
        rintro rfl
        exact hnodup.1 (List.mem_map.2 ⟨_, hmem, rfl⟩)
      rw [ofStraddles, seconds, if_neg hne] at h
      have hinner := fun u hu ↦ hweights u (List.mem_cons_of_mem v hu)
      exact (List.mem_append.1 h).elim (ih hnodup.2 hmem hinner) (ih hnodup.2 hmem hinner)

end OfStraddles

end BlendTree

/-! ## What images inherit from their texels

A property of colours that every texel has which a level answers, and that blends with the weights
of the place keep, is a property of the image. It does not matter which texels are fetched, so
nothing is asked of the coordinates but their weights, and cubes need no tree of their own.
-/

private theorem Straddle.of_blend_eq_ok {W : Type} {C : Type u} {mix : W → C → C → C}
    {read : Int32 → Except Fault C} {w : Straddle W} {P : C → Prop} {c : C}
    (hmix : ∀ a b, P a → P b → P (mix w.weight a b)) (hread : ∀ i c, read i = .ok c → P c)
    (h : w.blend mix read = .ok c) : P c := by
  obtain ⟨first, hfirst, h⟩ := bind_eq_ok.1 h
  obtain ⟨second, hsecond, h⟩ := bind_eq_ok.1 h
  obtain rfl := Except.ok.inj h
  exact hmix first second (hread _ _ hfirst) (hread _ _ hsecond)

namespace LevelView

variable {state : StaticState} {view : LevelView} {border : Color Single} {place : Place}
  {P : Color Single → Prop} {color : Color Single}
  (hfetch : ∀ p texel, view.fetchNumbers state border p = .ok texel → P texel)
include hfetch

private theorem of_nearestNumbers (h : view.nearestNumbers state border place = .ok color) :
    P color := by
  rw [nearestNumbers_eq] at h
  obtain ⟨x, -, h⟩ := bind_eq_ok.1 h
  obtain ⟨y, -, h⟩ := bind_eq_ok.1 h
  obtain ⟨z, -, h⟩ := bind_eq_ok.1 h
  exact hfetch _ _ h

variable (hmix : ∀ axis ∈ state.activeAxes, ∀ w, view.straddle state place axis = .ok w →
  ∀ a b, P a → P b → P (lerpColor w.weight a b))
include hmix

private theorem of_linearNumbers (h : view.linearNumbers state border place = .ok color) :
    P color := by
  have hpos := state.target.dims_pos
  obtain ⟨along, halong, h⟩ := bind_eq_ok.1 h
  have hs := hmix 0 (StaticState.mem_activeAxes.2 hpos) along halong
  have hrow : ∀ y z c, along.blend lerpColor (fun x ↦ view.fetchNumbers state border ⟨x, y, z⟩)
      = .ok c → P c :=
    fun y z c ↦ Straddle.of_blend_eq_ok hs fun x texel ↦ hfetch ⟨x, y, z⟩ texel
  by_cases hline : state.dims = 1
  · rw [if_pos hline] at h
    exact hrow 0 0 color h
  · rw [if_neg hline] at h
    obtain ⟨down, hdown, h⟩ := bind_eq_ok.1 h
    have hdims : 1 < state.dims := by
      rw [StaticState.dims] at hline ⊢
      omega
    have ht := hmix 1 (StaticState.mem_activeAxes.2 hdims) down hdown
    have hsquare : ∀ z c, (down.blend lerpColor fun y ↦
        along.blend lerpColor fun x ↦ view.fetchNumbers state border ⟨x, y, z⟩) = .ok c → P c :=
      fun z c ↦ Straddle.of_blend_eq_ok ht fun y ↦ hrow y z
    by_cases hflat : state.dims = 2
    · rw [if_pos hflat] at h
      exact hsquare _ color h
    · rw [if_neg hflat] at h
      obtain ⟨through, hthrough, h⟩ := bind_eq_ok.1 h
      have hdeep : 2 < state.dims := by omega
      have hr := hmix 2 (StaticState.mem_activeAxes.2 hdeep) through hthrough
      exact Straddle.of_blend_eq_ok hr hsquare h

/-- An image has what all texels of its level have and the blends at its place keep. -/
theorem of_imageNumbers {filter : ImageFilter}
    (h : view.imageNumbers state border filter place = .ok color) : P color := by
  cases filter with
  | nearest => exact of_nearestNumbers hfetch h
  | linear => exact of_linearNumbers hfetch hmix h

end LevelView

end QuadSampler
