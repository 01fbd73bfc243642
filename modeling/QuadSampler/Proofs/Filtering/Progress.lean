import QuadSampler.Proofs.Addressing.Index
import QuadSampler.Proofs.Outcome
import QuadSampler.Sampler.Basic

/-!
# When a call is answered

A sampling call finds places and levels first, and neither of these steps can fail. What remains is
filtering, which fails exactly if some lane fails on some level it reads. So a call is answered as
soon as every lane can read every level chosen for it (`Levels.Reads`), and the levels chosen are
levels of the surface whatever the levels of detail are: they are clamped as integers, after any
arithmetic that could have gone astray.
-/

namespace QuadSampler

universe u

/-! ## Filtering -/

theorem Straddle.exists_blend_eq_ok {W : Type} {C : Type u} {mix : W → C → C → C}
    {read : Int32 → Except Fault C} {w : Straddle W} (hfirst : ∃ c, read w.first = .ok c)
    (hsecond : ∃ c, read w.second = .ok c) : ∃ c, w.blend mix read = .ok c := by
  obtain ⟨first, hfirst⟩ := hfirst
  obtain ⟨second, hsecond⟩ := hsecond
  exact exists_bind_eq_ok hfirst (exists_bind_eq_ok hsecond ⟨_, rfl⟩)

namespace Levels

/-- Whether a level is one of those that a lane reads. -/
def Reads (levels : Levels) (lane : Fin 4) (view : LevelView) : Prop :=
  view = levels.base.get lane ∨
    ∃ next, levels.next = some next ∧ view = (next.get lane).view

theorem exists_filter_eq_ok {C : Type u} {levels : Levels}
    {image : LevelView → Place → Except Fault C} {mix : Single → C → C → C} {places : Quad Place}
    (h : ∀ lane view, levels.Reads lane view → ∃ c, image view (places.get lane) = .ok c) :
    ∃ colors, levels.filter image mix places = .ok colors := by
  obtain ⟨near, hnear⟩ := Quad.exists_ofFnM_eq_ok
    fun lane ↦ h lane (levels.base.get lane) (.inl rfl)
  refine exists_bind_eq_ok hnear ?_
  cases hnext : levels.next with
  | none => exact ⟨near, rfl⟩
  | some next =>
    obtain ⟨far, hfar⟩ := Quad.exists_ofFnM_eq_ok
      fun lane ↦ h lane (next.get lane).view (.inr ⟨next, hnext, rfl⟩)
    dsimp only
    split
    · exact exists_bind_eq_ok hfar ⟨_, rfl⟩
    · exact ⟨near, rfl⟩

theorem filter_of_next_eq_none {C : Type u} {levels : Levels} (h : levels.next = none)
    (image : LevelView → Place → Except Fault C) (mix : Single → C → C → C)
    (places : Quad Place) :
    levels.filter image mix places
      = Quad.ofFnM fun lane ↦ image (levels.base.get lane) (places.get lane) := by
  rw [filter, h]
  exact bind_pure _

end Levels

theorem filterByLod_of_eq {C : Type u} {state : StaticState}
    (h : state.minFilter = state.magFilter) (lod : Option (Quad Single))
    (run : ImageFilter → Except Fault (Quad C)) :
    filterByLod state lod run = run state.minFilter := if_pos h

theorem exists_filterByLod_eq_ok {C : Type u} {state : StaticState} (lod : Option (Quad Single))
    {run : ImageFilter → Except Fault (Quad C)}
    (h : ∀ filter, filter = state.minFilter ∨ filter = state.magFilter →
      ∃ colors, run filter = .ok colors) :
    ∃ colors, filterByLod state lod run = .ok colors := by
  obtain ⟨minified, hmin⟩ := h _ (.inl rfl)
  obtain ⟨magnified, hmag⟩ := h _ (.inr rfl)
  rw [filterByLod]
  split
  · exact ⟨minified, hmin⟩
  · exact exists_bind_eq_ok hmin (exists_bind_eq_ok hmag ⟨_, rfl⟩)

/-! ## Levels -/

private theorem exists_eq_ofNat {i : Int32} {last : Nat} (h0 : 0 ≤ i.toInt) (h1 : i.toInt ≤ last) :
    ∃ k ≤ last, i = Int32.ofNat k := by
  refine ⟨i.toInt.toNat, by omega, ?_⟩
  have hlt := i.toInt_lt
  rw [← Int32.toInt_inj, Int32.toInt_ofNat_of_lt (by omega)]
  omega

namespace Lod

variable {last : Nat}

theorem exists_nearestLevel (hlast : last < 2 ^ 31) (lod : Single) :
    ∃ k ≤ last, nearestLevel lod last = Int32.ofNat k := by
  have hclamp := toInt_clampIndex_zero lod.roundAway.toInt32 (Int32.ofNat last)
  rw [Int32.toInt_ofNat_of_lt hlast] at hclamp
  apply exists_eq_ofNat <;> rw [nearestLevel] <;> omega

private theorem toInt_blend_first (hlast : last < 2 ^ 31) (lod : Single) :
    0 ≤ (blend lod last).first.toInt ∧ (blend lod last).first.toInt ≤ last := by
  have hlastInt := Int32.toInt_ofNat_of_lt hlast
  have hsub : (Int32.ofNat last - 1).toInt = (Int32.ofNat last).toInt - 1 :=
    toInt_sub_one (by omega)
  have hclamp := toInt_clampIndex_zero lod.floorInt32 (max (Int32.ofNat last - 1) 0)
  rw [toInt_max, hsub, hlastInt, Int32.toInt_zero] at hclamp
  simp only [blend]
  omega

theorem exists_blend_first (hlast : last < 2 ^ 31) (lod : Single) :
    ∃ k ≤ last, (blend lod last).first = Int32.ofNat k := by
  obtain ⟨h0, h1⟩ := toInt_blend_first hlast lod
  exact exists_eq_ofNat h0 h1

/-- The second level is the one after the first, held at the last. Should the first be the greatest
word there is, the word after it is negative; no surface has so many levels. -/
theorem exists_blend_second (hlast : last < 2 ^ 31 - 1) (lod : Single) :
    ∃ k ≤ last, (blend lod last).second = Int32.ofNat k := by
  obtain ⟨h0, h1⟩ := toInt_blend_first (Nat.lt_of_lt_of_le hlast (by decide)) lod
  have hlastInt := Int32.toInt_ofNat_of_lt (n := last) (Nat.lt_of_lt_of_le hlast (by decide))
  have hnext : ((blend lod last).first + 1).toInt = (blend lod last).first.toInt + 1 :=
    toInt_add_one (by omega)
  have hmin : (blend lod last).second.toInt
      = min ((blend lod last).first + 1).toInt (Int32.ofNat last).toInt := toInt_min _ _
  rw [hnext, hlastInt] at hmin
  apply exists_eq_ofNat <;> omega

end Lod

namespace Levels

theorem next_ofLods {state : StaticState}
    (hmip : state.mipFilter = .base ∨ state.mipFilter = .nearest) (surface : Surface)
    (lods : Option (Quad Single)) : (ofLods state surface lods).next = none := by
  rcases hmip with hmip | hmip <;> rw [ofLods, hmip]

theorem base_ofLods {state : StaticState} (hmip : state.mipFilter = .base) (surface : Surface)
    (lods : Option (Quad Single)) (lane : Fin 4) :
    (ofLods state surface lods).base.get lane = .ofSurface state surface 0 := by
  rw [ofLods, hmip]
  exact Quad.get_splat _ lane

end Levels

/-- The levels that lanes read are levels of the surface. -/
theorem Levels.exists_of_reads_ofLods {state : StaticState} {surface : Surface}
    {lods : Option (Quad Single)} {lane : Fin 4} {view : LevelView}
    (hlast : surface.lastLevel < 2 ^ 31 - 1) (h : (ofLods state surface lods).Reads lane view) :
    ∃ k ≤ surface.lastLevel, view = .ofSurface state surface (Int32.ofNat k) := by
  have hlast' : surface.lastLevel < 2 ^ 31 := Nat.lt_of_lt_of_le hlast (by decide)
  -- only a linear mip filter has a further level to read
  cases hmip : state.mipFilter with
  | base =>
    simp only [ofLods, hmip, Reads, Quad.get_splat] at h
    rcases h with rfl | ⟨next, hnext, -⟩
    · exact ⟨0, Nat.zero_le _, rfl⟩
    · exact nomatch hnext
  | nearest =>
    simp only [ofLods, hmip, Reads, Quad.get_map] at h
    rcases h with rfl | ⟨next, hnext, -⟩
    · obtain ⟨k, hk, heq⟩ := Lod.exists_nearestLevel hlast' ((lods.getD (.splat 0)).get lane)
      exact ⟨k, hk, by rw [heq]⟩
    · exact nomatch hnext
  | linear =>
    simp only [ofLods, hmip, Reads, Quad.get_map] at h
    rcases h with rfl | ⟨next, hnext, rfl⟩
    · obtain ⟨k, hk, heq⟩ := Lod.exists_blend_first hlast' ((lods.getD (.splat 0)).get lane)
      exact ⟨k, hk, by rw [heq]⟩
    · obtain rfl := Option.some.inj hnext
      obtain ⟨k, hk, heq⟩ := Lod.exists_blend_second hlast ((lods.getD (.splat 0)).get lane)
      exact ⟨k, hk, by rw [Quad.get_map, Quad.get_map, heq]⟩

/-! ## Paths -/

/-- Whether a path can serve a state. Numbers serve all states and fixed point those with simple
wraps; the white path, which samples nothing, is left out. -/
def Path.Serves (path : Path) (state : StaticState) : Prop :=
  match path with
  | .fixedPoint wraps => SimpleWrap.ofState? state = some wraps
  | .numbers => True
  | .white => False

/-- The path that a sampler is specialized with serves its state. -/
theorem Sampler.serves_specialize (state : StaticState) :
    (specialize state .normal).path.Serves state := by
  rw [specialize]
  cases h : SimpleWrap.ofState? state with
  | some wraps => exact h
  | none => trivial

/-! ## Places -/

/-- Whether the slice of a place is there: a cube has six, and elsewhere the slice is the first. -/
def Place.IsOnFace (state : StaticState) (place : Place) : Prop :=
  0 ≤ place.face.toInt ∧ place.face.toInt < if state.target = .cube then 6 else 1

theorem CubePoint.face_major (d : Axes Single) :
    0 ≤ (major d).1.toInt ∧ (major d).1.toInt < 6 := by
  simp only [major]
  repeat' split
  all_goals
    dsimp only
    decide

theorem Request.coords_places (request : Request) {state : StaticState}
    (hflat : state.target ≠ .cube) (lane : Fin 4) :
    ((request.places state).get lane).coords = request.direction lane := by
  rw [places, Quad.get_ofFn, if_neg hflat]

theorem Request.isOnFace_places (request : Request) (state : StaticState) (lane : Fin 4) :
    ((request.places state).get lane).IsOnFace state := by
  rw [places, Quad.get_ofFn, Place.IsOnFace]
  split
  · exact CubePoint.face_major _
  · exact ⟨le_refl 0, Int.one_pos⟩

/-! ## Filtering twice

Two sampling calls are often compared stage by stage, and what happens between the levels and the
colours of a quad is the same in both: a blend of two reads, one level or two, one filter or two.
If related levels make equal images, filtering makes equal quads (`Levels.Related.filter_eq`), and
the choice of the filter adds nothing to it (`filterByLod_congr`).
-/

section Twice

variable {C : Type u}

theorem Straddle.blend_congr {W : Type} {mix : W → C → C → C} {read₁ read₂ : Int32 → Except Fault C}
    {w : Straddle W} (hfirst : read₁ w.first = read₂ w.first)
    (hsecond : read₁ w.second = read₂ w.second) : w.blend mix read₁ = w.blend mix read₂ := by
  rw [Straddle.blend, Straddle.blend, hfirst, hsecond]

/-- Whether two choices of levels are the same up to a relation of levels: each lane has related
levels in both, and its further levels have one weight. -/
structure Levels.Related (R : LevelView → LevelView → Prop) (levels₁ levels₂ : Levels) : Prop where
  base : ∀ lane, R (levels₁.base.get lane) (levels₂.base.get lane)
  next : Option.Rel (fun next₁ next₂ ↦ ∀ lane, R (next₁.get lane).view (next₂.get lane).view ∧
    (next₁.get lane).weight = (next₂.get lane).weight) levels₁.next levels₂.next

namespace Levels

variable {R : LevelView → LevelView → Prop} {levels₁ levels₂ : Levels}

theorem related_refl (h : ∀ view, R view view) (levels : Levels) : Related R levels levels where
  base lane := h _
  next := by
    cases levels.next with
    | none => exact .none
    | some next => exact .some fun lane ↦ ⟨h _, rfl⟩

/-- Filtering depends on the images of the levels that lanes read, and on the weights. -/
theorem Related.filter_eq (h : Related R levels₁ levels₂)
    {image₁ image₂ : LevelView → Place → Except Fault C} {mix : Single → C → C → C}
    {places₁ places₂ : Quad Place}
    (himage : ∀ lane view₁ view₂, R view₁ view₂ →
      image₁ view₁ (places₁.get lane) = image₂ view₂ (places₂.get lane)) :
    levels₁.filter image₁ mix places₁ = levels₂.filter image₂ mix places₂ := by
  obtain ⟨base₁, next₁⟩ := levels₁
  obtain ⟨base₂, next₂⟩ := levels₂
  have hnear : (fun lane ↦ image₁ (base₁.get lane) (places₁.get lane))
      = fun lane ↦ image₂ (base₂.get lane) (places₂.get lane) :=
    funext fun lane ↦ himage lane _ _ (h.base lane)
  simp only [filter, hnear]
  cases h.next with
  | none => rfl
  | @some next₁ next₂ hlanes =>
    have hfar : (fun lane ↦ image₁ (next₁.get lane).view (places₁.get lane))
        = fun lane ↦ image₂ (next₂.get lane).view (places₂.get lane) :=
      funext fun lane ↦ himage lane _ _ (hlanes lane).1
    have hweight : ∀ lane, (next₁.get lane).weight = (next₂.get lane).weight :=
      fun lane ↦ (hlanes lane).2
    have hany : (next₁.any fun n ↦ Single.lt 0 n.weight)
        = next₂.any fun n ↦ Single.lt 0 n.weight :=
      Quad.any_congr fun lane ↦ by rw [hweight]
    simp only [hany, hfar, hweight]

end Levels

theorem filterByLod_congr {state₁ state₂ : StaticState} (hmin : state₁.minFilter = state₂.minFilter)
    (hmag : state₁.magFilter = state₂.magFilter) (lods : Option (Quad Single))
    {run₁ run₂ : ImageFilter → Except Fault (Quad C)} (h : ∀ filter, run₁ filter = run₂ filter) :
    filterByLod state₁ lods run₁ = filterByLod state₂ lods run₂ := by
  rw [filterByLod, filterByLod, hmin, hmag, h, h]

end Twice

end QuadSampler
