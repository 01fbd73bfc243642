import QuadSampler.Proofs.Texture.Assembly

/-!
# Which sources are refused, and for what

Everything that can be wrong with a source is listed here in one order (`Source.flaws`), without
regard to how a texture is built: what is wrong with its shape, then the levels of a wrong size,
then a format that cannot be averaged. A source is refused for the first of its flaws, and a source
without flaws is built (`Texture.map_build_eq`).

Between the two kinds of flaws lies the storage. It is made for all levels before the size of any of
them is looked at, so where the levels together are larger than a storage can be, nothing is said
about their sizes: a source of that shape aborts, also one that carries no bytes at all.
-/

namespace QuadSampler

/-! ## Lists of flaws -/

/-- The flaw that there is under a condition. -/
def flawIf (p : Prop) [Decidable p] (flaw : Refusal) : List Refusal := if p then [flaw] else []

/-- Refuses for the first flaw. -/
def refuseFirst : List Refusal → Except BuildFailure Unit
  | [] => .ok ()
  | flaw :: _ => .error (.refused flaw)

private theorem refuseFirst_append (flaws more : List Refusal) :
    refuseFirst (flaws ++ more) = (refuseFirst flaws >>= fun _ ↦ refuseFirst more) := by
  cases flaws with
  | nil => rfl
  | cons flaw rest => rfl

private theorem refuseFirst_flawIf (p : Prop) [Decidable p] (flaw : Refusal) :
    refuseFirst (flawIf p flaw) = if p then .error (.refused flaw) else .ok () := by
  rw [flawIf]
  split <;> rfl

/-- The formats made of whole bytes, each an integer channel. -/
def PixelFormat.averaged : List PixelFormat :=
  [.rgba8Unorm, .bgra8Unorm, .rgb8Unorm, .l8Unorm, .a8Unorm, .l8a8Unorm]

private theorem PixelFormat.isBytewise_iff (f : PixelFormat) :
    f.info.isBytewise = true ↔ f ∈ averaged := by
  cases f <;> decide

namespace Source

variable {source : Source} {k : Nat}

/-- Whether the extents suit the kind of texture. -/
def IsSuitable (source : Source) : Prop :=
  match source.target with
  | .texture1D => source.extent.t = 1 ∧ source.extent.r = 1
  | .texture2D | .rect => source.extent.r = 1
  | .texture3D => True
  | .cube => source.extent.s = source.extent.t ∧ source.extent.r = 6

private theorem hasValidExtent_iff (source : Source) :
    source.hasValidExtent = true ↔ source.IsSuitable := by
  rw [hasValidExtent, IsSuitable]
  cases source.target with
  | texture1D => rw [Bool.and_eq_true, beq_iff_eq, beq_iff_eq]
  | texture2D => rw [beq_iff_eq]
  | texture3D => exact iff_of_true rfl trivial
  | cube => rw [Bool.and_eq_true, beq_iff_eq, beq_iff_eq]
  | rect => rw [beq_iff_eq]

instance : Decidable source.IsSuitable := decidable_of_iff _ source.hasValidExtent_iff

/-- The size that the extents of a level, its blocks and the number of its slices give it. -/
def impliedSize (source : Source) (k : Nat) : Nat :=
  let f := source.format.info
  let width := max (source.extent.s >>> k) 1
  let height := max (source.extent.t >>> k) 1
  let slices := if source.target = .texture3D then max (source.extent.r >>> k) 1
    else source.extent.r
  (width ⌈/⌉ f.block.width) * f.bytesPerBlock * (height ⌈/⌉ f.block.height) * slices

/-! ## The flaws of a source -/

/-- What is wrong with the extents and the number of levels. -/
def shapeFlaws (source : Source) : List Refusal :=
  let extent := source.extent
  let count := source.levelCount
  flawIf (extent.s = 0 ∨ extent.t = 0 ∨ extent.r = 0) (.zeroExtent extent) ++
    flawIf (¬ source.IsSuitable) (.invalidExtent source.target extent) ++
    flawIf (1 < count ∧ source.target = .rect) .rectWithLevels ++
    flawIf (source.fullChain < count) (.tooManyLevels count source.fullChain)

/-- The levels of a wrong size, of given ones from number `k` on. -/
def sizeFlaws (source : Source) (k : Nat) : List ByteArray → List Refusal
  | [] => []
  | bytes :: rest =>
    flawIf (bytes.size ≠ source.impliedSize k) (.dataSize k (source.impliedSize k) bytes.size) ++
      source.sizeFlaws (k + 1) rest

/-- What is wrong with the levels after the first. -/
def furtherFlaws (source : Source) : List Refusal :=
  match source.further with
  | .absent => []
  | .given levels => source.sizeFlaws 1 levels
  | .generated =>
    flawIf (source.format ∉ PixelFormat.averaged) (.generationUnsupported source.format)

/-- All that is wrong with a source, in the order in which it is told. -/
def flaws (source : Source) : List Refusal :=
  source.shapeFlaws ++ (source.sizeFlaws 0 [source.texels] ++ source.furtherFlaws)

/-! ## Checks look for flaws -/

private theorem checkShape_eq (source : Source) :
    (source.checkExtent >>= fun _ ↦ source.checkLevelCount) = refuseFirst source.shapeFlaws := by
  have hextent : source.checkExtent = refuseFirst
      (flawIf (source.extent.s = 0 ∨ source.extent.t = 0 ∨ source.extent.r = 0)
          (.zeroExtent source.extent) ++
        flawIf (¬ source.IsSuitable) (.invalidExtent source.target source.extent)) := by
    rw [refuseFirst_append, refuseFirst_flawIf, refuseFirst_flawIf, checkExtent]
    simp only [source.hasValidExtent_iff]
    split
    · rfl
    · rw [ite_not]
      rfl
  have hcount : source.checkLevelCount = refuseFirst
      (flawIf (1 < source.levelCount ∧ source.target = .rect) .rectWithLevels ++
        flawIf (source.fullChain < source.levelCount)
          (.tooManyLevels source.levelCount source.fullChain)) := by
    rw [refuseFirst_append, refuseFirst_flawIf, refuseFirst_flawIf, checkLevelCount]
    split
    · rfl
    · rfl
  rw [hextent, hcount, ← refuseFirst_append, ← List.append_assoc]
  rfl

private theorem checks_eq_ok (h : source.shapeFlaws = []) :
    source.checkExtent = .ok () ∧ source.checkLevelCount = .ok () := by
  obtain ⟨_, hextent, hcount⟩ := bind_eq_ok.1 (source.checkShape_eq.trans (congrArg refuseFirst h))
  exact ⟨hextent, hcount⟩

private theorem levelSize_eq_impliedSize (hk : k ≤ 31) :
    source.levelSize k = source.impliedSize k := by
  rw [impliedSize, ← levelExtent_eq_max hk, ← levelExtent_eq_max hk, ← levelExtent_eq_max hk]
  rfl

theorem checkSize_eq (hk : k ≤ 31) (offset : Nat) (bytes : ByteArray) :
    checkSize k (source.layoutAt k offset) bytes
      = refuseFirst (flawIf (bytes.size ≠ source.impliedSize k)
          (.dataSize k (source.impliedSize k) bytes.size)) := by
  have hsize : (source.layoutAt k offset).size = source.impliedSize k := levelSize_eq_impliedSize hk
  rw [refuseFirst_flawIf, checkSize, hsize, ite_not]

theorem checkedLevels_eq {given : List ByteArray} (hk : k + given.length ≤ 32) (offset : Nat) :
    (checkedLevels k (source.layoutsFrom k offset given.length) given).map (fun _ ↦ ())
      = refuseFirst (source.sizeFlaws k given) := by
  induction given generalizing k offset with
  | nil => rfl
  | cons bytes rest ih =>
    rw [List.length_cons] at hk
    rw [sizeFlaws, refuseFirst_append, ← checkSize_eq (by omega) offset,
      ← ih (by omega) (offset + (source.layoutAt k offset).size), List.length_cons, layoutsFrom,
      checkedLevels]
    cases checkSize k (source.layoutAt k offset) bytes with
    | error failure => rfl
    | ok u =>
      exact map_bind_ok _ (bytes :: ·) fun _ ↦ ()

/-- Nothing is wrong with the levels after the first but their flaws: averages do not fail. -/
theorem furtherLevels_eq (hr : 0 < source.extent.r) (hcount : source.levelCount ≤ maxLevels)
    (hbase : source.texels.size = source.levelSize 0) :
    source.furtherLevels.map (fun _ ↦ ()) = refuseFirst source.furtherFlaws := by
  have hmax : maxLevels = 16 := rfl
  rw [furtherLevels, furtherFlaws]
  cases hfurther : source.further with
  | absent => rfl
  | given levels =>
    have hgiven : source.levelCount = levels.length + 1 := by rw [levelCount, hfurther]
    rw [furtherLayouts, hgiven, Nat.add_sub_cancel]
    exact checkedLevels_eq (by omega) _
  | generated =>
    simp only [refuseFirst_flawIf, ← PixelFormat.isBytewise_iff, ite_not]
    by_cases hbytewise : source.format.info.isBytewise = true
    · rw [if_pos hbytewise, if_pos hbytewise]
      obtain ⟨levels, hlevels⟩ := @exists_reduceChain_eq_ok source hbytewise hr 0
        (source.levelCount - 1) (by omega) 0 _ hbase
      rw [Nat.zero_add, Nat.zero_add] at hlevels
      rw [baseLayout, furtherLayouts, baseLayout, hlevels]
      rfl
    · rw [if_neg hbytewise, if_neg hbytewise, map_error]

end Source

namespace Texture

variable {source : Source}

/-- A source of a flawed shape goes no further. -/
theorem build_eq_refused_of_shapeFlaws {flaw : Refusal} {rest : List Refusal}
    (h : source.shapeFlaws = flaw :: rest) :
    build source = .error (.refused flaw) ∧ assemble source = .error (.refused flaw) := by
  have hshape := source.checkShape_eq
  rw [h] at hshape
  constructor
  · rw [build, ← bind_assoc, hshape]
    rfl
  · rw [assemble, ← bind_assoc, hshape]
    rfl

/-- Where the levels fit a storage, a source is refused for its flaws alone. -/
theorem map_build_eq (hsize : source.totalSize ≤ Storage.maxSize) :
    (build source).map (fun _ ↦ ()) = refuseFirst source.flaws := by
  cases hshape : source.shapeFlaws with
  | cons flaw rest =>
    rw [(build_eq_refused_of_shapeFlaws hshape).1, Source.flaws, hshape]
    rfl
  | nil =>
    obtain ⟨hextent, hcount⟩ := Source.checks_eq_ok hshape
    have hstorage : source.checkStorage = .ok () := if_pos hsize
    have hpos := (Source.of_checkExtent_eq_ok hextent).1
    have hlevels : source.levelCount ≤ maxLevels :=
      Nat.le_trans (Source.of_checkLevelCount_eq_ok hcount) (Nat.min_le_right _ _)
    rw [build, hextent, hcount, hstorage, Source.flaws, hshape, List.nil_append,
      refuseFirst_append, Source.sizeFlaws, Source.sizeFlaws, List.append_nil,
      ← Source.checkSize_eq (Nat.zero_le _) 0, ← Source.baseLayout, ok_bind, ok_bind, ok_bind]
    cases hbase : Source.checkSize 0 source.baseLayout source.texels with
    | error failure => rfl
    | ok u =>
      rw [ok_bind, ok_bind,
        ← Source.furtherLevels_eq hpos.2.2 hlevels (Source.size_of_checkSize_eq_ok hbase)]
      exact map_bind_ok source.furtherLevels _ fun _ ↦ ()

end Texture

/-- **Refusals.** A source of words whose levels together fit a storage is refused for the first of
its flaws, and built if it has none, and no step of the assembly of its texture fails. Where the
levels fit no storage, a flaw in the shape is still told, and without one the build aborts. -/
theorem build_refuses_first_flaw {source : Source}
    (hwords : source.extent.s < 2 ^ 32 ∧ source.extent.t < 2 ^ 32 ∧ source.extent.r < 2 ^ 32) :
    (source.totalSize ≤ Storage.maxSize →
      (∀ flaw ∈ source.flaws.head?, Texture.build source = .error (.refused flaw) ∧
        Texture.assemble source = .error (.refused flaw)) ∧
      (source.flaws = [] → ∃ texture, Texture.build source = .ok texture ∧
        Texture.assemble source = .ok texture)) ∧
    (Storage.maxSize < source.totalSize → source.totalSize < 2 ^ 64 →
      (∀ flaw ∈ source.shapeFlaws.head?, Texture.build source = .error (.refused flaw) ∧
        Texture.assemble source = .error (.refused flaw)) ∧
      (source.shapeFlaws = [] → Texture.build source = .error (.aborted .storageTooLarge) ∧
        ∃ fault, Texture.assemble source = .error (.aborted fault))) := by
  refine ⟨fun hsize ↦ ?_, fun hsize _ ↦ ⟨fun flaw hflaw ↦ ?_, fun hshape ↦ ?_⟩⟩
  · rw [Texture.assemble_eq_build hwords hsize]
    have hbuild := Texture.map_build_eq hsize
    refine ⟨fun flaw hflaw ↦ ?_, fun hnone ↦ ?_⟩
    · obtain ⟨rest, hflaws⟩ := List.head?_eq_some_iff.1 (Option.mem_def.1 hflaw)
      rw [hflaws] at hbuild
      cases hresult : Texture.build source with
      | error failure =>
        rw [hresult] at hbuild
        obtain rfl := Except.error.inj hbuild
        exact ⟨rfl, rfl⟩
      | ok texture =>
        rw [hresult] at hbuild
        exact nomatch hbuild
    · rw [hnone] at hbuild
      cases hresult : Texture.build source with
      | error failure =>
        rw [hresult] at hbuild
        exact nomatch hbuild
      | ok texture => exact ⟨texture, rfl, rfl⟩
  · obtain ⟨rest, hflaws⟩ := List.head?_eq_some_iff.1 (Option.mem_def.1 hflaw)
    exact Texture.build_eq_refused_of_shapeFlaws hflaws
  · obtain ⟨hextent, hcount⟩ := Source.checks_eq_ok hshape
    have hstorage : source.checkStorage = .error (.aborted .storageTooLarge) :=
      if_neg (Nat.not_le.2 hsize)
    refine ⟨?_, Texture.assemble_eq_aborted hextent hcount hsize⟩
    rw [Texture.build, hextent, hcount, hstorage]
    rfl

/-- Of a source that has a side of length zero and is no cube, the former is told. -/
theorem build_refuses_first_flaw_face :
    Texture.build ((Source.flat .empty 0 2 .l8Unorm).withTarget .cube 1)
        = .error (.refused (.zeroExtent ⟨0, 2, 1⟩)) ∧
      ∃ texture, Texture.build .volume = .ok texture := by
  obtain ⟨hfits, -⟩ := @build_refuses_first_flaw
    ((Source.flat .empty 0 2 .l8Unorm).withTarget .cube 1) (by decide)
  obtain ⟨hfits', -⟩ := @build_refuses_first_flaw .volume (by decide)
  obtain ⟨texture, htexture, -⟩ := (hfits' (by decide)).2 (by decide)
  exact ⟨((hfits (by decide)).1 _ rfl).1, texture, htexture⟩

/-! ## A source too large for a storage -/

/-- The largest square of single bytes, without any bytes. -/
def Source.hugeExtent : Source := .flat .empty (2 ^ 32 - 1) (2 ^ 32 - 1) .l8Unorm

/-- The size of the square is a word and the missing bytes are its only flaw, but the storage for
them cannot be made. -/
theorem build_huge_extent :
    Source.hugeExtent.totalSize < 2 ^ 64 ∧
      Source.hugeExtent.flaws = [.dataSize 0 18446744065119617025 0] ∧
      Texture.build .hugeExtent = .error (.aborted .storageTooLarge) ∧
      Texture.assemble .hugeExtent = .error (.aborted .storageTooLarge) := by
  refine ⟨by decide, by decide, rfl, rfl⟩

end QuadSampler
