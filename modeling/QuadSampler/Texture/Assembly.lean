import QuadSampler.Texture.Basic

/-!
# Assembling a texture in place

`Texture.build` makes each level as a value of its own and joins them at the end. `Texture.assemble`
makes the texture as a machine does. It enters the levels in a table of `maxLevels` rows, takes one
storage of zeros for all of them, and writes the levels where they lie: the first level and given
ones as copies, averaged ones byte by byte from the level above.

Whatever a machine can get wrong in this is checked step by step and ends in a `Fault`: an index
beside its array, a stretch beside its storage, a result that does not fit its word, an entry in a
full table. Indices of texels and sums of bytes are words of 32 bits, offsets and sizes words of 64,
and all terms are natural numbers, so that a sum fits exactly if all its partial sums do.
-/

namespace QuadSampler

/-! ## Words and stretches -/

/-- A result for which there is a word of so many bits. -/
def fitted (bits n : Nat) : Except Fault Nat :=
  if n < 2 ^ bits then .ok n else .error .wordOverflow

namespace Storage

/-- The stretch of `count` bytes from `start` on. -/
def stretchAt (bytes : ByteArray) (start count : Nat) : Except Fault ByteArray :=
  if start + count ≤ bytes.size then .ok (bytes.extract start (start + count))
  else .error .outsideStorage

/-- The storage with other bytes from `start` on. -/
def overwrite (bytes : ByteArray) (start : Nat) (part : ByteArray) : ByteArray :=
  bytes.extract 0 start ++ part ++ bytes.extract (start + part.size) bytes.size

/-- The storage with another byte at an offset. -/
def setByte (bytes : ByteArray) (offset : Nat) (byte : UInt8) : Except Fault ByteArray :=
  if h : offset < bytes.size then .ok (bytes.set offset byte) else .error .outsideStorage

def zeros (size : Nat) : ByteArray := (List.replicate size 0).toByteArray

/-- A new storage, which is zero everywhere. -/
def allocate (size : Nat) : Except Fault ByteArray :=
  if size ≤ maxSize then .ok (zeros size) else .error .storageTooLarge

end Storage

namespace LevelLayout

/-! ## Averages in place -/

/-- The two parent indices that index `i` covers, held inside the parent. -/
def coveredWords (i length : Nat) : Except Fault (List Nat) := do
  let first ← fitted 32 (2 * i)
  let second ← fitted 32 (2 * i + 1)
  if length = 0 then .error .wordOverflow
  else return [min first (length - 1), min second (length - 1)]

/-- The slices of the parent that slice `z` covers. -/
def coveredSlices (parent : LevelLayout) (reduceSlices : Bool) (z : Nat) :
    Except Fault (List Nat) :=
  if reduceSlices then coveredWords z parent.extent.r else .ok [z]

/-- Sums over texels, one for each byte of a texel. There is room for the bytes of any format. -/
abbrev Sums := Vector Nat 16

/-- Adds byte `c` of the texel at an offset. -/
def addByte (bytes : ByteArray) (offset : Nat) (sums : Sums) (c : Nat) : Except Fault Sums := do
  let byte ← Storage.byteAt bytes (offset + c)
  if h : c < 16 then
    let sum ← fitted 32 (sums[c] + byte.toNat)
    return sums.set c sum
  else .error .outsideStorage

/-- The sums over the texels that texel `(x, y)` covers in some slices of the parent. -/
def sumCovered (parent : LevelLayout) (bytesPerTexel : Nat) (bytes : ByteArray) (slices : List Nat)
    (x y : Nat) : Except Fault Sums :=
  slices.foldlM (fun sums z ↦ do
    let rows ← coveredWords y parent.extent.t
    rows.foldlM (fun sums y ↦ do
      let columns ← coveredWords x parent.extent.s
      columns.foldlM (fun sums x ↦ do
        let offset ← fitted 64 (z * parent.sliceStride + y * parent.rowStride + x * bytesPerTexel)
        (List.range bytesPerTexel).foldlM (addByte bytes offset) sums) sums) sums)
    (Vector.replicate 16 0)

/-- Writes byte `c` of the texel at an offset, the rounded mean of `count` bytes of a sum. -/
def writeMean (sums : Sums) (count offset : Nat) (bytes : ByteArray) (c : Nat) :
    Except Fault ByteArray := do
  if h : c < 16 then
    let rounded ← fitted 32 (sums[c] + count / 2)
    let mean ← fitted 8 (rounded / count)
    Storage.setByte bytes (offset + c) (UInt8.ofNat mean)
  else .error .outsideStorage

/-- Writes texel `(x, y, z)`, averaged over some slices of the parent. -/
def writeTexel (parent child : LevelLayout) (bytesPerTexel : Nat) (parentBytes : ByteArray)
    (slices : List Nat) (z y : Nat) (bytes : ByteArray) (x : Nat) : Except Fault ByteArray := do
  let sums ← parent.sumCovered bytesPerTexel parentBytes slices x y
  let count ← fitted 32 (4 * slices.length)
  let offset ← fitted 64 (z * child.sliceStride + y * child.rowStride + x * bytesPerTexel)
  (List.range bytesPerTexel).foldlM (writeMean sums count offset) bytes

def writeTexels (parent child : LevelLayout) (bytesPerTexel : Nat) (reduceSlices : Bool)
    (parentBytes bytes : ByteArray) : Except Fault ByteArray :=
  (List.range child.extent.r).foldlM (fun bytes z ↦ do
    let slices ← parent.coveredSlices reduceSlices z
    (List.range child.extent.t).foldlM (fun bytes y ↦
      (List.range child.extent.s).foldlM
        (parent.writeTexel child bytesPerTexel parentBytes slices z y) bytes) bytes) bytes

/-- Writes a level into the storage that its parent lies in, before it. -/
def writeLevel (bytesPerTexel : Nat) (reduceSlices : Bool) (storage : ByteArray)
    (parent child : LevelLayout) : Except Fault ByteArray := do
  let before ← Storage.stretchAt storage 0 child.offset
  let parentBytes ← Storage.stretchAt before parent.offset parent.size
  let bytes ← Storage.stretchAt storage child.offset child.size
  let written ← parent.writeTexels child bytesPerTexel reduceSlices parentBytes bytes
  return Storage.overwrite storage child.offset written

end LevelLayout

/-! ## The table of levels -/

namespace Source

/-- Enters a level that begins at the end of the levels before it, and moves the end. -/
def enterLevel (source : Source) (entered : List LevelLayout × Nat) (level : Nat) :
    Except Fault (List LevelLayout × Nat) := do
  let (table, offset) := entered
  let layout := source.layoutAt level offset
  let _ ← fitted 64 layout.rowStride
  let _ ← fitted 64 layout.sliceStride
  let _ ← fitted 64 layout.size
  let next ← fitted 64 (offset + layout.size)
  if table.length < maxLevels then return (table ++ [layout], next) else .error .tableFull

/-- The table of all levels, and their size together. -/
def levelTable (source : Source) : Except Fault (List LevelLayout × Nat) :=
  (List.range source.levelCount).foldlM source.enterLevel ([], 0)

def entry (table : List LevelLayout) (level : Nat) : Except Fault LevelLayout :=
  match table[level]? with
  | some layout => .ok layout
  | none => .error .outsideStorage

/-! ## The levels -/

def copyLevel (storage : ByteArray) (layout : LevelLayout) (bytes : ByteArray) (level : Nat) :
    Except BuildFailure ByteArray := do
  checkSize level layout bytes
  let _ ← (Storage.stretchAt storage layout.offset layout.size).mapError .aborted
  return Storage.overwrite storage layout.offset bytes

/-- Copies levels from number `level` on. -/
def copyLevels (table : List LevelLayout) (level : Nat) (storage : ByteArray) :
    List ByteArray → Except BuildFailure ByteArray
  | [] => .ok storage
  | bytes :: rest => do
    let layout ← (entry table level).mapError .aborted
    let storage ← copyLevel storage layout bytes level
    copyLevels table (level + 1) storage rest

/-- Writes averaged levels from number `level` on. -/
def writeLevels (source : Source) (table : List LevelLayout) (level : Nat) (storage : ByteArray) :
    Nat → Except Fault ByteArray
  | 0 => .ok storage
  | count + 1 => do
    let parent ← entry table (level - 1)
    let child ← entry table level
    let storage ← LevelLayout.writeLevel source.format.info.bytesPerBlock
      (source.target = .texture3D) storage parent child
    source.writeLevels table (level + 1) storage count

/-- Writes the levels after the first. -/
def writeFurther (source : Source) (table : List LevelLayout) (storage : ByteArray) :
    Except BuildFailure ByteArray :=
  match source.further with
  | .absent => .ok storage
  | .given levels => copyLevels table 1 storage levels
  | .generated =>
    if source.format.info.isBytewise then
      (source.writeLevels table 1 storage (source.levelCount - 1)).mapError .aborted
    else .error (.refused (.generationUnsupported source.format))

end Source

/-- The texture of a source, assembled in its storage. -/
def Texture.assemble (source : Source) : Except BuildFailure Texture := do
  source.checkExtent
  source.checkLevelCount
  let (table, size) ← source.levelTable.mapError .aborted
  let storage ← (Storage.allocate size).mapError .aborted
  if h : table = [] then .error (.aborted .outsideStorage)
  else
    let storage ← Source.copyLevel storage (table.head h) source.texels 0
    let storage ← source.writeFurther table storage
    return {
      bytes := storage
      layouts := table
      format := source.format
      target := source.target
      layouts_ne_nil := h }

end QuadSampler
