import QuadSampler.StaticState

/-!
# Texel storage and surfaces

Texels lie in byte arrays and are read as little-endian words. A read that leaves the array is a
`Fault`: the call that made it ends without an answer. So is every other step that a machine cannot
go on from.

A `Surface` is everything a sampling call reads of the texture unit it samples: extents, the range
of levels, the limits of the level of detail, the border colour, and the stored bytes of each
level. Nothing of it is kept between calls, so one sampler serves every surface of its static
state.
-/

namespace QuadSampler

/-! ## Storage -/

/-- Why a call ends without an answer. -/
inductive Fault where
  /-- A byte was read or written that is not in the storage. -/
  | outsideStorage
  /-- A coordinate was wrapped along an axis of length zero. -/
  | zeroLength
  /-- More bytes were asked for than a storage can have. -/
  | storageTooLarge
  /-- A number does not fit its word. -/
  | wordOverflow
  /-- A table has no room for another entry. -/
  | tableFull
deriving DecidableEq, Repr

namespace Storage

def maxSize : Nat := 2 ^ 63 - 1

/-- The number with the given bytes, the lowest first. -/
def littleEndian : List UInt8 → Nat
  | [] => 0
  | b :: bs => b.toNat + 256 * littleEndian bs

def byteAt (bytes : ByteArray) (offset : Nat) : Except Fault UInt8 :=
  if h : offset < bytes.size then .ok bytes[offset] else .error .outsideStorage

/-- The `count` bytes from `offset` on. -/
def bytesAt (bytes : ByteArray) (offset count : Nat) : Except Fault (List UInt8) :=
  if offset + count ≤ bytes.size then .ok (bytes.extract offset (offset + count)).data.toList
  else .error .outsideStorage

/-- The word of `count` bytes at `offset`. -/
def wordAt (bytes : ByteArray) (offset count : Nat) : Except Fault Nat :=
  (bytesAt bytes offset count).map littleEndian

end Storage

/-! ## Surfaces -/

/-- The stored bytes of a level and the distances in them. -/
structure LevelStorage where
  /-- Bytes from one row of blocks to the next. -/
  rowStride : Nat
  /-- Bytes from one slice or face to the next. -/
  sliceStride : Nat
  bytes : ByteArray

/-- What a sampling call reads of a texture unit. -/
structure Surface where
  /-- Width, height and depth of the first level. -/
  extent : Axes Nat
  lastLevel : Nat
  minLod : Single
  maxLod : Single
  lodBias : Single
  border : Color Single
  /-- The storage of a level. -/
  level : Nat → LevelStorage

/-- The extent at a level: halved at each level and never below one. -/
def levelExtent (base level : Nat) : Nat := max (base / 2 ^ min level 31) 1

end QuadSampler
