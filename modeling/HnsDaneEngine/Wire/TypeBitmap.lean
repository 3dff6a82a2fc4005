import HnsDaneEngine.Encoding.Octets

/-!
# Type bitmaps as window blocks

RFC 4034 section 4.1.2 splits the type space into 256 windows and lists, for
the non-empty windows in increasing order, the window number, the number of
bitmap octets and the octets.  A bitmap of this shape denotes a set of types;
both denial crates scan the octets for the block of one window.
-/

namespace HnsDaneEngine.TypeBitmap

/-- One window with its bitmap octets. -/
structure Block where
  window : UInt8
  bits : Octets
  bits_pos : 0 < bits.length
  bits_le : bits.length ≤ 32

/-- Wire octets of one block. -/
def Block.encode (block : Block) : Octets :=
  block.window :: UInt8.ofNat block.bits.length :: block.bits

/-- The window number of a type. -/
def windowOf (code : UInt16) : UInt8 :=
  (code >>> 8).toUInt8

/-- The position of a type in its window. -/
def lowOf (code : UInt16) : Nat :=
  (code &&& 0xff).toNat

/-- Whether the octets of a window have the bit of a position. -/
def bitIsSet (bits : Octets) (low : Nat) : Bool :=
  match bits[low / 8]? with
  | some byte => byte &&& (0x80 >>> UInt8.ofNat (low % 8)) != 0
  | none => false

/-- A bitmap: blocks with strictly increasing windows. -/
structure Blocks where
  list : List Block
  increasing : list.Pairwise (fun first second => first.window.toNat < second.window.toNat)

/-- Wire octets of a bitmap. -/
def encodeBlocks (blocks : List Block) : Octets :=
  blocks.flatMap Block.encode

def Blocks.encode (blocks : Blocks) : Octets :=
  encodeBlocks blocks.list

/-- The first block of a window decides membership of the window's types. -/
def blocksHave : List Block → UInt16 → Bool
  | [], _ => false
  | block :: rest, code =>
    if block.window = windowOf code then bitIsSet block.bits (lowOf code)
    else blocksHave rest code

/-- The set of types that a bitmap denotes. -/
def Blocks.has (blocks : Blocks) (code : UInt16) : Bool :=
  blocksHave blocks.list code

@[simp]
theorem Block.toNat_ofNat_length (block : Block) :
    (UInt8.ofNat block.bits.length).toNat = block.bits.length := by
  have bound := block.bits_le
  simp only [UInt8.toNat_ofNat']
  omega

theorem Block.length_inRange (block : Block) :
    ¬ (UInt8.ofNat block.bits.length = 0 ∨ 32 < UInt8.ofNat block.bits.length) := by
  have positive := block.bits_pos
  have bounded := block.bits_le
  rw [UInt8.lt_iff_toNat_lt, ← UInt8.toNat_inj, block.toNat_ofNat_length]
  simp only [UInt8.reduceToNat]
  omega

theorem encodeBlocks_cons (block : Block) (rest : List Block) :
    encodeBlocks (block :: rest) =
      block.window :: UInt8.ofNat block.bits.length :: (block.bits ++ encodeBlocks rest) :=
  rfl

end HnsDaneEngine.TypeBitmap
