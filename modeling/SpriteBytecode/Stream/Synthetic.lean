/-!
Synthetic word streams for load tests. Shipped animations have a few dozen words; these grow to any
size, and stay meaningful as long as every jump target fits in twelve bits.
-/

set_option autoImplicit false
set_option relaxedAutoImplicit false

namespace SpriteBytecode.SyntheticStream

/-- One frame selects a raster and waits two ticks; every fourth also shifts the position. -/
def frame (index : Nat) : List UInt16 :=
  (0x1000 + UInt16.ofNat (index % 0x800)) ::
    ((if index % 4 = 3 then [0x3000, 0, 0xFFFE, 0] else []) ++ [0x0002])

/-- Frames in sequence, then a loop over all of them, then a jump back to the start. -/
def frames (count : Nat) (repeats : Int16) : List UInt16 :=
  (List.range count).flatMap frame ++ [0x7000, repeats.toUInt16, 0x2000]

/-- A block jumps to the wait that is its own second word. -/
def jumpBlock (index : Nat) : List UInt16 :=
  [0x2000 + UInt16.ofNat ((2 * index + 1) % 0x1000), 0x0002]

def jumps (blocks : Nat) : List UInt16 := (List.range blocks).flatMap jumpBlock

end SpriteBytecode.SyntheticStream
