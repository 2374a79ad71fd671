import Dialogue.Word

/-! # The hash of a word

A word is hashed in capitals, over its UTF-16 code units, so equal words hash alike whatever their
spelling, and the value depends on nothing but the word. -/

namespace Dialogue

/-- The UTF-16 code units of a character: one, or a surrogate pair beyond the basic plane. -/
def Text.units (c : Char) : List Nat :=
  let n := c.toNat
  if n < 0x10000 then [n]
  else [0xD800 + (n - 0x10000) / 0x400, 0xDC00 + (n - 0x10000) % 0x400]

namespace Word

/-- One step of the hash, `31 * acc + unit`, in signed 32-bit arithmetic that wraps around. -/
def hashStep (acc : Int32) (unit : Nat) : Int32 :=
  (acc <<< 5) - acc + Int32.ofNat unit

/-- The lowest `bits` bits set, and all of them from 32 on. -/
def hashMask (bits : Nat) : UInt32 :=
  if 32 ≤ bits then 0xFFFFFFFF else ((1 : UInt32) <<< bits.toUInt32) - 1

/-- The hash of a word, reduced to its lowest `bits` bits. -/
def hash (w : Word) (bits : Nat) : Nat :=
  (((w.folded.flatMap Text.units).foldl hashStep 0).toUInt32 &&& hashMask bits).toNat

end Word

end Dialogue
