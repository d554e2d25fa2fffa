/-
# Checksums

The cyclic redundancy check of 32 bits that chunks of image files end with, and
the pair of sums that compressed streams end with.
-/

import Letterpress.Octets.Reading

namespace Letterpress.Checksum

/-- The register after so many bits of it have been shifted out. -/
def shifted : Nat → UInt32 → UInt32
  | 0, register => register
  | n + 1, register =>
    let half := register >>> 1
    shifted n (if register &&& 1 = 1 then half ^^^ 0xEDB88320 else half)

/-- The register after an octet. -/
def step (register : UInt32) (b : UInt8) : UInt32 := shifted 8 (register ^^^ b.toUInt32)

/-- The checksum of octets. -/
def crc32 (bytes : Octets) : Nat := (bytes.foldl step 0xFFFFFFFF ^^^ 0xFFFFFFFF).toNat

/-- Sums are kept below this number. -/
def modulus : Nat := 65521

/-- The sum of octets, and the sum of these sums before it. -/
def adler32 (bytes : Octets) : Nat :=
  let (sum, sums) := bytes.foldl
    (fun (sum, sums) b =>
      let sum := (sum + b.toNat) % modulus
      (sum, (sums + sum) % modulus))
    (1, 0)
  65536 * sums + sum

end Letterpress.Checksum
