import ReleaseHistory.Digest.Words

/-!
# Streams of stored bytes

A compressed stream can hold bytes as they are, in blocks of at most 65535. A checksum of two sums
ends it.
-/

namespace ReleaseHistory.Digest

def adlerModulus : Nat := 65521

/-- The checksum of bytes: their sum, and the sum of all sums on the way. -/
def adler32 (bytes : List UInt8) : UInt32 :=
  let (a, b) := bytes.foldl (fun (a, b) x =>
    let a := (a + x.toNat) % adlerModulus
    (a, (b + a) % adlerModulus)) (1, 0)
  (b * 65536 + a).toUInt32

/-- The bytes of a number below 65536, the least significant first. -/
def littlePair (n : Nat) : List UInt8 := [n.toUInt8, (n / 256).toUInt8]

def storedBlock (isLast : Bool) (bytes : List UInt8) : List UInt8 :=
  let n := bytes.length
  (if isLast then 1 else 0) :: littlePair n ++ littlePair (65535 - n) ++ bytes

/-- The blocks of a stream; there is always a last one. -/
def storedBlocks : List (List UInt8) → List UInt8
  | [] => storedBlock true []
  | [block] => storedBlock true block
  | block :: rest => storedBlock false block ++ storedBlocks rest

/-- A stream that holds bytes as they are. -/
def storedStream (bytes : List UInt8) : List UInt8 :=
  [0x78, 0x01] ++ storedBlocks (parts 65535 bytes) ++ bigBytes (adler32 bytes)

end ReleaseHistory.Digest
