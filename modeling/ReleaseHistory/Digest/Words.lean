/-!
# Bytes and words

Digests work on words of 32 bits. Words are read from bytes and written to bytes with the most or
the least significant byte first.
-/

namespace ReleaseHistory.Digest

def rotateLeft (x n : UInt32) : UInt32 := (x <<< n) ||| (x >>> (32 - n))

def rotateRight (x n : UInt32) : UInt32 := (x >>> n) ||| (x <<< (32 - n))

/-- The bytes of a word, the most significant first. -/
def bigBytes (x : UInt32) : List UInt8 :=
  [(x >>> 24).toUInt8, (x >>> 16).toUInt8, (x >>> 8).toUInt8, x.toUInt8]

def littleBytes (x : UInt32) : List UInt8 := (bigBytes x).reverse

/-- The words of bytes, four to a word, the most significant first. -/
def bigWords : List UInt8 → List UInt32
  | a :: b :: c :: d :: rest =>
    ((a.toUInt32 <<< 24) ||| (b.toUInt32 <<< 16) ||| (c.toUInt32 <<< 8) ||| d.toUInt32) ::
      bigWords rest
  | _ => []

def littleWords : List UInt8 → List UInt32
  | a :: b :: c :: d :: rest =>
    ((d.toUInt32 <<< 24) ||| (c.toUInt32 <<< 16) ||| (b.toUInt32 <<< 8) ||| a.toUInt32) ::
      littleWords rest
  | _ => []

/-- Parts of a length, of which the last may be shorter. -/
def parts {α : Type} (size : Nat) (xs : List α) : List (List α) :=
  go xs.length xs
where
  /-- At most `fuel` parts. -/
  go : Nat → List α → List (List α)
    | 0, _ => []
    | fuel + 1, xs => if xs.isEmpty then [] else xs.take size :: go fuel (xs.drop size)

end ReleaseHistory.Digest
