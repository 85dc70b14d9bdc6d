import ReleaseHistory.Digest.Words

/-!
# BLAKE3

The digest of what a build is made from. A message is cut into chunks, each chunk into blocks, and
the chunks are the leaves of a tree: neighbours are joined level by level, and a chunk without a
neighbour moves up. A node is kept as its last compression, since only the root knows that it is
one.
-/

namespace ReleaseHistory.Digest.Blake3

def start : List UInt32 :=
  [0x6a09e667, 0xbb67ae85, 0x3c6ef372, 0xa54ff53a, 0x510e527f, 0x9b05688c, 0x1f83d9ab, 0x5be0cd19]

/-- The order in which the next round takes the words of a block. -/
def permutation : List Nat := [2, 6, 3, 10, 7, 0, 4, 13, 1, 11, 12, 5, 9, 14, 15, 8]

def quarter (s : Array UInt32) (a b c d : Nat) (x y : UInt32) : Array UInt32 :=
  let get := fun (s : Array UInt32) i => s.getD i 0
  let s := s.setIfInBounds a (get s a + get s b + x)
  let s := s.setIfInBounds d (rotateRight (get s d ^^^ get s a) 16)
  let s := s.setIfInBounds c (get s c + get s d)
  let s := s.setIfInBounds b (rotateRight (get s b ^^^ get s c) 12)
  let s := s.setIfInBounds a (get s a + get s b + y)
  let s := s.setIfInBounds d (rotateRight (get s d ^^^ get s a) 8)
  let s := s.setIfInBounds c (get s c + get s d)
  s.setIfInBounds b (rotateRight (get s b ^^^ get s c) 7)

/-- The columns and diagonals, each with the places of its two words. -/
def quarters : List (Nat × Nat × Nat × Nat × Nat) :=
  [(0, 4, 8, 12, 0), (1, 5, 9, 13, 2), (2, 6, 10, 14, 4), (3, 7, 11, 15, 6),
    (0, 5, 10, 15, 8), (1, 6, 11, 12, 10), (2, 7, 8, 13, 12), (3, 4, 9, 14, 14)]

def round (s m : Array UInt32) : Array UInt32 :=
  quarters.foldl (fun s (a, b, c, d, i) => quarter s a b c d (m.getD i 0) (m.getD (i + 1) 0)) s

structure Node where
  chaining : List UInt32
  block : List UInt32
  counter : Nat
  length : Nat
  flags : UInt32

def chunkStart : UInt32 := 1

def chunkEnd : UInt32 := 2

def parent : UInt32 := 4

def root : UInt32 := 8

def Node.compress (n : Node) : List UInt32 :=
  let s := (n.chaining ++ start.take 4 ++
    [n.counter.toUInt32, (n.counter / 0x100000000).toUInt32, n.length.toUInt32, n.flags]).toArray
  let permute := fun (m : Array UInt32) => (permutation.map fun i => m.getD i 0).toArray
  let (s, _) := (List.range 7).foldl (fun (s, m) _ => (round s m, permute m)) (s, n.block.toArray)
  (List.range 8).map fun i => s.getD i 0 ^^^ s.getD (i + 8) 0

/-- The words of a block, with zeros at its end. -/
def blockWords (bytes : List UInt8) : List UInt32 :=
  littleWords (bytes ++ List.replicate (64 - bytes.length) 0)

def chunkBlocks (chaining : List UInt32) (index : Nat) (flags : UInt32) : List (List UInt8) → Node
  | [] => ⟨chaining, blockWords [], index, 0, flags ||| chunkEnd⟩
  | [b] => ⟨chaining, blockWords b, index, b.length, flags ||| chunkEnd⟩
  | b :: bs =>
    let n : Node := ⟨chaining, blockWords b, index, b.length, flags⟩
    chunkBlocks n.compress index 0 bs

def chunk (index : Nat) (bytes : List UInt8) : Node :=
  chunkBlocks start index chunkStart (parts 64 bytes)

def joinPairs : List Node → List Node
  | a :: b :: rest => ⟨start, a.compress ++ b.compress, 0, 64, parent⟩ :: joinPairs rest
  | rest => rest

/-- Joins neighbours until one node is left. -/
def joinAll : Nat → List Node → Node
  | 0, nodes => nodes.headD (chunk 0 [])
  | fuel + 1, nodes =>
    match nodes with
    | [] => chunk 0 []
    | [n] => n
    | nodes => joinAll fuel (joinPairs nodes)

def digest (bytes : List UInt8) : List UInt8 :=
  let chunks := (parts 1024 bytes).zipIdx.map fun (c, i) => chunk i c
  let n := joinAll chunks.length chunks
  ({ n with flags := n.flags ||| root }.compress).flatMap littleBytes

end ReleaseHistory.Digest.Blake3
