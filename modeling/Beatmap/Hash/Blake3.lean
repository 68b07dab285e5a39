import Beatmap.Bytes
import Beatmap.Text.Hex

/-!
# BLAKE3

The 256-bit BLAKE3 hash of a byte string. The input is split into chunks of 1024 bytes, which are
the leaves of a binary tree, and every node is compressed to eight words. The left subtree holds the
largest power of two of chunks below the total number, so the shape of the tree is determined by the
number of chunks (`subtree`).

The compression of the root carries an additional flag. A node is therefore kept as the input of its
last compression (`Node`) until it is known whether it is the root.
-/

namespace Beatmap.Hash.Blake3

/-- The chaining value: eight words. -/
abbrev Chain := Vector UInt32 8

/-- Sixteen words: an input block, or the state of a compression. -/
abbrev Block := Vector UInt32 16

/-- The initial chaining value. -/
def initial : Chain :=
  #v[0x6A09E667, 0xBB67AE85, 0x3C6EF372, 0xA54FF53A, 0x510E527F, 0x9B05688C, 0x1F83D9AB, 0x5BE0CD19]

/-- The number of bytes of a chunk. -/
def chunkSize : Nat := 1024

/-- The number of bytes of a block. -/
def blockSize : Nat := 64

/-! ## Flags

Every compression carries flags for its position in the tree. -/

/-- The flag of the first block of a chunk. -/
def chunkStart : UInt32 := 1

/-- The flag of the last block of a chunk. -/
def chunkEnd : UInt32 := 2

/-- The flag of a parent node. -/
def parent : UInt32 := 4

/-- The flag of the root. -/
def root : UInt32 := 8

/-! ## Compression -/

/-- Rotates a word to the right. -/
def rotate (w n : UInt32) : UInt32 := (w >>> n) ||| (w <<< (32 - n))

/-- The quarter-round: mixes two message words into four words of the state. -/
def mix (s : Block) (a b c d : Fin 16) (x y : UInt32) : Block :=
  let va := s[a] + s[b] + x
  let vd := rotate (s[d] ^^^ va) 16
  let vc := s[c] + vd
  let vb := rotate (s[b] ^^^ vc) 12
  let va := va + vb + y
  let vd := rotate (vd ^^^ va) 8
  let vc := vc + vd
  let vb := rotate (vb ^^^ vc) 7
  (((s.set a va).set b vb).set c vc).set d vd

/-- One round: the four columns and the four diagonals. -/
def round (s m : Block) : Block :=
  let s := mix s 0 4 8 12 m[0] m[1]
  let s := mix s 1 5 9 13 m[2] m[3]
  let s := mix s 2 6 10 14 m[4] m[5]
  let s := mix s 3 7 11 15 m[6] m[7]
  let s := mix s 0 5 10 15 m[8] m[9]
  let s := mix s 1 6 11 12 m[10] m[11]
  let s := mix s 2 7 8 13 m[12] m[13]
  mix s 3 4 9 14 m[14] m[15]

/-- The permutation of the message words between rounds. -/
def order : Vector (Fin 16) 16 := #v[2, 6, 3, 10, 7, 0, 4, 13, 1, 11, 12, 5, 9, 14, 15, 8]

/-- Permutes the message words. -/
def reorder (m : Block) : Block := order.map (m[·])

/-- `n` rounds with permutations between them. -/
def rounds : Nat → Block → Block → Block
  | 0, s, _ => s
  | n + 1, s, m => rounds n (round s m) (reorder m)

/-- The input of the last compression of a subtree. -/
structure Node where
  chain : Chain
  block : Block
  /-- The index of the chunk, or zero for a parent node. -/
  counter : UInt64
  /-- The number of input bytes in the block. -/
  length : UInt32
  marks : UInt32

/-- The compression of a node with additional flags. -/
def Node.compress (n : Node) (marks : UInt32) : Chain :=
  let v := n.chain
  let start : Block :=
    #v[v[0], v[1], v[2], v[3], v[4], v[5], v[6], v[7],
      initial[0], initial[1], initial[2], initial[3],
      n.counter.toUInt32, (n.counter >>> 32).toUInt32, n.length, n.marks ||| marks]
  let s := rounds 7 start n.block
  #v[s[0] ^^^ s[8], s[1] ^^^ s[9], s[2] ^^^ s[10], s[3] ^^^ s[11], s[4] ^^^ s[12], s[5] ^^^ s[13],
    s[6] ^^^ s[14], s[7] ^^^ s[15]]

/-- The chaining value of a node that is not the root. -/
def Node.passOn (n : Node) : Chain := n.compress 0

/-- A byte of the input, or zero after its end. -/
def byteAt (bytes : ByteArray) (stop i : Nat) : UInt32 :=
  if i < stop then (Bytes.byteAt bytes i).toUInt32 else 0

/-- The block that starts at a byte, padded with zeros; words are little-endian. -/
def blockAt (bytes : ByteArray) (stop start : Nat) : Block :=
  Vector.ofFn fun k : Fin 16 =>
    let i := start + 4 * k.val
    byteAt bytes stop i ||| (byteAt bytes stop (i + 1) <<< 8)
      ||| (byteAt bytes stop (i + 2) <<< 16) ||| (byteAt bytes stop (i + 3) <<< 24)

/-- Compresses the blocks of a chunk from `start` to `stop`, except for the last one, which is
returned as a node. `more` is the number of blocks after the next one. -/
def chunkFrom (bytes : ByteArray) (stop : Nat) (counter : UInt64) :
    (more start : Nat) → Chain → (marks : UInt32) → Node
  | 0, start, chain, marks =>
    ⟨chain, blockAt bytes stop start, counter, (stop - start).toUInt32, marks ||| chunkEnd⟩
  | more + 1, start, chain, marks =>
    let node : Node := ⟨chain, blockAt bytes stop start, counter, blockSize.toUInt32, marks⟩
    chunkFrom bytes stop counter more (start + blockSize) node.passOn 0

/-- The node of the chunk from `start` to `stop`. -/
def chunk (bytes : ByteArray) (start stop : Nat) : Node :=
  chunkFrom bytes stop (start / chunkSize).toUInt64 ((stop - start - 1) / blockSize) start initial
    chunkStart

/-- The node of the subtree over the bytes from `start` to `stop`, which are at most `2 ^ depth`
chunks. -/
def subtree (bytes : ByteArray) : (depth start stop : Nat) → Node
  | 0, start, stop => chunk bytes start stop
  | depth + 1, start, stop =>
    let middle := start + 2 ^ depth * chunkSize
    if stop ≤ middle then subtree bytes depth start stop
    else
      let left := (subtree bytes depth start middle).passOn
      let right := (subtree bytes depth middle stop).passOn
      ⟨initial, (left ++ right).cast rfl, 0, blockSize.toUInt32, parent⟩

/-- A sufficient depth of the tree for an input of `size` bytes. -/
def depthFor (size : Nat) : Nat := ((size - 1) / chunkSize).log2 + 1

/-- The hash of a byte string. -/
def hash (bytes : ByteArray) : Chain :=
  (subtree bytes (depthFor bytes.size) 0 bytes.size).compress root

/-- The hash of a byte string as 64 hexadecimal digits. -/
def hexHash (bytes : ByteArray) : String := String.ofList (Text.Hex.ofWords (hash bytes).toList)

theorem length_hexHash (bytes : ByteArray) : (hexHash bytes).toList.length = 64 := by
  rw [hexHash, String.toList_ofList, Text.Hex.length_ofWords, Vector.length_toList]

end Beatmap.Hash.Blake3
