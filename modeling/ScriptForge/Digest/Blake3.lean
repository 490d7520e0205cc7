import ScriptForge.Text.Letter

/-!
# BLAKE3

The hash of a text as 32 bytes. The text is cut into chunks of 1024 bytes and each chunk into blocks
of 64. The blocks of a chunk are compressed one after the other, each starting from the chaining
value of the one before; chunks are joined in pairs, level by level, until one is left. The last
compression of all is held back, because it is the one that is told to be the root.
-/

namespace ScriptForge.Digest.Blake3

/-- Words of 32 bits. -/
abbrev Words (n : Nat) := Vector UInt32 n

/-- The chaining value that every chunk starts from. -/
def start : Words 8 :=
  #v[0x6a09e667, 0xbb67ae85, 0x3c6ef372, 0xa54ff53a, 0x510e527f, 0x9b05688c, 0x1f83d9ab, 0x5be0cd19]

/-! ## Flags -/

/-- The first block of a chunk. -/
def chunkStart : UInt32 := 1

/-- The last block of a chunk. -/
def chunkEnd : UInt32 := 2

/-- Two chaining values that are joined. -/
def parentFlag : UInt32 := 4

/-- The compression that yields the hash. -/
def rootFlag : UInt32 := 8

/-! ## Compression -/

/-- A word turned right. -/
def turn (w : UInt32) (n : UInt32) : UInt32 :=
  (w >>> n) ||| (w <<< (32 - n))

/-- Mixes two words into four places of the state. -/
def mix (v : Words 16) (a b c d : Fin 16) (x y : UInt32) : Words 16 :=
  let v := v.set a (v[a] + v[b] + x)
  let v := v.set d (turn (v[d] ^^^ v[a]) 16)
  let v := v.set c (v[c] + v[d])
  let v := v.set b (turn (v[b] ^^^ v[c]) 12)
  let v := v.set a (v[a] + v[b] + y)
  let v := v.set d (turn (v[d] ^^^ v[a]) 8)
  let v := v.set c (v[c] + v[d])
  v.set b (turn (v[b] ^^^ v[c]) 7)

/-- Mixes a block into the columns and the diagonals of the state. -/
def round (v m : Words 16) : Words 16 :=
  let v := mix v 0 4 8 12 m[0] m[1]
  let v := mix v 1 5 9 13 m[2] m[3]
  let v := mix v 2 6 10 14 m[4] m[5]
  let v := mix v 3 7 11 15 m[6] m[7]
  let v := mix v 0 5 10 15 m[8] m[9]
  let v := mix v 1 6 11 12 m[10] m[11]
  let v := mix v 2 7 8 13 m[12] m[13]
  mix v 3 4 9 14 m[14] m[15]

/-- The order of the words of a block in the next round. -/
def order : Vector (Fin 16) 16 :=
  #v[2, 6, 3, 10, 7, 0, 4, 13, 1, 11, 12, 5, 9, 14, 15, 8]

/-- Several rounds, the words of the block reordered after each. -/
def rounds : (count : Nat) → Words 16 → Words 16 → Words 16
  | 0, v, _ => v
  | count + 1, v, m => rounds count (round v m) (order.map fun i => m[i])

/-- A compression that has not been carried out yet. -/
structure Pending where
  chaining : Words 8
  block : Words 16
  counter : UInt64
  length : UInt32
  flags : UInt32

/-- The first eight words of a compression, with flags added to its own. -/
def Pending.compress (p : Pending) (flags : UInt32) : Words 8 :=
  let h := p.chaining
  let v : Words 16 := #v[h[0], h[1], h[2], h[3], h[4], h[5], h[6], h[7],
    start[0], start[1], start[2], start[3],
    p.counter.toUInt32, (p.counter >>> 32).toUInt32, p.length, p.flags ||| flags]
  let v := rounds 7 v p.block
  #v[v[0] ^^^ v[8], v[1] ^^^ v[9], v[2] ^^^ v[10], v[3] ^^^ v[11],
    v[4] ^^^ v[12], v[5] ^^^ v[13], v[6] ^^^ v[14], v[7] ^^^ v[15]]

/-! ## Chunks -/

/-- A list cut into pieces of a size, the last one possibly shorter; `limit` bounds their number. -/
def pieces (size : Nat) : (limit : Nat) → List α → List (List α)
  | 0, _ => []
  | _ + 1, [] => []
  | limit + 1, items => items.take size :: pieces size limit (items.drop size)

/-- The word at an index of a block, its first byte the lowest; bytes that are missing are zero. -/
def wordAt (bytes : List UInt8) (i : Nat) : UInt32 :=
  let byte (k : Nat) : UInt32 := (bytes.getD (4 * i + k) 0).toUInt32
  byte 0 ||| (byte 1 <<< 8) ||| (byte 2 <<< 16) ||| (byte 3 <<< 24)

/-- The last compression of a chunk, given the chaining value and the flags for its next block. -/
def chunkFrom (counter : UInt64) (chaining : Words 8) (flags : UInt32) :
    (block : List UInt8) → List (List UInt8) → Pending
  | block, [] => ⟨chaining, .ofFn fun i => wordAt block i, counter, block.length.toUInt32,
      flags ||| chunkEnd⟩
  | block, next :: blocks =>
    let p : Pending :=
      ⟨chaining, .ofFn fun i => wordAt block i, counter, block.length.toUInt32, flags⟩
    chunkFrom counter (p.compress 0) 0 next blocks

/-- The last compression of the chunk at an index. -/
def chunk (index : Nat) (bytes : List UInt8) : Pending :=
  match pieces 64 bytes.length bytes with
  | [] => chunkFrom index.toUInt64 start chunkStart [] []
  | block :: blocks => chunkFrom index.toUInt64 start chunkStart block blocks

/-- The compression that joins two. -/
def join (left right : Pending) : Pending :=
  let l := left.compress 0
  let r := right.compress 0
  ⟨start, l ++ r, 0, 64, parentFlag⟩

/-- Joins neighbours; the last of an odd number stays as it is. -/
def joinPairs : List Pending → List Pending
  | a :: b :: rest => join a b :: joinPairs rest
  | rest => rest

/-- Joins until one is left, `limit` times at most. -/
def joinAll : (limit : Nat) → Pending → List Pending → Pending
  | 0, p, _ => p
  | _ + 1, p, [] => p
  | limit + 1, p, q :: rest =>
    match joinPairs (p :: q :: rest) with
    | [] => p
    | r :: rest => joinAll limit r rest

/-- The compression that yields the hash. -/
def root (bytes : List UInt8) : Pending :=
  match (pieces 1024 bytes.length bytes).zipIdx.map fun (piece, index) => chunk index piece with
  | [] => chunk 0 []
  | p :: rest => joinAll rest.length p rest

/-- The bytes of a word, the lowest first. -/
def wordBytes (w : UInt32) : Vector UInt8 4 :=
  #v[w.toUInt8, (w >>> 8).toUInt8, (w >>> 16).toUInt8, (w >>> 24).toUInt8]

end Blake3

/-- The BLAKE3 hash of a text. -/
def blake3 (text : String) : Vector UInt8 32 :=
  let words := (Blake3.root text.toUTF8.toList).compress Blake3.rootFlag
  (words.map Blake3.wordBytes).flatten

/-- The two hexadecimal digits of a byte. -/
def hexByte (b : UInt8) : List Char :=
  [Text.hexDigit (b.toNat / 16), Text.hexDigit (b.toNat % 16)]

/-- The fingerprint of a text: its hash in hexadecimal digits, with the name of the hash. -/
def fingerprint (text : String) : String :=
  "blake3:" ++ String.ofList ((blake3 text).toList.flatMap hexByte)

end ScriptForge.Digest
