/-!
The hash function BLAKE3. A text of bytes is cut into chunks of 1024 bytes and these into blocks of
64; each chunk becomes a node, neighbouring nodes are paired level by level, an odd last one moving
up unpaired, and the last node left is compressed once more as the root.
-/
namespace AnnotationWeaver.Hash.Blake3

/-- Eight words that a compression passes on. -/
abbrev Chain := Array UInt32

/-- Sixteen words. -/
abbrev Words := Array UInt32

def initial : Chain :=
  #[0x6A09E667, 0xBB67AE85, 0x3C6EF372, 0xA54FF53A, 0x510E527F, 0x9B05688C, 0x1F83D9AB, 0x5BE0CD19]

/-- Where each word of a message comes from in the next round. -/
def permutation : List Nat := [2, 6, 3, 10, 7, 0, 4, 13, 1, 11, 12, 5, 9, 14, 15, 8]

def chunkStart : UInt32 := 1
def chunkEnd : UInt32 := 2
def parent : UInt32 := 4
def root : UInt32 := 8

def rotateRight (x n : UInt32) : UInt32 := (x >>> n) ||| (x <<< (32 - n))

def word (v : Words) (i : Nat) : UInt32 := v.getD i 0

/-- Mixes two message words into four words of the state. -/
def mix (v : Words) (a b c d : Nat) (x y : UInt32) : Words :=
  let va := word v a + word v b + x
  let vd := rotateRight (word v d ^^^ va) 16
  let vc := word v c + vd
  let vb := rotateRight (word v b ^^^ vc) 12
  let va := va + vb + y
  let vd := rotateRight (vd ^^^ va) 8
  let vc := vc + vd
  let vb := rotateRight (vb ^^^ vc) 7
  (((v.setIfInBounds a va).setIfInBounds b vb).setIfInBounds c vc).setIfInBounds d vd

/-- The columns, then the diagonals. -/
def mixingOrder : List (Nat × Nat × Nat × Nat) :=
  [(0, 4, 8, 12), (1, 5, 9, 13), (2, 6, 10, 14), (3, 7, 11, 15),
    (0, 5, 10, 15), (1, 6, 11, 12), (2, 7, 8, 13), (3, 4, 9, 14)]

def round (v m : Words) : Words :=
  mixingOrder.zipIdx.foldl (fun v ((a, b, c, d), i) => mix v a b c d (word m (2 * i)) (word m (2 * i + 1))) v

def permute (m : Words) : Words := (permutation.map (word m)).toArray

def rounds : (count : Nat) → (v m : Words) → Words
  | 0, v, _ => v
  | count + 1, v, m => rounds count (round v m) (permute m)

/-- What one compression takes. -/
structure Node where
  chain : Chain
  block : Words
  counter : UInt64
  length : UInt32
  flags : UInt32

/-- The chain that a node passes on. -/
def Node.compress (n : Node) : Chain :=
  let start := n.chain ++ initial.extract 0 4
    ++ #[n.counter.toUInt32, (n.counter >>> 32).toUInt32, n.length, n.flags]
  let v := rounds 7 start n.block
  ((List.range 8).map fun i => word v i ^^^ word v (i + 8)).toArray

/-- Consecutive pieces of the given size; the last may be shorter. -/
def pieces (size : Nat) : (fuel : Nat) → List UInt8 → List (List UInt8)
  | 0, _ => []
  | fuel + 1, bytes => if bytes.isEmpty then [] else bytes.take size :: pieces size fuel (bytes.drop size)

/-- Four bytes, least significant first. -/
def littleEndian : List UInt8 → UInt32
  | [] => 0
  | b :: rest => b.toUInt32 ||| (littleEndian rest <<< 8)

/-- A block as sixteen words; what is missing is zero. -/
def blockWords (bytes : List UInt8) : Words :=
  let words := (pieces 4 16 bytes).map littleEndian
  (words ++ List.replicate (16 - words.length) 0).toArray

/-- The node of a chunk: its blocks are compressed in a row, the last one is left to the node. -/
def chunkBlocks (counter : UInt64) : (chain : Chain) → (flags : UInt32) → List (List UInt8) → Node
  | chain, flags, [] => ⟨chain, blockWords [], counter, 0, flags ||| chunkEnd⟩
  | chain, flags, [block] =>
    ⟨chain, blockWords block, counter, UInt32.ofNat block.length, flags ||| chunkEnd⟩
  | chain, flags, block :: rest =>
    chunkBlocks counter
      (Node.compress ⟨chain, blockWords block, counter, UInt32.ofNat block.length, flags⟩) 0 rest

def chunkNode (counter : Nat) (bytes : List UInt8) : Node :=
  chunkBlocks (UInt64.ofNat counter) initial chunkStart (pieces 64 16 bytes)

def parentNode (left right : Node) : Node :=
  ⟨initial, left.compress ++ right.compress, 0, 64, parent⟩

/-- One level up. -/
def pairUp : List Node → List Node
  | a :: b :: rest => parentNode a b :: pairUp rest
  | rest => rest

theorem length_pairUp_le : ∀ nodes : List Node, (pairUp nodes).length ≤ nodes.length
  | [] => Nat.le_refl _
  | [_] => Nat.le_refl _
  | _ :: _ :: rest => by
    have := length_pairUp_le rest
    simp only [pairUp, List.length_cons]
    omega

/-- The node at the top. -/
def top (first : Node) : List Node → Node
  | [] => first
  | second :: rest => top (parentNode first second) (pairUp rest)
termination_by rest => rest.length
decreasing_by
  have := length_pairUp_le rest
  simp only [List.length_cons]
  omega

/-- The bytes of a word, least significant first. -/
def wordBytes (w : UInt32) : List UInt8 :=
  [w.toUInt8, (w >>> 8).toUInt8, (w >>> 16).toUInt8, (w >>> 24).toUInt8]

/-- The 32 bytes of the hash. -/
def hash (bytes : List UInt8) : List UInt8 :=
  let chunks := (pieces 1024 (bytes.length / 1024 + 1) bytes).zipIdx.map fun (chunk, i) => chunkNode i chunk
  let node := match chunks with
    | [] => chunkNode 0 []
    | first :: rest => top first rest
  ({ node with flags := node.flags ||| root }.compress).toList.flatMap wordBytes

end AnnotationWeaver.Hash.Blake3
