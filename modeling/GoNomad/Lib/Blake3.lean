import GoNomad.Lib.BigEndian

/-!
# BLAKE3

The hash with a 32-byte output: blocks of 64 bytes are compressed into chunks of
1024, and chunks into a binary tree whose left subtrees are complete.
-/

namespace Blake3

def iv : List UInt32 :=
  [0x6A09E667, 0xBB67AE85, 0x3C6EF372, 0xA54FF53A, 0x510E527F, 0x9B05688C, 0x1F83D9AB, 0x5BE0CD19]

def chunkStart : UInt32 := 1
def chunkEnd : UInt32 := 2
def parent : UInt32 := 4
def root : UInt32 := 8

def rotr (x n : UInt32) : UInt32 := (x >>> n) ||| (x <<< (32 - n))

/-- The quarter round: mixes two message words into a column or a diagonal. -/
def g (v : List UInt32) (a b c d : Nat) (mx my : UInt32) : List UInt32 :=
  let va := v.getD a 0 + v.getD b 0 + mx
  let vd := rotr (v.getD d 0 ^^^ va) 16
  let vc := v.getD c 0 + vd
  let vb := rotr (v.getD b 0 ^^^ vc) 12
  let va := va + vb + my
  let vd := rotr (vd ^^^ va) 8
  let vc := vc + vd
  let vb := rotr (vb ^^^ vc) 7
  (((v.set a va).set b vb).set c vc).set d vd

def round (v m : List UInt32) : List UInt32 :=
  let v := g v 0 4 8 12 (m.getD 0 0) (m.getD 1 0)
  let v := g v 1 5 9 13 (m.getD 2 0) (m.getD 3 0)
  let v := g v 2 6 10 14 (m.getD 4 0) (m.getD 5 0)
  let v := g v 3 7 11 15 (m.getD 6 0) (m.getD 7 0)
  let v := g v 0 5 10 15 (m.getD 8 0) (m.getD 9 0)
  let v := g v 1 6 11 12 (m.getD 10 0) (m.getD 11 0)
  let v := g v 2 7 8 13 (m.getD 12 0) (m.getD 13 0)
  g v 3 4 9 14 (m.getD 14 0) (m.getD 15 0)

/-- The message words move between two rounds. -/
def permute (m : List UInt32) : List UInt32 :=
  [2, 6, 3, 10, 7, 0, 4, 13, 1, 11, 12, 5, 9, 14, 15, 8].map fun i => m.getD i 0

def rounds : Nat → List UInt32 → List UInt32 → List UInt32
  | 0, v, _ => v
  | n + 1, v, m => rounds n (round v m) (permute m)

/-- What is compressed: a chaining value of eight words, and a block with its
position, length and flags. -/
structure Node where
  cv : List UInt32
  block : List UInt32
  counter : UInt64
  len : UInt32
  flags : UInt32
  length_eq : cv.length = 8

namespace Node

/-- The eight words a node is compressed to. -/
def compress (n : Node) (flags : UInt32) : List UInt32 :=
  let v := rounds 7
    (n.cv ++ [0x6A09E667, 0xBB67AE85, 0x3C6EF372, 0xA54FF53A, n.counter.toUInt32,
      (n.counter >>> 32).toUInt32, n.len, n.flags ||| flags]) n.block
  List.zipWith (· ^^^ ·) (v.take 8) (v.drop 8)

theorem length_g (v : List UInt32) (a b c d : Nat) (mx my : UInt32) :
    (g v a b c d mx my).length = v.length := by
  unfold g
  rw [List.length_set, List.length_set, List.length_set, List.length_set]

theorem length_rounds (k : Nat) (v m : List UInt32) : (rounds k v m).length = v.length := by
  induction k generalizing v m with
  | zero => rfl
  | succ k ih =>
      rw [rounds, ih]
      simp only [round, length_g]

theorem length_compress (n : Node) (flags : UInt32) : (n.compress flags).length = 8 := by
  unfold compress
  simp [length_rounds, n.length_eq]

end Node

/-- Little-endian words. -/
def words : List UInt8 → List UInt32
  | a :: b :: c :: d :: rest => BigEndian.toU32 d c b a :: words rest
  | _ => []

/-- A block of up to 64 bytes after a chaining value. -/
def blockNode (cv : List UInt32) (h : cv.length = 8) (counter : UInt64) (flags : UInt32)
    (bytes : List UInt8) : Node :=
  ⟨cv, words (bytes ++ List.replicate (64 - bytes.length) 0), counter,
    UInt32.ofNat bytes.length, flags, h⟩

/-- The last node of a chunk, from its blocks. -/
def chunkNode (cv : List UInt32) (h : cv.length = 8) (counter : UInt64) (flags : UInt32) :
    List (List UInt8) → Node
  | [] => blockNode cv h counter (flags ||| chunkEnd) []
  | [block] => blockNode cv h counter (flags ||| chunkEnd) block
  | block :: rest =>
      let n := blockNode cv h counter flags block
      chunkNode (n.compress 0) (n.length_compress 0) counter 0 rest

def parentNode (left right : List UInt32) : Node :=
  ⟨iv, left ++ right, 0, 64, parent, rfl⟩

/-- Adds the value of chunk number `total` to the subtrees that are complete. -/
def push (total : Nat) (value : List UInt32) : List (List UInt32) → List (List UInt32)
  | [] => [value]
  | top :: rest =>
      if total % 2 = 0 then push (total / 2) ((parentNode top value).compress 0) rest
      else value :: top :: rest

/-- The root of the tree over the chunks that are left. -/
def tree (stack : List (List UInt32)) (index : Nat) : List (List UInt8) → Node
  | [] => chunkNode iv rfl (UInt64.ofNat index) chunkStart []
  | [chunk] =>
      let last := chunkNode iv rfl (UInt64.ofNat index) chunkStart (BigEndian.chunks 64 chunk)
      stack.foldl (fun right left => parentNode left (right.compress 0)) last
  | chunk :: rest =>
      let n := chunkNode iv rfl (UInt64.ofNat index) chunkStart (BigEndian.chunks 64 chunk)
      tree (push (index + 1) (n.compress 0) stack) (index + 1) rest

/-- The hash of some bytes. -/
def hash (bytes : List UInt8) : List UInt8 :=
  ((tree [] 0 (BigEndian.chunks 1024 bytes)).compress root).flatMap fun w =>
    (BigEndian.ofU32 w).reverse

theorem length_hash (bytes : List UInt8) : (hash bytes).length = 32 := by
  have hwords : ∀ ws : List UInt32,
      (ws.flatMap fun w => (BigEndian.ofU32 w).reverse).length = 4 * ws.length := by
    intro ws
    induction ws with
    | nil => rfl
    | cons w ws ih =>
        rw [List.flatMap_cons, List.length_append, ih, List.length_reverse,
          BigEndian.length_ofU32, List.length_cons]
        omega
  rw [hash, hwords, Node.length_compress]

example : (hash "abc".toUTF8.data.toList).take 8 =
    [0x64, 0x37, 0xb3, 0xac, 0x38, 0x46, 0x51, 0x33] := by decide +kernel

end Blake3
