import Libdsm.Contrib.Mdx
import Libdsm.Misc.BlockHash

/-!
# Streaming digests

`mdHash` is the message digest of RFC 1320 and RFC 1321 over a compression function: the message,
its padding and its length in bits, taken block by block into the four words. `mdUpdate` and
`mdFinal` compute it from a message that comes in pieces, whatever the pieces are and whatever the
buffer held before.
-/

namespace Libdsm

/-! ## The digests as the RFCs define them -/

/-- The words `A`, `B`, `C` and `D` before the first block. -/
def mdIv : MdWords := { a := 0x67452301, b := 0xefcdab89, c := 0x98badcfe, d := 0x10325476 }

/-- A one bit, zeros up to 64 bits below a multiple of 512, and the number of bits before it. -/
def mdPadding (len : Nat) : List UInt8 :=
  0x80 :: (List.replicate ((119 - len % 64) % 64) 0 ++ leBytes 8 (8 * len))

/-- The digest of a message. -/
def mdHash (compress : MdWords → List UInt8 → MdWords) (msg : List UInt8) : List UInt8 :=
  (absorb compress 64 mdIv (msg ++ mdPadding msg.length)).bytes

/-- RFC 1321, 3.4: the auxiliary functions. -/
def rfc1321F (x y z : UInt32) : UInt32 := (x &&& y) ||| (~~~x &&& z)
def rfc1321G (x y z : UInt32) : UInt32 := (x &&& z) ||| (y &&& ~~~z)
def rfc1321H (x y z : UInt32) : UInt32 := x ^^^ y ^^^ z
def rfc1321I (x y z : UInt32) : UInt32 := y ^^^ (x ||| ~~~z)

/-- RFC 1321, 3.4: the table `T`, counted from zero. -/
def rfc1321T : List UInt32 :=
  [0xd76aa478, 0xe8c7b756, 0x242070db, 0xc1bdceee, 0xf57c0faf, 0x4787c62a, 0xa8304613, 0xfd469501,
   0x698098d8, 0x8b44f7af, 0xffff5bb1, 0x895cd7be, 0x6b901122, 0xfd987193, 0xa679438e, 0x49b40821,
   0xf61e2562, 0xc040b340, 0x265e5a51, 0xe9b6c7aa, 0xd62f105d, 0x02441453, 0xd8a1e681, 0xe7d3fbc8,
   0x21e1cde6, 0xc33707d6, 0xf4d50d87, 0x455a14ed, 0xa9e3e905, 0xfcefa3f8, 0x676f02d9, 0x8d2a4c8a,
   0xfffa3942, 0x8771f681, 0x6d9d6122, 0xfde5380c, 0xa4beea44, 0x4bdecfa9, 0xf6bb4b60, 0xbebfbc70,
   0x289b7ec6, 0xeaa127fa, 0xd4ef3085, 0x04881d05, 0xd9d4d039, 0xe6db99e5, 0x1fa27cf8, 0xc4ac5665,
   0xf4292244, 0x432aff97, 0xab9423a7, 0xfc93a039, 0x655b59c3, 0x8f0ccc92, 0xffeff47d, 0x85845dd1,
   0x6fa87e4f, 0xfe2ce6e0, 0xa3014314, 0x4e0811a1, 0xf7537e82, 0xbd3af235, 0x2ad7d2bb, 0xeb86d391]

/-- The function, the word and the rotation of step `i`. -/
def rfc1321Function (i : Nat) : UInt32 → UInt32 → UInt32 → UInt32 :=
  [rfc1321F, rfc1321G, rfc1321H, rfc1321I].getD (i / 16) rfc1321I
def rfc1321Word (i : Nat) : Nat := [i, 1 + 5 * i, 5 + 3 * i, 7 * i].getD (i / 16) 0 % 16
def rfc1321Shift (i : Nat) : Nat :=
  ([[7, 12, 17, 22], [5, 9, 14, 20], [4, 11, 16, 23], [6, 10, 15, 21]].getD (i / 16) []).getD (i % 4) 0

/-- `X <<< s` of the RFCs. -/
def rotateWord (x : UInt32) (s : Nat) : UInt32 := ⟨x.toBitVec.rotateLeft s⟩

/-- RFC 1321, 3.4: `a = b + ((a + f (b, c, d) + X[k] + T[i]) <<< s)`. -/
def rfc1321Step (block : List UInt8) (w : MdWords) (i : Nat) : MdWords :=
  { a := w.d
    b := w.b + rotateWord (w.a + rfc1321Function i w.b w.c w.d + mdGet block (rfc1321Word i) +
      rfc1321T.getD i 0) (rfc1321Shift i)
    c := w.b
    d := w.c }

/-- RFC 1320, 3.4. -/
def rfc1320G (x y z : UInt32) : UInt32 := (x &&& y) ||| (x &&& z) ||| (y &&& z)
def rfc1320Function (i : Nat) : UInt32 → UInt32 → UInt32 → UInt32 :=
  [rfc1321F, rfc1320G, rfc1321H].getD (i / 16) rfc1321H
def rfc1320Word (i : Nat) : Nat :=
  [i % 16, 4 * (i % 4) + i / 4 % 4,
    8 * (i % 2) + 4 * (i / 2 % 2) + 2 * (i / 4 % 2) + i / 8 % 2].getD (i / 16) 0
def rfc1320Constant (i : Nat) : UInt32 := [0, 0x5a827999, 0x6ed9eba1].getD (i / 16) 0
def rfc1320Shift (i : Nat) : Nat :=
  ([[3, 7, 11, 19], [3, 5, 9, 13], [3, 9, 11, 15]].getD (i / 16) []).getD (i % 4) 0

/-- RFC 1320, 3.4: `a = (a + f (b, c, d) + X[k] + constant) <<< s`. -/
def rfc1320Step (block : List UInt8) (w : MdWords) (i : Nat) : MdWords :=
  { a := w.d
    b := rotateWord (w.a + rfc1320Function i w.b w.c w.d + mdGet block (rfc1320Word i) +
      rfc1320Constant i) (rfc1320Shift i)
    c := w.b
    d := w.c }

/-- The steps of a block, added to the words before it. -/
def rfcCompress (step : List UInt8 → MdWords → Nat → MdWords) (steps : Nat) (w : MdWords)
    (block : List UInt8) : MdWords :=
  let w' := (List.range steps).foldl (step block) w
  { a := w'.a + w.a, b := w'.b + w.b, c := w'.c + w.c, d := w'.d + w.d }

/-- MD5, as RFC 1321 defines it. -/
def rfc1321 : List UInt8 → List UInt8 := mdHash (rfcCompress rfc1321Step 64)

/-- MD4, as RFC 1320 defines it. -/
def rfc1320 : List UInt8 → List UInt8 := mdHash (rfcCompress rfc1320Step 48)

theorem mdHash_length (compress : MdWords → List UInt8 → MdWords) (msg : List UInt8) :
    (mdHash compress msg).length = 16 := by
  simp [mdHash, MdWords.bytes]

/-! ## Counters -/

theorem leBytes_add (j k n : Nat) : leBytes (j + k) n = leBytes j n ++ leBytes k (n / 256 ^ j) := by
  induction j generalizing n with
  | zero => simp [leBytes]
  | succ j ih =>
    rw [Nat.succ_add, leBytes, ih, leBytes, List.cons_append, Nat.pow_succ, Nat.mul_comm,
      Nat.div_div_eq_div_mul]

theorem leBytes_mod (k n : Nat) : leBytes k (n % 256 ^ k) = leBytes k n := by
  have h := leBytes_leNat (leBytes k n)
  rwa [leBytes_length, leNat_leBytes] at h

/-- The two counters of a context after a message of `len` bytes. -/
structure Counts (ctx : MdCtx) (len : Nat) : Prop where
  lo : ctx.lo.toNat = len % 2 ^ 29
  hi : ctx.hi.toNat = len / 2 ^ 29 % 2 ^ 32

theorem Counts.update {ctx : MdCtx} {len : Nat} (h : Counts ctx len) (size : Nat) :
    Counts (mdCount ctx size) (len + size) := by
  have hlo : (mdCount ctx size).lo.toNat = (len + size) % 2 ^ 29 := by
    have hlt : (ctx.lo.toNat + size) % 2 ^ 29 < 2 ^ 32 := by omega
    rw [mdCount, UInt32.toNat_ofNat_of_lt' hlt, h.lo, Nat.mod_add_mod]
  refine ⟨hlo, ?_⟩
  -- the sum of the low parts carries exactly when it comes out below the first of them
  have hcarry : (mdCount ctx size).lo < ctx.lo ↔ 2 ^ 29 ≤ len % 2 ^ 29 + size % 2 ^ 29 := by
    rw [UInt32.lt_iff_toNat_lt, hlo, h.lo]
    omega
  have hhi : (mdCount ctx size).hi =
      (if (mdCount ctx size).lo < ctx.lo then ctx.hi + 1 else ctx.hi) + UInt32.ofNat (size / 2 ^ 29) :=
    rfl
  have hsize : (UInt32.ofNat (size / 2 ^ 29)).toNat = size / 2 ^ 29 % 2 ^ 32 := UInt32.toNat_ofNat'
  rw [hhi, UInt32.toNat_add, hsize]
  split
  next hlt =>
    have := hcarry.mp hlt
    have hone : (1 : UInt32).toNat = 1 := rfl
    rw [UInt32.toNat_add, h.hi, hone]
    omega
  next hge =>
    have := mt hcarry.mpr hge
    rw [h.hi]
    omega

/-- The bytes of the counters are the number of bits. -/
theorem Counts.bits {ctx : MdCtx} {len : Nat} (h : Counts ctx len) :
    le32 (ctx.lo <<< 3) ++ le32 ctx.hi = leBytes 8 (8 * len) := by
  have hshift : (ctx.lo <<< 3).toNat = 8 * len % 256 ^ 4 := by
    have hthree : (3 : UInt32).toNat % 32 = 3 := rfl
    rw [UInt32.toNat_shiftLeft, h.lo, Nat.shiftLeft_eq, hthree]
    omega
  have hhigh : ctx.hi.toNat = 8 * len / 256 ^ 4 % 256 ^ 4 := by
    rw [h.hi]
    omega
  rw [leBytes_add 4 4, le32, le32, hshift, hhigh, leBytes_mod, leBytes_mod]

/-! ## Updates -/

section

variable {T : MdWords → List UInt8 → MdWords}

theorem mdBody_eq (k : Nat) (w : MdWords) (ptr : List UInt8) :
    mdBody T k w ptr = (blockFold T 64 k w ptr, ptr.drop (64 * k)) := by
  induction k generalizing w ptr with
  | zero => rfl
  | succ k ih =>
    rw [mdBody, ih, blockFold, List.drop_drop, Nat.mul_succ, Nat.add_comm]

theorem mdBody_one (w : MdWords) {block : List UInt8} (h : block.length = 64) :
    (mdBody T 1 w block).1 = T w block := by
  rw [mdBody_eq, blockFold, blockFold, List.take_of_length_le h.le]

/-- The context after the message `m`. -/
structure MdCtx.After (T : MdWords → List UInt8 → MdWords) (ctx : MdCtx) (m : List UInt8) : Prop where
  counts : Counts ctx m.length
  stream : Streamed T 64 mdIv m ctx.words (ctx.buffer.read 0 (m.length % 64))

theorem mdInit_after (stack : Mem) : (mdInit stack).After T [] :=
  ⟨⟨rfl, rfl⟩, Streamed.nil (by decide)⟩

theorem mdUpdateBlocks_eq (ctx : MdCtx) (data : List UInt8) :
    mdUpdateBlocks T ctx data = { ctx with
      words := blockFold T 64 (data.length / 64) ctx.words data
      buffer := ctx.buffer.write 0 (data.drop (64 * (data.length / 64))) } := by
  unfold mdUpdateBlocks
  dsimp only
  split
  next hge =>
    rw [mdBody_eq]
    dsimp only
    rw [List.take_of_length_le (by rw [List.length_drop]; omega)]
  next hlt =>
    rw [Nat.div_eq_of_lt (by omega), Nat.mul_zero, List.drop_zero, blockFold]

/-- Whole blocks are taken, the rest is buffered. -/
theorem mdUpdateBlocks_after {ctx : MdCtx} {m : List UInt8} (data : List UInt8)
    (hcounts : Counts ctx (m ++ data).length) (h : Streamed T 64 mdIv m ctx.words []) :
    (mdUpdateBlocks T ctx data).After T (m ++ data) := by
  rw [mdUpdateBlocks_eq]
  refine ⟨⟨hcounts.lo, hcounts.hi⟩, ?_⟩
  have hm : m.length % 64 = 0 := h.length_eq.symm
  obtain ⟨k, hk⟩ : ∃ k, data.length / 64 = k := ⟨_, rfl⟩
  obtain ⟨whole, rest, rfl, hwhole, hrest⟩ :
      ∃ whole rest, data = whole ++ rest ∧ whole.length = k * 64 ∧ rest.length = data.length % 64 := by
    refine ⟨data.take (64 * k), data.drop (64 * k), (List.take_append_drop _ _).symm, ?_, ?_⟩
    · rw [List.length_take]
      omega
    · rw [List.length_drop]
      omega
  have hmod : (m ++ (whole ++ rest)).length % 64 = rest.length := by
    rw [hrest, List.length_append]
    omega
  rw [hk, hmod]
  dsimp only
  rw [blockFold_take k _ _ _ hwhole, List.drop_left' (by omega), Mem.read_write,
    ← List.append_assoc]
  have hlast : ([] ++ rest).length < 64 := by
    rw [List.nil_append]
    omega
  exact (h.blocks k hwhole).extend hlast

/-- Every piece is taken as the continuation of the message. -/
theorem mdUpdate_after {ctx : MdCtx} {m : List UInt8} (h : ctx.After T m) (data : List UInt8) :
    (mdUpdate T ctx data).After T (m ++ data) := by
  have hused : ctx.lo.toNat % 64 = m.length % 64 := by
    rw [h.counts.lo]
    omega
  have hcounts : Counts (mdCount ctx data.length) (m ++ data).length := by
    rw [List.length_append]
    exact h.counts.update data.length
  have hstream : Streamed T 64 mdIv m (mdCount ctx data.length).words
      ((mdCount ctx data.length).buffer.read 0 (m.length % 64)) := h.stream
  unfold mdUpdate
  dsimp only
  rw [hused]
  generalize mdCount ctx data.length = counted at hcounts hstream ⊢
  split
  next hpartial =>
    split
    next hfits =>
      -- the piece does not complete the block
      refine ⟨⟨hcounts.lo, hcounts.hi⟩, ?_⟩
      have hlen : (m ++ data).length % 64 = m.length % 64 + data.length := by
        rw [List.length_append]
        omega
      have hread := Mem.read_write_end counted.buffer 0 (m.length % 64) data
      rw [Nat.zero_add] at hread
      dsimp only
      rw [hlen, hread]
      apply hstream.extend
      rw [List.length_append, Mem.read_length]
      omega
    next hfills =>
      obtain ⟨first, rest, rfl, hfirst⟩ :
          ∃ first rest, data = first ++ rest ∧ first.length = 64 - m.length % 64 :=
        ⟨data.take (64 - m.length % 64), data.drop (64 - m.length % 64),
          (List.take_append_drop _ _).symm, by rw [List.length_take]; omega⟩
      have hsum : m.length % 64 + first.length = 64 := by omega
      have hread := Mem.read_write_end counted.buffer 0 (m.length % 64) first
      rw [Nat.zero_add, hsum] at hread
      have hfull : (counted.buffer.read 0 (m.length % 64) ++ first).length = 64 := by
        rw [List.length_append, Mem.read_length, hsum]
      rw [List.take_left' hfirst, List.drop_left' hfirst, hread, mdBody_one _ hfull]
      rw [← List.append_assoc] at hcounts ⊢
      exact mdUpdateBlocks_after rest ⟨hcounts.lo, hcounts.hi⟩ (hstream.fill hfull)
  next hempty =>
    have hzero : m.length % 64 = 0 := not_not.mp hempty
    rw [hzero] at hstream
    exact mdUpdateBlocks_after data hcounts hstream

theorem mdUpdates_after {ctx : MdCtx} {m : List UInt8} (h : ctx.After T m)
    (pieces : List (List UInt8)) :
    (pieces.foldl (mdUpdate T) ctx).After T (m ++ pieces.flatten) := by
  induction pieces generalizing ctx m with
  | nil =>
    rw [List.flatten_nil, List.append_nil]
    exact h
  | cons piece pieces ih =>
    rw [List.foldl_cons, List.flatten_cons, ← List.append_assoc]
    exact ih (mdUpdate_after h piece)

/-! ## The last blocks -/

/-- The last block: what the buffer held, zeros and the number of bits. -/
theorem mdLastBlock_read {ctx : MdCtx} {len : Nat} (h : Counts ctx len) (buffer : Mem) {used : Nat}
    (hused : used ≤ 56) :
    (mdLastBlock ctx buffer used).read 0 64 =
      buffer.read 0 used ++ (List.replicate (56 - used) 0 ++ leBytes 8 (8 * len)) := by
  have hzeros : 64 - used - 8 = 56 - used := by omega
  have h56 : 56 = used + (List.replicate (56 - used) (0 : UInt8)).length := by
    rw [List.length_replicate]
    omega
  have hwrite : mdLastBlock ctx buffer used =
      buffer.write used (List.replicate (56 - used) 0 ++ leBytes 8 (8 * len)) := by
    rw [← h.bits, ← Mem.write_append, ← Mem.write_append, ← h56, mdLastBlock, hzeros, le32_length]
  have hread := Mem.read_write_end buffer 0 used
    (List.replicate (56 - used) 0 ++ leBytes 8 (8 * len))
  have hlen : used + (List.replicate (56 - used) 0 ++ leBytes 8 (8 * len)).length = 64 := by
    rw [List.length_append, List.length_replicate, leBytes_length]
    omega
  rw [Nat.zero_add, hlen] at hread
  rw [hwrite, hread]

theorem mdFinal_eq {ctx : MdCtx} {m : List UInt8} (h : ctx.After T m) :
    (mdFinal T ctx).1 = mdHash T m := by
  have hused : ctx.lo.toNat % 64 = m.length % 64 := by
    rw [h.counts.lo]
    omega
  have hmark := Mem.read_write_end ctx.buffer 0 (m.length % 64) [0x80]
  rw [Nat.zero_add, List.length_singleton] at hmark
  have hfirst : (ctx.buffer.read 0 (m.length % 64)).length = m.length % 64 := Mem.read_length _ _ _
  unfold mdFinal mdHash mdPadding
  rw [hused]
  dsimp only
  by_cases hspill : 64 - (m.length % 64 + 1) < 8
  · -- the length does not fit behind the mark: the zeros fill this block and most of the next
    rw [if_pos hspill]
    dsimp only
    have hzeros : (119 - m.length % 64) % 64 = 64 - (m.length % 64 + 1) + 56 := by omega
    have hread := Mem.read_write_end (ctx.buffer.write (m.length % 64) [0x80]) 0 (m.length % 64 + 1)
      (List.replicate (64 - (m.length % 64 + 1)) 0)
    have hsum : m.length % 64 + 1 + (64 - (m.length % 64 + 1)) = 64 := by omega
    rw [Nat.zero_add, List.length_replicate, hsum, hmark, List.append_assoc] at hread
    have hfull : (ctx.buffer.read 0 (m.length % 64) ++
        ([0x80] ++ List.replicate (64 - (m.length % 64 + 1)) 0)).length = 64 := by
      simp only [List.length_append, hfirst, List.length_singleton, List.length_replicate]
      omega
    have hlast := mdLastBlock_read h.counts
      ((ctx.buffer.write (m.length % 64) [0x80]).write (m.length % 64 + 1)
        (List.replicate (64 - (m.length % 64 + 1)) 0)) (Nat.zero_le 56)
    have hlen : (List.replicate 56 (0 : UInt8) ++ leBytes 8 (8 * m.length)).length = 1 * 64 := by
      rw [List.length_append, List.length_replicate, leBytes_length]
    have hdone := (h.stream.fill hfull).blocks 1 hlen
    rw [hlast, hread, Mem.read_zero, List.nil_append, mdBody_one _ hfull, mdBody_eq, hzeros,
      List.replicate_add, ← hdone.absorb_eq]
    simp only [List.append_assoc, List.cons_append, List.nil_append]
  · rw [if_neg hspill]
    dsimp only
    have hzeros : (119 - m.length % 64) % 64 = 56 - (m.length % 64 + 1) := by omega
    have hlast := mdLastBlock_read h.counts (ctx.buffer.write (m.length % 64) [0x80])
      (show m.length % 64 + 1 ≤ 56 by omega)
    rw [hmark, List.append_assoc] at hlast
    have hfull : (ctx.buffer.read 0 (m.length % 64) ++ ([0x80] ++
        (List.replicate (56 - (m.length % 64 + 1)) 0 ++ leBytes 8 (8 * m.length)))).length = 64 := by
      simp only [List.length_append, hfirst, List.length_singleton, List.length_replicate,
        leBytes_length]
      omega
    have hdone := h.stream.fill hfull
    rw [hlast, mdBody_one _ hfull, hzeros, ← hdone.absorb_eq]
    simp only [List.cons_append, List.nil_append]

end

/-! ## The transformations -/

theorem md5F_eq : md5F = rfc1321F := by
  funext x y z
  apply UInt32.toBitVec_inj.mp
  ext i hi
  simp only [md5F, rfc1321F, UInt32.toBitVec_xor, UInt32.toBitVec_and, UInt32.toBitVec_or,
    UInt32.toBitVec_not, BitVec.getElem_xor, BitVec.getElem_and, BitVec.getElem_or,
    BitVec.getElem_not]
  cases x.toBitVec[i] <;> cases y.toBitVec[i] <;> cases z.toBitVec[i] <;> rfl

theorem md5G_eq : md5G = rfc1321G := by
  funext x y z
  apply UInt32.toBitVec_inj.mp
  ext i hi
  simp only [md5G, rfc1321G, UInt32.toBitVec_xor, UInt32.toBitVec_and, UInt32.toBitVec_or,
    UInt32.toBitVec_not, BitVec.getElem_xor, BitVec.getElem_and, BitVec.getElem_or,
    BitVec.getElem_not]
  cases x.toBitVec[i] <;> cases y.toBitVec[i] <;> cases z.toBitVec[i] <;> rfl

theorem md5H2_eq : md5H2 = rfc1321H := by
  funext x y z
  exact (UInt32.xor_assoc x y z).symm

theorem md4G_eq : md4G = rfc1320G := by
  funext x y z
  apply UInt32.toBitVec_inj.mp
  ext i hi
  simp only [md4G, rfc1320G, UInt32.toBitVec_and, UInt32.toBitVec_or, BitVec.getElem_and,
    BitVec.getElem_or]
  cases x.toBitVec[i] <;> cases y.toBitVec[i] <;> cases z.toBitVec[i] <;> rfl

theorem mdRotate_eq (x : UInt32) {s : Nat} (hs : 0 < s ∧ s < 32) :
    mdRotate x (UInt32.ofNat s) = rotateWord x s := by
  have hmask : x &&& 0xffffffff = x := by
    apply UInt32.toBitVec_inj.mp
    exact BitVec.and_allOnes
  have hleft : (UInt32.ofNat s).toBitVec % 32 = BitVec.ofNat 32 s := by
    apply BitVec.eq_of_toNat_eq
    simp
    omega
  have hright : (32 - UInt32.ofNat s).toBitVec % 32 = BitVec.ofNat 32 (32 - s) := by
    apply BitVec.eq_of_toNat_eq
    simp
    omega
  have hleft' : (BitVec.ofNat 32 s).toNat = s % 32 := by
    rw [BitVec.toNat_ofNat]
    omega
  have hright' : (BitVec.ofNat 32 (32 - s)).toNat = 32 - s % 32 := by
    rw [BitVec.toNat_ofNat]
    omega
  apply UInt32.toBitVec_inj.mp
  rw [mdRotate, hmask, UInt32.toBitVec_or, UInt32.toBitVec_shiftLeft, UInt32.toBitVec_shiftRight,
    hleft, hright, BitVec.shiftLeft_eq', BitVec.ushiftRight_eq', hleft', hright', rotateWord,
    BitVec.rotateLeft_def]

/-- The table of `md5.c`, step by step. -/
theorem md5Steps_eq : md5Steps = (List.range 64).map fun i =>
    ⟨rfc1321Function i, rfc1321Word i, rfc1321T.getD i 0, UInt32.ofNat (rfc1321Shift i)⟩ := by
  rw [md5Steps, md5F_eq, md5G_eq, md5H2_eq]
  rfl

/-- The table of `md4.c`, step by step. -/
theorem md4Steps_eq : md4Steps = (List.range 48).map fun i =>
    ⟨rfc1320Function i, rfc1320Word i, rfc1320Constant i, UInt32.ofNat (rfc1320Shift i)⟩ := by
  rw [md4Steps, show md4F = rfc1321F from md5F_eq, md4G_eq]
  rfl

theorem mdTransform_eq {step : List UInt8 → MdWords → MdStep → MdWords} {steps : List MdStep}
    {rfcStep : List UInt8 → MdWords → Nat → MdWords} {line : Nat → MdStep} {n : Nat}
    (hsteps : steps = (List.range n).map line)
    (hstep : ∀ block w, ∀ i < n, step block w (line i) = rfcStep block w i) :
    mdTransform step steps = rfcCompress rfcStep n := by
  funext w block
  have hfold : steps.foldl (step block) w = (List.range n).foldl (rfcStep block) w := by
    rw [hsteps, List.foldl_map]
    apply List.foldl_ext
    intro v i hi
    exact hstep block v i (List.mem_range.mp hi)
  rw [mdTransform, hfold, rfcCompress]

theorem md5Transform_eq : md5Transform = rfcCompress rfc1321Step 64 := by
  apply mdTransform_eq md5Steps_eq
  intro block w i hi
  have hshift : ∀ i < 64, 0 < rfc1321Shift i ∧ rfc1321Shift i < 32 := by decide
  rw [md5Step, rfc1321Step, mdRotate_eq _ (hshift i hi), UInt32.add_comm w.b, ← UInt32.add_assoc,
    ← UInt32.add_assoc]

theorem md4Transform_eq : md4Transform = rfcCompress rfc1320Step 48 := by
  apply mdTransform_eq md4Steps_eq
  intro block w i hi
  have hshift : ∀ i < 48, 0 < rfc1320Shift i ∧ rfc1320Shift i < 32 := by decide
  rw [md4Step, rfc1320Step, mdRotate_eq _ (hshift i hi), ← UInt32.add_assoc, ← UInt32.add_assoc]

/-! ## The digests -/

theorem md5_streamed (stack : Mem) (pieces : List (List UInt8)) :
    (md5Final (pieces.foldl md5Update (md5Init stack))).1 = rfc1321 pieces.flatten := by
  have hafter := mdUpdates_after (@mdInit_after md5Transform stack) pieces
  rw [rfc1321, ← md5Transform_eq]
  exact mdFinal_eq hafter

theorem md4_streamed (stack : Mem) (pieces : List (List UInt8)) :
    (md4Final (pieces.foldl md4Update (md4Init stack))).1 = rfc1320 pieces.flatten := by
  have hafter := mdUpdates_after (@mdInit_after md4Transform stack) pieces
  rw [rfc1320, ← md4Transform_eq]
  exact mdFinal_eq hafter

/-- A message hashed in pieces, however it is cut and whatever the buffer held before, has the
digest the RFCs give it as a whole. -/
theorem digests_streamed (stack : Mem) (pieces : List (List UInt8)) :
    (md5Final (pieces.foldl md5Update (md5Init stack))).1 = rfc1321 pieces.flatten ∧
      (md4Final (pieces.foldl md4Update (md4Init stack))).1 = rfc1320 pieces.flatten :=
  ⟨md5_streamed stack pieces, md4_streamed stack pieces⟩

-- "abc" of the test suites in both RFCs
example : rfc1321 [0x61, 0x62, 0x63] = [0x90, 0x01, 0x50, 0x98, 0x3c, 0xd2, 0x4f, 0xb0,
    0xd6, 0x96, 0x3f, 0x7d, 0x28, 0xe1, 0x7f, 0x72] := by decide +kernel

example : rfc1320 [0x61, 0x62, 0x63] = [0xa4, 0x48, 0x01, 0x7a, 0xaf, 0x21, 0xd8, 0x52,
    0x5f, 0xc1, 0x0a, 0xe8, 0x7a, 0xa6, 0x72, 0x9d] := by decide +kernel

end Libdsm
