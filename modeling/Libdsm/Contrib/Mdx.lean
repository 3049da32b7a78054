import Libdsm.Misc.Endian

/-!
# The bundled digests (`contrib/mdx/md4.c`, `contrib/mdx/md5.c`)

The two files have the same `body`, `Init`, `Update` and `Final` around different tables of steps,
so these are written once over the transformation of a block. The words of a block are read where
they stand, as the sources do on machines that tolerate unaligned reads; `ctx->block` is then not
used. A `size` is the length of the data, which is below `2^64`.
-/

namespace Libdsm

/-! ## Contexts -/

/-- The registers `a`, `b`, `c` and `d`. -/
structure MdWords where
  a : UInt32
  b : UInt32
  c : UInt32
  d : UInt32
  deriving DecidableEq, Repr

/-- `MD4_CTX` and `MD5_CTX`. -/
structure MdCtx where
  lo : UInt32
  hi : UInt32
  words : MdWords
  buffer : Mem

/-- The sixteen bytes of the registers, each least significant byte first. -/
def MdWords.bytes (w : MdWords) : List UInt8 := le32 w.a ++ le32 w.b ++ le32 w.c ++ le32 w.d

/-- A line `STEP (f, .., SET (index), t, s)` of the tables. -/
structure MdStep where
  f : UInt32 → UInt32 → UInt32 → UInt32
  index : Nat
  t : UInt32
  s : UInt32

/-- `GET (n)` and `SET (n)`. -/
def mdGet (ptr : List UInt8) (n : Nat) : UInt32 :=
  UInt32.ofNat (leNat ((ptr.drop (n * 4)).take 4))

/-- The rotation of `STEP`. -/
def mdRotate (a s : UInt32) : UInt32 := (a <<< s) ||| ((a &&& 0xffffffff) >>> (32 - s))

/-- One pass of the loop of `body`: the steps of a block, then the saved registers. -/
def mdTransform (step : List UInt8 → MdWords → MdStep → MdWords) (steps : List MdStep)
    (saved : MdWords) (ptr : List UInt8) : MdWords :=
  let w := steps.foldl (step ptr) saved
  { a := w.a + saved.a, b := w.b + saved.b, c := w.c + saved.c, d := w.d + saved.d }

/-! ## The family over a transformation -/

/-- `body` over a size of `blocks` times 64 bytes: the new registers and the data behind it. Its
callers pass a multiple of 64 that is not zero. -/
def mdBody (transform : MdWords → List UInt8 → MdWords) :
    Nat → MdWords → List UInt8 → MdWords × List UInt8
  | 0, w, ptr => (w, ptr)
  | blocks + 1, w, ptr => mdBody transform blocks (transform w (ptr.take 64)) (ptr.drop 64)

/-- `MD4_Init` and `MD5_Init`, on a context whose buffer holds anything. -/
def mdInit (stack : Mem) : MdCtx where
  lo := 0
  hi := 0
  words := { a := 0x67452301, b := 0xefcdab89, c := 0x98badcfe, d := 0x10325476 }
  buffer := stack

/-- The bit counters of `Update`. `lo` counts bytes up to `2^29`, `hi` the rest. -/
def mdCount (ctx : MdCtx) (size : Nat) : MdCtx :=
  let savedLo := ctx.lo
  let lo := UInt32.ofNat ((savedLo.toNat + size) % 2 ^ 29)
  let hi := if lo < savedLo then ctx.hi + 1 else ctx.hi
  { ctx with lo := lo, hi := hi + UInt32.ofNat (size / 2 ^ 29) }

/-- The rest of `Update` once no partial block is left in the buffer. -/
def mdUpdateBlocks (transform : MdWords → List UInt8 → MdWords) (ctx : MdCtx)
    (data : List UInt8) : MdCtx :=
  let size := data.length
  if size ≥ 64 then
    let (words, data) := mdBody transform (size / 64) ctx.words data
    let size := size % 64
    { ctx with words := words, buffer := ctx.buffer.write 0 (data.take size) }
  else
    { ctx with buffer := ctx.buffer.write 0 data }

/-- `MD4_Update` and `MD5_Update`. -/
def mdUpdate (transform : MdWords → List UInt8 → MdWords) (ctx : MdCtx) (data : List UInt8) :
    MdCtx :=
  let size := data.length
  let used := ctx.lo.toNat % 64
  let ctx := mdCount ctx size
  if used ≠ 0 then
    let available := 64 - used
    if size < available then
      { ctx with buffer := ctx.buffer.write used data }
    else
      let buffer := ctx.buffer.write used (data.take available)
      let (words, _) := mdBody transform 1 ctx.words (buffer.read 0 64)
      mdUpdateBlocks transform { ctx with words := words, buffer := buffer } (data.drop available)
  else
    mdUpdateBlocks transform ctx data

/-- The last block of `Final`, whose first `used` bytes are in the buffer. -/
def mdLastBlock (ctx : MdCtx) (buffer : Mem) (used : Nat) : Mem :=
  let available := 64 - used
  let buffer := buffer.write used (List.replicate (available - 8) 0)
  let lo := ctx.lo <<< 3
  let buffer := buffer.write 56 (le32 lo)
  buffer.write 60 (le32 ctx.hi)

/-- `MD4_Final` and `MD5_Final`: the digest and the context, wiped. -/
def mdFinal (transform : MdWords → List UInt8 → MdWords) (ctx : MdCtx) : List UInt8 × MdCtx :=
  let used := ctx.lo.toNat % 64
  let buffer := ctx.buffer.write used [0x80]
  let used := used + 1
  let available := 64 - used
  let (words, buffer, used) :=
    if available < 8 then
      let buffer := buffer.write used (List.replicate available 0)
      ((mdBody transform 1 ctx.words (buffer.read 0 64)).1, buffer, 0)
    else
      (ctx.words, buffer, used)
  let buffer := mdLastBlock ctx buffer used
  let (words, _) := mdBody transform 1 words (buffer.read 0 64)
  (words.bytes,
    { lo := 0, hi := 0, words := { a := 0, b := 0, c := 0, d := 0 },
      buffer := buffer.write 0 (List.replicate 64 0) })

/-! ## MD5 -/

def md5F (x y z : UInt32) : UInt32 := z ^^^ (x &&& (y ^^^ z))
def md5G (x y z : UInt32) : UInt32 := y ^^^ (z &&& (x ^^^ y))
def md5H (x y z : UInt32) : UInt32 := (x ^^^ y) ^^^ z
def md5H2 (x y z : UInt32) : UInt32 := x ^^^ (y ^^^ z)
def md5I (x y z : UInt32) : UInt32 := y ^^^ (x ||| ~~~z)

/-- `STEP` of `md5.c`. The next step names the registers one place further round. -/
def md5Step (ptr : List UInt8) (w : MdWords) (st : MdStep) : MdWords :=
  let a := w.a + (st.f w.b w.c w.d + mdGet ptr st.index + st.t)
  let a := mdRotate a st.s
  let a := a + w.b
  { a := w.d, b := a, c := w.b, d := w.c }

/-- The steps of `md5.c`. -/
def md5Steps : List MdStep :=
  [ -- Round 1
    ⟨md5F, 0, 0xd76aa478, 7⟩, ⟨md5F, 1, 0xe8c7b756, 12⟩,
    ⟨md5F, 2, 0x242070db, 17⟩, ⟨md5F, 3, 0xc1bdceee, 22⟩,
    ⟨md5F, 4, 0xf57c0faf, 7⟩, ⟨md5F, 5, 0x4787c62a, 12⟩,
    ⟨md5F, 6, 0xa8304613, 17⟩, ⟨md5F, 7, 0xfd469501, 22⟩,
    ⟨md5F, 8, 0x698098d8, 7⟩, ⟨md5F, 9, 0x8b44f7af, 12⟩,
    ⟨md5F, 10, 0xffff5bb1, 17⟩, ⟨md5F, 11, 0x895cd7be, 22⟩,
    ⟨md5F, 12, 0x6b901122, 7⟩, ⟨md5F, 13, 0xfd987193, 12⟩,
    ⟨md5F, 14, 0xa679438e, 17⟩, ⟨md5F, 15, 0x49b40821, 22⟩,
    -- Round 2
    ⟨md5G, 1, 0xf61e2562, 5⟩, ⟨md5G, 6, 0xc040b340, 9⟩,
    ⟨md5G, 11, 0x265e5a51, 14⟩, ⟨md5G, 0, 0xe9b6c7aa, 20⟩,
    ⟨md5G, 5, 0xd62f105d, 5⟩, ⟨md5G, 10, 0x02441453, 9⟩,
    ⟨md5G, 15, 0xd8a1e681, 14⟩, ⟨md5G, 4, 0xe7d3fbc8, 20⟩,
    ⟨md5G, 9, 0x21e1cde6, 5⟩, ⟨md5G, 14, 0xc33707d6, 9⟩,
    ⟨md5G, 3, 0xf4d50d87, 14⟩, ⟨md5G, 8, 0x455a14ed, 20⟩,
    ⟨md5G, 13, 0xa9e3e905, 5⟩, ⟨md5G, 2, 0xfcefa3f8, 9⟩,
    ⟨md5G, 7, 0x676f02d9, 14⟩, ⟨md5G, 12, 0x8d2a4c8a, 20⟩,
    -- Round 3
    ⟨md5H, 5, 0xfffa3942, 4⟩, ⟨md5H2, 8, 0x8771f681, 11⟩,
    ⟨md5H, 11, 0x6d9d6122, 16⟩, ⟨md5H2, 14, 0xfde5380c, 23⟩,
    ⟨md5H, 1, 0xa4beea44, 4⟩, ⟨md5H2, 4, 0x4bdecfa9, 11⟩,
    ⟨md5H, 7, 0xf6bb4b60, 16⟩, ⟨md5H2, 10, 0xbebfbc70, 23⟩,
    ⟨md5H, 13, 0x289b7ec6, 4⟩, ⟨md5H2, 0, 0xeaa127fa, 11⟩,
    ⟨md5H, 3, 0xd4ef3085, 16⟩, ⟨md5H2, 6, 0x04881d05, 23⟩,
    ⟨md5H, 9, 0xd9d4d039, 4⟩, ⟨md5H2, 12, 0xe6db99e5, 11⟩,
    ⟨md5H, 15, 0x1fa27cf8, 16⟩, ⟨md5H2, 2, 0xc4ac5665, 23⟩,
    -- Round 4
    ⟨md5I, 0, 0xf4292244, 6⟩, ⟨md5I, 7, 0x432aff97, 10⟩,
    ⟨md5I, 14, 0xab9423a7, 15⟩, ⟨md5I, 5, 0xfc93a039, 21⟩,
    ⟨md5I, 12, 0x655b59c3, 6⟩, ⟨md5I, 3, 0x8f0ccc92, 10⟩,
    ⟨md5I, 10, 0xffeff47d, 15⟩, ⟨md5I, 1, 0x85845dd1, 21⟩,
    ⟨md5I, 8, 0x6fa87e4f, 6⟩, ⟨md5I, 15, 0xfe2ce6e0, 10⟩,
    ⟨md5I, 6, 0xa3014314, 15⟩, ⟨md5I, 13, 0x4e0811a1, 21⟩,
    ⟨md5I, 4, 0xf7537e82, 6⟩, ⟨md5I, 11, 0xbd3af235, 10⟩,
    ⟨md5I, 2, 0x2ad7d2bb, 15⟩, ⟨md5I, 9, 0xeb86d391, 21⟩ ]

def md5Transform : MdWords → List UInt8 → MdWords := mdTransform md5Step md5Steps

def md5Init : Mem → MdCtx := mdInit
def md5Update : MdCtx → List UInt8 → MdCtx := mdUpdate md5Transform
def md5Final : MdCtx → List UInt8 × MdCtx := mdFinal md5Transform

/-! ## MD4 -/

def md4F (x y z : UInt32) : UInt32 := z ^^^ (x &&& (y ^^^ z))
def md4G (x y z : UInt32) : UInt32 := (x &&& (y ||| z)) ||| (y &&& z)
def md4H (x y z : UInt32) : UInt32 := x ^^^ y ^^^ z

/-- `STEP` of `md4.c`, where the constant is part of the word added. -/
def md4Step (ptr : List UInt8) (w : MdWords) (st : MdStep) : MdWords :=
  let a := w.a + (st.f w.b w.c w.d + (mdGet ptr st.index + st.t))
  let a := mdRotate a st.s
  { a := w.d, b := a, c := w.b, d := w.c }

/-- The steps of `md4.c`. Those of the first round add no constant. -/
def md4Steps : List MdStep :=
  [ -- Round 1
    ⟨md4F, 0, 0, 3⟩, ⟨md4F, 1, 0, 7⟩,
    ⟨md4F, 2, 0, 11⟩, ⟨md4F, 3, 0, 19⟩,
    ⟨md4F, 4, 0, 3⟩, ⟨md4F, 5, 0, 7⟩,
    ⟨md4F, 6, 0, 11⟩, ⟨md4F, 7, 0, 19⟩,
    ⟨md4F, 8, 0, 3⟩, ⟨md4F, 9, 0, 7⟩,
    ⟨md4F, 10, 0, 11⟩, ⟨md4F, 11, 0, 19⟩,
    ⟨md4F, 12, 0, 3⟩, ⟨md4F, 13, 0, 7⟩,
    ⟨md4F, 14, 0, 11⟩, ⟨md4F, 15, 0, 19⟩,
    -- Round 2
    ⟨md4G, 0, 0x5a827999, 3⟩, ⟨md4G, 4, 0x5a827999, 5⟩,
    ⟨md4G, 8, 0x5a827999, 9⟩, ⟨md4G, 12, 0x5a827999, 13⟩,
    ⟨md4G, 1, 0x5a827999, 3⟩, ⟨md4G, 5, 0x5a827999, 5⟩,
    ⟨md4G, 9, 0x5a827999, 9⟩, ⟨md4G, 13, 0x5a827999, 13⟩,
    ⟨md4G, 2, 0x5a827999, 3⟩, ⟨md4G, 6, 0x5a827999, 5⟩,
    ⟨md4G, 10, 0x5a827999, 9⟩, ⟨md4G, 14, 0x5a827999, 13⟩,
    ⟨md4G, 3, 0x5a827999, 3⟩, ⟨md4G, 7, 0x5a827999, 5⟩,
    ⟨md4G, 11, 0x5a827999, 9⟩, ⟨md4G, 15, 0x5a827999, 13⟩,
    -- Round 3
    ⟨md4H, 0, 0x6ed9eba1, 3⟩, ⟨md4H, 8, 0x6ed9eba1, 9⟩,
    ⟨md4H, 4, 0x6ed9eba1, 11⟩, ⟨md4H, 12, 0x6ed9eba1, 15⟩,
    ⟨md4H, 2, 0x6ed9eba1, 3⟩, ⟨md4H, 10, 0x6ed9eba1, 9⟩,
    ⟨md4H, 6, 0x6ed9eba1, 11⟩, ⟨md4H, 14, 0x6ed9eba1, 15⟩,
    ⟨md4H, 1, 0x6ed9eba1, 3⟩, ⟨md4H, 9, 0x6ed9eba1, 9⟩,
    ⟨md4H, 5, 0x6ed9eba1, 11⟩, ⟨md4H, 13, 0x6ed9eba1, 15⟩,
    ⟨md4H, 3, 0x6ed9eba1, 3⟩, ⟨md4H, 11, 0x6ed9eba1, 9⟩,
    ⟨md4H, 7, 0x6ed9eba1, 11⟩, ⟨md4H, 15, 0x6ed9eba1, 15⟩ ]

def md4Transform : MdWords → List UInt8 → MdWords := mdTransform md4Step md4Steps

def md4Init : Mem → MdCtx := mdInit
def md4Update : MdCtx → List UInt8 → MdCtx := mdUpdate md4Transform
def md4Final : MdCtx → List UInt8 × MdCtx := mdFinal md4Transform

end Libdsm
