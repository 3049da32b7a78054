import Libdsm.Misc.Mem

/-!
# Fixed-width integers in byte memory

`leBytes k n` are the `k` low bytes of `n`, least significant first, and `leNat` reads such a
list back. The packed structures of a wire format are concatenations of these fields, read from a
memory at their offsets.
-/

namespace Libdsm

/-- The number a little-endian byte list stands for. -/
def leNat : List UInt8 → Nat
  | [] => 0
  | b :: bs => b.toNat + 256 * leNat bs

/-- The `k` low bytes of `n`, least significant first. -/
def leBytes : Nat → Nat → List UInt8
  | 0, _ => []
  | k + 1, n => UInt8.ofNat n :: leBytes k (n / 256)

@[simp] theorem leBytes_length (k n : Nat) : (leBytes k n).length = k := by
  induction k generalizing n with
  | zero => rfl
  | succ k ih => simp [leBytes, ih]

theorem leNat_leBytes (k n : Nat) : leNat (leBytes k n) = n % 256 ^ k := by
  induction k generalizing n with
  | zero => simp [leBytes, leNat, Nat.mod_one]
  | succ k ih =>
    have low : (UInt8.ofNat n).toNat = n % 256 := by simp
    rw [leBytes, leNat, ih, low, Nat.pow_succ, Nat.mul_comm (256 ^ k), Nat.mod_mul]

theorem leBytes_leNat (bs : List UInt8) : leBytes bs.length (leNat bs) = bs := by
  induction bs with
  | nil => rfl
  | cons b bs ih =>
    have hlow : UInt8.ofNat (b.toNat + 256 * leNat bs) = b := by
      apply UInt8.toNat_inj.mp
      have hb := b.toNat_lt
      simp
    have hhigh : (b.toNat + 256 * leNat bs) / 256 = leNat bs := by
      have hb := b.toNat_lt
      omega
    rw [List.length_cons, leBytes, leNat, hlow, hhigh, ih]

theorem leNat_lt (bs : List UInt8) : leNat bs < 256 ^ bs.length := by
  induction bs with
  | nil => simp [leNat]
  | cons b bs ih =>
    have hb := b.toNat_lt
    simp only [leNat, List.length_cons, Nat.pow_succ]
    omega

def le16 (x : UInt16) : List UInt8 := leBytes 2 x.toNat
def le32 (x : UInt32) : List UInt8 := leBytes 4 x.toNat
def le64 (x : UInt64) : List UInt8 := leBytes 8 x.toNat

@[simp] theorem le16_length (x : UInt16) : (le16 x).length = 2 := leBytes_length _ _
@[simp] theorem le32_length (x : UInt32) : (le32 x).length = 4 := leBytes_length _ _
@[simp] theorem le64_length (x : UInt64) : (le64 x).length = 8 := leBytes_length _ _

theorem le16_ofNat_leNat {bs : List UInt8} (h : bs.length = 2) :
    le16 (UInt16.ofNat (leNat bs)) = bs := by
  have hlt : leNat bs < 2 ^ 16 := by
    have := leNat_lt bs
    rw [h] at this
    omega
  rw [le16, UInt16.toNat_ofNat_of_lt' hlt, ← h, leBytes_leNat]

namespace Mem

def u16 (m : Mem) (off : Nat) : UInt16 := UInt16.ofNat (leNat (m.read off 2))
def u32 (m : Mem) (off : Nat) : UInt32 := UInt32.ofNat (leNat (m.read off 4))
def u64 (m : Mem) (off : Nat) : UInt64 := UInt64.ofNat (leNat (m.read off 8))

theorem u16_eq {m : Mem} {off : Nat} {x : UInt16} (h : m.read off 2 = le16 x) :
    m.u16 off = x := by
  have hx : x.toNat % 256 ^ 2 = x.toNat := Nat.mod_eq_of_lt x.toNat_lt
  rw [u16, h, le16, leNat_leBytes, hx, UInt16.ofNat_toNat]

theorem u32_eq {m : Mem} {off : Nat} {x : UInt32} (h : m.read off 4 = le32 x) :
    m.u32 off = x := by
  have hx : x.toNat % 256 ^ 4 = x.toNat := Nat.mod_eq_of_lt x.toNat_lt
  rw [u32, h, le32, leNat_leBytes, hx, UInt32.ofNat_toNat]

theorem u64_eq {m : Mem} {off : Nat} {x : UInt64} (h : m.read off 8 = le64 x) :
    m.u64 off = x := by
  have hx : x.toNat % 256 ^ 8 = x.toNat := Nat.mod_eq_of_lt x.toNat_lt
  rw [u64, h, le64, leNat_leBytes, hx, UInt64.ofNat_toNat]

/-- Fields are read from the bytes they cover alone. -/
theorem u16_congr {m m' : Mem} {off off' : Nat} (h : m.read off 2 = m'.read off' 2) :
    m.u16 off = m'.u16 off' := by
  rw [u16, h, u16]

theorem u32_congr {m m' : Mem} {off off' : Nat} (h : m.read off 4 = m'.read off' 4) :
    m.u32 off = m'.u32 off' := by
  rw [u32, h, u32]

theorem u64_congr {m m' : Mem} {off off' : Nat} (h : m.read off 8 = m'.read off' 8) :
    m.u64 off = m'.u64 off' := by
  rw [u64, h, u64]

end Mem

end Libdsm
