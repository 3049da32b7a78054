import Mathlib.Algebra.Order.Ring.Nat
import Mathlib.Data.List.Basic
import Mathlib.Logic.Equiv.Basic

/-!
# Keyed digests and stream ciphers

`hmac` is the construction of RFC 2104 over any digest. A stream cipher is a state with a step that
yields the next byte of the keystream; `crypt` combines a text with the keystream byte by byte. What
the state becomes does not depend on the text, so the same call decrypts (`crypt_crypt`). `Rc4` is RC4
as a sequence of permutations of the bytes.
-/

namespace Libdsm

/-- HMAC over the digest `digest` with blocks of `block` bytes, as RFC 2104 defines it. -/
def hmac (digest : List UInt8 → List UInt8) (block : Nat) (key msg : List UInt8) : List UInt8 :=
  let key := if block < key.length then digest key else key
  let padded := key ++ List.replicate (block - key.length) 0
  digest (padded.map (· ^^^ 0x5c) ++ digest (padded.map (· ^^^ 0x36) ++ msg))

/-- The pads of a key differ from their first byte on. -/
theorem pad_ne {padded : List UInt8} (h : padded ≠ []) :
    padded.map (· ^^^ 0x5c) ≠ padded.map (· ^^^ 0x36) := by
  obtain ⟨b, bs, rfl⟩ := List.exists_cons_of_ne_nil h
  intro heq
  have hhead : b ^^^ 0x5c = b ^^^ 0x36 := (List.cons.inj heq).1
  have hpad : b ^^^ (b ^^^ 0x5c) = b ^^^ (b ^^^ 0x36) := by rw [hhead]
  rw [← UInt8.xor_assoc, ← UInt8.xor_assoc, UInt8.xor_self, UInt8.zero_xor, UInt8.zero_xor] at hpad
  exact absurd hpad (by decide)

/-- No key of a block hides the difference of two messages: some digest tells them apart. -/
theorem hmac_separates {block n : Nat} {key msg msg' : List UInt8} (hblock : 0 < block) (hn : 0 < n)
    (hkey : key.length ≤ block) (hne : msg ≠ msg') :
    ∃ digest : List UInt8 → List UInt8, (∀ bs, (digest bs).length = n) ∧
      hmac digest block key msg ≠ hmac digest block key msg' := by
  obtain ⟨padded, hpadded⟩ : ∃ padded, key ++ List.replicate (block - key.length) 0 = padded :=
    ⟨_, rfl⟩
  have hlen : padded.length = block := by
    rw [← hpadded, List.length_append, List.length_replicate]
    omega
  have hpads := pad_ne (List.ne_nil_of_length_pos (by omega : 0 < padded.length))
  generalize houter : padded.map (· ^^^ 0x5c) = outer at hpads
  generalize hinner : padded.map (· ^^^ 0x36) = inner at hpads
  have hapart : ∀ xs ys, outer ++ xs ≠ inner ++ ys := by
    intro xs ys heq
    exact hpads (List.append_inj heq (by rw [← houter, ← hinner, List.length_map, List.length_map])).1
  have hdigits : List.replicate n (0 : UInt8) ≠ List.replicate n 1 := by
    intro heq
    exact absurd (List.replicate_inj.mp heq).2 (by simp; omega)
  -- the digest is one on what `msg` leads to and zero on everything else
  refine ⟨fun bs => if bs = inner ++ msg ∨ bs = outer ++ List.replicate n 1 then List.replicate n 1
    else List.replicate n 0, fun bs => by dsimp only; split <;> exact List.length_replicate, ?_⟩
  unfold hmac
  rw [if_neg (Nat.not_lt.mpr hkey)]
  dsimp only
  have hfirst : inner ++ msg = inner ++ msg ∨ inner ++ msg = outer ++ List.replicate n 1 := .inl rfl
  have hone : outer ++ List.replicate n 1 = inner ++ msg ∨
      outer ++ List.replicate n 1 = outer ++ List.replicate n 1 := .inr rfl
  have hmsg : ¬ (inner ++ msg' = inner ++ msg ∨ inner ++ msg' = outer ++ List.replicate n 1) := by
    rintro (heq | heq)
    · exact hne (List.append_cancel_left heq).symm
    · exact hapart _ _ heq.symm
  have hzero : ¬ (outer ++ List.replicate n 0 = inner ++ msg ∨
      outer ++ List.replicate n 0 = outer ++ List.replicate n 1) := by
    rintro (heq | heq)
    · exact hapart _ _ heq
    · exact hdigits (List.append_cancel_left heq)
  rw [hpadded, houter, hinner, if_pos hfirst, if_pos hone, if_neg hmsg, if_neg hzero]
  exact hdigits.symm

namespace Stream

variable {σ : Type*} (next : σ → UInt8 × σ)

/-- The first `n` bytes of the keystream. -/
def keystream : σ → Nat → List UInt8
  | _, 0 => []
  | s, n + 1 => (next s).1 :: keystream (next s).2 n

/-- The text combined with the keystream. -/
def crypt : σ → List UInt8 → List UInt8
  | _, [] => []
  | s, b :: bs => (b ^^^ (next s).1) :: crypt (next s).2 bs

theorem crypt_eq (s : σ) (bs : List UInt8) :
    crypt next s bs = List.zipWith (· ^^^ ·) bs (keystream next s bs.length) := by
  induction bs generalizing s with
  | nil => rfl
  | cons b bs ih => rw [crypt, ih, List.length_cons, keystream, List.zipWith_cons_cons]

theorem keystream_length (s : σ) (n : Nat) : (keystream next s n).length = n := by
  induction n generalizing s with
  | zero => rfl
  | succ n ih => rw [keystream, List.length_cons, ih]

theorem xor_zipWith_cancel (xs ks : List UInt8) (h : ks.length = xs.length) :
    List.zipWith (· ^^^ ·) (List.zipWith (· ^^^ ·) xs ks) ks = xs := by
  induction xs generalizing ks with
  | nil => rfl
  | cons x xs ih =>
    cases ks with
    | nil => simp at h
    | cons k ks =>
      have hlen : ks.length = xs.length := by simpa using h
      rw [List.zipWith_cons_cons, List.zipWith_cons_cons, ih ks hlen, UInt8.xor_assoc,
        UInt8.xor_self, UInt8.xor_zero]

/-- Two parties that start from the same state: what the one encrypts the other decrypts. -/
theorem crypt_crypt (s : σ) (bs : List UInt8) : crypt next s (crypt next s bs) = bs := by
  have hlen : (keystream next s bs.length).length = bs.length := keystream_length next s bs.length
  have hcrypt : (crypt next s bs).length = bs.length := by
    rw [crypt_eq, List.length_zipWith, hlen, Nat.min_self]
  rw [crypt_eq, hcrypt, crypt_eq]
  exact xor_zipWith_cancel bs _ hlen

end Stream

namespace Rc4

/-- The permutation and the index after `n` steps of the key schedule: in step `n` the byte at `n` and a
byte of the key move the index, and the two places it and `n` name are exchanged. -/
def schedule (key : List UInt8) : Nat → Equiv.Perm UInt8 × UInt8
  | 0 => (Equiv.refl UInt8, 0)
  | n + 1 =>
    let (perm, j) := schedule key n
    let j := j + perm (UInt8.ofNat n) + key.getD (n % key.length) 0
    ((Equiv.swap (UInt8.ofNat n) j).trans perm, j)

/-- The permutation and the index that the first `n` bytes of the keystream leave. -/
def state (key : List UInt8) : Nat → Equiv.Perm UInt8 × UInt8
  | 0 => ((schedule key 256).1, 0)
  | n + 1 =>
    let (perm, j) := state key n
    let j := j + perm (UInt8.ofNat (n + 1))
    ((Equiv.swap (UInt8.ofNat (n + 1)) j).trans perm, j)

/-- The `n`-th byte of the keystream. -/
def keystream (key : List UInt8) (n : Nat) : UInt8 :=
  let (perm, j) := state key (n + 1)
  perm (perm (UInt8.ofNat (n + 1)) + perm j)

/-- The text combined with the keystream. -/
def crypt (key text : List UInt8) : List UInt8 := text.mapIdx fun n b => b ^^^ keystream key n

end Rc4

end Libdsm
