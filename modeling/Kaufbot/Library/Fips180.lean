import Mathlib.Data.List.Basic
import Mathlib.Algebra.Ring.Nat
import Mathlib.Data.Nat.NthRoot.Defs

/-!
SHA-256 as FIPS 180-4 defines it, over whole messages: the padded message, its
blocks of sixty-four bytes, and the compression function folded over them. The
constants are computed from the roots of the primes they are taken from.
-/

namespace Fips180

abbrev Word := BitVec 32

/-- The eight words of a hash value, and the working variables. -/
structure Hash where
  a : Word
  b : Word
  c : Word
  d : Word
  e : Word
  f : Word
  g : Word
  h : Word
deriving DecidableEq

def ch (x y z : Word) : Word := (x &&& y) ^^^ (~~~x &&& z)

def maj (x y z : Word) : Word := (x &&& y) ^^^ (x &&& z) ^^^ (y &&& z)

def bigSigma0 (x : Word) : Word := x.rotateRight 2 ^^^ x.rotateRight 13 ^^^ x.rotateRight 22

def bigSigma1 (x : Word) : Word := x.rotateRight 6 ^^^ x.rotateRight 11 ^^^ x.rotateRight 25

def sigma0 (x : Word) : Word := x.rotateRight 7 ^^^ x.rotateRight 18 ^^^ (x >>> 3)

def sigma1 (x : Word) : Word := x.rotateRight 17 ^^^ x.rotateRight 19 ^^^ (x >>> 10)

/-- The first sixty-four primes. -/
def primes : List Nat :=
  [2, 3, 5, 7, 11, 13, 17, 19, 23, 29, 31, 37, 41, 43, 47, 53, 59, 61, 67, 71, 73, 79, 83, 89, 97, 101,
   103, 107, 109, 113, 127, 131, 137, 139, 149, 151, 157, 163, 167, 173, 179, 181, 191, 193, 197, 199,
   211, 223, 227, 229, 233, 239, 241, 251, 257, 263, 269, 271, 277, 281, 283, 293, 307, 311]

/-- The first thirty-two bits of the fractional part of the `e`-th root of the prime `i`. -/
def rootBits (e i : Nat) : Word :=
  BitVec.ofNat 32 (Nat.nthRoot e (primes.getD i 0 * 2 ^ (32 * e)))

/-- The constant of round `t`. -/
def k (t : Nat) : Word := rootBits 3 t

def initial : Hash where
  a := rootBits 2 0
  b := rootBits 2 1
  c := rootBits 2 2
  d := rootBits 2 3
  e := rootBits 2 4
  f := rootBits 2 5
  g := rootBits 2 6
  h := rootBits 2 7

/-- The message schedule of a block with the words `m`. -/
def w (m : Nat → Word) (t : Nat) : Word :=
  if t < 16 then m t
  else sigma1 (w m (t - 2)) + w m (t - 7) + sigma0 (w m (t - 15)) + w m (t - 16)
termination_by t

def round (kt wt : Word) (v : Hash) : Hash :=
  let t1 := v.h + bigSigma1 v.e + ch v.e v.f v.g + kt + wt
  let t2 := bigSigma0 v.a + maj v.a v.b v.c
  { a := t1 + t2, b := v.a, c := v.b, d := v.c, e := v.d + t1, f := v.e, g := v.f, h := v.g }

/-- The hash value after a block with the words `m`. -/
def compress (m : Nat → Word) (v : Hash) : Hash :=
  let r := (List.range 64).foldl (fun r t => round (k t) (w m t) r) v
  { a := r.a + v.a, b := r.b + v.b, c := r.c + v.c, d := r.d + v.d,
    e := r.e + v.e, f := r.f + v.f, g := r.g + v.g, h := r.h + v.h }

/-- The number the bytes are, the first of them the most significant. -/
def number (l : List UInt8) : Nat := l.foldl (fun n b => n * 256 + b.toNat) 0

/-- The words of a block, each of four bytes. -/
def words (block : List UInt8) (i : Nat) : Word := BitVec.ofNat 32 (number ((block.drop (4 * i)).take 4))

/-- The `size` bytes of a number, the most significant first. -/
def bigEndian (size n : Nat) : List UInt8 :=
  (List.range size).map fun i => UInt8.ofNat (n / 256 ^ (size - 1 - i))

/-- How many zero bytes follow the first padding byte of a message of `n` bytes. -/
def zeros (n : Nat) : Nat := (119 - n % 64) % 64

def pad (message : List UInt8) : List UInt8 :=
  message ++ 0x80 :: (List.replicate (zeros message.length) 0 ++ bigEndian 8 (8 * message.length))

def blocks (l : List UInt8) : List (List UInt8) :=
  (List.range (l.length / 64)).map fun i => (l.drop (64 * i)).take 64

def hashFrom (v : Hash) (bs : List (List UInt8)) : Hash := bs.foldl (fun v b => compress (words b) v) v

def hash (message : List UInt8) : Hash := hashFrom initial (blocks (pad message))

def hexDigits : List UInt8 := [48, 49, 50, 51, 52, 53, 54, 55, 56, 57, 97, 98, 99, 100, 101, 102]

/-- The eight hexadecimal digits of a word. -/
def hexWord (x : Word) : List UInt8 :=
  (List.range 8).map fun i => hexDigits.getD (x.toNat / 16 ^ (7 - i) % 16) 0

def hexDigest (message : List UInt8) : List UInt8 :=
  let v := hash message
  [v.a, v.b, v.c, v.d, v.e, v.f, v.g, v.h].flatMap hexWord

section Schedule
variable (m : Nat → Word) {t : Nat}

theorem w_start (h : t < 16) : w m t = m t := by
  rw [w, if_pos h]

theorem w_later (h : ¬ t < 16) :
    w m t = sigma1 (w m (t - 2)) + w m (t - 7) + sigma0 (w m (t - 15)) + w m (t - 16) := by
  rw [w, if_neg h]

end Schedule

section Padding

/-- The zeros are the fewest that leave eight bytes to the end of a block. -/
theorem zeros_spec (n : Nat) : (n + 1 + zeros n) % 64 = 56 ∧ zeros n < 64 := by
  simp only [zeros]
  omega

theorem length_bigEndian (size n : Nat) : (bigEndian size n).length = size := by
  simp [bigEndian]

theorem length_pad (message : List UInt8) : (pad message).length % 64 = 0 := by
  have := zeros_spec message.length
  simp only [pad, List.length_append, List.length_cons, List.length_replicate, length_bigEndian]
  omega

/-- Blocks of the right length put together and cut apart again. -/
theorem blocks_flatten (bs : List (List UInt8)) (whole : ∀ b ∈ bs, b.length = 64) :
    blocks bs.flatten = bs := by
  induction bs with
  | nil => rfl
  | cons b bs ih =>
      obtain ⟨first, later⟩ := List.forall_mem_cons.mp whole
      have count : (b ++ bs.flatten).length / 64 = bs.flatten.length / 64 + 1 := by
        rw [List.length_append, first]
        omega
      rw [List.flatten_cons, blocks, count, List.range_succ_eq_map, List.map_cons, List.map_map,
        Nat.mul_zero, List.drop_zero, List.take_left' first]
      refine congrArg (b :: ·) ((List.map_congr_left fun i _ => ?_).trans (ih later))
      have shifted : 64 * (i + 1) = b.length + 64 * i := by omega
      rw [Function.comp_apply, Nat.succ_eq_add_one, shifted, ← List.drop_drop, List.drop_left]

end Padding

end Fips180
