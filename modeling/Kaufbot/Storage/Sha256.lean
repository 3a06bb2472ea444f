import Kaufbot.Library.Printf

/-!
The content hash of the storage module. The context is fed byte by byte as in
the source; the message schedule and the rounds are folds over lists. What the
rest of the development uses is that the hash is a function of the content and
that its text always has sixty-four characters, so it fits every hash buffer.
-/

namespace Kaufbot

structure Sha256State where
  a : UInt32
  b : UInt32
  c : UInt32
  d : UInt32
  e : UInt32
  f : UInt32
  g : UInt32
  h : UInt32

structure Sha256Ctx where
  state : Sha256State
  count : UInt64
  buf : List UInt8

def sha256K : List UInt32 :=
  [0x428a2f98, 0x71374491, 0xb5c0fbcf, 0xe9b5dba5, 0x3956c25b, 0x59f111f1, 0x923f82a4, 0xab1c5ed5,
   0xd807aa98, 0x12835b01, 0x243185be, 0x550c7dc3, 0x72be5d74, 0x80deb1fe, 0x9bdc06a7, 0xc19bf174,
   0xe49b69c1, 0xefbe4786, 0x0fc19dc6, 0x240ca1cc, 0x2de92c6f, 0x4a7484aa, 0x5cb0a9dc, 0x76f988da,
   0x983e5152, 0xa831c66d, 0xb00327c8, 0xbf597fc7, 0xc6e00bf3, 0xd5a79147, 0x06ca6351, 0x14292967,
   0x27b70a85, 0x2e1b2138, 0x4d2c6dfc, 0x53380d13, 0x650a7354, 0x766a0abb, 0x81c2c92e, 0x92722c85,
   0xa2bfe8a1, 0xa81a664b, 0xc24b8b70, 0xc76c51a3, 0xd192e819, 0xd6990624, 0xf40e3585, 0x106aa070,
   0x19a4c116, 0x1e376c08, 0x2748774c, 0x34b0bcb5, 0x391c0cb3, 0x4ed8aa4a, 0x5b9cca4f, 0x682e6ff3,
   0x748f82ee, 0x78a5636f, 0x84c87814, 0x8cc70208, 0x90befffa, 0xa4506ceb, 0xbef9a3f7, 0xc67178f2]

def ror32 (x n : UInt32) : UInt32 := (x >>> n) ||| (x <<< (32 - n))

def sha256Ch (x y z : UInt32) : UInt32 := (x &&& y) ^^^ (~~~x &&& z)

def sha256Maj (x y z : UInt32) : UInt32 := (x &&& y) ^^^ (x &&& z) ^^^ (y &&& z)

def bigSigma0 (x : UInt32) : UInt32 := ror32 x 2 ^^^ ror32 x 13 ^^^ ror32 x 22

def bigSigma1 (x : UInt32) : UInt32 := ror32 x 6 ^^^ ror32 x 11 ^^^ ror32 x 25

def smallSigma0 (x : UInt32) : UInt32 := ror32 x 7 ^^^ ror32 x 18 ^^^ (x >>> 3)

def smallSigma1 (x : UInt32) : UInt32 := ror32 x 17 ^^^ ror32 x 19 ^^^ (x >>> 10)

def sha256Word (data : List UInt8) (base : Nat) : UInt32 :=
  (data.getD base 0).toUInt32 <<< 24 ||| (data.getD (base + 1) 0).toUInt32 <<< 16 |||
    (data.getD (base + 2) 0).toUInt32 <<< 8 ||| (data.getD (base + 3) 0).toUInt32

def sha256ExtendSchedule (m : List UInt32) (i : Nat) : List UInt32 :=
  m ++ [smallSigma1 (m.getD (i - 2) 0) + m.getD (i - 7) 0 +
    smallSigma0 (m.getD (i - 15) 0) + m.getD (i - 16) 0]

/-- The sixty-four words `m` of a block. -/
def sha256Schedule (data : List UInt8) : List UInt32 :=
  (List.range' 16 48).foldl sha256ExtendSchedule
    ((List.range 16).map (fun i => sha256Word data (i * 4)))

def sha256Round (s : Sha256State) (km : UInt32 × UInt32) : Sha256State :=
  let t1 := s.h + bigSigma1 s.e + sha256Ch s.e s.f s.g + km.1 + km.2
  let t2 := bigSigma0 s.a + sha256Maj s.a s.b s.c
  { a := t1 + t2, b := s.a, c := s.b, d := s.c, e := s.d + t1, f := s.e, g := s.f, h := s.g }

def sha256Transform (s : Sha256State) (data : List UInt8) : Sha256State :=
  let r := (sha256K.zip (sha256Schedule data)).foldl sha256Round s
  { a := s.a + r.a, b := s.b + r.b, c := s.c + r.c, d := s.d + r.d,
    e := s.e + r.e, f := s.f + r.f, g := s.g + r.g, h := s.h + r.h }

def sha256Init : Sha256Ctx where
  state :=
    { a := 0x6a09e667, b := 0xbb67ae85, c := 0x3c6ef372, d := 0xa54ff53a,
      e := 0x510e527f, f := 0x9b05688c, g := 0x1f83d9ab, h := 0x5be0cd19 }
  count := 0
  buf := List.replicate 64 0

def sha256UpdateByte (ctx : Sha256Ctx) (byte : UInt8) : Sha256Ctx :=
  let buf := ctx.buf.set (ctx.count % 64).toNat byte
  let count := ctx.count + 1
  if count % 64 == 0 then { state := sha256Transform ctx.state buf, count := count, buf := buf }
  else { ctx with count := count, buf := buf }

def sha256Update (ctx : Sha256Ctx) (data : List UInt8) : Sha256Ctx :=
  data.foldl sha256UpdateByte ctx

/-- The padding loop of `sha256_final`; each byte moves the count by one. -/
def sha256Pad : Nat → Sha256Ctx → Sha256Ctx
  | 0, ctx => ctx
  | n + 1, ctx => if ctx.count % 64 != 56 then sha256Pad n (sha256UpdateByte ctx 0) else ctx

def bigEndian64 (n : UInt64) : List UInt8 :=
  [n >>> 56, n >>> 48, n >>> 40, n >>> 32, n >>> 24, n >>> 16, n >>> 8, n].map UInt64.toUInt8

def bigEndian32 (n : UInt32) : List UInt8 :=
  [n >>> 24, n >>> 16, n >>> 8, n].map UInt32.toUInt8

def sha256Final (ctx : Sha256Ctx) : List UInt8 :=
  let bitCount := ctx.count * 8
  let padded := sha256Pad 64 (sha256Update ctx [0x80])
  let s := (sha256Update padded (bigEndian64 bitCount)).state
  [s.a, s.b, s.c, s.d, s.e, s.f, s.g, s.h].flatMap bigEndian32

def storageSha256Hex (data : List UInt8) : CString :=
  .concat ((sha256Final (sha256Update sha256Init data)).map CString.printHex2)

set_option maxRecDepth 100000 in
example : storageSha256Hex (CString.lit "abc").bytes =
    CString.lit "ba7816bf8f01cfea414140de5dae2223b00361a396177a9cb410ff61f20015ad" := by
  decide +kernel

theorem sha256UpdateByte_count (ctx : Sha256Ctx) (byte : UInt8) :
    (sha256UpdateByte ctx byte).count = ctx.count + 1 := by
  simp only [sha256UpdateByte]
  split <;> rfl

/-- Sixty-four iterations are enough: the padding loop stops where the source's does. -/
theorem sha256Pad_count (ctx : Sha256Ctx) : (sha256Pad 64 ctx).count % 64 = 56 := by
  have stops (n : Nat) : ∀ ctx : Sha256Ctx, (120 - ctx.count.toNat % 64) % 64 ≤ n →
      (sha256Pad n ctx).count % 64 = 56 := by
    induction n with
    | zero =>
        intro ctx h
        apply UInt64.toNat_inj.mp
        simp only [sha256Pad, UInt64.toNat_mod]
        change ctx.count.toNat % 64 = 56
        omega
    | succ n ih =>
        intro ctx h
        simp only [sha256Pad, bne_iff_ne, ne_eq, ite_not]
        split
        · assumption
        · next hne =>
            have here : ctx.count.toNat % 64 ≠ 56 := by
              intro heq
              apply hne
              apply UInt64.toNat_inj.mp
              exact (UInt64.toNat_mod _ _).trans heq
            have next : (ctx.count + 1).toNat = (ctx.count.toNat + 1) % 2 ^ 64 := by
              simp only [UInt64.toNat_add]
              rfl
            apply ih
            rw [sha256UpdateByte_count, next]
            omega
  exact stops 64 ctx (by omega)

theorem length_sha256Final (ctx : Sha256Ctx) : (sha256Final ctx).length = 32 := rfl

theorem length_storageSha256Hex (data : List UInt8) : (storageSha256Hex data).length = 64 := by
  have pairs (l : List UInt8) :
      ((l.map CString.printHex2).flatMap CString.bytes).length = 2 * l.length := by
    induction l with
    | nil => rfl
    | cons b l ih =>
        simp only [List.map_cons, List.flatMap_cons, List.length_append, List.length_cons, ih,
          CString.length_printHex2]
        omega
  simp only [storageSha256Hex, CString.length, CString.bytes_concat, pairs, length_sha256Final]

end Kaufbot
