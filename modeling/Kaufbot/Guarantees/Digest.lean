import Kaufbot.Library.Fips180
import Kaufbot.Storage.Sha256

/-!
The content hash is SHA-256. The context is fed byte by byte and compresses its
buffer whenever it is full; along every sequence of bytes its state is the hash
value of the full blocks so far, and the buffer holds what is left of them.
-/

namespace Kaufbot

section Words

/-- The table of the source holds the constants of the standard. -/
theorem sha256K_eq : sha256K = (List.range 64).map fun t => UInt32.ofBitVec (Fips180.k t) := by
  decide +kernel

/-- Four bytes shifted into place are the number they are. -/
theorem or_shifted (a b c d : UInt8) :
    (a.toNat <<< 24 ||| b.toNat <<< 16 ||| c.toNat <<< 8 ||| d.toNat) =
      ((a.toNat * 256 + b.toNat) * 256 + c.toNat) * 256 + d.toNat := by
  have hb := b.toNat_lt
  have hc := c.toNat_lt
  have hd := d.toNat_lt
  simp only [Nat.shiftLeft_eq]
  rw [Nat.mul_comm a.toNat, ← Nat.two_pow_add_eq_or_of_lt (i := 24) (by omega),
    show 2 ^ 24 * a.toNat + b.toNat * 2 ^ 16 = 2 ^ 16 * (2 ^ 8 * a.toNat + b.toNat) by omega,
    ← Nat.two_pow_add_eq_or_of_lt (i := 16) (by omega),
    show 2 ^ 16 * (2 ^ 8 * a.toNat + b.toNat) + c.toNat * 2 ^ 8 =
      2 ^ 8 * ((2 ^ 8 * a.toNat + b.toNat) * 2 ^ 8 + c.toNat) by omega,
    ← Nat.two_pow_add_eq_or_of_lt (i := 8) (by omega)]
  omega

theorem take_four (l : List UInt8) (base : Nat) (h : base + 4 ≤ l.length) :
    (l.drop base).take 4 =
      [l.getD base 0, l.getD (base + 1) 0, l.getD (base + 2) 0, l.getD (base + 3) 0] := by
  have next (i : Nat) (hi : i < l.length) : l.drop i = l.getD i 0 :: l.drop (i + 1) := by
    rw [List.drop_eq_getElem_cons hi, List.getD_eq_getElem?_getD, List.getElem?_eq_getElem hi]
    rfl
  rw [next base (by omega), next (base + 1) (by omega), next (base + 1 + 1) (by omega),
    next (base + 1 + 1 + 1) (by omega)]
  rfl

theorem sha256Word_toBitVec (data : List UInt8) (i : Nat) (h : 4 * i + 4 ≤ data.length) :
    (sha256Word data (i * 4)).toBitVec = Fips180.words data i := by
  have inside (x : UInt8) (n : Nat) (hn : n ≤ 24) : x.toNat <<< n % 2 ^ 32 = x.toNat <<< n := by
    have hx := x.toNat_lt
    have power : 2 ^ n ≤ 2 ^ 24 := Nat.pow_le_pow_right (by decide) hn
    refine Nat.mod_eq_of_lt ?_
    rw [Nat.shiftLeft_eq]
    exact (Nat.mul_le_mul (Nat.le_of_lt_succ hx) power).trans_lt (by decide)
  have joined := or_shifted (data.getD (4 * i) 0) (data.getD (4 * i + 1) 0)
    (data.getD (4 * i + 2) 0) (data.getD (4 * i + 3) 0)
  have ha := (data.getD (4 * i) 0).toNat_lt
  have hb := (data.getD (4 * i + 1) 0).toNat_lt
  have hc := (data.getD (4 * i + 2) 0).toNat_lt
  have hd := (data.getD (4 * i + 3) 0).toNat_lt
  have value : (sha256Word data (4 * i)).toNat = ((data.getD (4 * i) 0).toNat <<< 24 |||
      (data.getD (4 * i + 1) 0).toNat <<< 16 ||| (data.getD (4 * i + 2) 0).toNat <<< 8 |||
      (data.getD (4 * i + 3) 0).toNat) := by
    simp only [sha256Word, UInt32.toNat_or, UInt32.toNat_shiftLeft, UInt8.toNat_toUInt32]
    exact congrArg₂ _ (congrArg₂ _ (congrArg₂ _ (inside _ 24 (by decide)) (inside _ 16 (by decide)))
      (inside _ 8 (by decide))) rfl
  apply BitVec.eq_of_toNat_eq
  rw [Nat.mul_comm i 4, UInt32.toNat_toBitVec, value, joined, Fips180.words, take_four data (4 * i) h,
    BitVec.toNat_ofNat]
  simp only [Fips180.number, List.foldl_cons, List.foldl_nil, Nat.zero_mul, Nat.zero_add]
  omega

theorem getD_map_range {α : Type} (f : Nat → α) (zero : α) {n t : Nat} (h : t < n) :
    ((List.range n).map f).getD t zero = f t := by
  simp [List.getD, h]

/-- The extension loop appends the words of the schedule in turn. -/
theorem foldl_sha256ExtendSchedule (m : Nat → Fips180.Word) (n : Nat) :
    (List.range' 16 n).foldl sha256ExtendSchedule
        ((List.range 16).map fun t => UInt32.ofBitVec (Fips180.w m t)) =
      (List.range (16 + n)).map fun t => UInt32.ofBitVec (Fips180.w m t) := by
  induction n with
  | zero => rfl
  | succ n ih =>
      have later : ¬ 16 + n < 16 := by omega
      rw [List.range'_concat, List.foldl_append, ih, Nat.one_mul, List.foldl_cons, List.foldl_nil,
        ← Nat.add_assoc, List.range_succ, List.map_append, sha256ExtendSchedule,
        getD_map_range _ _ (by omega), getD_map_range _ _ (by omega), getD_map_range _ _ (by omega),
        getD_map_range _ _ (by omega)]
      have word : UInt32.ofBitVec (Fips180.w m (16 + n)) = _ :=
        congrArg UInt32.ofBitVec (Fips180.w_later m later)
      rw [List.map_singleton, word]
      rfl

theorem sha256Schedule_eq (data : List UInt8) (h : data.length = 64) :
    sha256Schedule data =
      (List.range 64).map fun t => UInt32.ofBitVec (Fips180.w (Fips180.words data) t) := by
  have first : ((List.range 16).map fun i => sha256Word data (i * 4)) =
      (List.range 16).map fun t => UInt32.ofBitVec (Fips180.w (Fips180.words data) t) := by
    refine List.map_congr_left fun i hi => ?_
    have small : i < 16 := List.mem_range.mp hi
    rw [← UInt32.toBitVec_inj, sha256Word_toBitVec data i (by omega),
      Fips180.w_start _ small]
  rw [sha256Schedule, first, foldl_sha256ExtendSchedule]

end Words

section Compression

def Sha256State.toHash (s : Sha256State) : Fips180.Hash where
  a := s.a.toBitVec
  b := s.b.toBitVec
  c := s.c.toBitVec
  d := s.d.toBitVec
  e := s.e.toBitVec
  f := s.f.toBitVec
  g := s.g.toBitVec
  h := s.h.toBitVec

theorem toHash_sha256Round (s : Sha256State) (k m : UInt32) :
    (sha256Round s (k, m)).toHash = Fips180.round k.toBitVec m.toBitVec s.toHash := rfl

theorem toHash_sha256Transform (s : Sha256State) (data : List UInt8) (h : data.length = 64) :
    (sha256Transform s data).toHash = Fips180.compress (Fips180.words data) s.toHash := by
  have rounds : ((sha256K.zip (sha256Schedule data)).foldl sha256Round s).toHash =
      (List.range 64).foldl
        (fun r t => Fips180.round (Fips180.k t) (Fips180.w (Fips180.words data) t) r) s.toHash := by
    rw [sha256K_eq, sha256Schedule_eq data h, List.zip_map', List.foldl_map]
    exact (List.foldl_hom Sha256State.toHash fun r t => (toHash_sha256Round r _ _).symm).symm
  rw [Fips180.compress, ← rounds]
  simp only [sha256Transform, Sha256State.toHash, UInt32.toBitVec_add, BitVec.add_comm]

end Compression

/-- The context after the bytes `fed`: the full blocks are compressed and the
buffer starts with the bytes after them. -/
structure Fed (fed : List UInt8) (ctx : Sha256Ctx) : Prop where
  count : ctx.count.toNat = fed.length % 2 ^ 64
  size : ctx.buf.length = 64
  blocks : ∃ bs : List (List UInt8), fed = bs.flatten ++ ctx.buf.take (fed.length % 64) ∧
    (∀ b ∈ bs, b.length = 64) ∧ ctx.state.toHash = Fips180.hashFrom Fips180.initial bs

section Stream
variable {fed : List UInt8} {ctx : Sha256Ctx}

theorem fed_init : Fed [] sha256Init where
  count := rfl
  size := rfl
  blocks := ⟨[], rfl, fun _ h => absurd h List.not_mem_nil, by decide +kernel⟩

/-- The slot the next byte goes to. -/
theorem Fed.slot (h : Fed fed ctx) : (ctx.count % 64).toNat = fed.length % 64 := by
  have count := h.count
  rw [UInt64.toNat_mod]
  change ctx.count.toNat % 64 = _
  omega

theorem take_set (l : List UInt8) (b : UInt8) {i : Nat} (h : i < l.length) :
    (l.set i b).take (i + 1) = l.take i ++ [b] := by
  have taken : (l.take i).length = i := List.length_take_of_le h.le
  rw [List.set_eq_take_append_cons_drop, if_pos h, List.take_append, taken,
    List.take_of_length_le (by omega), Nat.add_sub_cancel_left, List.take_succ_cons, List.take_zero]

theorem Fed.count_succ (h : Fed fed ctx) (byte : UInt8) :
    (ctx.count + 1).toNat = (fed ++ [byte]).length % 2 ^ 64 := by
  have before := h.count
  rw [UInt64.toNat_add, List.length_append]
  change (ctx.count.toNat + 1) % 2 ^ 64 = (fed.length + 1) % 2 ^ 64
  omega

/-- The next byte fills the buffer. -/
theorem Fed.full_iff (h : Fed fed ctx) (byte : UInt8) :
    ((ctx.count + 1) % 64 == 0) = true ↔ (fed.length + 1) % 64 = 0 := by
  rw [beq_iff_eq, ← UInt64.toNat_inj, UInt64.toNat_mod, h.count_succ byte, List.length_append]
  change (fed.length + 1) % 2 ^ 64 % 64 = 0 ↔ _
  omega

/-- One byte: the buffer takes it, and a buffer that is full becomes a block. -/
theorem Fed.update (h : Fed fed ctx) (byte : UInt8) :
    Fed (fed ++ [byte]) (sha256UpdateByte ctx byte) := by
  obtain ⟨bs, split, whole, state⟩ := h.blocks
  have slot := h.slot
  have count := h.count_succ byte
  have full := h.full_iff byte
  have size : (ctx.buf.set (fed.length % 64) byte).length = 64 := by
    rw [List.length_set, h.size]
  have taken := take_set ctx.buf byte (i := fed.length % 64)
    (by rw [h.size]; exact Nat.mod_lt _ (by decide))
  have longer : (fed ++ [byte]).length = fed.length + 1 := List.length_append
  simp only [sha256UpdateByte, slot]
  split
  · next hfull =>
      have wrapped := full.mp hfull
      have last : fed.length % 64 + 1 = 64 := by omega
      refine ⟨count, size, bs ++ [ctx.buf.set (fed.length % 64) byte], ?_, ?_, ?_⟩
      · rw [last, List.take_of_length_le (by rw [size])] at taken
        rw [longer, wrapped, List.take_zero, List.append_nil, List.flatten_append, taken,
          List.flatten_singleton, ← List.append_assoc, ← split]
      · exact List.forall_mem_append.mpr ⟨whole, List.forall_mem_singleton.mpr size⟩
      · rw [toHash_sha256Transform _ _ size, state, Fips180.hashFrom, Fips180.hashFrom,
          List.foldl_append]
        rfl
  · next hroom =>
      have unwrapped : (fed.length + 1) % 64 = fed.length % 64 + 1 := by
        have := mt full.mpr hroom
        omega
      refine ⟨count, size, bs, ?_, whole, state⟩
      rw [longer, unwrapped]
      change fed ++ [byte] = bs.flatten ++ (ctx.buf.set (fed.length % 64) byte).take _
      rw [taken, ← List.append_assoc, ← split]

theorem Fed.updates (h : Fed fed ctx) (data : List UInt8) :
    Fed (fed ++ data) (sha256Update ctx data) := by
  induction data generalizing fed ctx with
  | nil =>
      rw [List.append_nil]
      exact h
  | cons byte data ih =>
      have later := ih (h.update byte)
      rwa [List.append_assoc] at later

/-- The padding loop feeds zeros up to the place of the length. -/
theorem Fed.sha256Pad_eq (h : Fed fed ctx) (n zeros : Nat) (enough : zeros ≤ n) (few : zeros < 64)
    (place : (fed.length + zeros) % 64 = 56) :
    sha256Pad n ctx = sha256Update ctx (List.replicate zeros 0) := by
  induction n generalizing fed ctx zeros with
  | zero =>
      obtain rfl := Nat.le_zero.mp enough
      rfl
  | succ n ih =>
      have there : (ctx.count % 64 != 56) = true ↔ fed.length % 64 ≠ 56 := by
        rw [bne_iff_ne, ne_eq, ← UInt64.toNat_inj, h.slot]
        rfl
      rw [sha256Pad]
      cases zeros with
      | zero => rw [if_neg (fun more => there.mp more place)]; rfl
      | succ zeros =>
          rw [if_pos (there.mpr (by omega))]
          have longer : (fed ++ [0]).length = fed.length + 1 := List.length_append
          exact ih (h.update 0) zeros (by omega) (by omega) (by rw [longer]; omega)

end Stream

section Text

theorem hexDigit_eq (d : Fin 16) : CString.printHex2.hexDigit d = Fips180.hexDigits.getD d 0 ∧
    CString.printHex2.hexDigit d ≠ 0 := by
  revert d
  decide

theorem bytes_printHex2 (b : UInt8) : (CString.printHex2 b).bytes =
    [Fips180.hexDigits.getD (b.toNat / 16) 0, Fips180.hexDigits.getD (b.toNat % 16) 0] := by
  have hb := b.toNat_lt
  obtain ⟨high, high_ne⟩ := hexDigit_eq ⟨b.toNat / 16, by omega⟩
  obtain ⟨low, low_ne⟩ := hexDigit_eq ⟨b.toNat % 16, by omega⟩
  simp only at high high_ne low low_ne
  rw [← high, ← low]
  simp [CString.printHex2, CString.ofBytes, high_ne, low_ne]

theorem toNat_bigEndian32 (x : UInt32) : (bigEndian32 x).map UInt8.toNat =
    [x.toNat / 2 ^ 24 % 256, x.toNat / 2 ^ 16 % 256, x.toNat / 2 ^ 8 % 256, x.toNat % 256] := by
  simp [bigEndian32, Nat.shiftRight_eq_div_pow]

/-- The bytes of a word in hexadecimal are the digits of the word. -/
theorem hex_bigEndian32 (x : UInt32) :
    (bigEndian32 x).flatMap (fun b => (CString.printHex2 b).bytes) = Fips180.hexWord x.toBitVec := by
  have digits : (bigEndian32 x).flatMap (fun b => (CString.printHex2 b).bytes) =
      ((bigEndian32 x).map UInt8.toNat).flatMap (fun n =>
        [Fips180.hexDigits.getD (n / 16) 0, Fips180.hexDigits.getD (n % 16) 0]) := by
    simp only [List.flatMap_map, bytes_printHex2]
  rw [digits, toNat_bigEndian32]
  simp only [List.flatMap_cons, List.flatMap_nil, List.cons_append, List.nil_append]
  have d7 : x.toNat / 2 ^ 24 % 256 / 16 = x.toNat / 16 ^ 7 % 16 := by omega
  have d6 : x.toNat / 2 ^ 24 % 256 % 16 = x.toNat / 16 ^ 6 % 16 := by omega
  have d5 : x.toNat / 2 ^ 16 % 256 / 16 = x.toNat / 16 ^ 5 % 16 := by omega
  have d4 : x.toNat / 2 ^ 16 % 256 % 16 = x.toNat / 16 ^ 4 % 16 := by omega
  have d3 : x.toNat / 2 ^ 8 % 256 / 16 = x.toNat / 16 ^ 3 % 16 := by omega
  have d2 : x.toNat / 2 ^ 8 % 256 % 16 = x.toNat / 16 ^ 2 % 16 := by omega
  have d1 : x.toNat % 256 / 16 = x.toNat / 16 ^ 1 % 16 := by omega
  have d0 : x.toNat % 256 % 16 = x.toNat / 16 ^ 0 % 16 := by omega
  rw [d7, d6, d5, d4, d3, d2, d1, d0]
  rfl

def hexHash (v : Fips180.Hash) : List UInt8 :=
  [v.a, v.b, v.c, v.d, v.e, v.f, v.g, v.h].flatMap Fips180.hexWord

theorem hex_state (s : Sha256State) :
    ([s.a, s.b, s.c, s.d, s.e, s.f, s.g, s.h].flatMap bigEndian32).flatMap
      (fun b => (CString.printHex2 b).bytes) = hexHash s.toHash := by
  rw [List.flatMap_assoc]
  simp only [hex_bigEndian32]
  rfl

theorem bigEndian64_eq (n : UInt64) : bigEndian64 n = Fips180.bigEndian 8 n.toNat := by
  have byte (s : UInt64) (i : Nat) (hs : s.toNat % 64 = 8 * i) :
      (n >>> s).toUInt8 = UInt8.ofNat (n.toNat / 256 ^ i) := by
    rw [← UInt8.toNat_inj, UInt64.toNat_toUInt8, UInt64.toNat_shiftRight, hs,
      Nat.shiftRight_eq_div_pow, Nat.pow_mul, UInt8.toNat_ofNat']
  have last : n.toUInt8 = UInt8.ofNat (n.toNat / 256 ^ 0) := by
    rw [← UInt8.toNat_inj, UInt64.toNat_toUInt8, UInt8.toNat_ofNat', Nat.pow_zero, Nat.div_one]
  simp only [bigEndian64, List.map_cons, List.map_nil]
  rw [byte 56 7 rfl, byte 48 6 rfl, byte 40 5 rfl, byte 32 4 rfl, byte 24 3 rfl, byte 16 2 rfl,
    byte 8 1 rfl, last]
  rfl

end Text

/-- The text of the hash is SHA-256, for every content a length can count, and
the padding loop stops by its own condition. -/
theorem storageSha256Hex_eq (data : List UInt8) (h : data.length < 2 ^ 61) :
    (storageSha256Hex data).bytes = Fips180.hexDigest data ∧
      (sha256Pad 64 (sha256Update (sha256Update sha256Init data) [0x80])).count % 64 = 56 := by
  refine ⟨?_, sha256Pad_count _⟩
  have content : Fed data (sha256Update sha256Init data) := fed_init.updates data
  have marked := content.updates [0x80]
  obtain ⟨place, few⟩ := Fips180.zeros_spec data.length
  have padded : Fed ((data ++ [0x80]) ++ List.replicate (Fips180.zeros data.length) 0)
      (sha256Pad 64 (sha256Update (sha256Update sha256Init data) [0x80])) := by
    rw [marked.sha256Pad_eq 64 (Fips180.zeros data.length) few.le few
      (by rw [List.length_append]; exact place)]
    exact marked.updates _
  have bits : ((sha256Update sha256Init data).count * 8).toNat = 8 * data.length := by
    rw [UInt64.toNat_mul, content.count]
    change data.length % 2 ^ 64 * 8 % 2 ^ 64 = _
    omega
  have all := padded.updates (bigEndian64 ((sha256Update sha256Init data).count * 8))
  rw [bigEndian64_eq, bits] at all
  have message : (data ++ [0x80]) ++ List.replicate (Fips180.zeros data.length) 0 ++
      Fips180.bigEndian 8 (8 * data.length) = Fips180.pad data := by
    simp [Fips180.pad]
  rw [message] at all
  obtain ⟨bs, split, whole, state⟩ := all.blocks
  rw [Fips180.length_pad, List.take_zero, List.append_nil] at split
  have hashed : (sha256Update (sha256Pad 64 (sha256Update (sha256Update sha256Init data) [0x80]))
      (bigEndian64 ((sha256Update sha256Init data).count * 8))).state.toHash = Fips180.hash data := by
    rw [bigEndian64_eq, bits, state, Fips180.hash, split, Fips180.blocks_flatten bs whole]
  have digest : Fips180.hexDigest data = hexHash (Fips180.hash data) := rfl
  rw [storageSha256Hex, CString.bytes_concat, List.flatMap_map, digest, ← hashed]
  exact hex_state _

theorem storageSha256Hex_eq_abc :
    (storageSha256Hex [97, 98, 99]).bytes = Fips180.hexDigest [97, 98, 99] :=
  (storageSha256Hex_eq [97, 98, 99] (by decide)).1

end Kaufbot
