import Kaufbot.Library.Base64
import Kaufbot.Library.Percent
import Kaufbot.Ocr.GeminiText

/-!
The base64 encoder and the URL encoder as they run over their buffers. Every
write goes through a check of its index, so a result says that no write left the
allocation; what the allocation held before is arbitrary. The text of
`base64Encode` and of `urlPercentEncode` is what is in the buffer afterwards.
-/

namespace Kaufbot

open CString

/-- `(((len + 2) / 3) * 4) + 1` in `size_t`. -/
def base64OutLen (len : Nat) : Nat := ((len + 2) % 2 ^ 64 / 3 * 4 % 2 ^ 64 + 1) % 2 ^ 64

/-- `out[j] = b`, inside the allocation. -/
def storeByte (out : List UInt8) (j : Nat) (b : UInt8) : Option (List UInt8) :=
  if j < out.length then some (out.set j b) else none

/-- One round of the loop: `a`, `b` and `c` are the bytes read, zero past the end. -/
def base64StoreGroup (a b c : UInt8) (out : List UInt8) (j : Nat) : Option (List UInt8) := do
  let triple : UInt32 := a.toUInt32 <<< 16 ||| b.toUInt32 <<< 8 ||| c.toUInt32
  let char (bits : UInt32) : UInt8 := b64Chars.getD (bits &&& 0x3F).toNat 0
  let out ← storeByte out j (char (triple >>> 18))
  let out ← storeByte out (j + 1) (char (triple >>> 12))
  let out ← storeByte out (j + 2) (char (triple >>> 6))
  storeByte out (j + 3) (char triple)

def base64Loop : List UInt8 → List UInt8 → Nat → Option (List UInt8 × Nat)
  | [], out, j => some (out, j)
  | [a], out, j => (base64StoreGroup a 0 0 out j).map (·, j + 4)
  | [a, b], out, j => (base64StoreGroup a b 0 out j).map (·, j + 4)
  | a :: b :: c :: rest, out, j =>
      (base64StoreGroup a b c out j).bind (fun out => base64Loop rest out (j + 4))

/-- The padding is written over the last characters, by index from the end. -/
def base64Patch (len : Nat) (out : List UInt8) (j : Nat) : Option (List UInt8) :=
  if len % 3 = 1 then (storeByte out (j - 1) 61).bind (fun out => storeByte out (j - 2) 61)
  else if len % 3 = 2 then storeByte out (j - 1) 61
  else some out

/-- `base64_encode` in an allocation that holds `heap`; none when a write leaves it. -/
def base64EncodeBuffer (heap : Nat → UInt8) (src : List UInt8) : Option (List UInt8) := do
  let (out, j) ← base64Loop src ((List.range (base64OutLen src.length)).map heap) 0
  let out ← base64Patch src.length out j
  storeByte out j 0

/-- The characters of the groups before the padding is written. -/
def base64Raw : List UInt8 → List UInt8
  | [] => []
  | [a] => base64Group a 0 0
  | [a, b] => base64Group a b 0
  | a :: b :: c :: rest => base64Group a b c ++ base64Raw rest

section Groups
variable (a b c : UInt8)

theorem b64Chars_getD {i : Nat} (h : i < 64) : b64Chars.getD i 0 = Base64.symbol i := by
  have all (i : Fin 64) : b64Chars.getD i.val 0 = Base64.symbol i := by
    revert i
    decide +kernel
  exact all ⟨i, h⟩

/-- The number the three bytes make. -/
def base64Triple : Nat := a.toNat * 65536 + b.toNat * 256 + c.toNat

theorem base64Group_eq : base64Group a b c =
    [Base64.symbol (base64Triple a b c / 262144 % 64), Base64.symbol (base64Triple a b c / 4096 % 64),
      Base64.symbol (base64Triple a b c / 64 % 64), Base64.symbol (base64Triple a b c % 64)] := by
  have digit (n : Nat) : n % 64 < 64 := Nat.mod_lt _ (by decide)
  simp only [base64Group, base64Triple, List.map_cons, List.map_nil, b64Chars_getD (digit _)]

@[simp] theorem length_base64Group : (base64Group a b c).length = 4 := rfl

theorem toNat_triple :
    (a.toUInt32 <<< 16 ||| b.toUInt32 <<< 8 ||| c.toUInt32).toNat = base64Triple a b c := by
  have ha := a.toNat_lt
  have hb := b.toNat_lt
  have hc := c.toNat_lt
  have low : b.toNat <<< 8 ||| c.toNat = b.toNat * 256 + c.toNat := by
    rw [← Nat.shiftLeft_add_eq_or_of_lt hc, Nat.shiftLeft_eq]
  have high : a.toNat <<< 16 ||| (b.toNat * 256 + c.toNat) =
      a.toNat * 65536 + (b.toNat * 256 + c.toNat) := by
    rw [← Nat.shiftLeft_add_eq_or_of_lt (by omega), Nat.shiftLeft_eq]
  have top : a.toNat <<< 16 % 2 ^ 32 = a.toNat <<< 16 := by
    rw [Nat.shiftLeft_eq]
    omega
  have middle : b.toNat <<< 8 % 2 ^ 32 = b.toNat <<< 8 := by
    rw [Nat.shiftLeft_eq]
    omega
  simp only [UInt32.toNat_or, UInt32.toNat_shiftLeft, UInt8.toNat_toUInt32, base64Triple]
  change a.toNat <<< 16 % 2 ^ 32 ||| b.toNat <<< 8 % 2 ^ 32 ||| c.toNat = _
  rw [top, middle, Nat.or_assoc, low, high, Nat.add_assoc]

/-- A character is that of the lowest six bits. -/
theorem char_eq (bits : UInt32) :
    b64Chars.getD (bits &&& 0x3F).toNat 0 = b64Chars.getD (bits.toNat % 64) 0 := by
  rw [UInt32.toNat_and]
  exact congrArg (b64Chars.getD · 0) (Nat.and_two_pow_sub_one_eq_mod _ 6)

/-- A round replaces the next four bytes of the buffer by the characters of its group. -/
theorem base64StoreGroup_append (front old back : List UInt8) (h : old.length = 4) :
    base64StoreGroup a b c (front ++ (old ++ back)) front.length =
      some (front ++ (base64Group a b c ++ back)) := by
  obtain ⟨w, x, y, z, rfl⟩ := List.length_eq_four.mp h
  simp only [base64StoreGroup, char_eq, UInt32.toNat_shiftRight, toNat_triple,
    Nat.shiftRight_eq_div_pow]
  simp [storeByte, base64Group, base64Triple]

end Groups

@[simp] theorem length_base64Raw (src : List UInt8) :
    (base64Raw src).length = 4 * ((src.length + 2) / 3) := by
  induction src using base64Raw.induct with
  | case1 => rfl
  | case2 a | case3 a b => simp [base64Raw]
  | case4 a b c rest ih =>
      simp only [base64Raw, List.length_append, length_base64Group, ih, List.length_cons]
      omega

/-- The loop writes all groups one after another and touches nothing behind them. -/
theorem base64Loop_append (src front rest : List UInt8)
    (room : 4 * ((src.length + 2) / 3) ≤ rest.length) :
    base64Loop src (front ++ rest) front.length =
      some (front ++ (base64Raw src ++ rest.drop (4 * ((src.length + 2) / 3))),
        front.length + 4 * ((src.length + 2) / 3)) := by
  have group (a b c : UInt8) (front rest : List UInt8) (room : 4 ≤ rest.length) :
      base64StoreGroup a b c (front ++ rest) front.length =
        some (front ++ (base64Group a b c ++ rest.drop 4)) := by
    have split := base64StoreGroup_append a b c front (rest.take 4) (rest.drop 4)
      (List.length_take_of_le room)
    rwa [List.take_append_drop] at split
  induction src using base64Raw.induct generalizing front rest with
  | case1 => simp [base64Loop, base64Raw]
  | case2 a | case3 a b =>
      have room : 4 ≤ rest.length := by simpa using room
      simp [base64Loop, base64Raw, group _ _ _ front rest room]
  | case4 a b c tail ih =>
      simp only [List.length_cons] at room ⊢
      have later := ih (front ++ base64Group a b c) (rest.drop 4) (by
        rw [List.length_drop]
        omega)
      simp only [List.append_assoc, List.length_append, length_base64Group, List.drop_drop] at later
      rw [base64Loop, group a b c front rest (by omega), Option.bind_some, later, base64Raw,
        List.append_assoc, Option.some.injEq, Prod.mk.injEq]
      constructor
      · congr 4
        omega
      · omega

/-- Writing over the end of the characters pads them. -/
theorem base64Patch_append (src chars rest : List UInt8)
    (hlen : chars.length = 4 * ((src.length + 2) / 3)) :
    base64Patch src.length (chars ++ rest) chars.length =
      some (chars.take (chars.length - Base64.padLength src.length) ++
        (List.replicate (Base64.padLength src.length) Base64.pad ++ rest)) := by
  have store (front back : List UInt8) (old b : UInt8) (j : Nat) (hj : j = front.length) :
      storeByte (front ++ old :: back) j b = some (front ++ b :: back) := by
    simp [storeByte, hj]
  have split (back : List UInt8) (hne : back ≠ []) :
      ∃ front old, back = front ++ [old] :=
    ⟨_, _, (List.dropLast_append_getLast hne).symm⟩
  simp only [base64Patch]
  split
  · next one =>
      obtain ⟨chars, v, rfl⟩ := split chars (by
        rintro rfl
        simp at hlen
        omega)
      obtain ⟨front, u, rfl⟩ := split chars (by
        rintro rfl
        simp at hlen
        omega)
      have second := store (front ++ [u]) rest v 61 (front.length + 1) (by simp)
      have first := store front (61 :: rest) u 61 front.length rfl
      simp only [List.append_assoc, List.singleton_append] at second
      simp [Base64.padLength, one, second, first, Base64.pad]
  · split
    · next two =>
        obtain ⟨front, v, rfl⟩ := split chars (by
          rintro rfl
          simp at hlen
          omega)
        simp [Base64.padLength, two, store, Base64.pad]
    · next one two =>
        have three : (3 - src.length % 3) % 3 = 0 := by omega
        simp [Base64.padLength, three]

theorem base64Bytes_eq (src : List UInt8) :
    base64Bytes src =
      (base64Raw src).take ((base64Raw src).length - Base64.padLength src.length) ++
        List.replicate (Base64.padLength src.length) Base64.pad := by
  induction src using base64Raw.induct with
  | case1 => rfl
  | case2 a | case3 a b => simp [base64Bytes, base64Raw, Base64.padLength, Base64.pad]
  | case4 a b c rest ih =>
      have same : Base64.padLength (rest.length + 3) = Base64.padLength rest.length := by
        simp only [Base64.padLength, Nat.add_mod_right]
      have short : Base64.padLength rest.length ≤ (base64Raw rest).length := by
        rw [length_base64Raw, Base64.padLength]
        omega
      have cut : 4 + (base64Raw rest).length - Base64.padLength rest.length =
          (base64Group a b c).length + ((base64Raw rest).length - Base64.padLength rest.length) := by
        rw [length_base64Group]
        omega
      simp only [base64Bytes, base64Raw, List.length_cons, same, List.length_append,
        length_base64Group, ih]
      rw [cut, List.take_length_add_append, List.append_assoc]

theorem length_base64Bytes (src : List UInt8) :
    (base64Bytes src).length = 4 * ((src.length + 2) / 3) := by
  rw [base64Bytes_eq]
  simp [Base64.padLength]
  omega

/-- What the buffer holds at the end is the text and its terminating NUL. -/
theorem base64EncodeBuffer_eq (heap : Nat → UInt8) (src : List UInt8)
    (fits : 4 * ((src.length + 2) / 3) + 1 < 2 ^ 64) :
    base64EncodeBuffer heap src = some (base64Bytes src ++ [0]) := by
  have alloc : base64OutLen src.length = 4 * ((src.length + 2) / 3) + 1 := by
    have small : src.length + 2 < 2 ^ 64 := by omega
    rw [base64OutLen, Nat.mod_eq_of_lt small, Nat.mod_eq_of_lt (by omega), Nat.mod_eq_of_lt (by omega),
      Nat.mul_comm]
  have looped := base64Loop_append src [] ((List.range (base64OutLen src.length)).map heap) (by
    simp [alloc])
  obtain ⟨old, last⟩ : ∃ old, ((List.range (base64OutLen src.length)).map heap).drop
      (4 * ((src.length + 2) / 3)) = [old] := List.length_eq_one_iff.mp (by simp [alloc])
  have patched := base64Patch_append src (base64Raw src) [old] (length_base64Raw src)
  rw [← List.append_assoc, ← base64Bytes_eq] at patched
  have room : (base64Raw src).length = (base64Bytes src).length := by
    rw [length_base64Raw, length_base64Bytes]
  rw [List.nil_append, List.nil_append, List.length_nil, Nat.zero_add, last, ← length_base64Raw] at looped
  rw [base64EncodeBuffer, looped, Option.bind_eq_bind, Option.bind_some]
  rw [room] at patched
  simp [patched, storeByte, room]

/-- Whether `char` is a signed type, which C leaves to the platform. -/
inductive CharType where
  | signed
  | unsigned
deriving DecidableEq

/-- The value of the `char` a byte is converted to. -/
def CharType.ofByte : CharType → UInt8 → Int
  | .signed, b => if b.toNat < 128 then b.toNat else (b.toNat : Int) - 256
  | .unsigned, b => b.toNat

def isUnreserved (c : Int) : Bool :=
  (c ≥ 65 && c ≤ 90) || (c ≥ 97 && c ≤ 122) || (c ≥ 48 && c ≤ 57) || c == 45 ||
    c == 95 || c == 46 || c == 126

def hexDigits : List UInt8 := (lit "0123456789ABCDEF").bytes

/-- What one round of the loop writes. -/
def urlEncodeByte (char : CharType) (c : UInt8) : List UInt8 :=
  if isUnreserved (char.ofByte c) then [c]
  else [37, hexDigits.getD (c >>> 4).toNat 0, hexDigits.getD (c &&& 0x0F).toNat 0]

def urlPercentEncode (char : CharType) (src : CString) : CString :=
  ofBytes (src.bytes.flatMap (urlEncodeByte char))

def urlEncodeLoop (char : CharType) : List UInt8 → List UInt8 → Nat → Option (List UInt8 × Nat)
  | [], out, j => some (out, j)
  | c :: src, out, j =>
      if isUnreserved (char.ofByte c) then do
        let out ← storeByte out j c
        urlEncodeLoop char src out (j + 1)
      else do
        let out ← storeByte out j 37
        let out ← storeByte out (j + 1) (hexDigits.getD (c >>> 4).toNat 0)
        let out ← storeByte out (j + 2) (hexDigits.getD (c &&& 0x0F).toNat 0)
        urlEncodeLoop char src out (j + 3)

/-- `url_percent_encode` in an allocation that holds `heap`; none when a write leaves it. -/
def urlPercentEncodeBuffer (char : CharType) (heap : Nat → UInt8) (src : CString) :
    Option (List UInt8) := do
  let allocated := (src.length * 3 % 2 ^ 64 + 1) % 2 ^ 64
  let (out, j) ← urlEncodeLoop char src.bytes ((List.range allocated).map heap) 0
  storeByte out j 0

section UrlEncoding
variable (char : CharType) (c : UInt8)

/-- The sign of `char` makes no difference: its range above 127 has no unreserved character. -/
theorem isUnreserved_iff : isUnreserved (char.ofByte c) = true ↔ Percent.IsUnreserved c := by
  have value : char.ofByte c = c.toNat ∨ (char.ofByte c = (c.toNat : Int) - 256 ∧ 128 ≤ c.toNat) := by
    cases char with
    | signed =>
        simp only [CharType.ofByte]
        split <;> omega
    | unsigned => exact Or.inl rfl
  have := c.toNat_lt
  simp only [isUnreserved, Percent.IsUnreserved, Bool.or_eq_true, Bool.and_eq_true,
    decide_eq_true_eq, beq_iff_eq, ← UInt8.toNat_inj, UInt8.toNat_ofNat]
  omega

theorem hexDigits_getD {n : Nat} (h : n < 16) : hexDigits.getD n 0 = Percent.upperDigit n := by
  have all (n : Fin 16) : hexDigits.getD n.val 0 = Percent.upperDigit n.val := by
    revert n
    decide
  exact all ⟨n, h⟩

theorem urlEncodeByte_eq :
    urlEncodeByte char c = if Percent.IsUnreserved c then [c] else Percent.escape c := by
  have high : (c >>> 4).toNat = c.toNat / 16 := by
    rw [UInt8.toNat_shiftRight]
    exact Nat.shiftRight_eq_div_pow _ 4
  have low : (c &&& 0x0F).toNat = c.toNat % 16 := by
    rw [UInt8.toNat_and]
    exact Nat.and_two_pow_sub_one_eq_mod _ 4
  simp only [urlEncodeByte, isUnreserved_iff, high, low, hexDigits_getD (Percent.div_lt c),
    hexDigits_getD (Percent.mod_lt c)]
  rfl

/-- A round replaces the next bytes of the buffer by what it writes. -/
theorem urlEncodeLoop_cons (src front rest : List UInt8)
    (room : (urlEncodeByte char c).length ≤ rest.length) :
    urlEncodeLoop char (c :: src) (front ++ rest) front.length =
      urlEncodeLoop char src
        ((front ++ urlEncodeByte char c) ++ rest.drop (urlEncodeByte char c).length)
        (front ++ urlEncodeByte char c).length := by
  by_cases h : isUnreserved (char.ofByte c)
  · simp only [urlEncodeByte, if_pos h] at room ⊢
    obtain ⟨old, rest, rfl⟩ := List.exists_cons_of_length_pos room
    simp [urlEncodeLoop, h, storeByte]
  · simp only [urlEncodeByte, if_neg h] at room ⊢
    obtain ⟨old, rest, rfl⟩ := List.exists_cons_of_length_pos (Nat.zero_lt_of_lt room)
    obtain ⟨old, rest, rfl⟩ := List.exists_cons_of_length_pos
      (l := rest) (by simp at room; omega)
    obtain ⟨old, rest, rfl⟩ := List.exists_cons_of_length_pos
      (l := rest) (by simp at room; omega)
    simp [urlEncodeLoop, h, storeByte]

theorem urlEncodeLoop_append (src front rest : List UInt8)
    (room : (src.flatMap (urlEncodeByte char)).length ≤ rest.length) :
    urlEncodeLoop char src (front ++ rest) front.length =
      some (front ++ (src.flatMap (urlEncodeByte char) ++
          rest.drop (src.flatMap (urlEncodeByte char)).length),
        front.length + (src.flatMap (urlEncodeByte char)).length) := by
  induction src generalizing front rest with
  | nil => simp [urlEncodeLoop]
  | cons c src ih =>
      simp only [List.flatMap_cons, List.length_append] at room ⊢
      rw [urlEncodeLoop_cons char c src front rest (by omega)]
      rw [ih _ _ (by rw [List.length_drop]; omega)]
      simp [List.drop_drop, Nat.add_assoc]

end UrlEncoding

end Kaufbot
