import Kaufbot.Library.Calendar
import Mathlib.Data.List.Lex

/-!
The order of times and of their texts. Dates follow one another as days do, and
numbers that are printed in a fixed width are ordered as bytes the way they are
ordered as numbers, so that timestamps can be compared as text.
-/

namespace CString

section Digits
variable {l m r s : List UInt8} {width : Nat}

/-- The number that digits make of the ones read before them. -/
def readDigits (acc : Nat) (l : List UInt8) : Nat :=
  l.foldl (fun acc b => acc * 10 + (b.toNat - 48)) acc

theorem readDigits_bounds (digits : ∀ b ∈ l, IsDigit b) (acc : Nat) :
    acc * 10 ^ l.length ≤ readDigits acc l ∧ readDigits acc l < (acc + 1) * 10 ^ l.length := by
  induction l generalizing acc with
  | nil => simp [readDigits]
  | cons b l ih =>
      obtain ⟨lower, upper⟩ := digits b List.mem_cons_self
      have later := ih (fun c mem => digits c (List.mem_cons_of_mem _ mem))
        (acc * 10 + (b.toNat - 48))
      have next : readDigits acc (b :: l) = readDigits (acc * 10 + (b.toNat - 48)) l := rfl
      have low : acc * 10 * 10 ^ l.length ≤ (acc * 10 + (b.toNat - 48)) * 10 ^ l.length :=
        Nat.mul_le_mul_right _ (by omega)
      have high : (acc * 10 + (b.toNat - 48) + 1) * 10 ^ l.length ≤
          (acc * 10 + 10) * 10 ^ l.length := Nat.mul_le_mul_right _ (by omega)
      rw [next, List.length_cons, pow_succ']
      refine ⟨?_, ?_⟩
      · rw [← mul_assoc]
        exact low.trans later.1
      · have same : (acc + 1) * (10 * 10 ^ l.length) = (acc * 10 + 10) * 10 ^ l.length := by
          rw [← mul_assoc, Nat.add_mul, Nat.one_mul]
        rw [same]
        exact later.2.trans_le high

/-- As many digits of a larger number are larger in the order of the bytes. -/
theorem lt_of_readDigits_lt (digits : ∀ b ∈ l, IsDigit b) (digits' : ∀ b ∈ m, IsDigit b)
    (same : l.length = m.length) {acc : Nat} (h : readDigits acc l < readDigits acc m) : l < m := by
  induction l generalizing m acc with
  | nil =>
      obtain rfl := List.eq_nil_of_length_eq_zero same.symm
      exact absurd h (Nat.lt_irrefl _)
  | cons b l ih =>
      cases m with
      | nil => cases same
      | cons c m =>
          have small := digits b List.mem_cons_self
          have small' := digits' c List.mem_cons_self
          have rest := fun d mem => digits d (List.mem_cons_of_mem b mem)
          have rest' := fun d mem => digits' d (List.mem_cons_of_mem c mem)
          have length := Nat.succ.inj same
          rw [List.cons_lt_cons_iff]
          rcases Nat.lt_trichotomy b.toNat c.toNat with less | equal | more
          · exact .inl (UInt8.lt_iff_toNat_lt.mpr less)
          · obtain rfl := UInt8.toNat_inj.mp equal
            exact .inr ⟨rfl, ih rest rest' length h⟩
          · have above := (readDigits_bounds rest (acc * 10 + (b.toNat - 48))).1
            have below := (readDigits_bounds rest' (acc * 10 + (c.toNat - 48))).2
            have between : (acc * 10 + (c.toNat - 48) + 1) * 10 ^ m.length ≤
                (acc * 10 + (b.toNat - 48)) * 10 ^ l.length := by
              rw [length]
              refine Nat.mul_le_mul_right _ ?_
              simp only [IsDigit] at small small'
              omega
            exact absurd h (Nat.not_lt.mpr (by
              have := (below.trans_le between).trans_le above
              exact this.le))

theorem readDigits_padBytes (width n : Nat) : readDigits 0 (padBytes width n) = n := by
  have zeros (k : Nat) : (List.replicate k (48 : UInt8)).foldl
      (fun acc b => acc * 10 + (b.toNat - 48)) 0 = 0 := by
    induction k with
    | zero => rfl
    | succ k ih => exact ih
  rw [readDigits, padBytes, List.foldl_append, zeros, value_digitBytes]

theorem length_padBytes {n : Nat} (some : 0 < width) (fits : n < 10 ^ width) :
    (padBytes width n).length = width := by
  have := length_digitBytes_le some fits
  simp only [padBytes, List.length_append, List.length_replicate]
  omega

theorem append_lt_append (same : l.length = m.length) (h : l < m) : l ++ r < m ++ s := by
  induction l generalizing m with
  | nil =>
      obtain rfl := List.eq_nil_of_length_eq_zero same.symm
      exact absurd h (List.not_lt_nil _)
  | cons b l ih =>
      cases m with
      | nil => cases same
      | cons c m =>
          rw [List.cons_append, List.cons_append, List.cons_lt_cons_iff]
          rw [List.cons_lt_cons_iff] at h
          exact h.imp id fun ⟨equal, less⟩ => ⟨equal, ih (Nat.succ.inj same) less⟩

theorem append_lt_append_left (l : List UInt8) (h : r < s) : l ++ r < l ++ s := by
  induction l with
  | nil => exact h
  | cons b l ih => exact List.cons_lt_cons_iff.mpr (.inr ⟨rfl, ih⟩)

/-- A field of fixed width decides, or else what comes behind it. -/
theorem padBytes_append_lt {n k : Nat} (some : 0 < width) (fits : n < 10 ^ width)
    (fits' : k < 10 ^ width) (h : n < k ∨ n = k ∧ r < s) :
    padBytes width n ++ r < padBytes width k ++ s := by
  have digits (n : Nat) : ∀ b ∈ padBytes width n, IsDigit b := fun b mem => isDigit_of_mem_padBytes mem
  rcases h with less | ⟨rfl, rest⟩
  · have same : (padBytes width n).length = (padBytes width k).length := by
      rw [length_padBytes some fits, length_padBytes some fits']
    have value : readDigits 0 (padBytes width n) < readDigits 0 (padBytes width k) := by
      rwa [readDigits_padBytes, readDigits_padBytes]
    exact append_lt_append same (lt_of_readDigits_lt (digits n) (digits k) same value)
  · exact append_lt_append_left _ rest

end Digits

end CString

section Days

/-- The year of an era of 400 years, from the day in it. -/
def yearOfEra (doe : Int) : Int := (doe - doe / 1460 + doe / 36524 - doe / 146096) / 365

def startOfYear (y : Int) : Int := 365 * y + y / 4 - y / 100

theorem yearOfEra_mono {a b : Int} (start : 0 ≤ a) (h : a ≤ b) (last : b < 146097) :
    yearOfEra a ≤ yearOfEra b := by
  have leap : a - a / 1460 ≤ b - b / 1460 := by omega
  have century : a / 36524 - a / 146096 ≤ b / 36524 - b / 146096 := by omega
  refine Int.ediv_le_ediv (by decide) ?_
  omega

/-- The years of an era begin where the formula for them says. -/
theorem yearOfEra_start (y : Fin 400) :
    yearOfEra (startOfYear y) = y ∧ (0 < y.val → yearOfEra (startOfYear y - 1) = y.val - 1) := by
  revert y
  decide +kernel

theorem yearOfEra_bounds {doe : Int} (start : 0 ≤ doe) (last : doe < 146097) :
    0 ≤ yearOfEra doe ∧ yearOfEra doe ≤ 399 ∧ startOfYear (yearOfEra doe) ≤ doe ∧
      doe - startOfYear (yearOfEra doe) ≤ 365 := by
  have first : yearOfEra 0 = 0 := by decide
  have final : yearOfEra 146096 = 399 := by decide
  have lower := yearOfEra_mono (Int.le_refl 0) start last
  have upper := yearOfEra_mono start (show doe ≤ 146096 by omega) (by decide)
  rw [first] at lower
  rw [final] at upper
  obtain ⟨y, year⟩ : ∃ y : Nat, yearOfEra doe = y := ⟨_, (Int.toNat_of_nonneg lower).symm⟩
  rw [year] at upper ⊢
  have small : y < 400 := by omega
  refine ⟨by omega, upper, ?_, ?_⟩
  · by_contra later
    have before : 0 < y → yearOfEra (startOfYear y - 1) = y - 1 := (yearOfEra_start ⟨y, small⟩).2
    have some : 0 < y := by
      rcases Nat.eq_zero_or_pos y with rfl | some
      · exact absurd start (by simpa [startOfYear] using later)
      · exact some
    have earlier := yearOfEra_mono start (show doe ≤ startOfYear y - 1 by omega)
      (by simp only [startOfYear]; omega)
    rw [year, before some] at earlier
    omega
  · by_contra later
    have next : y + 1 < 400 := by
      by_contra none
      have : y = 399 := by omega
      subst this
      exact later (by simp only [startOfYear]; omega)
    have after : yearOfEra (startOfYear (y + 1 : Nat)) = (y + 1 : Nat) :=
      (yearOfEra_start ⟨y + 1, next⟩).1
    have begun : startOfYear (y + 1 : Nat) ≤ doe := by
      simp only [startOfYear] at later ⊢
      omega
    have earlier := yearOfEra_mono (show 0 ≤ startOfYear (y + 1 : Nat) by simp only [startOfYear]; omega)
      begun last
    rw [after, year] at earlier
    omega

/-- What `civilOfDays` computes, in the parts of its computation. -/
theorem civilOfDays_eq (days : Int) :
    ∃ doy mp, doy = (days + 719468) % 146097 - startOfYear (yearOfEra ((days + 719468) % 146097)) ∧
      mp = (5 * doy + 2) / 153 ∧
      civilOfDays days =
        (yearOfEra ((days + 719468) % 146097) + (days + 719468) / 146097 * 400 +
            (if (if mp < 10 then mp + 3 else mp - 9) ≤ 2 then 1 else 0),
          if mp < 10 then mp + 3 else mp - 9, doy - (153 * mp + 2) / 5 + 1) :=
  ⟨_, _, rfl, rfl, rfl⟩

theorem civilOfDays_ranges (days : Int) :
    1 ≤ (civilOfDays days).2.1 ∧ (civilOfDays days).2.1 ≤ 12 ∧ 1 ≤ (civilOfDays days).2.2 ∧
      (civilOfDays days).2.2 ≤ 31 := by
  obtain ⟨doy, mp, hdoy, hmp, date⟩ := civilOfDays_eq days
  obtain ⟨-, -, start, last⟩ := yearOfEra_bounds (Int.emod_nonneg (days + 719468) (by decide))
    (Int.emod_lt_of_pos (days + 719468) (by decide))
  have inYear : 0 ≤ doy ∧ doy ≤ 365 := by omega
  rw [date]
  dsimp only
  refine ⟨?_, ?_, ?_, ?_⟩
  · split <;> omega
  · split <;> omega
  · omega
  · omega

/-- Months counted from March, with the years that begin there, in the order of the calendar. -/
theorem date_lt {y y' mp mp' d d' : Int} (range : 0 ≤ mp ∧ mp ≤ 11) (range' : 0 ≤ mp' ∧ mp' ≤ 11)
    (h : y < y' ∨ y = y' ∧ (mp < mp' ∨ mp = mp' ∧ d < d')) :
    let month := if mp < 10 then mp + 3 else mp - 9
    let month' := if mp' < 10 then mp' + 3 else mp' - 9
    let year := y + if month ≤ 2 then 1 else 0
    let year' := y' + if month' ≤ 2 then 1 else 0
    year < year' ∨ year = year' ∧ (month < month' ∨ month = month' ∧ d < d') := by
  dsimp only
  split_ifs <;> omega

/-- The later of two days has the later date. -/
theorem civilOfDays_lt {a b : Int} (h : a < b) :
    (civilOfDays a).1 < (civilOfDays b).1 ∨ (civilOfDays a).1 = (civilOfDays b).1 ∧
      ((civilOfDays a).2.1 < (civilOfDays b).2.1 ∨ (civilOfDays a).2.1 = (civilOfDays b).2.1 ∧
        (civilOfDays a).2.2 < (civilOfDays b).2.2) := by
  obtain ⟨doy, mp, hdoy, hmp, date⟩ := civilOfDays_eq a
  obtain ⟨doy', mp', hdoy', hmp', date'⟩ := civilOfDays_eq b
  have doe := Int.emod_nonneg (a + 719468) (show (146097 : Int) ≠ 0 by decide)
  have doe' := Int.emod_lt_of_pos (b + 719468) (show (0 : Int) < 146097 by decide)
  obtain ⟨yearLower, yearUpper, start, last⟩ :=
    yearOfEra_bounds doe (Int.emod_lt_of_pos (a + 719468) (by decide))
  obtain ⟨yearLower', yearUpper', start', last'⟩ :=
    yearOfEra_bounds (Int.emod_nonneg (b + 719468) (by decide)) doe'
  have years : yearOfEra ((a + 719468) % 146097) + (a + 719468) / 146097 * 400 <
        yearOfEra ((b + 719468) % 146097) + (b + 719468) / 146097 * 400 ∨
      yearOfEra ((a + 719468) % 146097) + (a + 719468) / 146097 * 400 =
        yearOfEra ((b + 719468) % 146097) + (b + 719468) / 146097 * 400 ∧ doy < doy' := by
    rcases Int.lt_or_le ((a + 719468) / 146097) ((b + 719468) / 146097) with era | era
    · exact .inl (by omega)
    · have later : (a + 719468) % 146097 < (b + 719468) % 146097 := by omega
      have mono := yearOfEra_mono doe (Int.le_of_lt later) doe'
      rcases Int.lt_or_eq_of_le mono with year | year
      · exact .inl (by omega)
      · refine .inr ⟨by omega, ?_⟩
        rw [hdoy, hdoy', year]
        omega
  rw [date, date']
  refine date_lt ⟨by omega, by omega⟩ ⟨by omega, by omega⟩ (years.imp_right ?_)
  rintro ⟨same, day⟩
  refine ⟨same, ?_⟩
  rcases Int.lt_or_le mp mp' with month | month
  · exact .inl month
  · refine .inr ⟨by omega, ?_⟩
    dsimp only
    omega

/-- The first second of the year 10000. -/
def yearTenThousand : Int := 253402300800

/-- One time is before another when the first of their fields that differ says so. -/
def Tm.Before (a b : Tm) : Prop :=
  a.year < b.year ∨ a.year = b.year ∧ (a.mon < b.mon ∨ a.mon = b.mon ∧ (a.mday < b.mday ∨
    a.mday = b.mday ∧ (a.hour < b.hour ∨ a.hour = b.hour ∧ (a.min < b.min ∨ a.min = b.min ∧
      a.sec < b.sec))))

theorem gmtime_eq (t : Int) :
    gmtime t =
      { sec := t % 86400 % 60, min := t % 86400 / 60 % 60, hour := t % 86400 / 3600,
        mday := (civilOfDays (t / 86400)).2.2, mon := (civilOfDays (t / 86400)).2.1 - 1,
        year := (civilOfDays (t / 86400)).1 - 1900, isdst := 0 } := rfl

theorem gmtime_before {t t' : Int} (h : t < t') : (gmtime t).Before (gmtime t') := by
  simp only [Tm.Before, gmtime_eq]
  rcases Int.lt_or_le (t / 86400) (t' / 86400) with day | day
  · obtain year | ⟨year, month | ⟨month, mday⟩⟩ := civilOfDays_lt day
    · exact .inl (by omega)
    · exact .inr ⟨by omega, .inl (by omega)⟩
    · exact .inr ⟨by omega, .inr ⟨by omega, .inl mday⟩⟩
  · have same : t / 86400 = t' / 86400 := by omega
    rw [same]
    exact .inr ⟨rfl, .inr ⟨rfl, .inr ⟨rfl, by omega⟩⟩⟩

/-- Years of four digits, and the ranges of the other fields. -/
theorem gmtime_ranges {t : Int} (start : 0 ≤ t) (last : t < yearTenThousand) :
    (0 ≤ (gmtime t).year + 1900 ∧ (gmtime t).year + 1900 < 10000) ∧
      (0 ≤ (gmtime t).mon + 1 ∧ (gmtime t).mon + 1 < 100) ∧
      (0 ≤ (gmtime t).mday ∧ (gmtime t).mday < 100) ∧
      (0 ≤ (gmtime t).hour ∧ (gmtime t).hour < 100) ∧
      (0 ≤ (gmtime t).min ∧ (gmtime t).min < 100) ∧ (0 ≤ (gmtime t).sec ∧ (gmtime t).sec < 100) := by
  have year {a b : Int} (h : a ≤ b) : (civilOfDays a).1 ≤ (civilOfDays b).1 := by
    rcases Int.lt_or_eq_of_le h with less | rfl
    · rcases civilOfDays_lt less with later | ⟨same, _⟩
      · exact Int.le_of_lt later
      · exact Int.le_of_eq same
    · exact Int.le_refl _
  have lower := year (show 0 ≤ t / 86400 by omega)
  have upper := year (show t / 86400 ≤ 2932896 by simp only [yearTenThousand] at last; omega)
  have first : (civilOfDays 0).1 = 1970 := by decide
  have final : (civilOfDays 2932896).1 = 9999 := by decide
  rw [first] at lower
  rw [final] at upper
  obtain ⟨month, month', day, day'⟩ := civilOfDays_ranges (t / 86400)
  simp only [gmtime_eq]
  omega

end Days
