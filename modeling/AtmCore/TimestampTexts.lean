import AtmCore.Names
import Mathlib.Data.List.Lex

/-! The texts of timestamps, which the store compares instead of the instants. A text is its bytes. -/

namespace AtmCore

open List

def isLeapYear (year : Nat) : Bool := year % 4 = 0 ∧ (year % 100 ≠ 0 ∨ year % 400 = 0)

/-- The days of a year before a month. -/
def daysBeforeMonth (leap : Bool) (month : Nat) : Nat :=
  [0, 0, 31, 59, 90, 120, 151, 181, 212, 243, 273, 304, 334, 365].getD month 0 + if leap ∧ 2 < month then 1 else 0

/-- The days from the year zero to a year. -/
def daysBeforeYear : Nat → Nat
  | 0 => 0
  | year + 1 => daysBeforeYear year + daysBeforeMonth (isLeapYear year) 13

/-- An instant in UTC with its calendar fields. -/
structure CivilTime where
  year : Nat
  month : Nat
  day : Nat
  hour : Nat
  minute : Nat
  second : Nat
  nanos : Nat
  date : year ≤ 9999 ∧ 1 ≤ month ∧ month ≤ 12 ∧ 1 ≤ day ∧
    daysBeforeMonth (isLeapYear year) month + day ≤ daysBeforeMonth (isLeapYear year) (month + 1)
  time : hour < 24 ∧ minute < 60 ∧ second < 60 ∧ nanos < 10 ^ 9

namespace CivilTime

def dayNumber (t : CivilTime) : Nat := daysBeforeYear t.year + daysBeforeMonth (isLeapYear t.year) t.month + t.day

/-- The seconds are counted from the first of January 1970, which is the day 719529. -/
def timestamp (t : CivilTime) : IsoTimestamp :=
  ⟨(((((t.dayNumber : Int) - 719529) * 24 + t.hour) * 60 + t.minute) * 60 + t.second) * 1000000000 + t.nanos⟩

end CivilTime

/-- A number in decimal, padded with zeros. -/
def decimal : Nat → Nat → List Nat
  | 0, _ => []
  | width + 1, n => decimal width (n / 10) ++ [48 + n % 10]

/-- How many digits a fraction of a second is printed with. -/
def fractionPlaces (nanos : Nat) : Nat :=
  if nanos = 0 then 0 else if nanos % 10 ^ 6 = 0 then 3 else if nanos % 10 ^ 3 = 0 then 6 else 9

def fractionDigits (nanos : Nat) : Nat := nanos / 10 ^ (9 - fractionPlaces nanos)

def fractionText (nanos : Nat) : List Nat :=
  if fractionPlaces nanos = 0 then [] else 46 :: decimal (fractionPlaces nanos) (fractionDigits nanos)

/-- `+00:00`. -/
def utcOffset : List Nat := [43, 48, 48, 58, 48, 48]

def CivilTime.toRfc3339 (t : CivilTime) : List Nat :=
  decimal 4 t.year ++ 45 :: (decimal 2 t.month ++ 45 :: (decimal 2 t.day ++ 84 :: (decimal 2 t.hour ++ 58 ::
    (decimal 2 t.minute ++ 58 :: (decimal 2 t.second ++ (fractionText t.nanos ++ utcOffset))))))

section Bytes

variable {width m n : Nat} {left right rest rest' : List Nat}

theorem length_decimal : (decimal width n).length = width := by
  induction width generalizing n with
  | zero => rfl
  | succ width ih => rw [decimal, length_append, ih, length_singleton]

theorem append_lt_append_iff (h : left.length = right.length) :
    left ++ rest < right ++ rest' ↔ left < right ∨ left = right ∧ rest < rest' := by
  induction left generalizing right with
  | nil =>
    obtain rfl := length_eq_zero_iff.mp h.symm
    simp
  | cons x left ih =>
    obtain ⟨y, right, rfl⟩ := exists_cons_of_length_eq_add_one h.symm
    simp only [cons_append, cons_lt_cons_iff, ih (Nat.succ.inj h), List.cons.injEq]
    tauto

theorem decimal_lt_decimal (hmn : m < n) (hn : n < 10 ^ width) : decimal width m < decimal width n := by
  induction width generalizing m n with
  | zero => omega
  | succ width ih =>
    rw [Nat.pow_succ] at hn
    rw [decimal, decimal, append_lt_append_iff (by rw [length_decimal, length_decimal])]
    rcases Nat.lt_or_ge (m / 10) (n / 10) with hdiv | hdiv
    · exact .inl (ih hdiv (by omega))
    · rw [show m / 10 = n / 10 by omega]
      exact .inr ⟨rfl, cons_lt_cons_iff.mpr (.inl (by omega))⟩

/-- A field of fixed width decides, or what comes after it does. -/
theorem field_lt_iff (hm : m < 10 ^ width) (hn : n < 10 ^ width) :
    decimal width m ++ rest < decimal width n ++ rest' ↔ m < n ∨ m = n ∧ rest < rest' := by
  rw [append_lt_append_iff (by rw [length_decimal, length_decimal])]
  rcases Nat.lt_trichotomy m n with hmn | rfl | hnm
  · exact iff_of_true (.inl (decimal_lt_decimal hmn hn)) (.inl hmn)
  · simp
  · have hgt := decimal_lt_decimal hnm hm
    exact iff_of_false (fun h => h.elim hgt.asymm (fun h => hgt.ne' h.1)) (by omega)

theorem decimal_add (more : Nat) :
    decimal (width + more) n = decimal width (n / 10 ^ more) ++ decimal more (n % 10 ^ more) := by
  induction more generalizing n with
  | zero => rw [Nat.add_zero, Nat.pow_zero, Nat.div_one, decimal, append_nil]
  | succ more ih =>
    rw [← Nat.add_assoc, decimal, ih, decimal, Nat.pow_succ, Nat.mod_mul_left_div_self, Nat.mod_mul_left_mod,
      Nat.div_div_eq_div_mul, Nat.mul_comm 10, append_assoc]

/-- The end of a shorter fraction comes before every further digit. -/
theorem offset_lt_decimal {more : Nat} (h : 0 < more) : utcOffset < decimal more n ++ rest := by
  obtain ⟨more, rfl⟩ := Nat.exists_eq_add_of_lt h
  rw [Nat.zero_add, Nat.add_comm, decimal_add, decimal, decimal, nil_append, singleton_append, cons_append]
  exact cons_lt_cons_iff.mpr (.inl (by omega))

theorem shorter_lt_longer {more : Nat} (hm : m < 10 ^ width) (hn : n < 10 ^ (width + more)) (h : m * 10 ^ more < n) :
    decimal width m ++ utcOffset < decimal (width + more) n ++ utcOffset := by
  have hdiv : n / 10 ^ more < 10 ^ width := Nat.div_lt_of_lt_mul (by rwa [Nat.mul_comm, ← Nat.pow_add])
  rw [decimal_add, append_assoc, field_lt_iff hm hdiv]
  rcases Nat.lt_or_eq_of_le ((Nat.le_div_iff_mul_le (Nat.pow_pos (by decide))).mpr h.le) with hlt | heq
  · exact .inl hlt
  · refine .inr ⟨heq, offset_lt_decimal (Nat.pos_of_ne_zero ?_)⟩
    rintro rfl
    rw [Nat.pow_zero, Nat.mul_one] at h
    rw [Nat.pow_zero, Nat.div_one] at heq
    omega

theorem longer_lt_shorter {more : Nat} (hm : m < 10 ^ width) (h : n < m * 10 ^ more) :
    decimal (width + more) n ++ utcOffset < decimal width m ++ utcOffset := by
  have hdiv : n / 10 ^ more < m := Nat.div_lt_of_lt_mul (by rwa [Nat.mul_comm])
  rw [decimal_add, append_assoc, field_lt_iff (hdiv.trans hm) hm]
  exact .inl hdiv

theorem fraction_parts (h : n < 10 ^ 9) : fractionPlaces n ≤ 9 ∧ fractionDigits n < 10 ^ fractionPlaces n ∧
    fractionDigits n * 10 ^ (9 - fractionPlaces n) = n ∧ (fractionPlaces n = 0 → n = 0) := by
  unfold fractionDigits fractionPlaces
  split_ifs <;> simp only [Nat.reduceSub, Nat.reducePow] at * <;> refine ⟨by omega, by omega, by omega, ?_⟩ <;> tauto

theorem fraction_lt (hmn : m < n) (hn : n < 10 ^ 9) : fractionText m ++ utcOffset < fractionText n ++ utcOffset := by
  obtain ⟨hplaces, hdigits, hexact, -⟩ := fraction_parts (hmn.trans hn)
  obtain ⟨hplaces', hdigits', hexact', hzero'⟩ := fraction_parts hn
  have hsome : fractionPlaces n ≠ 0 := fun h => Nat.not_lt_zero m (hzero' h ▸ hmn)
  have hpow : ∀ {short more : Nat}, short + more ≤ 9 → 10 ^ (9 - short) = 10 ^ more * 10 ^ (9 - (short + more)) := by
    intro short more hle
    rw [← Nat.pow_add]
    congr 1
    omega
  rw [fractionText, fractionText, if_neg hsome]
  split
  · exact cons_lt_cons_iff.mpr (.inl (by decide))
  · refine cons_lt_cons_iff.mpr (.inr ⟨rfl, ?_⟩)
    rw [← hexact, ← hexact'] at hmn
    rcases Nat.le_total (fractionPlaces m) (fractionPlaces n) with hle | hle
    · obtain ⟨more, hmore⟩ := Nat.exists_eq_add_of_le hle
      rw [hmore] at hplaces' hdigits' hmn ⊢
      rw [hpow hplaces', ← Nat.mul_assoc] at hmn
      exact shorter_lt_longer hdigits hdigits' (Nat.lt_of_mul_lt_mul_right hmn)
    · obtain ⟨more, hmore⟩ := Nat.exists_eq_add_of_le hle
      rw [hmore] at hplaces hmn ⊢
      rw [hpow hplaces, ← Nat.mul_assoc] at hmn
      exact longer_lt_shorter hdigits' (Nat.lt_of_mul_lt_mul_right hmn)

theorem fraction_lt_iff (hm : m < 10 ^ 9) (hn : n < 10 ^ 9) :
    fractionText m ++ utcOffset < fractionText n ++ utcOffset ↔ m < n := by
  rcases Nat.lt_trichotomy m n with hmn | rfl | hnm
  · exact iff_of_true (fraction_lt hmn hn) hmn
  · exact iff_of_false (lt_irrefl _) (lt_irrefl _)
  · exact iff_of_false (fraction_lt hnm hm).asymm hnm.asymm

end Bytes

namespace CivilTime

/-- The calendar fields, the greatest first. -/
def fields (t : CivilTime) : List Nat := [t.year, t.month, t.day, t.hour, t.minute, t.second, t.nanos]

variable {a b : CivilTime}

theorem day_lt (t : CivilTime) : t.day < 32 := by
  have hshort : ∀ leap month, month ≤ 12 → daysBeforeMonth leap (month + 1) ≤
    daysBeforeMonth leap month + 31 := by decide
  have := hshort (isLeapYear t.year) t.month t.date.2.2.1
  have := t.date
  omega

theorem toRfc3339_lt_iff : a.toRfc3339 < b.toRfc3339 ↔ a.fields < b.fields := by
  obtain ⟨hy, -, hm, -⟩ := a.date
  obtain ⟨hy', -, hm', -⟩ := b.date
  obtain ⟨hh, hmi, hs, hn⟩ := a.time
  obtain ⟨hh', hmi', hs', hn'⟩ := b.time
  have hd := a.day_lt
  have hd' := b.day_lt
  rw [toRfc3339, toRfc3339, field_lt_iff (by omega) (by omega), cons_lt_cons_self, field_lt_iff (by omega) (by omega),
    cons_lt_cons_self, field_lt_iff (by omega) (by omega), cons_lt_cons_self, field_lt_iff (by omega) (by omega),
    cons_lt_cons_self, field_lt_iff (by omega) (by omega), cons_lt_cons_self, field_lt_iff (by omega) (by omega),
    fraction_lt_iff hn hn', fields, fields]
  simp [cons_lt_cons_iff]

theorem daysBeforeYear_le {year later : Nat} (h : year ≤ later) : daysBeforeYear year ≤ daysBeforeYear later := by
  induction h with
  | refl => exact Nat.le_refl _
  | step _ ih => exact ih.trans (Nat.le_add_right _ _)

theorem dayNumber_lt (h : a.year < b.year ∨ a.year = b.year ∧ (a.month < b.month ∨ a.month = b.month ∧ a.day < b.day)) :
    a.dayNumber < b.dayNumber := by
  have hmonths : ∀ leap : Bool, ∀ month ≤ 12, ∀ later ≤ 13, month < later →
      daysBeforeMonth leap (month + 1) ≤ daysBeforeMonth leap later := by decide
  obtain ⟨-, -, hmonth, -, hday⟩ := a.date
  obtain ⟨-, -, hmonth', hday', -⟩ := b.date
  rw [dayNumber, dayNumber]
  rcases h with hyear | ⟨hyear, hearlier | ⟨hsame, hlt⟩⟩
  · have hlast := hmonths (isLeapYear a.year) a.month hmonth 13 (Nat.le_refl _) (by omega)
    have hnext := daysBeforeYear_le hyear
    rw [daysBeforeYear] at hnext
    omega
  · have hnext := hmonths (isLeapYear a.year) a.month hmonth b.month (by omega) hearlier
    rw [← hyear]
    omega
  · rw [← hyear, ← hsame]
    omega

theorem timestamp_lt_iff : a.timestamp.nanos < b.timestamp.nanos ↔ a.fields < b.fields := by
  have hlt := @dayNumber_lt a b
  have hgt := @dayNumber_lt b a
  have heq : a.year = b.year → a.month = b.month → a.day = b.day → a.dayNumber = b.dayNumber := by
    intro hy hm hd
    rw [dayNumber, dayNumber, hy, hm, hd]
  have := a.time
  have := b.time
  simp only [timestamp, fields, cons_lt_cons_iff, List.lt_irrefl, and_false, or_false]
  omega

end CivilTime

/-- The texts of timestamps are ordered as their instants. -/
theorem timestamp_texts_ordered (a b : CivilTime) : a.toRfc3339 < b.toRfc3339 ↔
    a.timestamp.nanos < b.timestamp.nanos := by
  rw [CivilTime.toRfc3339_lt_iff, CivilTime.timestamp_lt_iff]

end AtmCore
