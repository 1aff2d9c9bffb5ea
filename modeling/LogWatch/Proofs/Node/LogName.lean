import Mathlib
import LogWatch.Node.LogName

/-!
The name of a log tells the millisecond in which its run began.

A date is read back to its day: the year says where the span and the year begin, and the month where
it begins in the year. A number written in digits is read back as well, and all parts of a name but
the year have a width of their own, so the name is read back from its end.
-/

namespace LogWatch.LogName

/-! ### Dates -/

namespace Date

/-- The day in a span of four hundred years on which a year begins. -/
def yearStart (year : ℕ) : ℕ := 365 * year + year / 4 - year / 100

/-- The days of a span before a day, without the leap days among them. -/
def commonDays (day : ℕ) : ℕ := day - day / 1460 + day / 36524 - day / 146096

lemma commonDays_succ_le (day : ℕ) : commonDays day ≤ commonDays (day + 1) := by
  have hspan : ∀ n, n / 146096 = n / 36524 / 4 := fun n => by rw [Nat.div_div_eq_div_mul]
  simp only [commonDays, hspan]
  omega

lemma commonDays_mono : Monotone commonDays := monotone_nat_of_le_succ commonDays_succ_le

lemma le_commonDays_yearStart : ∀ year < 400, 365 * year ≤ commonDays (yearStart year) := by
  decide +kernel

lemma commonDays_lt_of_lt_yearStart :
    ∀ year < 400, 0 < year → commonDays (yearStart year - 1) < 365 * year := by
  decide +kernel

lemma yearStart_succ_le (year : ℕ) : yearStart (year + 1) ≤ yearStart year + 366 := by
  simp only [yearStart]
  omega

lemma yearStart_spec {day year : ℕ} (hday : day < 146097) (hyear : year = commonDays day / 365) :
    year < 400 ∧ yearStart year ≤ day ∧ day ≤ yearStart year + 365 := by
  have hlt : year < 400 := by
    have hle := commonDays_mono (Nat.le_of_lt_succ hday)
    have hlast : commonDays 146096 = 145999 := by decide
    omega
  refine ⟨hlt, ?_, ?_⟩
  · by_contra hbefore
    -- the last day before the year has too few days before it
    have hpos : 0 < year := Nat.pos_of_ne_zero (by rintro rfl; simp [yearStart] at hbefore)
    have hle := commonDays_mono (show day ≤ yearStart year - 1 by omega)
    have hfew := commonDays_lt_of_lt_yearStart year hlt hpos
    omega
  · by_contra hafter
    have hnext := yearStart_succ_le year
    -- the last year of a span has no next one to compare with
    rcases Nat.lt_or_ge (year + 1) 400 with hlt' | hge
    · have hle := commonDays_mono (show yearStart (year + 1) ≤ day by omega)
      have hmany := le_commonDays_yearStart (year + 1) hlt'
      omega
    · obtain rfl : year = 399 := by omega
      have hstart : yearStart 399 = 145731 := by decide
      omega

lemma eq_of_fields {d d' : Date} (hyear : d.year = d'.year) (hmonth : d.month = d'.month)
    (hday : d.day = d'.day) : d = d' := by
  cases d
  cases d'
  simp only at hyear hmonth hday
  rw [hyear, hmonth, hday]

/-- How many months of a year that begins in March come before a month. -/
def monthsBefore (month : ℕ) : ℕ := if 3 ≤ month then month - 3 else month + 9

/-- The day of a date, counted from the first of March of the year 0. -/
def toDays (d : Date) : ℕ :=
  let year := if 3 ≤ d.month then d.year else d.year - 1
  year / 400 * 146097 + yearStart (year % 400) + (153 * monthsBefore d.month + 2) / 5 + (d.day - 1)

/-- The date of a day in a year that begins in March, of a span of years. -/
def ofYear (span year inYear : ℕ) : Date :=
  let month := (5 * inYear + 2) / 153
  let day := inYear - (153 * month + 2) / 5 + 1
  if month < 10 then ⟨span * 400 + year, month + 3, day⟩
  else ⟨span * 400 + year + 1, month - 9, day⟩

lemma toDays_ofYear {span year inYear : ℕ} (hyear : year < 400) (hinYear : inYear ≤ 365) :
    (ofYear span year inYear).toDays = span * 146097 + yearStart year + inYear := by
  have hspan : (span * 400 + year) / 400 = span := by omega
  have hrest : (span * 400 + year) % 400 = year := by omega
  obtain ⟨month, hmonth⟩ : ∃ month, month = (5 * inYear + 2) / 153 := ⟨_, rfl⟩
  have hlast : month ≤ 11 := by omega
  have hday : (153 * month + 2) / 5 ≤ inYear := by omega
  rw [ofYear, ← hmonth]
  -- months are counted from March, so the first two belong to the year before
  by_cases hearly : month < 10
  · have hbefore : monthsBefore (month + 3) = month := by simp [monthsBefore]
    simp only [toDays, hearly, if_true, hbefore, show 3 ≤ month + 3 by omega, hspan, hrest]
    omega
  · have hsmall : ¬ 3 ≤ month - 9 := by omega
    have hbefore : monthsBefore (month - 9) = month := by
      rw [monthsBefore, if_neg hsmall]
      omega
    simp only [toDays, hearly, if_false, hbefore, hsmall, Nat.succ_sub_one, hspan, hrest]
    omega

/-- **A date is that of one day only.** -/
theorem toDays_ofDays (days : ℕ) : (ofDays days).toDays = days + 719468 := by
  set span := (days + 719468) / 146097
  set inSpan := (days + 719468) % 146097
  set year := commonDays inSpan / 365 with hyear
  have hsplit : days + 719468 = 146097 * span + inSpan := (Nat.div_add_mod _ _).symm
  obtain ⟨hlt, hle, hge⟩ := yearStart_spec (Nat.mod_lt _ (by decide)) hyear
  have hof : ofDays days = ofYear span year (inSpan - yearStart year) := rfl
  rw [hof, toDays_ofYear hlt (by omega)]
  omega

lemma ofDays_injective : Function.Injective ofDays := by
  intro a b h
  have hdays := congrArg toDays h
  rw [toDays_ofDays, toDays_ofDays] at hdays
  exact Nat.add_right_cancel hdays

lemma ofDays_lt (days : ℕ) : (ofDays days).month < 10 ^ 2 ∧ (ofDays days).day < 10 ^ 2 := by
  set inSpan := (days + 719468) % 146097
  set year := commonDays inSpan / 365 with hyear
  obtain ⟨hlt, hle, hge⟩ := yearStart_spec (Nat.mod_lt _ (by decide)) hyear
  have hof : ofDays days = ofYear _ year (inSpan - yearStart year) := rfl
  rw [hof]
  simp only [ofYear]
  split <;> simp only <;> omega

end Date

/-! ### Digits -/

@[simp] lemma toList_padded (width n : ℕ) : (padded width n).toList =
    List.replicate (width - (Nat.toDigits 10 n).length) '0' ++ Nat.toDigits 10 n := by
  simp [padded]

lemma ofDigitChars_padded (width n : ℕ) : Nat.ofDigitChars 10 (padded width n).toList 0 = n := by
  rw [toList_padded, Nat.ofDigitChars_append, Nat.ofDigitChars_replicate_zero, Nat.mul_zero,
    Nat.ofDigitChars_ten_toDigits]

lemma padded_injective (width : ℕ) : Function.Injective (padded width) := fun a b h => by
  rw [← ofDigitChars_padded width a, h, ofDigitChars_padded]

lemma length_padded {width n : ℕ} (hwidth : 0 < width) (hn : n < 10 ^ width) :
    (padded width n).toList.length = width := by
  have hle := Nat.toDigits_length 10 n width hwidth hn
  rw [toList_padded, List.length_append, List.length_replicate]
  omega

/-! ### Names -/

lemma append_padded_inj {s s' : String} {width n n' : ℕ} (hwidth : 0 < width)
    (hn : n < 10 ^ width) (hn' : n' < 10 ^ width)
    (h : s ++ padded width n = s' ++ padded width n') : s = s' ∧ n = n' := by
  have hlist := congrArg String.toList h
  simp only [String.toList_append] at hlist
  obtain ⟨hs, hpadded⟩ := List.append_inj' hlist
    ((length_padded hwidth hn).trans (length_padded hwidth hn').symm)
  exact ⟨String.toList_injective hs, padded_injective width (String.toList_injective hpadded)⟩

lemma eq_of_parts {a b : ℕ} (hday : a / millisPerDay = b / millisPerDay)
    (hhour : a % millisPerDay / 1000 / 3600 = b % millisPerDay / 1000 / 3600)
    (hminute : a % millisPerDay / 1000 / 60 % 60 = b % millisPerDay / 1000 / 60 % 60)
    (hsecond : a % millisPerDay / 1000 % 60 = b % millisPerDay / 1000 % 60)
    (hmillis : a % 1000 = b % 1000) : a = b := by
  simp only [millisPerDay] at hday hhour hminute hsecond
  omega

/-- **A name is that of one millisecond only.** -/
theorem ofMillis_injective : Function.Injective ofMillis := by
  intro a b h
  have hmonth := fun days => (Date.ofDays_lt days).1
  have hday := fun days => (Date.ofDays_lt days).2
  have hmillis : ∀ n, n % 1000 < 10 ^ 3 := fun n => Nat.mod_lt n (by decide)
  have hsecond : ∀ n, n % 60 < 10 ^ 2 := fun n => by omega
  have hhour : ∀ n, n % millisPerDay / 1000 / 3600 < 10 ^ 2 := fun n => by
    simp only [millisPerDay]
    omega
  simp only [ofMillis] at h
  -- from its end on a name has parts of known length, up to the year
  obtain ⟨h, hms⟩ := append_padded_inj (by decide) (hmillis a) (hmillis b) ((String.append_left_inj _).mp h)
  obtain ⟨h, hs⟩ := append_padded_inj (by decide) (hsecond _) (hsecond _) ((String.append_left_inj _).mp h)
  obtain ⟨h, hm⟩ := append_padded_inj (by decide) (hsecond _) (hsecond _) h
  obtain ⟨h, hh⟩ := append_padded_inj (by decide) (hhour a) (hhour b) h
  obtain ⟨h, hd⟩ := append_padded_inj (by decide) (hday _) (hday _) ((String.append_left_inj _).mp h)
  obtain ⟨h, hmo⟩ := append_padded_inj (by decide) (hmonth _) (hmonth _) h
  have hy := padded_injective 4 ((String.append_right_inj _).mp h)
  exact eq_of_parts (Date.ofDays_injective (Date.eq_of_fields hy hmo hd)) hh hm hs hms

end LogWatch.LogName
