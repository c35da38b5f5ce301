import SlotLease.Calendar

namespace SlotLease.Date

structure Valid (date : Date) : Prop where
  month : 1 ≤ date.month ∧ date.month ≤ 12
  day : 1 ≤ date.day ∧ date.day ≤ daysInMonth date.year date.month

def Before (a b : Date) : Prop :=
  a.year < b.year ∨ a.year = b.year ∧ (a.month < b.month ∨ a.month = b.month ∧ a.day < b.day)

/-! ### Days of years and months -/

theorem isLeap_iff {year : Int} :
    isLeap year = true ↔ year % 4 = 0 ∧ (year % 100 ≠ 0 ∨ year % 400 = 0) := by
  simp [isLeap]

def monthLength (leap : Bool) (month : Nat) : Nat :=
  if month = 2 then if leap then 29 else 28
  else if month = 4 ∨ month = 6 ∨ month = 9 ∨ month = 11 then 30
  else 31

def monthStart (leap : Bool) (month : Nat) : Nat :=
  if month ≤ 2 then 31 * (month - 1)
  else (153 * (month - 3) + 2) / 5 + 59 + leap.toNat

theorem monthStart_le (leap : Bool) (first : 1 ≤ a) (earlier : a < b) (last : b ≤ 13) :
    monthStart leap a + monthLength leap a ≤ monthStart leap b := by
  have : ∀ leap : Bool, ∀ b < 14, ∀ a < b, 1 ≤ a →
      monthStart leap a + monthLength leap a ≤ monthStart leap b := by decide
  exact this leap b (by omega) a earlier first

def newYear (year : Int) : Int :=
  365 * (year - 1) + (year - 1) / 4 - (year - 1) / 100 + (year - 1) / 400 - 719162

theorem newYear_succ (year : Int) :
    newYear (year + 1) = newYear year + 365 + (isLeap year).toNat := by
  by_cases leap : isLeap year = true
  · have := isLeap_iff.1 leap
    rw [leap, newYear, newYear]
    simp only [Bool.toNat_true]
    omega
  · have := mt isLeap_iff.2 leap
    rw [Bool.not_eq_true] at leap
    rw [leap, newYear, newYear]
    simp only [Bool.toNat_false]
    omega

theorem newYear_mono {year later : Int} (le : year ≤ later) : newYear year ≤ newYear later := by
  rw [newYear, newYear]
  omega

theorem toDays_eq (date : Date) (month : 1 ≤ date.month) : date.toDays =
    newYear date.year + monthStart (isLeap date.year) date.month + date.day - 1 := by
  have next := newYear_succ date.year
  rw [newYear, newYear] at next
  simp only [toDays, monthStart, newYear]
  split <;> omega

theorem Valid.newYear_le {date : Date} (valid : date.Valid) : newYear date.year ≤ date.toDays := by
  rw [toDays_eq date valid.month.1]
  have := valid.day.1
  omega

theorem Valid.lt_newYear {date : Date} (valid : date.Valid) :
    date.toDays < newYear (date.year + 1) := by
  have fits : date.day ≤ monthLength (isLeap date.year) date.month := valid.day.2
  have start := monthStart_le (b := 13) (isLeap date.year) valid.month.1
    (Nat.lt_succ_of_le valid.month.2) (Nat.le_refl 13)
  have whole : monthStart (isLeap date.year) 13 = 365 + (isLeap date.year).toNat := by
    cases isLeap date.year <;> rfl
  rw [toDays_eq date valid.month.1, newYear_succ]
  omega

theorem Before.toDays_lt {a b : Date} (h : a.Before b) (valid : a.Valid) (valid' : b.Valid) :
    a.toDays < b.toDays := by
  rcases h with earlier | ⟨same, earlier | ⟨same', earlier⟩⟩
  · calc a.toDays < newYear (a.year + 1) := valid.lt_newYear
      _ ≤ newYear b.year := newYear_mono earlier
      _ ≤ b.toDays := valid'.newYear_le
  · have fits : a.day ≤ monthLength (isLeap a.year) a.month := valid.day.2
    have start := monthStart_le (isLeap a.year) valid.month.1 earlier
      (Nat.le_succ_of_le valid'.month.2)
    have first := valid'.day.1
    rw [toDays_eq a valid.month.1, toDays_eq b valid'.month.1, ← same]
    omega
  · rw [toDays_eq a valid.month.1, toDays_eq b valid'.month.1, ← same, ← same']
    omega

theorem before_trichotomy (a b : Date) : a.Before b ∨ a = b ∨ b.Before a := by
  obtain ⟨year, month, day⟩ := a
  obtain ⟨year', month', day'⟩ := b
  simp only [Before, Date.mk.injEq]
  omega

theorem toDays_injective {a b : Date} (valid : a.Valid) (valid' : b.Valid)
    (same : a.toDays = b.toDays) : a = b := by
  rcases before_trichotomy a b with before | rfl | before
  · exact absurd same (Int.ne_of_lt (before.toDays_lt valid valid'))
  · rfl
  · exact absurd same.symm (Int.ne_of_lt (before.toDays_lt valid' valid))

/-! ### The date of a day -/

theorem year_of_four {century four year rest late : Nat} (few : year ≤ 3)
    (shorter : year < 3 → rest < 365) (fits : rest < 366)
    (bound : late = 0 ∧ 365 * year + rest < 1460 ∨ late = 1 ∧ 1364 ≤ 365 * year + rest) :
    (36500 * century + 1460 * four + (365 * year + rest - late)) / 365 =
      100 * century + 4 * four + year := by
  omega

theorem rest_of_year {day century four year rest : Nat} (few : four ≤ 24) (few' : year ≤ 3)
    (split : day = 36524 * century + 1461 * four + 365 * year + rest) :
    day - (365 * (100 * century + 4 * four + year) + (100 * century + 4 * four + year) / 4 -
      (100 * century + 4 * four + year) / 100) = rest := by
  have fourths : (100 * century + 4 * four + year) / 4 = 25 * century + four := by omega
  have hundredths : (100 * century + 4 * four + year) / 100 = century := by omega
  rw [fourths, hundredths]
  omega

/-- A day of 400 years lies in one of four centuries, there in one of 25 times four years, and there
in one of four years. Only the last of four years can have a 366th day, and the last of a century
only if the century is the last. -/
theorem yearOfEra_eq {day : Nat} (h : day < 146097) : ∃ century four year rest : Nat,
    four ≤ 24 ∧ year ≤ 3 ∧ rest ≤ 365 ∧ (rest = 365 → year = 3 ∧ (four < 24 ∨ century = 3)) ∧
      day = 36524 * century + 1461 * four + 365 * year + rest ∧ century ≤ 3 ∧
        (day - day / 1460 + day / 36524 - day / 146096) / 365 =
          100 * century + 4 * four + year := by
  obtain ⟨century, inEra, few, split, shorter, whole⟩ : ∃ century inEra : Nat, century ≤ 3 ∧
      day = 36524 * century + inEra ∧ (century < 3 → inEra < 36524) ∧ inEra < 36525 := by
    refine ⟨min (day / 36524) 3, day - 36524 * min (day / 36524) 3, ?_⟩
    omega
  obtain ⟨four, inCentury, few', split', shorter'⟩ : ∃ four inCentury : Nat, four ≤ 24 ∧
      inEra = 1461 * four + inCentury ∧ inCentury < 1461 := by
    refine ⟨inEra / 1461, inEra % 1461, ?_⟩
    omega
  obtain ⟨year, rest, few'', split'', shorter'', whole''⟩ : ∃ year rest : Nat, year ≤ 3 ∧
      inCentury = 365 * year + rest ∧ (year < 3 → rest < 365) ∧ rest < 366 := by
    refine ⟨min (inCentury / 365) 3, inCentury - 365 * min (inCentury / 365) 3, ?_⟩
    omega
  refine ⟨century, four, year, rest, few', few'', by omega, by omega, by omega, few, ?_⟩
  have leapDays : day / 36524 - day / 146096 = century ∧ day / 146096 ≤ day / 36524 := by omega
  -- the excess of a day over 1460 for each four years counts once it has come to four years
  obtain ⟨late, fours, bound⟩ : ∃ late : Nat, day / 1460 = 25 * century + four + late ∧
      (late = 0 ∧ inCentury < 1460 ∨ late = 1 ∧ 1364 ≤ inCentury) := by
    rcases Nat.lt_or_ge (24 * century + four + inCentury) 1460 with early | late
    · exact ⟨0, by omega, .inl ⟨rfl, by omega⟩⟩
    · exact ⟨1, by omega, .inr ⟨rfl, by omega⟩⟩
  have years : day - day / 1460 + day / 36524 - day / 146096 =
      36500 * century + 1460 * four + (inCentury - late) := by omega
  rw [years, split'']
  exact year_of_four few'' shorter'' whole'' (split'' ▸ bound)

def ofMarch (year : Int) (dayOfYear : Nat) : Date :=
  let monthFromMarch := (5 * dayOfYear + 2) / 153
  let month := if monthFromMarch < 10 then monthFromMarch + 3 else monthFromMarch - 9
  { year := if month ≤ 2 then year + 1 else year
    month
    day := dayOfYear - (153 * monthFromMarch + 2) / 5 + 1 }

theorem ofDays_eq (days : Int) : ∃ (year : Int) (rest : Nat), ofDays days = ofMarch year rest ∧
    rest ≤ 365 ∧ (rest = 365 → isLeap (year + 1) = true) ∧
      days = 365 * year + year / 4 - year / 100 + year / 400 + rest - 719468 := by
  obtain ⟨day, same, fits⟩ : ∃ day : Nat, (day : Int) = (days + 719468) % 146097 ∧ day < 146097 :=
    ⟨((days + 719468) % 146097).toNat, by omega, by omega⟩
  obtain ⟨century, four, year, rest, few, few', shorter, longest, split, few'', years⟩ :=
    yearOfEra_eq fits
  have toNat : ((days + 719468) % 146097).toNat = day := by omega
  refine ⟨(days + 719468) / 146097 * 400 + (100 * century + 4 * four + year : Nat), rest, ?_,
    shorter, fun last => ?_, ?_⟩
  · have rest_eq := rest_of_year few few' split
    simp only [ofDays, toNat, years, rest_eq]
    rfl
  · have := longest last
    clear years
    rw [isLeap_iff]
    omega
  · clear years
    generalize era : (days + 719468) / 146097 = e
    have fourths : (e * 400 + (100 * century + 4 * four + year : Nat)) / 4 =
        100 * e + 25 * century + four := by omega
    have hundredths : (e * 400 + (100 * century + 4 * four + year : Nat)) / 100 =
        4 * e + century := by omega
    have eras : (e * 400 + (100 * century + 4 * four + year : Nat)) / 400 = e := by omega
    rw [fourths, hundredths, eras]
    omega

theorem monthLength_le (leap : Bool) (month : Nat) :
    monthLength false month ≤ monthLength leap month := by
  cases leap <;> simp only [monthLength] <;> split <;> simp

theorem ofMarch_valid {year : Int} {rest : Nat} (shorter : rest ≤ 365)
    (longest : rest = 365 → isLeap (year + 1) = true) : (ofMarch year rest).Valid := by
  rcases Nat.lt_or_eq_of_le shorter with common | rfl
  · have fits : ∀ rest < 365, 1 ≤ (ofMarch 0 rest).month ∧ (ofMarch 0 rest).month ≤ 12 ∧
        1 ≤ (ofMarch 0 rest).day ∧
          (ofMarch 0 rest).day ≤ monthLength false (ofMarch 0 rest).month := by decide +kernel
    obtain ⟨first, last, first', last'⟩ := fits rest common
    exact ⟨⟨first, last⟩, first', Nat.le_trans last' (monthLength_le _ _)⟩
  · -- the last day of a year that begins with March is a leap day
    refine ⟨⟨?_, ?_⟩, ?_, ?_⟩
    · show 1 ≤ 2
      decide
    · show 2 ≤ 12
      decide
    · show 1 ≤ 29
      decide
    · show 29 ≤ monthLength (isLeap (year + 1)) 2
      rw [longest rfl]
      decide

theorem toDays_ofMarch (year : Int) {rest : Nat} (shorter : rest ≤ 365) :
    (ofMarch year rest).toDays =
      365 * year + year / 4 - year / 100 + year / 400 + rest - 719468 := by
  have start : (153 * ((5 * rest + 2) / 153) + 2) / 5 ≤ rest := by omega
  have months : (5 * rest + 2) / 153 ≤ 11 := by omega
  rcases Nat.lt_or_ge ((5 * rest + 2) / 153) 10 with early | late
  · have month : ¬ (5 * rest + 2) / 153 + 3 ≤ 2 := by omega
    simp only [toDays, ofMarch, if_pos early, if_neg month]
    omega
  · have month : (5 * rest + 2) / 153 - 9 ≤ 2 := by omega
    simp only [toDays, ofMarch, if_neg (Nat.not_lt.2 late), if_pos month]
    omega

theorem ofDays_valid (days : Int) : (ofDays days).Valid := by
  obtain ⟨year, rest, same, shorter, longest, _⟩ := ofDays_eq days
  rw [same]
  exact ofMarch_valid shorter longest

theorem toDays_ofDays (days : Int) : (ofDays days).toDays = days := by
  obtain ⟨year, rest, same, shorter, _, counted⟩ := ofDays_eq days
  rw [same, toDays_ofMarch year shorter, ← counted]

theorem ofDays_toDays {date : Date} (valid : date.Valid) : ofDays date.toDays = date :=
  toDays_injective (ofDays_valid _) valid (toDays_ofDays _)

theorem days_of_year {days year : Int} (h : (ofDays days).year ≤ year) :
    days < newYear (year + 1) := by
  have before := (ofDays_valid days).lt_newYear
  rw [toDays_ofDays] at before
  exact Int.lt_of_lt_of_le before (newYear_mono (Int.add_le_add_right h 1))

theorem year_eq {days year : Int} (since : newYear year ≤ days)
    (before : days < newYear (year + 1)) : (ofDays days).year = year := by
  have first := (ofDays_valid days).newYear_le
  rw [toDays_ofDays] at first
  rcases Int.lt_trichotomy (ofDays days).year year with early | same | late
  · have := days_of_year (Int.le_sub_one_of_lt early)
    rw [Int.sub_add_cancel] at this
    omega
  · exact same
  · have := newYear_mono (Int.add_one_le_of_lt late)
    omega

theorem year_of_days {days : Int} (h : 0 ≤ days) : 1970 ≤ (ofDays days).year := by
  refine Int.not_lt.1 fun early => ?_
  have before := days_of_year (Int.le_sub_one_of_lt early)
  rw [show newYear (1970 - 1 + 1) = 0 from rfl] at before
  exact absurd h (Int.not_le.2 before)

end SlotLease.Date
