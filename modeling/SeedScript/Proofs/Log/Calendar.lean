import Mathlib.Logic.Function.Iterate
import Mathlib.Order.Monotone.Basic
import Mathlib.Tactic.IntervalCases
import SeedScript.Log.Calendar

/-!
# The calendar of the log

Dates are computed from a count of days by division. They are the dates that are reached from the first
day of 1970 when one goes to the next date once a day: leap years are those that 4 divides, unless 100
does and 400 does not.
-/

namespace SeedScript.Log.Date

def isLeapYear (year : Nat) : Bool :=
  year % 4 = 0 && (year % 100 ≠ 0 || year % 400 = 0)

def monthLength (leap : Bool) : Nat → Nat
  | 2 => if leap then 29 else 28
  | 4 | 6 | 9 | 11 => 30
  | _ => 31

def monthEnd (d : Date) : Nat :=
  monthLength (isLeapYear d.year) d.month

def next (d : Date) : Date :=
  if d.day < d.monthEnd then ⟨d.year, d.month, d.day + 1⟩
  else if d.month < 12 then ⟨d.year, d.month + 1, 1⟩
  else ⟨d.year + 1, 1, 1⟩

structure IsValid (d : Date) : Prop where
  month : 1 ≤ d.month ∧ d.month ≤ 12
  day : 1 ≤ d.day ∧ d.day ≤ d.monthEnd

theorem one_le_monthLength (leap : Bool) (month : Nat) : 1 ≤ monthLength leap month := by
  unfold monthLength
  split
  · split <;> decide
  all_goals decide

theorem IsValid.next {d : Date} (h : d.IsValid) : d.next.IsValid := by
  unfold Date.next
  split
  · next hBefore => exact ⟨h.month, Nat.le_add_left 1 d.day, hBefore⟩
  · split
    · next hMore =>
      exact ⟨⟨Nat.le_add_left 1 d.month, hMore⟩, Nat.le_refl 1, one_le_monthLength _ _⟩
    · exact ⟨⟨Nat.le_refl 1, Nat.le_add_left 1 11⟩, Nat.le_refl 1, one_le_monthLength _ _⟩

/-! ## Years from March on -/

/-- The days in front of a year that starts in March. -/
def marchStart (y : Nat) : Nat :=
  365 * y + y / 4 - y / 100 + y / 400

/-- The year of a day in an era of 400 years, as the date is computed. -/
def yearInEra (r : Nat) : Nat :=
  (r - r / 1460 + r / 36524 - r / 146096) / 365

def marchYear (s : Nat) : Nat :=
  yearInEra (s % 146097) + 400 * (s / 146097)

/-- A day of a month, where months are counted from March on. -/
def inMonth (y m day : Nat) : Date :=
  ⟨y + (if m < 10 then 0 else 1), if m < 10 then m + 3 else m - 9, day⟩

def marchDate (y d : Nat) : Date :=
  inMonth y ((5 * d + 2) / 153) (d - (153 * ((5 * d + 2) / 153) + 2) / 5 + 1)

theorem marchStart_succ (y : Nat) :
    marchStart (y + 1) = marchStart y + if isLeapYear (y + 1) then 366 else 365 := by
  have hLess : y / 100 ≤ y / 4 := Nat.div_le_div_left (by decide) (by decide)
  have hLess' : (y + 1) / 100 ≤ (y + 1) / 4 := Nat.div_le_div_left (by decide) (by decide)
  have hFour := Nat.succ_div (a := y) (b := 4)
  have hCentury := Nat.succ_div (a := y) (b := 100)
  have hEra := Nat.succ_div (a := y) (b := 400)
  unfold marchStart isLeapYear
  simp only [Bool.and_eq_true, Bool.or_eq_true, decide_eq_true_eq]
  generalize y / 4 = a, y / 100 = b, y / 400 = c, (y + 1) / 4 = a', (y + 1) / 100 = b',
    (y + 1) / 400 = c' at *
  split at hFour <;> split at hCentury <;> split at hEra <;> split <;> omega

theorem strictMono_marchStart : StrictMono marchStart := by
  apply strictMono_nat_of_lt_succ
  intro y
  rw [marchStart_succ]
  split <;> omega

/-- A day by its era of 400 years, century, group of four years, year and day of the year. Only the last
year of a group has a leap day, and the last group of a century has none unless it ends an era. -/
structure Parts (s e c g y d : Nat) : Prop where
  sum : s = 146097 * e + 36524 * c + 1461 * g + 365 * y + d
  century : c < 4
  group : g < 25
  year : y < 4
  day : d < 365 ∨ d = 365 ∧ y = 3 ∧ (g < 24 ∨ c = 3)

variable {s e c g y d : Nat}

theorem exists_parts (s : Nat) : ∃ e c g y d, Parts s e c g y d := by
  obtain ⟨c, hc, hCentury, hRest⟩ : ∃ c < 4, 36524 * c ≤ s % 146097 ∧
      (s % 146097 < 36524 * (c + 1) ∨ c = 3) :=
    ⟨min (s % 146097 / 36524) 3, by omega, by omega, by omega⟩
  obtain ⟨t, ht⟩ := Nat.exists_eq_add_of_le hCentury
  obtain ⟨y, hy, hYear⟩ : ∃ y < 4, 365 * y ≤ t % 1461 ∧ (t % 1461 < 365 * (y + 1) ∨ y = 3) :=
    ⟨min (t % 1461 / 365) 3, by omega, by omega, by omega⟩
  exact ⟨s / 146097, c, t / 1461, y, t % 1461 - 365 * y, by omega, hc, by omega, hy, by omega⟩

theorem Parts.rest (h : Parts s e c g y d) :
    36524 * c + 1461 * g + 365 * y + d < 146097 ∧ s / 146097 = e ∧
      s % 146097 = 36524 * c + 1461 * g + 365 * y + d := by
  obtain ⟨hSum, hc, hg, hy, hd⟩ := h
  have hLess : 36524 * c + 1461 * g + 365 * y + d < 146097 := by omega
  exact ⟨hLess, by omega, by omega⟩

theorem Parts.yearInEra (h : Parts s e c g y d) :
    yearInEra (s % 146097) = 100 * c + 4 * g + y := by
  obtain ⟨hLess, -, hRest⟩ := h.rest
  obtain ⟨-, hc, hg, hy, hd⟩ := h
  rw [Date.yearInEra, hRest]
  generalize hr : 36524 * c + 1461 * g + 365 * y + d = r at hLess ⊢
  by_cases hLast : r = 146096
  · subst hLast
    omega
  · have hCentury : r / 36524 = c := by omega
    have hNone : r / 146096 = 0 := by omega
    rw [hCentury, hNone]
    omega

theorem Parts.marchYear (h : Parts s e c g y d) :
    marchYear s = 400 * e + 100 * c + 4 * g + y := by
  obtain ⟨-, hEra, -⟩ := h.rest
  rw [Date.marchYear, h.yearInEra, hEra]
  omega

theorem Parts.marchStart (h : Parts s e c g y d) :
    marchStart (400 * e + 100 * c + 4 * g + y) + d = s := by
  obtain ⟨hSum, hc, hg, hy, -⟩ := h
  have hFour : (400 * e + 100 * c + 4 * g + y) / 4 = 100 * e + 25 * c + g := by omega
  have hCentury : (400 * e + 100 * c + 4 * g + y) / 100 = 4 * e + c := by omega
  have hEra : (400 * e + 100 * c + 4 * g + y) / 400 = e := by omega
  rw [Date.marchStart, hFour, hCentury, hEra]
  omega

theorem Parts.day_lt (h : Parts s e c g y d) :
    d < if isLeapYear (400 * e + 100 * c + 4 * g + y + 1) then 366 else 365 := by
  obtain ⟨-, hc, hg, hy, hd⟩ := h
  rcases hd with hd | ⟨rfl, rfl, hLast⟩
  · split <;> omega
  · rw [if_pos]
    · decide
    · simp only [isLeapYear, Bool.and_eq_true, Bool.or_eq_true, decide_eq_true_eq]
      omega

theorem marchYear_spec (s : Nat) :
    marchStart (marchYear s) ≤ s ∧ s < marchStart (marchYear s + 1) := by
  obtain ⟨e, c, g, y, d, h⟩ := exists_parts s
  have hStart := h.marchStart
  have hDay := h.day_lt
  rw [h.marchYear, marchStart_succ]
  omega

/-- The year of a day is the one that has started, while the next one has not. -/
theorem marchYear_eq_iff :
    marchYear s = y ↔ marchStart y ≤ s ∧ s < marchStart (y + 1) := by
  constructor
  · rintro rfl
    exact marchYear_spec s
  · rintro ⟨hStart, hEnd⟩
    obtain ⟨hStart', hEnd'⟩ := marchYear_spec s
    have hLess := strictMono_marchStart.lt_iff_lt.mp (hStart.trans_lt hEnd')
    have hLess' := strictMono_marchStart.lt_iff_lt.mp (hStart'.trans_lt hEnd)
    omega

/-! ## Days of a year -/

/-- The months from March on have 153 days in five, and the last one has what is left of the year. -/
theorem monthEnd_inMonth {m : Nat} (h : m ≤ 11) (y day : Nat) : (inMonth y m day).monthEnd =
    if m = 11 then (if isLeapYear (y + 1) then 29 else 28)
    else (153 * (m + 1) + 2) / 5 - (153 * m + 2) / 5 := by
  interval_cases m <;> rfl

theorem next_inMonth_of_lt {y m day : Nat} (h : day < (inMonth y m day).monthEnd) :
    (inMonth y m day).next = inMonth y m (day + 1) :=
  if_pos h

theorem next_inMonth_of_le {y m day : Nat} (hm : m < 11) (h : (inMonth y m day).monthEnd ≤ day) :
    (inMonth y m day).next = inMonth y (m + 1) 1 := by
  refine (if_neg (Nat.not_lt.mpr h)).trans ?_
  interval_cases m <;> rfl

theorem exists_inMonth (h : d < 366) : ∃ m ≤ 11, (153 * m + 2) / 5 ≤ d ∧
    d < (153 * (m + 1) + 2) / 5 ∧ ∀ y, marchDate y d = inMonth y m (d - (153 * m + 2) / 5 + 1) :=
  ⟨(5 * d + 2) / 153, by omega, by omega, by omega, fun _ => rfl⟩

theorem marchDate_succ (h : d + 1 < if isLeapYear (y + 1) then 366 else 365) :
    marchDate y (d + 1) = (marchDate y d).next := by
  have hDay : d + 1 < 366 := by
    split at h <;> omega
  obtain ⟨m, hm, hStart, hEnd, hDate⟩ := exists_inMonth (Nat.lt_of_succ_lt hDay)
  obtain ⟨m', hm', hStart', hEnd', hDate'⟩ := exists_inMonth hDay
  have hMonthEnd := monthEnd_inMonth hm y (d - (153 * m + 2) / 5 + 1)
  rw [hDate, hDate']
  obtain rfl | rfl : m' = m ∨ m' = m + 1 := by omega
  · rw [next_inMonth_of_lt, Nat.sub_add_comm hStart]
    rw [hMonthEnd]
    split
    · -- February has the day because the year is long enough
      split at h
      · next hLeap =>
        rw [if_pos hLeap]
        omega
      · next hLeap =>
        rw [if_neg hLeap]
        omega
    · omega
  · rw [next_inMonth_of_le (by omega)]
    · congr 1
      omega
    · rw [hMonthEnd, if_neg (by omega)]
      omega

theorem marchDate_last (h : d + 1 = if isLeapYear (y + 1) then 366 else 365) :
    (marchDate y d).next = marchDate (y + 1) 0 := by
  cases hLeap : isLeapYear (y + 1)
  · rw [hLeap] at h
    cases h
    simp [marchDate, inMonth, next, monthEnd, monthLength, hLeap]
  · rw [hLeap] at h
    cases h
    simp [marchDate, inMonth, next, monthEnd, monthLength, hLeap]

theorem ofDays_eq (n : Nat) : ofDays n =
    marchDate (marchYear (n + 719468)) (n + 719468 - marchStart (marchYear (n + 719468))) := by
  unfold ofDays
  generalize n + 719468 = s
  obtain ⟨e, c, g, y, d, h⟩ := exists_parts s
  have hYear := h.yearInEra
  unfold Date.yearInEra at hYear
  obtain ⟨-, hEra, hRest⟩ := h.rest
  have hStart : s - marchStart (400 * e + 100 * c + 4 * g + y) = d :=
    Nat.sub_eq_of_eq_add' h.marchStart.symm
  have hDay : s % 146097 - (365 * (100 * c + 4 * g + y) + (100 * c + 4 * g + y) / 4 -
      (100 * c + 4 * g + y) / 100) = d := by
    obtain ⟨-, hc, hg, hy, -⟩ := h
    have hFour : (100 * c + 4 * g + y) / 4 = 25 * c + g := by omega
    have hCentury : (100 * c + 4 * g + y) / 100 = c := by omega
    rw [hRest, hFour, hCentury]
    omega
  have hMonth : (5 * d + 2) / 153 ≤ 11 := by
    obtain ⟨-, -, -, -, hd⟩ := h
    omega
  simp only [hYear, hDay, hEra, h.marchYear, hStart, marchDate, inMonth, mk.injEq, and_true]
  -- January and February are in the year behind
  split
  · rw [if_neg (by omega)]
    omega
  · rw [if_pos (by omega)]
    omega

theorem ofDays_zero : ofDays 0 = ⟨1970, 1, 1⟩ := by decide

/-- The date of the next day is the next date. -/
theorem ofDays_succ (n : Nat) : ofDays (n + 1) = (ofDays n).next := by
  rw [ofDays_eq, ofDays_eq, Nat.add_right_comm]
  generalize n + 719468 = s
  obtain ⟨hStart, hEnd⟩ := marchYear_spec s
  have hLength := marchStart_succ (marchYear s)
  by_cases hMore : s + 1 < marchStart (marchYear s + 1)
  · have hSame : marchYear (s + 1) = marchYear s := marchYear_eq_iff.mpr ⟨by omega, hMore⟩
    rw [hSame, Nat.sub_add_comm hStart]
    exact marchDate_succ (by omega)
  · have hNext : marchStart (marchYear s + 1) = s + 1 := by omega
    have hYear : marchYear (s + 1) = marchYear s + 1 :=
      marchYear_eq_iff.mpr ⟨hNext.le, hNext ▸ strictMono_marchStart (Nat.lt_succ_self _)⟩
    rw [hYear, hNext, Nat.sub_self]
    exact (marchDate_last (by omega)).symm

/-- The date of a day is reached from the start of 1970 by going to the next date once a day. -/
theorem ofDays_eq_iterate (n : Nat) : ofDays n = next^[n] ⟨1970, 1, 1⟩ := by
  induction n with
  | zero => exact ofDays_zero
  | succ n ih => rw [ofDays_succ, ih, Function.iterate_succ_apply']

example : ofDays 11016 = ⟨2000, 2, 29⟩ := by decide
example : ofDays 47540 = ⟨2100, 2, 28⟩ ∧ ofDays 47541 = ⟨2100, 3, 1⟩ := by decide

theorem isValid_ofDays (n : Nat) : (ofDays n).IsValid := by
  induction n with
  | zero =>
    rw [ofDays_zero]
    exact ⟨by decide, by decide⟩
  | succ n ih =>
    rw [ofDays_succ]
    exact ih.next

end SeedScript.Log.Date
