import Mathlib.Algebra.GroupWithZero.Nat
import Mathlib.Data.Int.Basic
import TradingCore.Base.Text

/-!
# Times in ISO notation

A text in ISO notation as `datetime.fromisoformat(text.replace("Z", "+00:00"))` reads it (the
extended format), and the instant that it denotes, in microseconds since the first day of year
1 in Greenwich. A text without an offset denotes a time of Greenwich.

* `parseIso` — what a text reads;
* `DateTime.instant` — the instant it denotes;
* `utc?`, `localDate?` — what an instant is in Greenwich and elsewhere, if a calendar of four
  digit years has it;
* `minuteOfDay`, `clockText` — the time of the day and how it is written.
-/

namespace Base

/-- A date and a time of the day, `offset` microseconds ahead of Greenwich. -/
structure DateTime where
  year : Nat
  month : Nat
  day : Nat
  hour : Nat := 0
  minute : Nat := 0
  second : Nat := 0
  microsecond : Nat := 0
  offset : Option Int := none
deriving DecidableEq

/-! ## The calendar -/

def leapYear (year : Nat) : Bool := year % 4 = 0 ∧ (year % 100 ≠ 0 ∨ year % 400 = 0)

def daysInMonth (year month : Nat) : Nat :=
  if month = 2 then if leapYear year then 29 else 28
  else if month ∈ [4, 6, 9, 11] then 30 else 31

/-- The days before a date, counted from the first day of year 1. -/
def daysBefore (year month day : Nat) : Nat :=
  365 * (year - 1) + (year - 1) / 4 - (year - 1) / 100 + (year - 1) / 400 +
    ((List.range' 1 (month - 1)).map (daysInMonth year)).sum + (day - 1)

/-- The month and the day of the month of the day `n` of the months that are left. -/
def monthDay (year : Nat) : List Nat → Nat → Nat × Nat
  | [], n => (12, n + 1)
  | month :: months, n =>
      if n < daysInMonth year month then (month, n + 1)
      else monthDay year months (n - daysInMonth year month)

/-- The date `n` days after the first day of year 1. -/
def dateOf (n : Nat) : Nat × Nat × Nat :=
  let (cycle, n) := (n / 146097, n % 146097)
  let (century, n) := (n / 36524, n % 36524)
  let (leap, n) := (n / 1461, n % 1461)
  let (single, n) := (n / 365, n % 365)
  let year := 400 * cycle + 100 * century + 4 * leap + single + 1
  if single = 4 ∨ century = 4 then (year - 1, 12, 31)
  else (year, monthDay year (List.range' 1 12) n)

/-- `date.isoformat()`. -/
def dateText (date : Nat × Nat × Nat) : String :=
  Text.zfill 4 (toString date.1) ++ "-" ++ Text.zfill 2 (toString date.2.1) ++ "-" ++
    Text.zfill 2 (toString date.2.2)

/-! ## Reading -/

def digit? (c : Char) : Option Nat := if c.isDigit then some (c.toNat - '0'.toNat) else none

def twoDigits? (a b : Char) : Option Nat := do
  let tens ← digit? a
  let ones ← digit? b
  some (10 * tens + ones)

/-- A fraction of a second in microseconds, and what follows. -/
def parseFraction : List Char → Option (Nat × List Char)
  | '.' :: rest =>
      let digits := (rest.takeWhile Char.isDigit).take 6
      if digits = [] then none
      else some ((digits ++ List.replicate (6 - digits.length) '0').foldl
        (fun n c => 10 * n + (c.toNat - '0'.toNat)) 0, rest.dropWhile Char.isDigit)
  | rest => some (0, rest)

def parseSeconds : List Char → Option ((Nat × Nat) × List Char)
  | ':' :: a :: b :: rest => do
      let second ← twoDigits? a b
      let (microsecond, rest) ← parseFraction rest
      if second < 60 then some ((second, microsecond), rest) else none
  | rest => some ((0, 0), rest)

def parseDate : List Char → Option (DateTime × List Char)
  | y₁ :: y₂ :: y₃ :: y₄ :: '-' :: m₁ :: m₂ :: '-' :: d₁ :: d₂ :: rest => do
      let century ← twoDigits? y₁ y₂
      let year ← twoDigits? y₃ y₄
      let year := 100 * century + year
      let month ← twoDigits? m₁ m₂
      let day ← twoDigits? d₁ d₂
      if 1 ≤ year ∧ 1 ≤ month ∧ month ≤ 12 ∧ 1 ≤ day ∧ day ≤ daysInMonth year month then
        some ({ year, month, day }, rest)
      else none
  | _ => none

def parseMinutes : List Char → Option ((Nat × Nat) × List Char)
  | h₁ :: h₂ :: ':' :: m₁ :: m₂ :: rest => do
      let hour ← twoDigits? h₁ h₂
      let minute ← twoDigits? m₁ m₂
      if hour < 24 ∧ minute < 60 then some ((hour, minute), rest) else none
  | h₁ :: h₂ :: rest => do
      let hour ← twoDigits? h₁ h₂
      if hour < 24 then some ((hour, 0), rest) else none
  | _ => none

def parseOffsetEnd (sign : Int) (hour minute : Nat) (rest : List Char) : Option (Option Int) := do
  let ((second, microsecond), rest) ← parseSeconds rest
  if rest = [] ∧ hour < 24 ∧ minute < 60 then
    some (some (sign * (((hour * 60 + minute) * 60 + second) * 1000000 + microsecond : Nat)))
  else none

def parseOffset : List Char → Option (Option Int)
  | [] => some none
  | 'Z' :: rest => parseOffsetEnd 1 0 0 rest
  | sign :: h₁ :: h₂ :: ':' :: m₁ :: m₂ :: rest => do
      let hour ← twoDigits? h₁ h₂
      let minute ← twoDigits? m₁ m₂
      if sign = '+' then parseOffsetEnd 1 hour minute rest
      else if sign = '-' then parseOffsetEnd (-1) hour minute rest
      else none
  | _ => none

/-- `datetime.fromisoformat(text.replace("Z", "+00:00"))`, `none` if it raises `ValueError`. -/
def parseIso (text : String) : Option DateTime := do
  let (date, rest) ← parseDate text.toList
  match rest with
  | [] => some date
  | _ :: rest =>
      let ((hour, minute), rest) ← parseMinutes rest
      let ((second, microsecond), rest) ← parseSeconds rest
      let offset ← parseOffset rest
      some { date with hour, minute, second, microsecond, offset }

/-! ## Instants -/

def DateTime.instant (d : DateTime) : Int :=
  ((((daysBefore d.year d.month d.day * 24 + d.hour) * 60 + d.minute) * 60 + d.second) * 1000000 +
    d.microsecond : Nat) - d.offset.getD 0

def dayLength : Int := 86400000000

def hasDate (instant : Int) : Bool := 0 ≤ instant ∧ instant < 3652059 * dayLength

/-- `astimezone(timezone.utc)`, `none` if it raises `OverflowError`. -/
def utc? (instant : Int) : Option Int := if hasDate instant then some instant else none

/-- The date of an instant where clocks are `offset` ahead of Greenwich, `none` if the calendar
has no such date. -/
def localDate? (offset instant : Int) : Option String :=
  if hasDate instant ∧ hasDate (instant + offset) then
    some (dateText (dateOf ((instant + offset) / dayLength).toNat))
  else none

def minuteOfDay (instant : Int) : Nat := ((instant / 60000000) % 1440).toNat

/-- A minute of the day as `HH:MM`. -/
def clockText (minute : Nat) : List Char :=
  [Nat.digitChar (minute / 60 / 10), Nat.digitChar (minute / 60 % 10), ':',
    Nat.digitChar (minute % 60 / 10), Nat.digitChar (minute % 60 % 10)]

/-- Are texts in the order of their characters, as `<=` compares them? -/
def textLe : List Char → List Char → Bool
  | [], _ => true
  | _ :: _, [] => false
  | a :: as, b :: bs => if a = b then textLe as bs else a < b

/-! ## The order of texts -/

theorem textLe_cons_iff {a b : Char} {as bs : List Char} :
    textLe (a :: as) (b :: bs) = true ↔ a < b ∨ a = b ∧ textLe as bs = true := by
  rw [textLe]
  split
  · next heq =>
      subst heq
      simp [Char.lt_irrefl]
  · next hne => simp [hne]

theorem textLe_trans {a b c : List Char} (hab : textLe a b = true) (hbc : textLe b c = true) :
    textLe a c = true := by
  induction a generalizing b c with
  | nil => rfl
  | cons x a ih =>
    cases b with
    | nil => cases hab
    | cons y b =>
      cases c with
      | nil => cases hbc
      | cons z c =>
        rw [textLe_cons_iff] at hab hbc ⊢
        rcases hab with hxy | ⟨rfl, hab⟩
        · rcases hbc with hyz | ⟨rfl, -⟩
          · exact .inl (Char.lt_trans hxy hyz)
          · exact .inl hxy
        · rcases hbc with hyz | ⟨rfl, hbc⟩
          · exact .inl hyz
          · exact .inr ⟨rfl, ih hab hbc⟩

theorem digitChar_eq_iff : ∀ a < 10, ∀ b < 10, Nat.digitChar a = Nat.digitChar b ↔ a = b := by
  decide

theorem digitChar_lt_iff : ∀ a < 10, ∀ b < 10, Nat.digitChar a < Nat.digitChar b ↔ a < b := by
  decide

theorem textLe_clockText_iff {m n : Nat} (hm : m < 1440) (hn : n < 1440) :
    textLe (clockText m) (clockText n) = true ↔ m ≤ n := by
  have heq := fun a b (ha : a < 10) (hb : b < 10) => digitChar_eq_iff a ha b hb
  have hlt := fun a b (ha : a < 10) (hb : b < 10) => digitChar_lt_iff a ha b hb
  have h₁ := heq (m / 60 / 10) (n / 60 / 10) (by omega) (by omega)
  have h₂ := heq (m / 60 % 10) (n / 60 % 10) (by omega) (by omega)
  have h₃ := heq (m % 60 / 10) (n % 60 / 10) (by omega) (by omega)
  have h₄ := heq (m % 60 % 10) (n % 60 % 10) (by omega) (by omega)
  have l₁ := hlt (m / 60 / 10) (n / 60 / 10) (by omega) (by omega)
  have l₂ := hlt (m / 60 % 10) (n / 60 % 10) (by omega) (by omega)
  have l₃ := hlt (m % 60 / 10) (n % 60 / 10) (by omega) (by omega)
  have l₄ := hlt (m % 60 % 10) (n % 60 % 10) (by omega) (by omega)
  unfold clockText
  simp only [textLe, h₁, h₂, h₃, h₄, l₁, l₂, l₃, l₄, if_true]
  split
  · split
    · split
      · split
        · simp only [true_iff]
          omega
        · simp only [decide_eq_true_eq]
          omega
      · simp only [decide_eq_true_eq]
        omega
    · simp only [decide_eq_true_eq]
      omega
  · simp only [decide_eq_true_eq]
    omega

end Base
