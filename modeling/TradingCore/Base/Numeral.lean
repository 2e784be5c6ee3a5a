import Mathlib.Data.Rat.Floor
import TradingCore.Base.Text
import TradingCore.Base.Value

/-!
# Numbers in texts and values

What `float` and `int` read from a text and from a dynamically typed value. Numbers are exact;
`inf` and `nan` are no numbers.
-/

namespace Base

open Text

namespace Text

/-- The underscores that stand between two digits removed. -/
def dropSeparators : List Char → List Char
  | c :: '_' :: d :: rest =>
      if c.isDigit ∧ d.isDigit then c :: dropSeparators (d :: rest)
      else c :: dropSeparators ('_' :: d :: rest)
  | c :: rest => c :: dropSeparators rest
  | [] => []

def sign : List Char → Bool × List Char
  | '-' :: rest => (true, rest)
  | '+' :: rest => (false, rest)
  | text => (false, text)

def digitsValue (digits : List Char) : Nat :=
  digits.foldl (fun n c => 10 * n + (c.toNat - '0'.toNat)) 0

def signedDigits? (text : List Char) : Option Int :=
  let (negative, digits) := sign text
  if digits = [] ∨ ¬ digits.all Char.isDigit then none
  else some (if negative then -digitsValue digits else digitsValue digits)

/-- `int(s)`, `none` if it raises an error. -/
def integer? (s : String) : Option Int := signedDigits? (dropSeparators (strip s).toList)

def exponent? : List Char → Option Int
  | [] => some 0
  | c :: rest => if c = 'e' ∨ c = 'E' then signedDigits? rest else none

/-- `float(s)` of a text that is no `inf` or `nan`, `none` if it raises an error. -/
def decimal? (s : String) : Option Rat :=
  let (negative, text) := sign (dropSeparators (strip s).toList)
  let whole := text.takeWhile Char.isDigit
  let (fraction, rest) :=
    match text.dropWhile Char.isDigit with
    | '.' :: rest => (rest.takeWhile Char.isDigit, rest.dropWhile Char.isDigit)
    | rest => ([], rest)
  if whole ++ fraction = [] then none
  else
    (exponent? rest).map fun e =>
      (if negative then -1 else 1) * (digitsValue (whole ++ fraction) : Rat) *
        (10 : Rat) ^ (e - (fraction.length : Int))

end Text

/-- `int(x)` of a number: its part before the point. -/
def truncate (x : Rat) : Int := if 0 ≤ x then ⌊x⌋ else ⌈x⌉

namespace Value

/-- `float(value)`, `none` if it raises an error. -/
def float? : Value → Option Rat
  | none => .none
  | bool b => some (if b then 1 else 0)
  | int n => some n
  | str s => decimal? s
  | other t _ => decimal? t

/-- `int(value)`, `none` if it raises an error. -/
def int? : Value → Option Int
  | none => .none
  | bool b => some (if b then 1 else 0)
  | int n => some n
  | str s => integer? s
  | other t _ => (decimal? t).map truncate

end Value

example : decimal? " -1_000.50e1 " = some (-10005) := by decide +kernel
example : decimal? ".5" = some (1 / 2) := by decide +kernel
example : decimal? "1_" = none := by decide +kernel

end Base
