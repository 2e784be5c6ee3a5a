import TradingCore.Base.Dict

/-!
# Dynamically typed values

What a program that only formats and tests its dynamically typed data can see
of it: the text of a value and whether it counts as true. Numbers other than
integers, and containers, appear as `other`, known by these two observations.
-/

namespace Base

/-- A dynamically typed value. -/
inductive Value
  | none
  | bool (b : Bool)
  | int (n : Int)
  | str (s : String)
  | other (text : String) (truthy : Bool)
deriving DecidableEq

namespace Value

def truthy : Value → Bool
  | none => false
  | bool b => b
  | int n => n ≠ 0
  | str s => s ≠ ""
  | other _ t => t

/-- The value as `str` prints it. -/
def text : Value → String
  | none => "None"
  | bool true => "True"
  | bool false => "False"
  | int n => toString n
  | str s => s
  | other t _ => t

/-- `a or b`: the first operand if it counts as true, else the second. -/
def or (a b : Value) : Value := if a.truthy then a else b

end Value

abbrev Mapping := Dict String Value

namespace Mapping

/-- The value under `key`, `none` if there is no such key. -/
def value (m : Mapping) (key : String) : Value := m.getD key .none

/-- The text of the value under `key`, the empty text if there is no such key. -/
def text (m : Mapping) (key : String) : String := (m.getD key (.str "")).text

/-- `str(m.get(key) or "")`. -/
def textOr (m : Mapping) (key : String) : String := ((m.value key).or (.str "")).text

end Mapping

end Base
