/-! # ECMAScript numbers as far as range checks look at them -/

namespace Library

inductive JsNumber
  | finite (value : Rat)
  | infinity (positive : Bool)
  | nan
  deriving DecidableEq

namespace JsNumber

/-- `Number.isFinite` -/
def isFinite : JsNumber → Bool
  | finite _ => true
  | _ => false

/-- `Number.isInteger` -/
def isInteger : JsNumber → Bool
  | finite q => q.den = 1
  | _ => false

/-- `x <= 0`; every comparison with `NaN` is false. -/
def isNonPositive : JsNumber → Bool
  | finite q => q.num ≤ 0
  | infinity positive => !positive
  | nan => false

def toRat : JsNumber → Rat
  | finite q => q
  | _ => 0

def toNat : JsNumber → Nat
  | finite q => q.num.toNat
  | _ => 0

theorem toNat_pos {x : JsNumber} (hInteger : x.isInteger = true) (hPositive : x.isNonPositive = false) : 0 < x.toNat := by
  cases x with
  | finite q =>
    simp only [isNonPositive, decide_eq_false_iff_not] at hPositive
    simp only [toNat]
    omega
  | infinity positive => cases hInteger
  | nan => cases hInteger

end JsNumber

end Library
