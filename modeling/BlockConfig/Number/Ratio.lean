set_option autoImplicit false

/-!
Non-negative fractions, kept as they arise and never reduced, with the roundings to whole numbers
that the number formats are defined by.
-/

namespace BlockConfig

structure Ratio where
  num : Nat
  den : Nat

namespace Ratio

def ofNat (n : Nat) : Ratio := ⟨n, 1⟩

def scale (r : Ratio) (base : Nat) (power : Int) : Ratio :=
  ⟨r.num * base.pow power.toNat, r.den * base.pow (-power).toNat⟩

def divide (r s : Ratio) : Ratio := ⟨r.num * s.den, r.den * s.num⟩

def le (r s : Ratio) : Bool := r.num * s.den ≤ s.num * r.den

def lt (r s : Ratio) : Bool := r.num * s.den < s.num * r.den

def floor (r : Ratio) : Nat := r.num / r.den

/-- The nearest whole number; of two equally near ones the even one. -/
def roundEven (r : Ratio) : Nat :=
  let whole := r.num / r.den
  let twice := 2 * (r.num % r.den)
  if twice < r.den then whole
  else if r.den < twice then whole + 1
  else whole + whole % 2

def floorLog2 (r : Ratio) : Int :=
  let guess : Int := r.num.log2 - r.den.log2
  if (ofNat 1).le (r.scale 2 (-guess)) then guess else guess - 1

def floorLog10 (r : Ratio) : Int :=
  let guess : Int := (Nat.toDigits 10 r.num).length - (Nat.toDigits 10 r.den).length
  if (ofNat 1).le (r.scale 10 (-guess)) then guess else guess - 1

end Ratio
end BlockConfig
