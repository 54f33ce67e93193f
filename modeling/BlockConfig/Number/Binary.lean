import BlockConfig.Number.Integer
import BlockConfig.Number.Ratio

set_option autoImplicit false

/-!
Binary floating-point numbers of any format, as significand times a power of two. Every result is
the exact one rounded once, to the nearest number of the format and to an even significand where
two are equally near.
-/

namespace BlockConfig

/-- Digits of a significand, and the exponents of the least and the greatest unit. -/
structure Format where
  precision : Nat
  least : Int
  greatest : Int

namespace Format

def single : Format := ⟨24, -149, 104⟩

def double : Format := ⟨53, -1074, 971⟩

/-- Within the format, and in full digits unless the unit is the least one: so every number of the
format fits in one way only. -/
def Fits (f : Format) (significand : Nat) (exponent : Int) : Prop :=
  significand < Nat.pow 2 f.precision ∧ f.least ≤ exponent ∧ exponent ≤ f.greatest ∧
    (exponent = f.least ∨ Nat.pow 2 (f.precision - 1) ≤ significand)

instance (f : Format) (significand : Nat) (exponent : Int) :
    Decidable (f.Fits significand exponent) :=
  inferInstanceAs (Decidable (_ ∧ _ ∧ _ ∧ _))

end Format

structure Magnitude (f : Format) where
  significand : Nat
  exponent : Int
  fits : f.Fits significand exponent
  deriving DecidableEq

namespace Magnitude

def ratio {f : Format} (m : Magnitude f) : Ratio := (Ratio.ofNat m.significand).scale 2 m.exponent

def unitOf (f : Format) (r : Ratio) : Int :=
  if r.num = 0 then f.least else max f.least (r.floorLog2 - f.precision + 1)

def round? (f : Format) (r : Ratio) : Option (Magnitude f) :=
  let unit := unitOf f r
  let digits := (r.scale 2 (-unit)).roundEven
  let (significand, exponent) :=
    if digits = Nat.pow 2 f.precision then (Nat.pow 2 (f.precision - 1), unit + 1) else (digits, unit)
  if h : f.Fits significand exponent then some ⟨significand, exponent, h⟩ else none

end Magnitude

inductive Binary (f : Format) where
  | nan
  | infinite (negative : Bool)
  | finite (negative : Bool) (magnitude : Magnitude f)
  deriving DecidableEq

abbrev Single := Binary .single

abbrev Double := Binary .double

namespace Binary

variable {f : Format}

def ofRatio (f : Format) (negative : Bool) (r : Ratio) : Binary f :=
  match Magnitude.round? f r with
  | some m => .finite negative m
  | none => .infinite negative

def ofInt (f : Format) (n : Int) : Binary f := ofRatio f (n < 0) (.ofNat n.natAbs)

def convert (g : Format) : Binary f → Binary g
  | .nan => .nan
  | .infinite negative => .infinite negative
  | .finite negative m => ofRatio g negative m.ratio

/-- Equality of the language: NaN differs from itself, and zero has no sign. -/
def same : Binary f → Binary f → Bool
  | .finite s m, .finite t n => m == n && (s == t || m.significand == 0)
  | .infinite s, .infinite t => s == t
  | _, _ => false

def divide : Binary f → Binary f → Binary f
  | .nan, _ | _, .nan | .infinite _, .infinite _ => .nan
  | .infinite s, .finite t _ => .infinite (s ^^ t)
  | .finite s _, .infinite t => ofRatio f (s ^^ t) (.ofNat 0)
  | .finite s m, .finite t n =>
    if n.significand ≠ 0 then ofRatio f (s ^^ t) (m.ratio.divide n.ratio)
    else if m.significand ≠ 0 then .infinite (s ^^ t)
    else .nan

def floorInt64 : Binary f → Int64
  | .nan => 0
  | .infinite negative => if negative then .minValue else .maxValue
  | .finite negative m =>
    let n : Int := m.ratio.num
    clampInt64 (Int.fdiv (if negative then -n else n) m.ratio.den)

def truncate : Binary f → Int
  | .finite negative m => if negative then -(m.ratio.floor : Int) else m.ratio.floor
  | _ => 0

def toInt64 : Binary f → Int64
  | .nan => 0
  | .infinite negative => if negative then .minValue else .maxValue
  | x => clampInt64 x.truncate

def isFinite : Binary f → Bool
  | .finite _ _ => true
  | _ => false

end Binary
end BlockConfig
