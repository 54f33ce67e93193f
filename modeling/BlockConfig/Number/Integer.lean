import BlockConfig.Text.Basic

set_option autoImplicit false

namespace BlockConfig

namespace Text

def ofNat (n : Nat) : Text := Nat.toDigits 10 n

def ofInt (n : Int) : Text :=
  if n < 0 then '-' :: ofNat n.natAbs else ofNat n.natAbs

def isDigits (t : Text) : Bool := !t.isEmpty && t.all Char.isDigit

def toNat? (t : Text) : Option Nat :=
  if t.isDigits then some (Nat.ofDigitChars 10 t 0) else none

/-- A sign, if there is one, and the rest: `true` for a minus. -/
def takeSign : Text → Bool × Text
  | '-' :: rest => (true, rest)
  | '+' :: rest => (false, rest)
  | t => (false, t)

def toInt? (t : Text) : Option Int :=
  let (negative, digits) := t.takeSign
  digits.toNat?.map fun n => if negative then -(n : Int) else n

theorem all_isDigit {t : Text} (h : t.isDigits = true) : t.all Char.isDigit = true :=
  (Bool.and_eq_true_iff.1 h).2

@[simp] theorem isDigits_ofNat (n : Nat) : (ofNat n).isDigits = true := by
  have hne : (ofNat n).isEmpty = false := by simp [ofNat]
  have hall : (ofNat n).all Char.isDigit = true := by
    rw [List.all_eq_true]
    intro c hc
    exact Nat.isDigit_of_mem_toDigits (by decide) (by decide) hc
  simp [isDigits, hne, hall]

@[simp] theorem toNat?_ofNat (n : Nat) : (ofNat n).toNat? = some n := by
  rw [toNat?, if_pos (isDigits_ofNat n), ofNat, Nat.ofDigitChars_ten_toDigits]

theorem takeSign_of_isDigits {t : Text} (h : t.isDigits = true) : t.takeSign = (false, t) := by
  unfold takeSign
  split
  · simp [isDigits] at h
  · simp [isDigits] at h
  · rfl

@[simp] theorem toInt?_ofInt (n : Int) : (ofInt n).toInt? = some n := by
  unfold ofInt
  split
  · have habs : -(n.natAbs : Int) = n := by omega
    simp only [toInt?, takeSign, toNat?_ofNat]
    exact congrArg some habs
  · have habs : (n.natAbs : Int) = n := by omega
    simp only [toInt?, takeSign_of_isDigits (isDigits_ofNat _), toNat?_ofNat]
    exact congrArg some habs

end Text

def fitsInt64 (n : Int) : Bool := Int64.minValue.toInt ≤ n && n ≤ Int64.maxValue.toInt

def clampInt64 (n : Int) : Int64 :=
  if n < Int64.minValue.toInt then .minValue
  else if Int64.maxValue.toInt < n then .maxValue
  else .ofInt n

def Text.toInt64? (t : Text) : Option Int64 :=
  t.toInt?.bind fun n => if fitsInt64 n then some (.ofInt n) else none

def Text.ofInt64 (n : Int64) : Text := .ofInt n.toInt

@[simp] theorem Text.toInt64?_ofInt64 (n : Int64) : (ofInt64 n).toInt64? = some n := by
  have h : fitsInt64 n.toInt = true := by
    rw [fitsInt64, Bool.and_eq_true, decide_eq_true_eq, decide_eq_true_eq]
    exact ⟨n.minValue_le_toInt, n.toInt_le⟩
  simp [toInt64?, ofInt64, h]

end BlockConfig
