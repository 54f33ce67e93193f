import BlockConfig.Text.Basic
import BlockConfig.Text.CaseTable

set_option autoImplicit false

/-!
Upper and lower case of text. One character may become several, and a capital sigma becomes the
final form where it ends a word.
-/

namespace BlockConfig

def inRanges (ranges : List (Nat × Nat)) (c : Char) : Bool :=
  ranges.any fun r => r.1 ≤ c.toNat && c.toNat ≤ r.2

def isCased (c : Char) : Bool := inRanges casedRanges c

def isCaseIgnorable (c : Char) : Bool := inRanges caseIgnorableRanges c

def mapCase (expansions : List (Nat × List Nat)) (runs : List CaseRun) (c : Char) : Text :=
  match expansions.lookup c.toNat with
  | some targets => targets.map Char.ofNat
  | none =>
    match runs.find? (CaseRun.covers · c.toNat) with
    | some run => [Char.ofNat (run.map c.toNat)]
    | none => [c]

def upperChar (c : Char) : Text :=
  if c.toNat < 128 then [c.toUpper] else mapCase upperExpansions upperRuns c

def lowerChar (c : Char) : Text :=
  if c.toNat < 128 then [c.toLower] else mapCase lowerExpansions lowerRuns c

/-- Whether a walk from a place meets a cased character, case-ignorable ones passed over. -/
def meetsCased (walk : Text) : Bool :=
  match walk.dropWhile isCaseIgnorable with
  | c :: _ => isCased c
  | [] => false

namespace Text

def upper (t : Text) : Text := t.flatMap upperChar

/-- Lower case of what follows `before`, which is given last character first. -/
def lowerFrom (before : Text) : Text → Text
  | [] => []
  | c :: rest =>
    let image :=
      if c = 'Σ' then [if meetsCased before && !meetsCased rest then 'ς' else 'σ']
      else lowerChar c
    image ++ lowerFrom (c :: before) rest

def lower (t : Text) : Text := lowerFrom [] t

theorem lowerFrom_ascii (before : Text) {t : Text} (h : ∀ c ∈ t, c.toNat < 128) :
    lowerFrom before t = t.map Char.toLower := by
  induction t generalizing before with
  | nil => rfl
  | cons c rest ih =>
    have hc : c.toNat < 128 := h c (by simp)
    have hs : c ≠ 'Σ' := by
      intro he
      subst he
      revert hc
      decide
    simp [lowerFrom, hs, lowerChar, hc, ih (c :: before) fun d hd => h d (by simp [hd])]

theorem lower_ascii {t : Text} (h : ∀ c ∈ t, c.toNat < 128) : t.lower = t.map Char.toLower :=
  lowerFrom_ascii [] h

end Text
end BlockConfig
