import BlockConfig.Text.Basic

set_option autoImplicit false

namespace BlockConfig

/-- First and last code points of the runs of characters with the White_Space property. -/
def blankRanges : List (Nat × Nat) :=
  [(0x09, 0x0d), (0x20, 0x20), (0x85, 0x85), (0xa0, 0xa0), (0x1680, 0x1680), (0x2000, 0x200a),
    (0x2028, 0x2029), (0x202f, 0x202f), (0x205f, 0x205f), (0x3000, 0x3000)]

def isBlank (c : Char) : Bool := blankRanges.any fun r => r.1 ≤ c.toNat && c.toNat ≤ r.2

theorem isBlank_of_isWhitespace {c : Char} (h : c.isWhitespace = true) : isBlank c = true := by
  simp only [Char.isWhitespace, Bool.or_eq_true, decide_eq_true_eq] at h
  rcases h with (((h | h) | h) | h) <;> subst h <;> decide

namespace Text

def trimStart (t : Text) : Text := t.dropWhile isBlank

def trimEnd (t : Text) : Text := (t.reverse.dropWhile isBlank).reverse

def trim (t : Text) : Text := trimEnd (trimStart t)

@[simp] theorem trim_nil : trim [] = [] := rfl

theorem trimStart_of_head {c : Char} {rest : Text} (h : isBlank c = false) :
    trimStart (c :: rest) = c :: rest := by
  simp [trimStart, h]

theorem trimEnd_of_getLast {t : Text} (h : ∀ c ∈ t.getLast?, isBlank c = false) :
    trimEnd t = t := by
  rw [List.getLast?_eq_head?_reverse] at h
  unfold trimEnd
  rw [← List.reverse_inj, List.reverse_reverse]
  cases hr : t.reverse with
  | nil => rfl
  | cons c rest => simp_all

theorem trim_of_ends {t : Text} (hhead : ∀ c ∈ t.head?, isBlank c = false)
    (hlast : ∀ c ∈ t.getLast?, isBlank c = false) : t.trim = t := by
  have hstart : t.trimStart = t := by
    cases t with
    | nil => rfl
    | cons c rest => exact trimStart_of_head (hhead c rfl)
  rw [trim, hstart, trimEnd_of_getLast hlast]

theorem trim_of_solid {t : Text} (h : ∀ c ∈ t, isBlank c = false) : t.trim = t :=
  trim_of_ends (fun c hc => h c (List.mem_of_head? hc)) fun c hc => h c (List.mem_of_getLast? hc)

theorem trim_wrap {first last : Char} (hfirst : isBlank first = false)
    (hlast : isBlank last = false) (t : Text) :
    trim (first :: (t ++ [last])) = first :: (t ++ [last]) := by
  refine trim_of_ends (by simpa using hfirst) ?_
  rw [← List.cons_append, List.getLast?_concat]
  simpa using hlast

theorem exists_eq_trim (t : Text) : ∃ left right : Text,
    t = left ++ trim t ++ right ∧ left.all isBlank = true ∧ right.all isBlank = true := by
  refine ⟨t.takeWhile isBlank, ((trimStart t).reverse.takeWhile isBlank).reverse, ?_, ?_, ?_⟩
  · have h := List.takeWhile_append_dropWhile (p := isBlank) (l := (trimStart t).reverse)
    have h' : trimStart t = trim t ++ ((trimStart t).reverse.takeWhile isBlank).reverse := by
      have hr := congrArg List.reverse h
      rw [List.reverse_append, List.reverse_reverse] at hr
      exact hr.symm
    calc t = t.takeWhile isBlank ++ trimStart t := (List.takeWhile_append_dropWhile).symm
      _ = _ := by rw [List.append_assoc, ← h']
  · simp
  · rw [List.all_reverse]
    simp

end Text
end BlockConfig
