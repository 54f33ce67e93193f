import BlockConfig.Proofs.Evaluation.Projection
import BlockConfig.Proofs.Reread.Scalar

set_option autoImplicit false

/-!
Two operands with an operator between them. No operand has a character of the operator, so that the
operator is found where it was written and the text falls into the two operands again.
-/

namespace BlockConfig

namespace Text

theorem contains_append_front {needle front : Text} (hne : needle ≠ [])
    (hfront : ∀ c ∈ needle, c ∉ front) (t : Text) :
    (front ++ t).contains needle = t.contains needle := by
  induction front with
  | nil => rfl
  | cons c rest ih =>
    cases needle with
    | nil => exact absurd rfl hne
    | cons d needle =>
      have hd : d ≠ c := fun e => hfront d List.mem_cons_self (by simp [e])
      have hrest : ∀ x ∈ d :: needle, x ∉ rest := fun x hx hmem =>
        hfront x hx (List.mem_cons_of_mem c hmem)
      rw [List.cons_append, contains, ih hrest]
      simp [hd]

theorem contains_append_back {needle back : Text} (hne : needle ≠ [])
    (hback : ∀ c ∈ needle, c ∉ back) (t : Text) :
    (t ++ back).contains needle = t.contains needle := by
  rw [Bool.eq_iff_iff, contains_iff, contains_iff]
  exact ⟨fun h => infix_of_infix_append h hne hback,
    fun h => h.trans (List.prefix_append t back).isInfix⟩

theorem isPrefixOf_append_cons {needle : Text} {mark : Char} (h : mark ∉ needle) (s t : Text) :
    needle.isPrefixOf (s ++ mark :: t) = needle.isPrefixOf s := by
  induction s generalizing needle with
  | nil =>
    cases needle with
    | nil => rfl
    | cons d more =>
      simp only [List.mem_cons, not_or] at h
      simp [List.isPrefixOf, Ne.symm h.1]
  | cons c rest ih =>
    cases needle with
    | nil => rfl
    | cons d more =>
      simp only [List.mem_cons, not_or] at h
      simp [List.isPrefixOf, ih h.2]

theorem contains_append_cons {needle : Text} {mark : Char} (h : mark ∉ needle) (s t : Text) :
    (s ++ mark :: t).contains needle = (s.contains needle || t.contains needle) := by
  induction s with
  | nil =>
    have hprefix := isPrefixOf_append_cons h [] t
    rw [List.nil_append] at hprefix
    rw [List.nil_append, contains, contains, hprefix]
    cases needle <;> rfl
  | cons c rest ih =>
    have hprefix := isPrefixOf_append_cons h (c :: rest) t
    rw [List.cons_append] at hprefix
    rw [List.cons_append, contains, contains, hprefix, ih, Bool.or_assoc]

theorem cut?_append_needle {front : Text} {mark : Char} (h : mark ∉ front) (needle back : Text) :
    (front ++ mark :: needle ++ back).cut? (mark :: needle) = some (front, back) := by
  have hthere : cut? (mark :: needle ++ back) (mark :: needle) = some ([], back) := by simp [cut?]
  rw [List.append_assoc, cut?_append_front h, hthere]
  simp

def isOperandChar (c : Char) : Bool := isNumberChar c || c == '_'

theorem isBlank_of_isOperandChar {c : Char} (h : isOperandChar c = true) : isBlank c = false := by
  unfold isOperandChar isNumberChar at h
  simp only [Bool.or_eq_true, List.contains_iff_mem, List.mem_cons, List.not_mem_nil, or_false,
    beq_iff_eq] at h
  obtain (h | rfl | rfl | rfl | rfl) | rfl := h
  · exact isBlank_of_isWordChar (by simp [isWordChar, h])
  all_goals decide

theorem isQuote_of_isOperandChar {c : Char} (h : isOperandChar c = true) : isQuote c = false := by
  rw [Bool.eq_false_iff]
  intro hquote
  obtain rfl | rfl : c = '"' ∨ c = '\'' := by simpa [isQuote] using hquote
  all_goals exact absurd h (by decide)

structure IsOperand (t : Text) : Prop where
  ne_nil : t ≠ []
  all_chars : t.all isOperandChar = true
  not_if : t ≠ "if"
  not_for : t ≠ "for"

namespace IsOperand

variable {t : Text}

theorem solid (h : t.IsOperand) : ∀ c ∈ t, isBlank c = false := fun c hc =>
  isBlank_of_isOperandChar (List.all_eq_true.1 h.all_chars c hc)

theorem exists_eq_cons (h : t.IsOperand) : ∃ c rest, t = c :: rest ∧ isOperandChar c = true := by
  obtain ⟨c, rest, rfl⟩ := List.exists_cons_of_ne_nil h.ne_nil
  exact ⟨c, rest, rfl, List.all_eq_true.1 h.all_chars c List.mem_cons_self⟩

end IsOperand

/-- Whether a text has none of the characters of a needle, and the needle nothing blank. -/
def Apart (needle t : Text) : Prop := ∀ c ∈ needle, isBlank c = false ∧ c ∉ t

theorem apart_of_all {p : Char → Bool} {needle t : Text} (ht : t.all p = true)
    (hneedle : needle.all (fun c => !isBlank c && !p c) = true) : Apart needle t := by
  intro c hc
  have hmark := List.all_eq_true.1 hneedle c hc
  simp only [Bool.and_eq_true, Bool.not_eq_true'] at hmark
  exact ⟨hmark.1, not_mem_of_all ht hmark.2⟩

def spaced (t token u : Text) : Text := t ++ ' ' :: (token ++ ' ' :: u)

section Spaced

variable {t token u : Text}

theorem Apart.not_mem_space {needle : Text} (h : Apart needle t) :
    ∀ c ∈ needle, c ∉ t ++ [' '] ∧ c ∉ ' ' :: t := by
  intro c hc
  have hspace : c ≠ ' ' := by
    rintro rfl
    exact absurd (h _ hc).1 (by decide)
  simp [hspace, (h c hc).2]

/-- What is not made of the characters of operands stands in the token or nowhere. -/
theorem contains_spaced {needle : Text} (hne : needle ≠ []) (ht : Apart needle t)
    (hu : Apart needle u) : (spaced t token u).contains needle = token.contains needle := by
  have hsplit : spaced t token u = (t ++ [' ']) ++ (token ++ ' ' :: u) := by simp [spaced]
  rw [hsplit, contains_append_front hne fun c hc => (ht.not_mem_space c hc).1,
    contains_append_back hne fun c hc => (hu.not_mem_space c hc).2]

theorem containsAny_spaced {needles : List Text} (h : token ∈ needles) :
    (spaced t token u).containsAny needles = true :=
  (containsAny_iff _ _).2 ⟨token, h, t ++ [' '], ' ' :: u, by simp [spaced]⟩

variable (ht : t.IsOperand) (hu : u.IsOperand)

include ht hu

theorem trim_spaced : (spaced t token u).trim = spaced t token u := by
  obtain ⟨c, rest, rfl, hc⟩ := ht.exists_eq_cons
  refine trim_of_ends (by simpa [spaced] using isBlank_of_isOperandChar hc) fun d hd => ?_
  have hlast : (spaced (c :: rest) token u).getLast? = u.getLast? := by
    obtain ⟨e, more, rfl, -⟩ := hu.exists_eq_cons
    have hsplit : spaced (c :: rest) token (e :: more) =
        (c :: rest ++ ' ' :: (token ++ [' '])) ++ (e :: more) := by simp [spaced]
    rw [hsplit, List.getLast?_append_of_ne_nil _ (List.cons_ne_nil e more)]
  exact hu.solid d (List.mem_of_getLast? (hlast ▸ hd))

theorem operandsAt_spaced (hne : token ≠ []) (htoken : Apart token t) :
    operandsAt token (spaced t token u) = (t, u) := by
  obtain ⟨mark, more, rfl⟩ := List.exists_cons_of_ne_nil hne
  have hmark : mark ∉ t ++ [' '] := (htoken.not_mem_space mark List.mem_cons_self).1
  have hsplit : spaced t (mark :: more) u = (t ++ [' ']) ++ mark :: more ++ ' ' :: u := by
    simp [spaced]
  have hleft : (t ++ [' ']).trim = t := by
    rw [trim_append_blank (by decide), trim_of_solid ht.solid]
  have hright : trim (' ' :: u) = u := by
    have hspace : ([' '] : Text).all isBlank = true := by decide
    have hprepend := trim_prepend_blank hspace u
    rw [List.singleton_append] at hprepend
    rw [hprepend, trim_of_solid hu.solid]
  rw [operandsAt, hsplit, cut?_append_needle hmark]
  simp only [hleft, hright]

omit hu

theorem keywordBody?_spaced {keyword : Text}
    (hkeyword : keyword.all (fun c => !isBlank c) = true) (hne : t ≠ keyword) :
    keywordBody? keyword (spaced t token u) = none := by
  rw [Option.eq_none_iff_forall_ne_some]
  intro body hbody
  obtain ⟨heq, c, rest, rfl, hc⟩ := keywordBody?_eq_some_iff.1 hbody
  -- up to the first blank, one side is the operand and the other the keyword
  have hsolid := congrArg (List.takeWhile fun c => !isBlank c) heq
  have hspace : isBlank ' ' = true := by decide
  rw [spaced, List.takeWhile_append_of_pos (by simpa using ht.solid),
    List.takeWhile_append_of_pos (by simpa using hkeyword)] at hsolid
  simp only [List.takeWhile_cons, hspace, hc] at hsolid
  exact hne (by simpa using hsolid)

theorem isQuoted_spaced : (spaced t token u).isQuoted = false := by
  obtain ⟨c, rest, rfl, hc⟩ := ht.exists_eq_cons
  have hquote := isQuote_of_isOperandChar hc
  cases rest with
  | nil => simp [spaced, isQuoted, hquote]
  | cons d rest => simp [spaced, isQuoted, hquote]

theorem isBracketed_spaced : isBracketed (spaced t token u) = false := by
  obtain ⟨c, rest, rfl, hc⟩ := ht.exists_eq_cons
  have hbracket : c ≠ '[' := by
    rintro rfl
    exact absurd hc (by decide)
  simp [spaced, isBracketed, hbracket]

end Spaced

end Text

theorem toInt64?_eq_none_of_mem {t : Text} {c : Char} (h : c ∈ t) (hc : isNumberChar c = false) :
    t.toInt64? = none := by
  have hread : t.toInt? = none := by
    rw [← Option.not_isSome_iff_eq_none]
    exact fun hsome => not_mem_of_all (isNumberChar_of_toInt? hsome) hc h
  rw [Text.toInt64?, hread, Option.bind_none]

section Unread

variable {t : Text} {scope : Scope}

theorem Scope.operand_of_unread (hread : t.toInt64? = none) (hfree : scope.find? t = none)
    (truncating : Bool) (expression : Text) :
    scope.operand truncating expression t = .error (.unknownReference t expression) := by
  simp [operand, hread, hfree]

theorem compare_of_unread {c : Comparator} (hselect : Comparator.select? t = some c)
    (hread : (operandsAt c.token t).1.toInt64? = none)
    (hfree : scope.find? (operandsAt c.token t).1 = none) :
    compare t scope = .error (.unknownReference (operandsAt c.token t).1 t) := by
  rw [compare, hselect]
  simp only [Scope.operand_of_unread hread hfree]
  rfl

theorem calculate_of_unread {o : Operator} (hselect : Operator.select? t = some o)
    (hread : (operandsAt o.token t).1.toInt64? = none)
    (hfree : scope.find? (operandsAt o.token t).1 = none) :
    calculate t scope = .error (.unknownReference (operandsAt o.token t).1 t) := by
  rw [calculate, hselect]
  simp only [Scope.operand_of_unread hread hfree]
  rfl

end Unread

theorem evaluateAttribute_spaced {t token u : Text} (ht : t.IsOperand) (hu : u.IsOperand)
    {form : Form} (hform : classify (Text.spaced t token u) = .ok form) (harray : form ≠ .array)
    (scope : Scope) :
    evaluateAttribute (Text.spaced t token u) scope =
      ((evaluateAs form (Text.spaced t token u) scope).map fun s => ⟨[], s.kind, .scalar s⟩,
        scope) := by
  have hif : keywordBody? "if" (Text.spaced t token u) = none :=
    Text.keywordBody?_spaced ht (by decide) ht.not_if
  have hfor : keywordBody? "for" (Text.spaced t token u) = none :=
    Text.keywordBody?_spaced ht (by decide) ht.not_for
  exact evaluateAttribute_of_classify (Text.trim_spaced ht hu) hif hfor hform harray

end BlockConfig
