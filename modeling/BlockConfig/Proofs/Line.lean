import BlockConfig.Proofs.Evaluation.Parts
import BlockConfig.Reader
import Mathlib.Data.List.TakeWhile

set_option autoImplicit false

namespace BlockConfig

namespace Text

def lastSolid? (t : Text) : Option Char := t.reverse.find? fun c => !isBlank c

theorem getLast?_trimEnd (t : Text) : t.trimEnd.getLast? = t.lastSolid? := by
  unfold trimEnd lastSolid?
  rw [List.getLast?_reverse]
  induction t.reverse with
  | nil => rfl
  | cons c rest ih =>
    by_cases hc : isBlank c = true
    · simpa [hc] using ih
    · simp [hc]

theorem isBlank_getLast?_trimEnd (t : Text) : ∀ c ∈ t.trimEnd.getLast?, isBlank c = false := by
  intro c hc
  rw [getLast?_trimEnd] at hc
  simpa using List.find?_some hc

@[simp] theorem trimEnd_trimEnd (t : Text) : t.trimEnd.trimEnd = t.trimEnd :=
  trimEnd_of_getLast (isBlank_getLast?_trimEnd t)

theorem lastSolid?_append (s t : Text) : (s ++ t).lastSolid? = t.lastSolid?.or s.lastSolid? := by
  simp [lastSolid?, List.find?_append]

theorem lastSolid?_of_all {t : Text} (h : t.all isBlank = true) : t.lastSolid? = none := by
  rw [lastSolid?, List.find?_eq_none]
  intro c hc
  simpa using List.all_eq_true.1 h c (List.mem_reverse.1 hc)

theorem getLast?_trim (t : Text) : t.trim.getLast? = t.lastSolid? := by
  have hsplit : t.takeWhile isBlank ++ t.trimStart = t := List.takeWhile_append_dropWhile
  have hblank : lastSolid? (t.takeWhile isBlank) = none :=
    lastSolid?_of_all List.all_takeWhile
  calc t.trim.getLast? = t.trimStart.lastSolid? := getLast?_trimEnd _
    _ = lastSolid? (t.takeWhile isBlank ++ t.trimStart) := by
      rw [lastSolid?_append, hblank, Option.or_none]
    _ = t.lastSolid? := by rw [hsplit]

theorem isBlank_head?_of_trim {t : Text} (h : t.trim = t) : ∀ c ∈ t.head?, isBlank c = false := by
  intro c hc
  cases t with
  | nil => simp at hc
  | cons d rest =>
    have hd : d = c := by simpa using hc
    subst hd
    cases hb : isBlank d with
    | false => rfl
    | true =>
      have hdrop : trimStart (d :: rest) = trimStart rest := by simp [trimStart, hb]
      have htrim := congrArg List.length h
      have hend := (trimEnd_isPrefix (trimStart rest)).length_le
      have hstart := (trimStart_suffix rest).length_le
      rw [trim, hdrop, List.length_cons] at htrim
      omega

theorem isBlank_getLast?_of_trim {t : Text} (h : t.trim = t) :
    ∀ c ∈ t.getLast?, isBlank c = false := by
  intro c hc
  rw [← h] at hc
  exact isBlank_getLast?_trimEnd _ c hc

theorem trimStart_append {t : Text} (hne : t ≠ []) (h : ∀ c ∈ t.head?, isBlank c = false)
    (rest : Text) : trimStart (t ++ rest) = t ++ rest := by
  cases t with
  | nil => exact absurd rfl hne
  | cons c more => exact trimStart_of_head (h c rfl)

theorem trimEnd_append_blank {right : Text} (h : right.all isBlank = true) (t : Text) :
    (t ++ right).trimEnd = t.trimEnd := by
  have hall : ∀ c ∈ right.reverse, isBlank c = true := fun c hc =>
    List.all_eq_true.1 h c (List.mem_reverse.1 hc)
  unfold trimEnd
  rw [List.reverse_append, List.dropWhile_append_of_pos hall]

theorem trimEnd_concat {c : Char} (h : isBlank c = true) (t : Text) :
    (t ++ [c]).trimEnd = t.trimEnd := trimEnd_append_blank (by simpa using h) t

theorem exists_eq_trimEnd (t : Text) :
    ∃ right : Text, t = t.trimEnd ++ right ∧ right.all isBlank = true := by
  have hsplit := List.takeWhile_append_dropWhile (p := isBlank) (l := t.reverse)
  refine ⟨(t.reverse.takeWhile isBlank).reverse, ?_, by simp⟩
  have hreverse := congrArg List.reverse hsplit
  rw [List.reverse_append, List.reverse_reverse] at hreverse
  exact hreverse.symm

theorem trim_append_blank {right : Text} (h : right.all isBlank = true) (t : Text) :
    (t ++ right).trim = t.trim := by
  induction t with
  | nil =>
    have hnil : trimStart right = [] := List.dropWhile_eq_nil_iff.2 (List.all_eq_true.1 h)
    rw [List.nil_append, trim, hnil]
    rfl
  | cons c rest ih =>
    cases hc : isBlank c with
    | true =>
      have hdrop : ∀ u : Text, trim (c :: u) = trim u := fun u => by simp [trim, trimStart, hc]
      rw [List.cons_append, hdrop, hdrop, ih]
    | false =>
      rw [trim, trim, List.cons_append, trimStart_of_head hc, trimStart_of_head hc,
        ← List.cons_append, trimEnd_append_blank h]

theorem not_mem_of_blank {t : Text} (h : t.all isBlank = true) {c : Char} (hc : isBlank c = false) :
    c ∉ t := by
  intro hm
  rw [List.all_eq_true.1 h c hm] at hc
  cases hc

theorem isQuote_of_blank {t : Text} (h : t.all isBlank = true) : t.any isQuote = false := by
  rw [List.any_eq_false]
  intro c hc hquote
  have hblank := List.all_eq_true.1 h c hc
  simp only [isQuote, Bool.or_eq_true, beq_iff_eq] at hquote
  rcases hquote with rfl | rfl <;> cases hblank

theorem trim_prepend_blank {left : Text} (h : left.all isBlank = true) (t : Text) :
    (left ++ t).trim = t.trim := by
  unfold trim trimStart
  rw [List.dropWhile_append_of_pos (List.all_eq_true.1 h)]

@[simp] theorem trim_trim (t : Text) : t.trim.trim = t.trim := by
  obtain ⟨left, right, ht, hleft, hright⟩ := exists_eq_trim t
  calc t.trim.trim = (left ++ t.trim ++ right).trim := by
        rw [trim_append_blank hright, trim_prepend_blank hleft]
    _ = t.trim := by rw [← ht]

theorem mem_trim_iff {c : Char} (hc : isBlank c = false) (t : Text) : c ∈ t.trim ↔ c ∈ t := by
  obtain ⟨left, right, ht, hleft, hright⟩ := exists_eq_trim t
  have hmem : c ∈ left ++ t.trim ++ right ↔ c ∈ t.trim := by
    simp [not_mem_of_blank hleft hc, not_mem_of_blank hright hc]
  rw [← hmem, ← ht]

theorem trim_trimEnd (t : Text) : t.trimEnd.trim = t.trim := by
  obtain ⟨right, ht, hright⟩ := exists_eq_trimEnd t
  calc t.trimEnd.trim = (t.trimEnd ++ right).trim := (trim_append_blank hright _).symm
    _ = t.trim := by rw [← ht]

theorem trimEnd_append_of_solid {s : Text} (h : ∀ c ∈ s.getLast?, isBlank c = false) (t : Text) :
    (s ++ t).trimEnd = s ++ t.trimEnd := by
  obtain ⟨right, ht, hright⟩ := exists_eq_trimEnd t
  have hlast : ∀ c ∈ (s ++ t.trimEnd).getLast?, isBlank c = false := by
    intro c hc
    rw [List.getLast?_append] at hc
    cases he : t.trimEnd.getLast? with
    | none => exact h c (by simpa [he] using hc)
    | some d => exact isBlank_getLast?_trimEnd t c (by simpa [he] using hc)
  calc (s ++ t).trimEnd = (s ++ t.trimEnd ++ right).trimEnd := by rw [List.append_assoc, ← ht]
    _ = (s ++ t.trimEnd).trimEnd := trimEnd_append_blank hright _
    _ = s ++ t.trimEnd := trimEnd_of_getLast hlast

theorem lastSolid?_of_suffix {s t : Text} {c : Char} (h : s <:+ t) (hc : s.lastSolid? = some c) :
    t.lastSolid? = some c := by
  obtain ⟨front, rfl⟩ := h
  rw [lastSolid?_append, hc]
  rfl

theorem not_mem_of_cut? {mark : Char} {t before after : Text}
    (h : t.cut? [mark] = some (before, after)) : mark ∉ before := by
  induction t generalizing before with
  | nil => simp [cut?] at h
  | cons c rest ih =>
    rw [cut?] at h
    by_cases hc : mark = c
    · rw [if_pos (by simp [hc])] at h
      cases h
      exact List.not_mem_nil
    · rw [if_neg (by simp [hc])] at h
      obtain ⟨⟨front, back⟩, hcut, heq⟩ := Option.map_eq_some_iff.1 h
      cases heq
      rw [List.mem_cons, not_or]
      exact ⟨hc, ih hcut⟩

theorem suffix_of_cut? {t needle before after : Text} (h : t.cut? needle = some (before, after)) :
    after <:+ t := by
  rw [eq_of_cut? h]
  exact List.suffix_append _ _

theorem cutUnquoted?_eq_none {t needle : Text} (h : ¬ needle <:+: t) :
    t.cutUnquoted? needle = none := by
  cases hc : t.cutUnquoted? needle with
  | none => rfl
  | some p =>
    obtain ⟨before, after⟩ := p
    exact absurd ⟨before, after, (eq_of_cutFrom? hc).1.symm⟩ h

/-- A mark is looked for behind a text without quotes and without the first character of the
mark. -/
theorem cutUnquoted?_append_front (front : Text) {needle : Text} {mark : Char}
    (hquotes : front.any isQuote = false) (hnot : mark ∉ front) (t : Text) :
    (front ++ t).cutUnquoted? (mark :: needle) =
      (t.cutUnquoted? (mark :: needle)).map (Prod.map (front ++ ·) id) := by
  unfold cutUnquoted?
  induction front with
  | nil =>
    rw [List.nil_append]
    cases cutFrom? none t (mark :: needle) <;> rfl
  | cons c rest ih =>
    rw [List.any_cons, Bool.or_eq_false_iff] at hquotes
    have hne : mark ≠ c := fun he => hnot (by simp [he])
    have hi := ih hquotes.2 fun hm => hnot (List.mem_cons_of_mem _ hm)
    have hstep : OpenQuote.step none c = none := by simp [OpenQuote.step, hquotes.1]
    rw [List.cons_append, cutFrom?, if_neg (by simp [hne]), hstep, hi]
    cases cutFrom? none t (mark :: needle) <;> rfl

theorem cut?_append_front {front needle : Text} {mark : Char} (h : mark ∉ front) (t : Text) :
    (front ++ t).cut? (mark :: needle) =
      (t.cut? (mark :: needle)).map (Prod.map (front ++ ·) id) := by
  induction front with
  | nil =>
    rw [List.nil_append]
    cases t.cut? (mark :: needle) <;> rfl
  | cons c rest ih =>
    simp only [List.mem_cons, not_or] at h
    rw [List.cons_append, cut?, if_neg (by simp [h.1]), ih h.2]
    cases t.cut? (mark :: needle) <;> rfl

theorem cutUnquoted?_append {before : Text} {mark : Char} (hmark : isQuote mark = false)
    (hquotes : before.any isQuote = false) (hnot : mark ∉ before) (after : Text) :
    (before ++ mark :: after).cutUnquoted? [mark] = some (before, after) := by
  have hthere : cutUnquoted? (mark :: after) [mark] = some ([], after) := by
    simp [cutUnquoted?, cutFrom?, OpenQuote.isPlain, hmark]
  rw [cutUnquoted?_append_front before hquotes hnot, hthere]
  simp

theorem infix_of_infix_append {needle front last : Text} (h : needle <:+: front ++ last)
    (hne : needle ≠ []) (hlast : ∀ c ∈ needle, c ∉ last) : needle <:+: front := by
  obtain ⟨s, u, h⟩ := h
  rcases List.append_eq_append_iff.1 h with ⟨more, hfront, hmore⟩ | ⟨more, hneedle, hmore⟩
  · exact ⟨s, more, hfront.symm⟩
  · cases hl : more.getLast? with
    | none =>
      have : more = [] := List.getLast?_eq_none_iff.1 hl
      exact ⟨s, [], by simpa [this] using hneedle⟩
    | some c =>
      have hc : (s ++ needle).getLast? = some c := by rw [hneedle]; simp [hl]
      have hmem : c ∈ needle := by
        rw [List.getLast?_append] at hc
        cases hn : needle.getLast? with
        | none => exact absurd (List.getLast?_eq_none_iff.1 hn) hne
        | some d =>
          rw [hn] at hc
          rw [← Option.some.inj hc]
          exact List.mem_of_getLast? hn
      refine absurd ?_ (hlast c hmem)
      rw [hmore]
      exact List.mem_append_left _ (List.mem_of_getLast? hl)

end Text

structure Text.IsBlockName (name : Text) : Prop where
  ne_nil : name ≠ []
  trim_eq : name.trim = name
  not_quote : ∀ c ∈ name, isQuote c = false
  not_brace : '{' ∉ name ∧ '}' ∉ name
  not_comment : ¬ "//".toList <:+: name

def openingLine (name : Text) : Text := name ++ " \x7b"

def closingLine : Text := "\x7d"

namespace Text.IsBlockName

variable {name : Text}

theorem not_comment_openingLine (h : IsBlockName name) :
    ¬ "//".toList <:+: openingLine name := by
  intro hi
  exact h.not_comment (Text.infix_of_infix_append hi (by decide) (by simp))

theorem trimStart_append (h : IsBlockName name) (rest : Text) :
    (name ++ rest).trimStart = name ++ rest :=
  Text.trimStart_append h.ne_nil (isBlank_head?_of_trim h.trim_eq) rest

theorem trimEnd_openingLine (name : Text) : (openingLine name).trimEnd = openingLine name := by
  refine Text.trimEnd_of_getLast fun c hc => ?_
  have hbrace : c = '{' := by simpa [openingLine] using hc.symm
  subst hbrace
  decide

theorem stripComment_openingLine (h : IsBlockName name) :
    stripComment (openingLine name) = openingLine name := by
  have hnot := h.not_comment_openingLine
  have hprefix : ¬ "//".toList.isPrefixOf (openingLine name).trimStart = true := by
    intro hp
    exact hnot ((List.isPrefixOf_iff_prefix.1 hp).isInfix.trans
      (Text.trimStart_suffix _).isInfix)
  rw [stripComment, if_neg hprefix, Text.cutUnquoted?_eq_none hnot]
  exact trimEnd_openingLine name

theorem shape_openingLine (h : IsBlockName name) :
    LineShape.of (openingLine name) = .opening name none := by
  have hcut : (openingLine name).cutUnquoted? ['{'] = some (name ++ [' '], []) := by
    have hquotes : (name ++ [' ']).any isQuote = false := by
      rw [List.any_append, List.any_eq_false.2 (by simpa using h.not_quote)]
      rfl
    have hbrace : '{' ∉ name ++ [' '] := by
      intro hc
      rcases List.mem_append.1 hc with hc | hc
      · exact h.not_brace.1 hc
      · simp at hc
    have happ := Text.cutUnquoted?_append (by decide) hquotes hbrace []
    simpa [openingLine] using happ
  have hname : (name ++ [' ']).trim = name := by
    have hstart := h.trimStart_append []
    rw [List.append_nil] at hstart
    rw [Text.trim, h.trimStart_append, Text.trimEnd_concat (by decide)]
    exact (congrArg Text.trimEnd hstart).symm.trans h.trim_eq
  have htrim : (openingLine name).trim = openingLine name := by
    rw [Text.trim, openingLine, h.trimStart_append]
    exact trimEnd_openingLine name
  have hne : (openingLine name).isEmpty = false := by cases name <;> rfl
  simp only [LineShape.of, htrim, hcut, hne, hname]
  rfl

end Text.IsBlockName

theorem stripComment_closingLine : stripComment closingLine = closingLine := by decide

theorem shape_closingLine : LineShape.of closingLine = .closing := by decide

end BlockConfig
