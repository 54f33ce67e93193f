import BlockConfig.Evaluation

set_option autoImplicit false

/-!
Every text that evaluation looks up, stores or reads as a literal is a part of the text evaluated:
some of its characters, in a row.
-/

namespace BlockConfig

namespace Text

theorem trimStart_suffix (t : Text) : t.trimStart <:+ t := List.dropWhile_suffix _

theorem takeWhile_append_trimStart (t : Text) : t.takeWhile isBlank ++ t.trimStart = t :=
  List.takeWhile_append_dropWhile

theorem trimEnd_isPrefix (t : Text) : t.trimEnd <+: t := by
  have h := List.dropWhile_suffix (p := isBlank) (l := t.reverse)
  rw [← List.reverse_prefix, List.reverse_reverse] at h
  exact h

theorem trim_infix (t : Text) : t.trim <:+: t :=
  (trimEnd_isPrefix _).isInfix.trans (trimStart_suffix t).isInfix

theorem infix_of_cut? {t needle before after : Text} (h : t.cut? needle = some (before, after)) :
    before <:+: t ∧ after <:+: t := by
  rw [eq_of_cut? h]
  exact ⟨⟨[], needle ++ after, by simp⟩, ⟨before ++ needle, [], by simp⟩⟩

theorem infix_of_cutLast? {mark : Char} {t before after : Text}
    (h : cutLast? mark t = some (before, after)) : before <:+: t ∧ after <:+: t := by
  rw [(eq_of_cutLast? h).1]
  exact ⟨⟨[], mark :: after, by simp⟩, ⟨before ++ [mark], [], by simp⟩⟩

theorem eq_of_dropEnd? {mark : Char} {t inner : Text} (h : t.dropEnd? mark = some inner) :
    t = inner ++ [mark] := by
  unfold dropEnd? at h
  split at h
  · rename_i hlast
    obtain ⟨front, rfl⟩ := List.getLast?_eq_some_iff.1 hlast
    rw [← Option.some.inj h, List.dropLast_concat]
  · cases h

theorem infix_of_dropEnd? {mark : Char} {t inner : Text} (h : t.dropEnd? mark = some inner) :
    inner <:+: t := by
  rw [eq_of_dropEnd? h]
  exact (List.prefix_append inner [mark]).isInfix

theorem dropLast_drop_infix (t : Text) (n : Nat) : (t.drop n).dropLast <:+: t :=
  (List.dropLast_prefix _).isInfix.trans (List.drop_suffix n t).isInfix

theorem unquote_infix (t : Text) : t.unquote <:+: t := by
  unfold unquote
  split
  · exact dropLast_drop_infix t 1
  · exact List.infix_refl t

theorem infix_intercalate {sep part : Text} {parts : List Text} (h : part ∈ parts) :
    part <:+: List.intercalate sep parts := by
  induction parts with
  | nil => simp at h
  | cons first rest ih =>
    cases rest with
    | nil =>
      have hpart := List.mem_singleton.1 h
      simp [hpart]
    | cons second others =>
      rw [List.intercalate_cons_cons]
      rcases List.mem_cons.1 h with rfl | h
      · exact ⟨[], sep ++ List.intercalate sep (second :: others), by simp⟩
      · exact List.infix_append_of_infix_right (ih h)

theorem infix_of_mem_splitCommas {t part : Text} (h : part ∈ t.splitCommas) : part <:+: t := by
  rw [← intercalate_splitCommas t]
  exact infix_intercalate h

end Text

theorem infix_of_keywordBody? {keyword t body : Text} (h : keywordBody? keyword t = some body) :
    body <:+: t := by
  unfold keywordBody? at h
  split at h
  · split at h
    · rename_i c rest hd
      split at h
      · rw [← Option.some.inj h, ← hd]
        exact (List.drop_suffix _ t).isInfix
      · simp at h
    · simp at h
  · simp at h

theorem operandsAt_infix (token expression : Text) :
    (operandsAt token expression).1 <:+: expression ∧
      (operandsAt token expression).2 <:+: expression := by
  unfold operandsAt
  split
  · rename_i left right h
    have hi := Text.infix_of_cut? h
    exact ⟨(Text.trim_infix left).trans hi.1, (Text.trim_infix right).trans hi.2⟩
  · exact ⟨Text.trim_infix expression, List.nil_infix⟩

namespace Call

theorem read?_parts {expression : Text} {call : Call} (h : read? expression = some call) :
    call.inner <:+: expression ∧ call.expression = expression := by
  unfold read? at h
  simp only at h
  split at h
  · rename_i c more rest _ hrest
    split at h
    · rename_i inner hinner
      split at h
      · rw [← Option.some.inj h]
        have hstart : ('(' :: rest) <:+: expression := by
          rw [← hrest]
          exact (Text.trimStart_suffix _).isInfix.trans
            ((List.dropWhile_suffix _).isInfix.trans (Text.trimStart_suffix _).isInfix)
        have htail : rest <:+: expression := (List.suffix_cons '(' rest).isInfix.trans hstart
        exact ⟨(Text.trim_infix inner).trans ((Text.infix_of_dropEnd? hinner).trans
          ((Text.trimEnd_isPrefix rest).isInfix.trans htail)), rfl⟩
      · simp at h
    · simp at h
  · simp at h

theorem read?_of_read {expression : Text} {call : Call} (h : read expression = .ok call) :
    read? expression = some call := by
  unfold read at h
  split at h
  · rename_i found hfound
    rw [hfound, Except.ok.inj h]
  · cases h

/-- The name of a call stands at the start, and the parentheses behind it, with nothing but blanks
around them. -/
theorem exists_of_read {expression : Text} {call : Call} (h : read expression = .ok call) :
    ∃ left gap rest inside : Text, expression = left ++ call.name ++ gap ++ '(' :: rest ∧
      rest.trimEnd = inside ++ [')'] ∧ call.inner = inside.trim ∧
      left.all isBlank = true ∧ gap.all isBlank = true ∧ call.name.all isNameChar = true := by
  have hread := read?_of_read h
  unfold read? at hread
  simp only at hread
  split at hread
  · rename_i c more rest hname hopen
    split at hread
    · rename_i inside hinside
      split at hread
      · obtain rfl := Option.some.inj hread
        have hfront := Text.takeWhile_append_trimStart expression
        have hback :=
          Text.takeWhile_append_trimStart (expression.trimStart.dropWhile isNameChar)
        refine ⟨expression.takeWhile isBlank,
          (expression.trimStart.dropWhile isNameChar).takeWhile isBlank, rest, inside, ?_,
          Text.eq_of_dropEnd? hinside, rfl, List.all_takeWhile, List.all_takeWhile,
          List.all_takeWhile⟩
        rw [← hopen, List.append_assoc, hback, List.append_assoc,
          List.takeWhile_append_dropWhile, hfront]
      · cases hread
    · cases hread
  · cases hread

theorem inner_infix {expression : Text} {call : Call} (h : read expression = .ok call) :
    call.inner <:+: expression := by
  unfold read at h
  split at h
  · rename_i found hfound
    rw [← Except.ok.inj h]
    exact (read?_parts hfound).1
  · simp at h

theorem infix_of_mem_arguments {call : Call} {argument : Text} (h : argument ∈ call.arguments) :
    argument <:+: call.inner := by
  unfold arguments at h
  split at h
  · simp at h
  · obtain ⟨part, hpart, rfl⟩ := List.mem_map.1 h
    exact (Text.trim_infix part).trans (Text.infix_of_mem_splitCommas hpart)

theorem pair_infix {call : Call} {a b : Text} (h : call.pair = .ok (a, b)) :
    a <:+: call.inner ∧ b <:+: call.inner := by
  unfold pair at h
  simp only at h
  split at h
  · rename_i x y hargs
    split at h
    · simp at h
    · simp only [Except.ok.injEq, Prod.mk.injEq] at h
      obtain ⟨rfl, rfl⟩ := h
      exact ⟨infix_of_mem_arguments (by simp [hargs]), infix_of_mem_arguments (by simp [hargs])⟩
  · simp at h

end Call

theorem infix_of_mem_elementTexts {t part : Text} (h : part ∈ elementTexts t) : part <:+: t := by
  unfold elementTexts at h
  simp only at h
  split at h
  · simp at h
  · have hmem : part ∈ (Text.trim (t.drop 1).dropLast).splitCommas.map Text.trim := by
      split at h
      · exact List.dropLast_subset _ h
      · exact h
    obtain ⟨raw, hraw, rfl⟩ := List.mem_map.1 hmem
    exact (Text.trim_infix raw).trans ((Text.infix_of_mem_splitCommas hraw).trans
      ((Text.trim_infix _).trans (Text.dropLast_drop_infix t 1)))

theorem conditionalParts?_infix {body condition positive negative : Text}
    (h : conditionalParts? body = some (condition, positive, negative)) :
    condition <:+: body ∧ positive <:+: body ∧ negative <:+: body := by
  unfold conditionalParts? at h
  simp only [Option.bind_eq_bind, Option.bind_eq_some_iff] at h
  obtain ⟨⟨front, last⟩, hlast, ⟨first, middle⟩, hfirst, h⟩ := h
  have hi := Text.infix_of_cutLast? hlast
  have hj := Text.infix_of_cutLast? hfirst
  split at h
  · simp at h
  · simp only [Option.some.injEq, Prod.mk.injEq] at h
    obtain ⟨rfl, rfl, rfl⟩ := h
    exact ⟨(Text.trim_infix first).trans (hj.1.trans hi.1),
      (Text.trim_infix middle).trans (hj.2.trans hi.1), (Text.trim_infix last).trans hi.2⟩

theorem projectionParts?_infix {body source outcome : Text}
    (h : projectionParts? body = some (source, outcome)) :
    source <:+: body ∧ outcome <:+: body := by
  unfold projectionParts? at h
  simp only [Option.bind_eq_bind, Option.bind_eq_some_iff] at h
  obtain ⟨⟨front, last⟩, hlast, h⟩ := h
  have hi := Text.infix_of_cutLast? hlast
  split at h
  · simp at h
  · simp only [Option.some.injEq, Prod.mk.injEq] at h
    obtain ⟨rfl, rfl⟩ := h
    exact ⟨(Text.trim_infix front).trans hi.1, (Text.trim_infix last).trans hi.2⟩

end BlockConfig
