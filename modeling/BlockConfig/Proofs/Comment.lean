import BlockConfig.Proofs.Line

set_option autoImplicit false

namespace BlockConfig

namespace Text

theorem cutFrom?_append_of_some {needle t before after : Text} {q : OpenQuote}
    (h : cutFrom? q t needle = some (before, after)) (rest : Text) :
    cutFrom? q (t ++ rest) needle = some (before, after ++ rest) := by
  induction t generalizing q before with
  | nil => simp [cutFrom?] at h
  | cons c more ih =>
    rw [cutFrom?] at h
    rw [List.cons_append, cutFrom?]
    split at h
    · rename_i hfound
      have hprefix : needle <+: c :: more :=
        List.isPrefixOf_iff_prefix.1 (Bool.and_eq_true_iff.1 hfound).2
      have hlonger : needle <+: c :: (more ++ rest) :=
        hprefix.trans (List.prefix_append (c :: more) rest)
      cases h
      rw [if_pos (Bool.and_eq_true_iff.2 ⟨(Bool.and_eq_true_iff.1 hfound).1,
        List.isPrefixOf_iff_prefix.2 hlonger⟩), ← List.cons_append,
        List.drop_append_of_le_length hprefix.length_le]
    · rename_i hnot
      obtain ⟨⟨b, a⟩, hb, heq⟩ := Option.map_eq_some_iff.1 h
      cases heq
      have hlength : needle.length ≤ (c :: more).length := by
        rw [(eq_of_cutFrom? hb).1]
        simp only [List.length_cons, List.length_append]
        omega
      -- the needle is found behind `c`, so one at `c` would lie in the shorter text too
      have hstill : ¬ (q.isPlain c && needle.isPrefixOf (c :: (more ++ rest))) = true := by
        intro hfound
        obtain ⟨hplain, hlonger⟩ := Bool.and_eq_true_iff.1 hfound
        have hprefix := List.prefix_of_prefix_length_le
          (List.isPrefixOf_iff_prefix.1 hlonger) (List.prefix_append (c :: more) rest) hlength
        exact hnot (Bool.and_eq_true_iff.2 ⟨hplain, List.isPrefixOf_iff_prefix.2 hprefix⟩)
      rw [if_neg hstill, ih hb]
      rfl

/-- A needle that is not in a text, and does not reach out of it, is looked for behind it. -/
theorem cutFrom?_append_of_none {needle t : Text} {q : OpenQuote}
    (h : cutFrom? q t needle = none) {rest : Text} (hrest : ∀ c ∈ rest.head?, c ∉ needle) :
    cutFrom? q (t ++ rest) needle =
      (cutFrom? (q.after t) rest needle).map (Prod.map (t ++ ·) id) := by
  induction t generalizing q with
  | nil =>
    rw [List.nil_append, OpenQuote.after_nil]
    cases cutFrom? q rest needle <;> rfl
  | cons c more ih =>
    rw [cutFrom?] at h
    rw [List.cons_append, cutFrom?]
    split at h
    · cases h
    · rename_i hnot
      have hstill : ¬ (q.isPlain c && needle.isPrefixOf (c :: (more ++ rest))) = true := by
        intro hfound
        obtain ⟨hplain, hlonger⟩ := Bool.and_eq_true_iff.1 hfound
        have hlonger := List.isPrefixOf_iff_prefix.1 hlonger
        rcases List.prefix_or_prefix_of_prefix hlonger (List.prefix_append (c :: more) rest) with
          hprefix | ⟨tail, htail⟩
        · exact hnot (Bool.and_eq_true_iff.2 ⟨hplain, List.isPrefixOf_iff_prefix.2 hprefix⟩)
        · have htailRest : tail <+: rest := by
            rw [← htail, ← List.cons_append, List.prefix_append_right_inj] at hlonger
            exact hlonger
          cases tail with
          | nil =>
            have hneedle : needle = c :: more := by rw [← htail, List.append_nil]
            have hprefix : needle <+: c :: more := hneedle ▸ List.prefix_rfl
            exact hnot (Bool.and_eq_true_iff.2 ⟨hplain, List.isPrefixOf_iff_prefix.2 hprefix⟩)
          | cons d others =>
            obtain ⟨last, rfl⟩ := htailRest
            exact hrest d (by simp) (by simp [← htail])
      rw [if_neg hstill, ih (Option.map_eq_none_iff.1 h), OpenQuote.after_cons]
      cases cutFrom? ((q.step c).after more) rest needle <;> rfl

theorem cutUnquoted?_prepend_blank {left : Text} (h : left.all isBlank = true) (t : Text) :
    (left ++ t).cutUnquoted? "//" = (t.cutUnquoted? "//").map (Prod.map (left ++ ·) id) :=
  cutUnquoted?_append_front left (isQuote_of_blank h) (not_mem_of_blank h (by decide)) t

/-- A line that is all comment is so by the same rule as any other: what is before the mark is
blank. -/
theorem exists_cut_of_allComment {t : Text} (h : "//".toList.isPrefixOf t.trimStart = true) :
    ∃ after, t.cutUnquoted? "//" = some (t.takeWhile isBlank, after) := by
  obtain ⟨after, hafter⟩ := List.isPrefixOf_iff_prefix.1 h
  have hthere : cutUnquoted? t.trimStart "//" = some ([], after) := by
    rw [← hafter]
    rfl
  have hblank : (t.takeWhile isBlank).all isBlank = true := List.all_takeWhile
  have hcut := cutUnquoted?_prepend_blank hblank t.trimStart
  refine ⟨after, ?_⟩
  calc t.cutUnquoted? "//" = cutUnquoted? (t.takeWhile isBlank ++ t.trimStart) "//" :=
        congrArg (cutUnquoted? · "//") List.takeWhile_append_dropWhile.symm
    _ = some (t.takeWhile isBlank, after) := by
        rw [hcut, hthere, Option.map_some, Prod.map_apply, List.append_nil]
        rfl

def uncommented (t : Text) : Text :=
  match t.cutUnquoted? "//" with
  | some (before, _) => before
  | none => t

theorem uncommented_isPrefix (t : Text) : t.uncommented <+: t := by
  unfold uncommented
  split
  · rename_i before after h
    rw [(eq_of_cutFrom? h).1, List.append_assoc]
    exact List.prefix_append _ _
  · exact List.prefix_refl t

theorem uncommented_of_none {t : Text} (h : t.cutUnquoted? "//" = none) : t.uncommented = t := by
  rw [uncommented, h]

theorem length_uncommented_of_some {t : Text} {parts : Text × Text}
    (h : t.cutUnquoted? "//" = some parts) : t.uncommented.length + 2 ≤ t.length := by
  have hlength := congrArg List.length (eq_of_cutFrom? h).1
  rw [uncommented, h]
  simp only [List.length_append, String.length_toList] at hlength
  change _ = _ + 2 + _ at hlength
  simp only
  omega

theorem cutUnquoted?_comment_eq_none {t part : Text} (hpart : part <+: t.uncommented)
    (hlong : t.length < part.length + 2) : t.cutUnquoted? "//" = none := by
  cases hcut : t.cutUnquoted? "//" with
  | none => rfl
  | some parts =>
    have hshorter := length_uncommented_of_some hcut
    have hle := hpart.length_le
    omega

theorem uncommented_of_isPrefix {t part : Text} (h : part <+: t.uncommented) :
    part.uncommented = part := by
  cases hcut : part.cutUnquoted? "//" with
  | none => exact uncommented_of_none hcut
  | some parts =>
    obtain ⟨before, after⟩ := parts
    obtain ⟨more, hmore⟩ := h.trans (uncommented_isPrefix t)
    have hwhole : t.cutUnquoted? "//" = some (before, after ++ more) :=
      hmore ▸ cutFrom?_append_of_some hcut more
    have hlong := length_uncommented_of_some hcut
    have hle := h.length_le
    rw [uncommented, hcut] at hlong
    rw [uncommented, hwhole] at hle
    simp only at hlong hle
    omega

section Append

variable {line rest : Text}

theorem uncommented_prepend_blank {left : Text} (h : left.all isBlank = true) (t : Text) :
    uncommented (left ++ t) = left ++ t.uncommented := by
  unfold uncommented
  rw [cutUnquoted?_prepend_blank h]
  cases t.cutUnquoted? "//" <;> rfl

theorem uncommented_trim (t : Text) : t.uncommented.trim.uncommented = t.uncommented.trim := by
  obtain ⟨left, right, ht, hleft, -⟩ := exists_eq_trim t.uncommented
  have hpart := uncommented_of_isPrefix (t := t) ⟨right, ht.symm⟩
  rw [uncommented_prepend_blank hleft] at hpart
  exact List.append_cancel_left hpart

theorem uncommented_append_of_some {parts : Text × Text}
    (h : line.cutUnquoted? "//" = some parts) (rest : Text) :
    uncommented (line ++ rest) = line.uncommented := by
  have hcut : cutUnquoted? (line ++ rest) "//" = some (parts.1, parts.2 ++ rest) :=
    cutFrom?_append_of_some h rest
  unfold uncommented
  rw [hcut, h]

theorem cutUnquoted?_append_of_none (h : line.cutUnquoted? "//" = none)
    (hrest : ∀ c ∈ rest.head?, c ≠ '/') :
    cutUnquoted? (line ++ rest) "//" =
      (cutFrom? (OpenQuote.after none line) rest "//").map (Prod.map (line ++ ·) id) := by
  refine cutFrom?_append_of_none h fun c hc hmem => hrest c hc ?_
  simpa using hmem

/-- White space behind a line is no comment, whatever quote the line leaves open. -/
theorem uncommented_append_blank (line : Text) (h : rest.all isBlank = true) :
    uncommented (line ++ rest) = line.uncommented ∨
      uncommented (line ++ rest) = line.uncommented ++ rest := by
  cases hline : line.cutUnquoted? "//" with
  | some parts => exact .inl (uncommented_append_of_some hline rest)
  | none =>
    have hslash : '/' ∉ rest := not_mem_of_blank h (by decide)
    have hblank : cutFrom? (OpenQuote.after none line) rest "//" = none := by
      rw [Option.eq_none_iff_forall_ne_some]
      rintro ⟨before, after⟩ hcut
      exact hslash (by simp [(eq_of_cutFrom? hcut).1])
    have hnone : cutUnquoted? (line ++ rest) "//" = none := by
      rw [cutUnquoted?_append_of_none hline, hblank, Option.map_none]
      rintro c hc rfl
      exact hslash (List.mem_of_head? hc)
    right
    rw [uncommented_of_none hnone, uncommented_of_none hline]

theorem trim_uncommented_append_blank (h : rest.all isBlank = true) :
    (uncommented (line ++ rest)).trim = line.uncommented.trim := by
  rcases uncommented_append_blank line h with heq | heq <;> rw [heq]
  exact trim_append_blank h _

theorem trim_uncommented_append_comment (h : rest.all isBlank = true) (hne : rest ≠ [])
    (hquotes : OpenQuote.after none line = none) (comment : Text) :
    (uncommented (line ++ (rest ++ ("//" ++ comment)))).trim = line.uncommented.trim := by
  cases hline : line.cutUnquoted? "//" with
  | some parts => rw [uncommented_append_of_some hline]
  | none =>
    have hmark : cutUnquoted? (rest ++ ("//" ++ comment)) "//" = some (rest, comment) := by
      have hthere : cutUnquoted? ("//" ++ comment) "//" = some ([], comment) := rfl
      rw [cutUnquoted?_prepend_blank h, hthere, Option.map_some, Prod.map_apply, List.append_nil]
      rfl
    have hsome : cutUnquoted? (line ++ (rest ++ ("//" ++ comment))) "//" =
        some (line ++ rest, comment) := by
      rw [cutUnquoted?_append_of_none hline, hquotes]
      · exact congrArg _ hmark
      · rw [List.head?_append, Option.or_of_isSome (List.isSome_head?.2 hne)]
        rintro c hc rfl
        exact not_mem_of_blank h (by decide) (List.mem_of_head? hc)
    rw [uncommented_of_none hline, uncommented, hsome, trim_append_blank h]

end Append

end Text

theorem stripComment_eq (line : Text) : stripComment line = line.uncommented.trimEnd := by
  unfold stripComment
  split
  · rename_i hall
    obtain ⟨after, hcut⟩ := Text.exists_cut_of_allComment hall
    have hblank : (line.takeWhile isBlank).all isBlank = true := List.all_takeWhile
    rw [Text.uncommented, hcut]
    exact (Text.trimEnd_append_blank hblank []).symm
  · unfold Text.uncommented
    cases line.cutUnquoted? "//" <;> rfl

theorem stripComment_append_blank {rest : Text} (h : rest.all isBlank = true) (line : Text) :
    stripComment (line ++ rest) = stripComment line := by
  rw [stripComment_eq, stripComment_eq]
  rcases Text.uncommented_append_blank line h with heq | heq <;> rw [heq]
  exact Text.trimEnd_append_blank h _

theorem stripComment_isPrefix (line : Text) : stripComment line <+: line := by
  rw [stripComment_eq]
  exact (Text.trimEnd_isPrefix _).trans line.uncommented_isPrefix

theorem trimEnd_stripComment (line : Text) : (stripComment line).trimEnd = stripComment line := by
  rw [stripComment_eq, Text.trimEnd_trimEnd]

theorem continues_trim_stripComment (line : Text) :
    continues (stripComment line).trim = continues (stripComment line) := by
  unfold continues
  rw [Text.getLast?_trim, ← Text.getLast?_trimEnd, trimEnd_stripComment]

theorem stripComment_stripComment (line : Text) :
    stripComment (stripComment line) = stripComment line := by
  have hpart := Text.uncommented_of_isPrefix (Text.trimEnd_isPrefix line.uncommented)
  rw [stripComment_eq, stripComment_eq, hpart, Text.trimEnd_trimEnd]

theorem trim_stripComment (line : Text) : (stripComment line).trim = line.uncommented.trim := by
  rw [stripComment_eq, Text.trim_trimEnd]

end BlockConfig
