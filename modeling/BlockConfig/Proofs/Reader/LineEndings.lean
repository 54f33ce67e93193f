import BlockConfig.Proofs.Reread.Line

set_option autoImplicit false

/-!
A source is read as its lines are, whichever of the two line endings stands between them. What is
lost of a line in splitting is one carriage return at its end, which is white space to the reader.
-/

namespace BlockConfig

namespace Text

theorem lines_append_return {line : Text} (h : '\n' ∉ line) (rest : Text) :
    lines (line ++ '\r' :: '\n' :: rest) = line :: lines rest := by
  induction line with
  | nil => rfl
  | cons c more ih =>
    simp only [List.mem_cons, not_or] at h
    rw [List.cons_append, lines, ih h.2]
    · exact fun he => h.1 he.symm
    · -- a carriage return stands in the line unless a newline follows it
      intro others _ he
      cases more with
      | nil => cases he
      | cons d others' =>
        cases he
        exact h.2 (by simp)

/-- What is left of a line in front of a newline. -/
theorem exists_lines_append {line : Text} (h : '\n' ∉ line) (rest : Text) :
    ∃ left, lines (line ++ '\n' :: rest) = left :: lines rest ∧
      (line = left ∨ line = left ++ ['\r']) := by
  by_cases hr : line.getLast? = some '\r'
  · obtain ⟨left, rfl⟩ := List.getLast?_eq_some_iff.1 hr
    have hleft : '\n' ∉ left := fun hm => h (List.mem_append_left _ hm)
    refine ⟨left, ?_, .inr rfl⟩
    rw [List.append_assoc]
    exact lines_append_return hleft rest
  · exact ⟨line, lines_append h hr rest, .inl rfl⟩

end Text

theorem map_stripComment_lines_intercalate {ending : Text}
    (hending : ∀ line rest : Text, '\n' ∉ line → ∃ left,
      (line ++ (ending ++ rest)).lines = left :: rest.lines ∧
        stripComment left = stripComment line)
    {lines : List Text} (h : ∀ line ∈ lines, '\n' ∉ line)
    (hlast : ∀ line ∈ lines.getLast?, line ≠ []) :
    (Text.lines (List.intercalate ending lines)).map stripComment = lines.map stripComment := by
  induction lines with
  | nil => rfl
  | cons line rest ih =>
    have hline := h line (by simp)
    cases rest with
    | nil =>
      rw [List.intercalate_singleton, Text.lines_of_newline_not_mem (hlast line rfl) hline]
    | cons second more =>
      obtain ⟨left, hleft, hstrip⟩ :=
        hending line (List.intercalate ending (second :: more)) hline
      have hrest := ih (fun other ho => h other (List.mem_cons_of_mem _ ho)) fun other ho =>
        hlast other (by rwa [List.getLast?_cons_cons])
      rw [List.intercalate_cons_cons, List.append_assoc, hleft, List.map_cons, hstrip, hrest,
        ← List.map_cons]

/-- Lines denote the same, with the same errors at the same lines, as the source that joins them by
newlines, with or without carriage returns. The source cannot end in an empty line, which would not
count. -/
theorem ofSource_intercalate {lines : List Text} (h : ∀ line ∈ lines, '\n' ∉ line)
    (hlast : ∀ line ∈ lines.getLast?, line ≠ []) :
    Document.ofSource (List.intercalate ['\n'] lines) = Document.ofLines lines ∧
      Document.ofSource (List.intercalate ['\r', '\n'] lines) = Document.ofLines lines := by
  have hread : ∀ source : Text, source.lines.map stripComment = lines.map stripComment →
      Document.ofSource source = Document.ofLines lines := fun source hsource => by
    unfold Document.ofSource Document.ofLines Reader.ofLines
    rw [hsource]
  refine ⟨hread _ (map_stripComment_lines_intercalate (fun line rest hline => ?_) h hlast),
    hread _ (map_stripComment_lines_intercalate (fun line rest hline => ?_) h hlast)⟩
  · obtain ⟨left, hlines, rfl | rfl⟩ := Text.exists_lines_append hline rest
    · exact ⟨_, hlines, rfl⟩
    · exact ⟨left, hlines, (stripComment_append_blank (by decide) left).symm⟩
  · exact ⟨line, Text.lines_append_return hline rest, rfl⟩

theorem ofSource_intercalate_returns :
    let lines : List Text :=
      ["p \x7b\r", "a = 'x' \\\r", "'y'\r", "b = [1,\r", "2]", "\x7d\r"]
    let block : Block := ⟨"p", [("a", ⟨"a", .string, .scalar (.string "x y")⟩),
      ("b", ⟨"b", .array, .array [.integer 1, .integer 2]⟩)], []⟩
    Document.ofLines lines = .ok ⟨[], [("p", block)]⟩ ∧
      Document.ofSource (List.intercalate ['\n'] lines) = Document.ofLines lines ∧
      Document.ofSource (List.intercalate ['\r', '\n'] lines) = Document.ofLines lines :=
  ⟨rfl, ofSource_intercalate (by decide) (by decide)⟩

end BlockConfig
