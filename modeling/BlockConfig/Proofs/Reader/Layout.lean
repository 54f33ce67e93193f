import BlockConfig.Proofs.Comment
import Mathlib.Data.List.Forall2

set_option autoImplicit false

namespace BlockConfig

namespace Text

theorem cut?_append_back {back : Text} {mark : Char} (h : mark ∉ back) (t : Text) :
    (t ++ back).cut? [mark] = (t.cut? [mark]).map (Prod.map id (· ++ back)) := by
  induction t with
  | nil =>
    have hnone : cut? back [mark] = none := by
      rw [Option.eq_none_iff_forall_ne_some]
      rintro ⟨before, after⟩ hcut
      exact h (by simp [eq_of_cut? hcut])
    rw [List.nil_append, hnone]
    rfl
  | cons c rest ih =>
    rw [List.cons_append, cut?, cut?]
    by_cases hc : mark = c
    · simp [hc]
    · rw [if_neg (by simp [hc]), if_neg (by simp [hc]), ih]
      cases cut? rest [mark] <;> rfl

theorem map_trim_cut?_trim {mark : Char} (hmark : isBlank mark = false) (t : Text) :
    (t.trim.cut? [mark]).map (Prod.map trim trim) = (t.cut? [mark]).map (Prod.map trim trim) := by
  obtain ⟨left, right, ht, hleft, hright⟩ := exists_eq_trim t
  have hcut : t.cut? [mark] =
      (t.trim.cut? [mark]).map (Prod.map (left ++ ·) (· ++ right)) := by
    calc t.cut? [mark] = cut? (left ++ t.trim ++ right) [mark] := by rw [← ht]
      _ = ((t.trim.cut? [mark]).map (Prod.map (left ++ ·) id)).map (Prod.map id (· ++ right)) := by
        rw [cut?_append_back (not_mem_of_blank hright hmark),
          cut?_append_front (not_mem_of_blank hleft hmark)]
      _ = _ := by
        rw [Option.map_map]
        rfl
  rw [hcut]
  cases t.trim.cut? [mark] with
  | none => rfl
  | some parts =>
    simp only [Option.map_some, Prod.map, trim_prepend_blank hleft, trim_append_blank hright]

end Text

theorem shape_trim (line : Text) : LineShape.of line.trim = LineShape.of line := by
  unfold LineShape.of
  rw [Text.trim_trim]

theorem stringPiece_trim (line : Text) : stringPiece line.trim = stringPiece line := by
  unfold stringPiece
  rw [Text.trim_trim]

namespace State

theorem takeContent_trim (s : State) (line : Text) :
    s.takeContent line.trim = s.takeContent line := by
  have hparts : (line.trim.cut? "=").map (Prod.map Text.trim Text.trim) =
      (line.cut? "=").map (Prod.map Text.trim Text.trim) :=
    Text.map_trim_cut?_trim (by decide) line
  unfold takeContent
  cases htrim : line.trim.cut? "=" with
  | none =>
    cases hline : line.cut? "=" with
    | none => rfl
    | some parts =>
      rw [htrim, hline] at hparts
      cases hparts
  | some trimmed =>
    cases hline : line.cut? "=" with
    | none =>
      rw [htrim, hline] at hparts
      cases hparts
    | some parts =>
      simp only [htrim, hline, Option.map_some, Option.some.injEq, Prod.map, Prod.mk.injEq]
        at hparts
      simp only [hparts.1, hparts.2]

theorem takeLine_trim (s : State) (line : Text) : s.takeLine line.trim = s.takeLine line := by
  unfold takeLine
  rw [shape_trim, takeContent_trim]

theorem takePending_trim (s : State) (pending : Pending) (line : Text) :
    s.takePending pending line.trim = s.takePending pending line := by
  cases pending with
  | string name pieces => simp only [takePending, stringPiece_trim, Text.trim_trim]
  | array name joined start =>
    have hend := Text.mem_trim_iff (c := ']') (by decide) line
    simp only [takePending, Text.trim_trim, hend]

theorem step_trim (s : State) (line : Text) : s.step line.trim = s.step line := by
  unfold step
  simp only [takePending_trim, takeLine_trim]

theorem run_map_trim (s : State) (lines : List Text) :
    (s.run (lines.map Text.trim)).1 = (s.run lines).1 := by
  induction lines generalizing s with
  | nil => rfl
  | cons line rest ih =>
    simp only [List.map_cons, run, step_trim]
    cases s.step line with
    | error e => rfl
    | ok next => exact ih next

end State

theorem ofLines_eq_run_trim (lines : List Text) :
    Document.ofLines lines =
      ((State.initial 0).run (lines.map fun line => line.uncommented.trim)).1 := by
  have htrim : (lines.map fun line => line.uncommented.trim) =
      (lines.map stripComment).map Text.trim := by
    rw [List.map_map]
    exact List.map_congr_left fun line _ => (trim_stripComment line).symm
  rw [htrim, State.run_map_trim]
  rfl

/-- A line with white space around it and maybe a comment behind, where the line itself leaves no
quote open. -/
inductive Relaid (line : Text) : Text → Prop
  | spaced {left right : Text} (hleft : left.all isBlank = true)
      (hright : right.all isBlank = true) : Relaid line (left ++ line ++ right)
  | commented {left right : Text} (hleft : left.all isBlank = true)
      (hright : right.all isBlank = true) (hquotes : OpenQuote.after none line = none)
      (comment : Text) : Relaid line (left ++ line ++ right ++ " //" ++ comment)

theorem Relaid.trim_uncommented {line relaid : Text} (h : Relaid line relaid) :
    relaid.uncommented.trim = line.uncommented.trim := by
  cases h with
  | spaced hleft hright =>
    rw [List.append_assoc, Text.uncommented_prepend_blank hleft, Text.trim_prepend_blank hleft,
      Text.trim_uncommented_append_blank hright]
  | @commented left right hleft hright hquotes comment =>
    have hgap : (right ++ [' ']).all isBlank = true := by
      rw [List.all_append, hright]
      rfl
    have hassoc : left ++ line ++ right ++ " //" ++ comment =
        left ++ (line ++ (right ++ [' '] ++ ("//" ++ comment))) := by simp
    rw [hassoc, Text.uncommented_prepend_blank hleft, Text.trim_prepend_blank hleft,
      Text.trim_uncommented_append_comment hgap (by simp) hquotes]

/-- White space around lines and comments behind them do not change what the lines denote, and
neither does taking the comments away beforehand. -/
theorem ofLines_eq_of_relaid :
    (∀ lines relaid : List Text, List.Forall₂ Relaid lines relaid →
      Document.ofLines relaid = Document.ofLines lines) ∧
    (∀ line, stripComment (stripComment line) = stripComment line) ∧
    ∀ lines : List Text, Document.ofLines (lines.map stripComment) = Document.ofLines lines := by
  refine ⟨fun lines relaid h => ?_, stripComment_stripComment, fun lines => ?_⟩
  · have htexts : (relaid.map fun line => line.uncommented.trim) =
        lines.map fun line => line.uncommented.trim := by
      induction h with
      | nil => rfl
      | cons hline _ ih => rw [List.map_cons, List.map_cons, hline.trim_uncommented, ih]
    rw [ofLines_eq_run_trim, ofLines_eq_run_trim, htexts]
  · have hstrip : (lines.map stripComment).map stripComment = lines.map stripComment := by
      rw [List.map_map]
      exact List.map_congr_left fun line _ => stripComment_stripComment line
    unfold Document.ofLines Reader.ofLines
    rw [hstrip]

theorem ofLines_eq_of_relaid_block :
    let lines : List Text := ["p \x7b", "a = 'x' \\", "'y'", "u = \"//\"", "\x7d"]
    let relaid : List Text :=
      ["p \x7b // \x7b", "  a = 'x' \\ // \"", " 'y' ", " u = \"//\"  // \"//\"", "\x7d //"]
    List.Forall₂ Relaid lines relaid ∧ Document.ofLines relaid = Document.ofLines lines := by
  intro lines relaid
  have hrelaid : List.Forall₂ Relaid lines relaid :=
    .cons (@Relaid.commented _ [] [] rfl rfl rfl " \x7b") <|
    .cons (@Relaid.commented _ "  ".toList [] rfl rfl rfl " \"") <|
    .cons (@Relaid.spaced _ " ".toList " ".toList rfl rfl) <|
    .cons (@Relaid.commented _ " ".toList " ".toList rfl rfl rfl " \"//\"") <|
    .cons (@Relaid.commented _ [] [] rfl rfl rfl []) .nil
  exact ⟨hrelaid, ofLines_eq_of_relaid.1 lines relaid hrelaid⟩

end BlockConfig
