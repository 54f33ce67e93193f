import BlockConfig.Proofs.Comment
import BlockConfig.Reread

set_option autoImplicit false

namespace BlockConfig

namespace Text

theorem lines_of_newline_not_mem {t : Text} (hne : t ≠ []) (h : '\n' ∉ t) : t.lines = [t] := by
  induction t with
  | nil => exact absurd rfl hne
  | cons c rest ih =>
    simp only [List.mem_cons, not_or] at h
    cases rest with
    | nil =>
      rw [lines]
      · rfl
      · exact fun he => h.1 he.symm
      · simp
    | cons d more =>
      rw [lines, ih (by simp) h.2]
      · exact fun he => h.1 he.symm
      · intro others _ he
        rw [List.cons.injEq] at he
        exact h.2 (by simp [he.1])

end Text

def entryLine (t : Text) : Text := "x =" ++ Text.trimEnd (' ' :: t.uncommented)

theorem stripComment_entry (t : Text) : stripComment ("x = " ++ t) = entryLine t := by
  have hcut : Text.cutUnquoted? ("x = " ++ t) "//" =
      (t.cutUnquoted? "//").map (Prod.map ("x = ".toList ++ ·) id) :=
    Text.cutUnquoted?_append_front "x = " (by decide) (by decide) t
  have htrim : ∀ u : Text, Text.trimEnd ("x = " ++ u) = "x =" ++ Text.trimEnd (' ' :: u) := fun u =>
    Text.trimEnd_append_of_solid (s := "x =") (by simp; decide) (' ' :: u)
  have hstart : ¬ List.isPrefixOf "//".toList (Text.trimStart ("x = " ++ t)) = true := by
    intro h
    cases h
  unfold stripComment entryLine Text.uncommented
  rw [if_neg hstart, hcut]
  cases t.cutUnquoted? "//" with
  | none => exact htrim t
  | some parts => exact htrim parts.1

theorem trim_entryLine (t : Text) : (entryLine t).trim = entryLine t := by
  have hstart : (entryLine t).trimStart = entryLine t := Text.trimStart_of_head (by decide)
  rw [Text.trim, hstart, ← stripComment_entry, trimEnd_stripComment]

def readAlone (raw : Text) : Option (Kind × Value) :=
  if continues raw then some (.string, .scalar (.string (stringPiece raw)))
  else if raw.head? = some '[' ∧ ']' ∉ raw then none
  else (evaluate raw []).1.toOption

def entered? (result : Except Error Document) : Option (Kind × Value) :=
  match result with
  | .ok d => (Table.get? d.attributes "x").map fun a => (a.kind, a.value)
  | .error _ => none

theorem survives_iff_entered? (v : Value) (k : Kind) :
    v.survives k = true ↔ ∃ w, entered? v.reread = some (k, w) ∧ w.same v = true := by
  unfold Value.survives entered?
  cases v.reread with
  | error e => simp
  | ok d =>
    simp only
    cases Table.get? d.attributes "x" with
    | none => simp
    | some a => simp [and_assoc]

theorem cut?_entryLine (t : Text) :
    (entryLine t).cut? "=" = some ("x ".toList, Text.trimEnd (' ' :: t.uncommented)) := rfl

theorem run_single (line : Text) :
    ((State.initial 0).run [line]).1 = (State.initial 1).takeLine line >>= State.finish := by
  have hstep : (State.initial 0).step line = (State.initial 1).takeLine line := rfl
  rw [State.run, hstep]
  cases (State.initial 1).takeLine line <;> rfl

theorem entered?_define (raw : Text) :
    entered? ((Level.empty.define "x" raw 1).map (State.initial 1).setLevel >>= State.finish) =
      (evaluate raw []).1.toOption := by
  have hscope : Level.empty.scope = [] := rfl
  rw [Level.define, hscope]
  rcases evaluate raw [] with ⟨result, last⟩
  cases result with
  | error e => rfl
  | ok found =>
    have hget : Table.get? (last.add ⟨"x", found.1, found.2⟩) "x" = some ⟨"x", found.1, found.2⟩ :=
      (Table.get?_insert ..).trans (if_pos rfl)
    exact congrArg (Option.map fun a : Attribute => (a.kind, a.value)) hget

theorem entered?_defineString (piece : Text) :
    entered? (State.finish { State.initial 1 with pending := some (.string "x" [piece]) }) =
      some (.string, .scalar (.string piece)) := by
  have hjoined : List.intercalate " ".toList [piece] = piece := List.intercalate_singleton
  rw [State.finish]
  change entered? (.ok ⟨(Level.defineString .empty "x" [piece]).scope, _⟩) = _
  rw [Level.defineString, hjoined]
  rfl

theorem entered?_run (t : Text) :
    entered? ((State.initial 0).run [entryLine t]).1 =
      if LineShape.of (entryLine t) = .content then readAlone t.uncommented.trim else none := by
  have hraw : Text.trim (Text.trimEnd (' ' :: t.uncommented)) = t.uncommented.trim :=
    Text.trim_trimEnd _
  have hname : Text.trim "x ".toList = "x".toList := by decide
  have hne : ¬ "x".toList.isEmpty = true := by decide
  rw [run_single, State.takeLine]
  cases hshape : LineShape.of (entryLine t) with
  | blank => rfl
  | closing => rfl
  | opening name body =>
    by_cases hempty : name.isEmpty
    · simp only [if_pos hempty]
      rfl
    · simp only [if_neg hempty]
      match body with
      | none => rfl
      | some [] => rfl
      | some (_ :: _) => rfl
  | content =>
    rw [if_pos rfl, readAlone]
    simp only [State.takeContent, cut?_entryLine, hraw, hname, if_neg hne]
    by_cases hcont : continues t.uncommented.trim
    · simp only [if_pos hcont]
      exact entered?_defineString _
    by_cases harray : t.uncommented.trim.head? = some '[' ∧ ']' ∉ t.uncommented.trim
    · simp only [if_neg hcont, if_pos harray]
      rfl
    simp only [if_neg hcont, if_neg harray]
    exact entered?_define _

/-- A value survives where its line holds no brace, and the text up to a comment stands for the
value. -/
theorem survives_iff {v : Value} (h : '\n' ∉ v.source) (k : Kind) :
    v.survives k = true ↔ LineShape.of (entryLine v.source) = .content ∧
      ∃ w, readAlone v.source.uncommented.trim = some (k, w) ∧ w.same v = true := by
  have hline : '\n' ∉ "x = ".toList ++ v.source := by simpa using h
  have hread : v.reread = ((State.initial 0).run [entryLine v.source]).1 := by
    rw [Value.reread, Document.ofSource, Text.lines_of_newline_not_mem (by simp) hline,
      ← stripComment_entry]
    rfl
  rw [survives_iff_entered?, hread, entered?_run]
  by_cases hshape : LineShape.of (entryLine v.source) = .content
  · simp only [hshape, if_true, true_and]
  · simp [hshape]

theorem shape_entryLine_iff {t : Text} (hne : t ≠ []) (htrim : t.trim = t)
    (hcomment : t.cutUnquoted? "//" = none) :
    LineShape.of (entryLine t) = .content ↔
      t.cutUnquoted? "\x7b" = none ∧ t.cutUnquoted? "\x7d" = none := by
  have hlast : ∀ c ∈ List.getLast? (' ' :: t), isBlank c = false := by
    rw [List.getLast?_cons_of_ne_nil hne]
    exact Text.isBlank_getLast?_of_trim htrim
  have hentry : entryLine t = "x = " ++ t := by
    rw [entryLine, Text.uncommented_of_none hcomment, Text.trimEnd_of_getLast hlast]
    rfl
  have hbrace : ∀ mark ∈ ['{', '}'], Text.cutUnquoted? ("x = " ++ t) [mark] =
      (t.cutUnquoted? [mark]).map (Prod.map ("x = ".toList ++ ·) id) := by
    intro mark hmark
    have hnot : mark ∉ "x = ".toList := by
      rcases (by simpa using hmark : mark = '{' ∨ mark = '}') with rfl | rfl <;> decide
    exact Text.cutUnquoted?_append_front "x = " (by decide) hnot t
  rw [LineShape.of, trim_entryLine, hentry, hbrace '{' (by simp), hbrace '}' (by simp)]
  change _ ↔ t.cutUnquoted? ['{'] = none ∧ t.cutUnquoted? ['}'] = none
  cases t.cutUnquoted? ['{'] with
  | some parts => simp
  | none => cases t.cutUnquoted? ['}'] <;> simp

end BlockConfig
