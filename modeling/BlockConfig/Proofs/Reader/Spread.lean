import BlockConfig.Proofs.Reader.Frame
import BlockConfig.Proofs.Reader.Layout
import BlockConfig.Proofs.Reader.WellFormed
import BlockConfig.Proofs.Reread.Sealed

set_option autoImplicit false

/-!
Attributes written over several lines. Where the lines say what one line says, the source denotes
the same, and the errors behind them come as many lines later as there are more of them.
-/

namespace BlockConfig

structure Text.IsPlainName (name : Text) : Prop extends name.IsAttributeName where
  not_quote : ∀ c ∈ name, isQuote c = false
  not_mark : '/' ∉ name ∧ '{' ∉ name ∧ '}' ∉ name

theorem Text.isPlainName_of_all {name : Text} (hne : name ≠ []) (h : name.all isNameChar = true) :
    name.IsPlainName := by
  have hblank : ∀ c ∈ name, isBlank c = false := fun c hc =>
    isBlank_of_isNameChar (List.all_eq_true.1 h c hc)
  have hquote : ∀ c ∈ name, isQuote c = false := fun c hc =>
    isQuote_of_isNameChar (List.all_eq_true.1 h c hc)
  exact ⟨⟨⟨hne, trim_of_solid hblank⟩, not_mem_of_all h rfl⟩, hquote,
    not_mem_of_all h rfl, not_mem_of_all h rfl, not_mem_of_all h rfl⟩

def attributeLine (name value : Text) : Text := name ++ " = ".toList ++ value

namespace Text

/-- A text that is all there is to a line: nothing goes from its ends, and it holds no comment and
no brace outside quotes. -/
structure IsValue (t : Text) : Prop where
  ne_nil : t ≠ []
  trim_eq : t.trim = t
  unmarked : t.IsUnmarked

theorem IsValue.stripComment {t : Text} (h : t.IsValue) : stripComment t = t := by
  rw [stripComment_eq, uncommented_of_none (h.unmarked '/' (.inl rfl) ['/']),
    trimEnd_of_getLast (isBlank_getLast?_of_trim h.trim_eq)]

end Text

section AttributeLine

variable {name value : Text}

theorem Text.IsPlainName.all_isOrdinary (hname : name.IsPlainName) :
    name.all isOrdinary = true := by
  refine List.all_eq_true.2 fun c hc => ?_
  have hmark : ∀ mark ∈ ['/', '{', '}'], c ≠ mark := by
    rintro mark hmark rfl
    rcases (by simpa using hmark : c = '/' ∨ c = '{' ∨ c = '}') with rfl | rfl | rfl
    · exact hname.not_mark.1 hc
    · exact hname.not_mark.2.1 hc
    · exact hname.not_mark.2.2 hc
  simp [isOrdinary, hname.not_quote c hc, hmark]

theorem isValue_attributeLine (hname : name.IsPlainName) (hvalue : value.IsValue) :
    (attributeLine name value).IsValue := by
  have hfront : (name ++ " = ".toList).all isOrdinary = true := by
    rw [List.all_append, hname.all_isOrdinary]
    rfl
  refine ⟨by simp [attributeLine, hname.ne_nil], Text.trim_of_ends ?_ ?_, ?_⟩
  · intro c hc
    refine Text.isBlank_head?_of_trim hname.trim_eq c ?_
    rwa [attributeLine, List.append_assoc, List.head?_append_of_ne_nil _ hname.ne_nil] at hc
  · intro c hc
    refine Text.isBlank_getLast?_of_trim hvalue.trim_eq c ?_
    rwa [attributeLine, List.getLast?_append_of_ne_nil _ hvalue.ne_nil] at hc
  · exact hvalue.unmarked.prepend hfront

theorem shape_of_isValue {t : Text} (h : t.IsValue) : LineShape.of t = .content := by
  have hne : ¬ t.isEmpty = true := by simpa using h.ne_nil
  simp [LineShape.of, h.trim_eq, hne, h.unmarked '{' (.inr (.inl rfl)) [],
    h.unmarked '}' (.inr (.inr rfl)) []]

theorem cut?_attributeLine (hname : name.IsPlainName) (value : Text) :
    (attributeLine name value).cut? "=" = some (name ++ [' '], ' ' :: value) := by
  have hfront : '=' ∉ name ++ [' '] := by simp [hname.no_equals]
  have hline : attributeLine name value = (name ++ [' ']) ++ '=' :: ' ' :: value := by
    simp [attributeLine]
  have hthere : Text.cut? ('=' :: ' ' :: value) ['='] = some ([], ' ' :: value) := by
    simp [Text.cut?]
  rw [hline]
  refine (Text.cut?_append_front hfront _).trans ?_
  rw [hthere, Option.map_some, Prod.map_apply, List.append_nil]
  rfl

theorem Text.IsPlainName.trim_append_blank (hname : name.IsPlainName) :
    (name ++ [' ']).trim = name := by
  rw [Text.trim_append_blank (by decide), hname.trim_eq]

section ReadAttribute

variable (hname : name.IsPlainName) (level : Level) (start : Nat) (rest : List Text)

include hname

theorem readAttribute_of_continues (hvalue : value.trim = value) (h : continues value = true) :
    readAttribute level start (attributeLine name value) rest =
      .ok (level.defineString name (stringPiece value :: stringLines rest),
        (stringLines rest).length) := by
  have hback : Text.trim (' ' :: value) = value := hvalue
  have hne : ¬ name.isEmpty = true := by simpa using hname.ne_nil
  simp only [readAttribute_eq, cut?_attributeLine hname, hname.trim_append_blank, hback, if_neg hne,
    if_pos h]

theorem readAttribute_of_open {inner : Text} (hvalue : Text.trim ('[' :: inner) = '[' :: inner)
    (h : ¬ continues ('[' :: inner) = true) (hclose : ']' ∉ inner) {all : Text} {n : Nat}
    (hall : arrayLines ('[' :: inner) rest = .ok (all, n)) :
    readAttribute level start (attributeLine name ('[' :: inner)) rest =
      (level.define name all start).map fun next => (next, n) := by
  have hback : Text.trim (' ' :: '[' :: inner) = '[' :: inner := hvalue
  have hne : ¬ name.isEmpty = true := by simpa using hname.ne_nil
  have hopen : List.head? ('[' :: inner) = some '[' ∧ ']' ∉ '[' :: inner := by simp [hclose]
  simp only [readAttribute_eq, cut?_attributeLine hname, hname.trim_append_blank, hback, if_neg hne,
    if_neg h, valueText, if_pos hopen, hall]

theorem readAttribute_of_single (hvalue : value.IsSingle) (htrim : value.trim = value) :
    readAttribute level start (attributeLine name value) rest =
      (level.define name value start).map fun next => (next, 0) := by
  have hback : Text.trim (' ' :: value) = value := htrim
  have hne : ¬ name.isEmpty = true := by simpa using hname.ne_nil
  have hcontinues : ¬ continues value = true := by simp [hvalue.not_continues]
  simp only [readAttribute_eq, cut?_attributeLine hname, hname.trim_append_blank, hback, if_neg hne,
    if_neg hcontinues, valueText, if_neg hvalue.not_open]

end ReadAttribute

end AttributeLine

namespace State

theorem run_attribute {s : State} (hs : s.pending = none) {line : Text}
    (hshape : LineShape.of line = .content) (rest : List Text) :
    (s.run (line :: rest)).1 =
      match readAttribute s.level (s.line + 1) line rest with
      | .error e => .error e
      | .ok (next, k) => (((s.setLevel next).atLine (s.line + 1 + k)).run (rest.drop k)).1 := by
  have hcontent := run_content (s := s.atLine (s.line + 1)) hs line rest
  rw [run_cons hs, takeLine, hshape]
  simp only [level_atLine, line_atLine, setLevel_atLine, atLine_atLine] at hcontent
  exact hcontent

/-- Lines that enter what one line enters are as good as that line: the rest denotes the same, and
its errors come later by the lines between. -/
theorem run_spread {s : State} (hs : s.pending = none) (hstarts : s.StartsBehind)
    {line first : Text} {others after : List Text} {next : Level}
    (hline : LineShape.of line = .content) (hfirst : LineShape.of first = .content)
    (hone : readAttribute s.level (s.line + 1) line after = .ok (next, 0))
    (hspread : readAttribute s.level (s.line + 1) first (others ++ after) =
      .ok (next, others.length)) :
    (s.run (first :: (others ++ after))).1 =
      (s.run (line :: after)).1.mapError (Error.raise (s.line + 1) others.length) := by
  let t := (s.setLevel next).atLine (s.line + 1)
  have ht : t.pending = none := by simpa [t] using hs
  have hbehind : t.StartsBehind := fun b hb =>
    (startsBehind_setLevel hstarts next b hb).trans (by simp [t])
  -- behind the attribute both runs are in `t`, one of them as many lines later
  have hlater := raise_of_startsBehind ht hbehind others.length
  rw [run_attribute hs hline, run_attribute hs hfirst, hone, hspread]
  simp only [List.drop_left, List.drop_zero, Nat.add_zero]
  exact (congrArg (fun u : State => (u.run after).1) hlater).symm.trans
    (run_raise others.length (Nat.le_refl t.line) after)

end State

theorem ofLines_append_of_stepAll {before : List Text} {s : State}
    (hs : (State.initial 0).stepAll (before.map stripComment) = .ok s) (lines : List Text) :
    Document.ofLines (before ++ lines) = (s.run (lines.map stripComment)).1 := by
  unfold Document.ofLines Reader.ofLines Reader.read
  rw [List.map_append, State.run_append_of_stepAll_ok hs]

theorem map_stripComment_of_isValue {lines : List Text} (h : ∀ line ∈ lines, line.IsValue) :
    lines.map stripComment = lines := by
  rw [List.map_congr_left fun line hline => (h line hline).stripComment]
  exact List.map_id _

theorem ofLines_spread {before : List Text} {s : State}
    (hs : (State.initial 0).stepAll (before.map stripComment) = .ok s) (hpending : s.pending = none)
    (hstarts : s.StartsBehind) {line first : Text} {others : List Text} (hline : line.IsValue)
    (hlines : ∀ l ∈ first :: others, l.IsValue) {after : List Text} {next : Level}
    (hone : readAttribute s.level (s.line + 1) line (after.map stripComment) = .ok (next, 0))
    (hspread : readAttribute s.level (s.line + 1) first (others ++ after.map stripComment) =
      .ok (next, others.length)) :
    Document.ofLines (before ++ (first :: others ++ after)) =
      (Document.ofLines (before ++ line :: after)).mapError
        (Error.raise (before.length + 1) others.length) := by
  have hcount : s.line = before.length := by
    rw [State.line_of_stepAll_initial hs, List.length_map]
  have hshape := shape_of_isValue (hlines first (by simp))
  have hrun := State.run_spread hpending hstarts (shape_of_isValue hline) hshape hone hspread
  rw [hcount] at hrun
  rw [ofLines_append_of_stepAll hs, ofLines_append_of_stepAll hs, List.map_append,
    map_stripComment_of_isValue hlines, List.map_cons, hline.stripComment]
  exact hrun

def pieceLines : List Text → List Text
  | [] => []
  | [last] => [doubleQuoted last]
  | piece :: next :: more => (doubleQuoted piece ++ " \\".toList) :: pieceLines (next :: more)

section Pieces

variable {piece : Text}

theorem isValue_doubleQuoted (h : '"' ∉ piece) : (doubleQuoted piece).IsValue :=
  ⟨by simp [doubleQuoted], Text.trim_wrap (by decide) (by decide) piece,
    (Text.sealed_wrap rfl h).isUnmarked⟩

theorem isValue_continued (h : '"' ∉ piece) : (doubleQuoted piece ++ " \\".toList).IsValue := by
  refine ⟨by simp [doubleQuoted], Text.trim_of_ends (by simp [doubleQuoted]; decide) ?_, ?_⟩
  · rw [List.getLast?_append_of_ne_nil _ (by decide)]
    rintro c ⟨⟩
    decide
  · exact (Text.sealed_wrap rfl h).isUnmarked_append (Text.isUnmarked_of_all (by decide))

theorem continues_continued (piece : Text) :
    continues (doubleQuoted piece ++ " \\".toList) = true := by
  rw [continues, List.getLast?_append_of_ne_nil _ (by decide)]
  rfl

theorem continues_doubleQuoted (piece : Text) : continues (doubleQuoted piece) = false :=
  continues_wrap '"' '"' piece

theorem stringPiece_continued (h : '"' ∉ piece) :
    stringPiece (doubleQuoted piece ++ " \\".toList) = piece := by
  have hlast : (doubleQuoted piece ++ " \\".toList).dropEnd? '\\' =
      some (doubleQuoted piece ++ [' ']) := by
    have hend : doubleQuoted piece ++ " \\".toList = doubleQuoted piece ++ [' '] ++ ['\\'] := by simp
    rw [hend, Text.dropEnd?, List.getLast?_concat, if_pos rfl, List.dropLast_concat]
  rw [stringPiece, (isValue_continued h).trim_eq, hlast, Option.getD_some,
    Text.trim_append_blank (by decide), (isValue_doubleQuoted h).trim_eq]
  exact Text.unquote_wrap rfl piece

theorem stringPiece_doubleQuoted (h : '"' ∉ piece) : stringPiece (doubleQuoted piece) = piece := by
  have hlast : (doubleQuoted piece).dropEnd? '\\' = none := by
    rw [Text.dropEnd?, doubleQuoted, ← List.cons_append, List.getLast?_concat, if_neg (by decide)]
  rw [stringPiece, (isValue_doubleQuoted h).trim_eq, hlast, Option.getD_none,
    (isValue_doubleQuoted h).trim_eq]
  exact Text.unquote_wrap rfl piece

end Pieces

theorem isValue_of_mem_pieceLines {pieces : List Text} (h : ∀ piece ∈ pieces, '"' ∉ piece)
    {line : Text} (hline : line ∈ pieceLines pieces) : line.IsValue := by
  induction pieces using pieceLines.induct with
  | case1 => cases hline
  | case2 last =>
    rw [pieceLines, List.mem_singleton] at hline
    exact hline ▸ isValue_doubleQuoted (h last (by simp))
  | case3 piece next more ih =>
    rw [pieceLines, List.mem_cons] at hline
    rcases hline with rfl | hline
    · exact isValue_continued (h piece (by simp))
    · exact ih (fun p hp => h p (List.mem_cons_of_mem _ hp)) hline

@[simp] theorem length_pieceLines (pieces : List Text) :
    (pieceLines pieces).length = pieces.length := by
  induction pieces using pieceLines.induct with
  | case1 => rfl
  | case2 last => rfl
  | case3 piece next more ih => simpa [pieceLines] using ih

theorem stringLines_pieceLines {pieces : List Text} (hne : pieces ≠ [])
    (h : ∀ piece ∈ pieces, '"' ∉ piece) (after : List Text) :
    stringLines (pieceLines pieces ++ after) = pieces := by
  induction pieces using pieceLines.induct with
  | case1 => exact absurd rfl hne
  | case2 last =>
    have hlast := h last (by simp)
    rw [pieceLines, List.singleton_append, stringLines, (isValue_doubleQuoted hlast).trim_eq,
      continues_doubleQuoted, stringPiece_doubleQuoted hlast]
    rfl
  | case3 piece next more ih =>
    have hpiece := h piece (by simp)
    have hmore := ih (by simp) fun p hp => h p (List.mem_cons_of_mem _ hp)
    rw [pieceLines, List.cons_append, stringLines, (isValue_continued hpiece).trim_eq,
      continues_continued, if_pos rfl, stringPiece_continued hpiece, hmore]

def continuedString (name first : Text) (others : List Text) : List Text :=
  attributeLine name (doubleQuoted first ++ " \\".toList) :: pieceLines others

def joinedPieces (pieces : List Text) : Text := List.intercalate " ".toList pieces

theorem not_mem_joinedPieces {c : Char} (hc : c ≠ ' ') {pieces : List Text}
    (h : ∀ piece ∈ pieces, c ∉ piece) : c ∉ joinedPieces pieces := by
  induction pieces with
  | nil => exact List.not_mem_nil
  | cons piece rest ih =>
    have hpiece := h piece (by simp)
    have hrest := ih fun p hp => h p (List.mem_cons_of_mem _ hp)
    cases rest with
    | nil => simpa [joinedPieces] using hpiece
    | cons next more =>
      rw [joinedPieces, List.intercalate_cons_cons]
      simpa [joinedPieces, hpiece, hc] using hrest

theorem isSingle_doubleQuoted (t : Text) : (doubleQuoted t).IsSingle :=
  isSingle_of_quote rfl (continues_doubleQuoted t)

theorem evaluate_doubleQuoted (t : Text) (scope : Scope) :
    evaluate (doubleQuoted t) scope = (.ok (.string, .scalar (.string t)), scope) := by
  have hquoted : (doubleQuoted t).isQuoted = true := Text.isQuoted_wrap rfl t
  have hform : classify (doubleQuoted t) = .ok .string := by rw [classify, if_pos hquoted]
  have hpiece : (doubleQuoted t).unquote = t := Text.unquote_wrap rfl t
  rw [evaluate_of_not_keyword (isSingle_doubleQuoted t).not_if (isSingle_doubleQuoted t).not_for,
    evaluatePlain_of_classify (by decide) hform, evaluateAs, hpiece]
  rfl

theorem define_doubleQuoted (level : Level) (name : Text) (pieces : List Text) (start : Nat) :
    level.define name (doubleQuoted (joinedPieces pieces)) start =
      .ok (level.defineString name pieces) := by
  rw [Level.define, evaluate_doubleQuoted]
  rfl

/-- Continued lines are read as the line that their pieces make, joined by single spaces. -/
theorem ofLines_continuedString {before : List Text}
    (hbefore : ∀ e, Document.ofLines before = .error e → ∃ b : OpenBlock, e = b.unclosed)
    (hbeforeEnd : ∀ line ∈ (before.map stripComment).getLast?, continues line = false)
    {name : Text} (hname : name.IsPlainName) {first second : Text} {more : List Text}
    (hpieces : ∀ piece ∈ first :: second :: more, '"' ∉ piece) (after : List Text) :
    Document.ofLines (before ++ (continuedString name first (second :: more) ++ after)) =
      (Document.ofLines (before ++
        attributeLine name (doubleQuoted (joinedPieces (first :: second :: more))) :: after)).mapError
          (Error.raise (before.length + 1) (more.length + 1)) := by
  obtain ⟨s, hs, hpending, -, hstarts⟩ := exists_state_of_lines hbefore hbeforeEnd
  have hfirst := hpieces first (by simp)
  have hothers : ∀ piece ∈ second :: more, '"' ∉ piece := fun p hp =>
    hpieces p (List.mem_cons_of_mem _ hp)
  have hvalue := isValue_doubleQuoted (not_mem_joinedPieces (by decide) hpieces)
  have hlines : ∀ line ∈ continuedString name first (second :: more), line.IsValue :=
    List.forall_mem_cons.2 ⟨isValue_attributeLine hname (isValue_continued hfirst),
      fun line hline => isValue_of_mem_pieceLines hothers hline⟩
  have hone : readAttribute s.level (s.line + 1)
      (attributeLine name (doubleQuoted (joinedPieces (first :: second :: more))))
      (after.map stripComment) = .ok (s.level.defineString name (first :: second :: more), 0) := by
    rw [readAttribute_of_single hname _ _ _ (isSingle_doubleQuoted _) hvalue.trim_eq,
      define_doubleQuoted]
    rfl
  have hspread : readAttribute s.level (s.line + 1)
      (attributeLine name (doubleQuoted first ++ " \\".toList))
      (pieceLines (second :: more) ++ after.map stripComment) =
        .ok (s.level.defineString name (first :: second :: more),
          (pieceLines (second :: more)).length) := by
    rw [readAttribute_of_continues hname _ _ _ (isValue_continued hfirst).trim_eq
      (continues_continued first), stringPiece_continued hfirst,
      stringLines_pieceLines (by simp) hothers, length_pieceLines]
  have hspreads := ofLines_spread hs hpending hstarts (isValue_attributeLine hname hvalue) hlines
    hone hspread
  rwa [length_pieceLines] at hspreads

theorem ofLines_continuedString_nested :
    let before : List Text := ["p \x7b", "q \x7b // inner"]
    let after : List Text := ["\x7d", "y = 1 / 0"]
    let short := Document.ofLines (before ++
      attributeLine "x" (doubleQuoted "a \x7d // b it's = [1 c \\ ") :: after)
    let long := Document.ofLines (before ++
      (continuedString "x" "a \x7d // b" ["it's = [1", "c \\", ""] ++ after))
    long = short.mapError (Error.raise 3 3) ∧ ∃ e, short = .error e ∧ e.line = 5 ∧
      long = .error (e.raise 3 3) ∧ (e.raise 3 3).line = 8 := by
  intro before after short long
  have hopen : Document.ofLines before = .error (OpenBlock.unclosed ⟨"q", 2, .empty⟩) := rfl
  have hbefore : ∀ e, Document.ofLines before = .error e → ∃ b : OpenBlock, e = b.unclosed := by
    intro e he
    rw [hopen] at he
    exact ⟨_, (Except.error.inj he).symm⟩
  have hname : Text.IsPlainName "x" := Text.isPlainName_of_all (by decide) (by decide)
  have hlong : long = short.mapError (Error.raise 3 3) :=
    ofLines_continuedString hbefore (by decide) hname (by decide) after
  obtain ⟨e, he, hline⟩ : ∃ e, short = .error e ∧ e.line = 5 := ⟨_, rfl, rfl⟩
  exact ⟨hlong, e, he, hline, by rw [hlong, he]; rfl, by simp [Error.raise, raiseLine, hline]⟩

end BlockConfig
