import BlockConfig.Proofs.Reader.Layout
import BlockConfig.Proofs.Reader.Open

set_option autoImplicit false

/-!
What stands beside a brace on its line. Only a text between the two braces of a block is refused;
any other is passed over, and the lines without it denote the same.
-/

namespace BlockConfig

namespace Text

theorem cutFrom?_replace {mark : Char} {t before after : Text} {q : OpenQuote}
    (h : cutFrom? q t [mark] = some (before, after)) (rest : Text) :
    cutFrom? q (before ++ mark :: rest) [mark] = some (before, rest) := by
  induction t generalizing q before with
  | nil => cases h
  | cons c more ih =>
    rw [cutFrom?] at h
    split at h
    · rename_i hfound
      obtain ⟨hplain, hprefix⟩ := Bool.and_eq_true_iff.1 hfound
      have hmark : mark = c := by simpa using hprefix
      cases h
      simp [cutFrom?, hmark, hplain]
    · rename_i hnot
      obtain ⟨⟨front, back⟩, hcut, heq⟩ := Option.map_eq_some_iff.1 h
      cases heq
      have hstill : ¬ (q.isPlain c && [mark].isPrefixOf (c :: (front ++ mark :: rest))) = true := by
        simpa using hnot
      rw [List.cons_append, cutFrom?, if_neg hstill, ih hcut]
      rfl

theorem trim_of_prefix {t part : Text} (ht : t.trim = t) (hpart : part <+: t)
    (hlast : ∀ c ∈ part.getLast?, isBlank c = false) : part.trim = part := by
  obtain ⟨more, rfl⟩ := hpart
  cases part with
  | nil => rfl
  | cons c rest =>
    have hhead : isBlank c = false := isBlank_head?_of_trim ht c rfl
    rw [trim, trimStart_of_head hhead, trimEnd_of_getLast hlast]

theorem all_isBlank_of_trim {t : Text} (h : t.trim = []) : t.all isBlank = true := by
  obtain ⟨left, right, ht, hleft, hright⟩ := exists_eq_trim t
  rw [ht, h, List.append_nil, List.all_append, hleft, hright]
  rfl

def throughClosing (t : Text) : Text :=
  match t.cutUnquoted? ['}'] with
  | some (body, _) => body ++ ['}']
  | none => []

/-- A text without what stands beside its braces: behind the first opening one outside quotes or,
if a closing one follows, behind that; or around a closing brace that none opens. -/
def bare (t : Text) : Text :=
  match t.cutUnquoted? ['{'] with
  | some (name, rest) => name ++ '{' :: rest.throughClosing
  | none => if (t.cutUnquoted? ['}']).isSome then ['}'] else t

/-- A text that names a block in front of a brace: it is not blank, and no opening brace outside
quotes comes before that one. -/
structure NamesBlock (name : Text) : Prop where
  solid : name.trim ≠ []
  cut : cutUnquoted? (name ++ ['{']) ['{'] = some (name, [])

inductive IsTidy : Text → Prop
  | opening {name : Text} (hname : name.NamesBlock) : IsTidy (name ++ ['{'])
  | empty {name gap : Text} (hname : name.NamesBlock) (hgap : gap.all isBlank = true) :
      IsTidy (name ++ '{' :: (gap ++ ['}']))
  | closing : IsTidy ['}']

section Bare

variable {t name rest : Text}

theorem throughClosing_isPrefix (t : Text) : t.throughClosing <+: t := by
  unfold throughClosing
  split
  · rename_i body after hcut
    rw [(eq_of_cutFrom? hcut).1]
    exact List.prefix_append _ _
  · exact List.nil_prefix

theorem cutUnquoted?_throughClosing (t : Text) :
    t.throughClosing.cutUnquoted? ['}'] = (t.cutUnquoted? ['}']).map fun p => (p.1, []) := by
  unfold throughClosing
  cases hcut : t.cutUnquoted? ['}'] with
  | none => rfl
  | some parts => exact cutFrom?_replace hcut []

theorem bare_of_opening (h : t.cutUnquoted? ['{'] = some (name, rest)) :
    t.bare = name ++ '{' :: rest.throughClosing := by rw [bare, h]

theorem bare_isPrefix_of_opening (h : t.cutUnquoted? ['{'] = some (name, rest)) : t.bare <+: t := by
  obtain ⟨more, hmore⟩ := rest.throughClosing_isPrefix
  refine ⟨more, ?_⟩
  rw [bare_of_opening h, (eq_of_cutFrom? h).1, List.append_assoc, List.append_assoc,
    List.cons_append, hmore]
  rfl

theorem bare_isInfix (t : Text) : t.bare <:+: t := by
  cases hopen : t.cutUnquoted? ['{'] with
  | some parts => exact (bare_isPrefix_of_opening hopen).isInfix
  | none =>
    rw [bare, hopen]
    cases hclose : t.cutUnquoted? ['}'] with
    | some parts => exact ⟨parts.1, parts.2, (eq_of_cutFrom? hclose).1.symm⟩
    | none => exact List.infix_rfl

theorem isBlank_getLast?_bare (h : t.cutUnquoted? ['{'] = some (name, rest)) :
    ∀ c ∈ t.bare.getLast?, isBlank c = false := by
  intro c hc
  rw [bare_of_opening h, List.getLast?_append, throughClosing] at hc
  cases hcut : rest.cutUnquoted? ['}'] with
  | none =>
    obtain rfl : c = '{' := by simpa [hcut] using hc.symm
    decide
  | some parts =>
    rw [hcut, ← List.cons_append, List.getLast?_concat, Option.some_or] at hc
    cases hc
    decide

theorem NamesBlock.cut_append (h : name.NamesBlock) (rest : Text) :
    cutUnquoted? (name ++ '{' :: rest) ['{'] = some (name, rest) := cutFrom?_replace h.cut rest

theorem namesBlock_of_cut (h : t.cutUnquoted? ['{'] = some (name, rest)) (hname : name.trim ≠ []) :
    name.NamesBlock := ⟨hname, cutFrom?_replace h []⟩

theorem IsTidy.bare_eq (h : t.IsTidy) : t.bare = t := by
  cases h with
  | @opening name hname => exact bare_of_opening hname.cut
  | @empty name gap hname hgap =>
    have hgapped : throughClosing (gap ++ ['}']) = gap ++ ['}'] := by
      have hbrace : '}' ∉ gap := not_mem_of_blank hgap (by decide)
      have hcut : cutUnquoted? (gap ++ ['}']) ['}'] = some (gap, []) :=
        cutUnquoted?_append (by decide) (isQuote_of_blank hgap) hbrace []
      rw [throughClosing, hcut]
    rw [bare_of_opening (hname.cut_append _), hgapped]
  | closing => rfl

theorem isTidy_iff : t.IsTidy ↔ t.bare.IsTidy ∧ t.bare = t := by
  constructor
  · intro h
    rw [h.bare_eq]
    exact ⟨h, rfl⟩
  · rintro ⟨h, heq⟩
    rwa [heq] at h

end Bare

end Text

def LineShape.hasBrace : LineShape → Bool
  | .opening _ _ | .closing => true
  | .blank | .content => false

section Shape

variable {t name rest : Text}

theorem shape_of_cut (h : t.trim.cutUnquoted? ['{'] = some (name, rest)) :
    LineShape.of t = .opening name.trim ((rest.cutUnquoted? ['}']).map fun p => p.1.trim) := by
  have hne : t.trim.isEmpty = false := by
    cases htrim : t.trim with
    | nil =>
      rw [htrim] at h
      cases h
    | cons c more => rfl
  simp only [LineShape.of, hne, h]
  rfl

theorem shape_cases (t : Text) :
    (∃ name rest, t.trim.cutUnquoted? ['{'] = some (name, rest) ∧
      LineShape.of t =
        .opening name.trim ((rest.cutUnquoted? ['}']).map fun p => p.1.trim)) ∨
    (LineShape.of t = .closing ∧ t.trim.bare = ['}']) ∨
    ((LineShape.of t).hasBrace = false ∧ t.trim.bare = t.trim) := by
  cases hopen : t.trim.cutUnquoted? ['{'] with
  | some parts => exact .inl ⟨_, _, rfl, shape_of_cut hopen⟩
  | none =>
    right
    by_cases hclose : (t.trim.cutUnquoted? ['}']).isSome = true
    · have hne : ¬ t.trim = [] := fun hnil => by
        simp [hnil, Text.cutUnquoted?, Text.cutFrom?] at hclose
      exact .inl ⟨by simp [LineShape.of, hne, hopen, hclose], by simp [Text.bare, hopen, hclose]⟩
    · refine .inr ⟨?_, by simp [Text.bare, hopen, hclose]⟩
      by_cases hnil : t.trim = [] <;> simp [LineShape.of, LineShape.hasBrace, hnil, hopen, hclose]

theorem shape_bare (t : Text) : LineShape.of t.trim.bare = LineShape.of t := by
  rcases shape_cases t with ⟨name, rest, hcut, hshape⟩ | ⟨hshape, hbare⟩ | ⟨-, hbare⟩
  · have htrim : t.trim.bare.trim = t.trim.bare :=
      Text.trim_of_prefix t.trim_trim (Text.bare_isPrefix_of_opening hcut)
        (Text.isBlank_getLast?_bare hcut)
    have hbare : t.trim.bare.trim.cutUnquoted? ['{'] = some (name, rest.throughClosing) := by
      rw [htrim, Text.bare_of_opening hcut]
      exact Text.cutFrom?_replace hcut _
    rw [hshape, shape_of_cut hbare, Text.cutUnquoted?_throughClosing, Option.map_map]
    rfl
  · rw [hshape, hbare]
    exact shape_closingLine
  · rw [hbare, shape_trim]

theorem trim_stripComment_bare (line : Text) :
    (stripComment (stripComment line).trim.bare).trim = (stripComment line).trim.bare.trim := by
  have hwhole : Text.uncommented (stripComment line).trim = (stripComment line).trim := by
    rw [trim_stripComment, Text.uncommented_trim]
  rw [trim_stripComment]
  rcases shape_cases (stripComment line) with ⟨name, rest, hcut, -⟩ | ⟨-, hbare⟩ | ⟨-, hbare⟩
  · have hpart : (stripComment line).trim.bare <+: (stripComment line).trim.uncommented := by
      rw [hwhole]
      exact Text.bare_isPrefix_of_opening hcut
    rw [Text.uncommented_of_isPrefix hpart]
  · rw [hbare]
    rfl
  · rw [hbare, hwhole]

end Shape

namespace State

theorem takeLine_bare (s : State) (line : Text) : s.takeLine line.trim.bare = s.takeLine line := by
  have hshape := shape_bare line
  rcases shape_cases line with ⟨name, rest, -, hopening⟩ | ⟨hclosing, -⟩ | ⟨-, hbare⟩
  · rw [hopening] at hshape
    simp only [takeLine, hshape, hopening]
  · rw [hclosing] at hshape
    simp only [takeLine, hshape, hclosing]
  · rw [hbare, takeLine_trim]

theorem step_bare {s : State} (hs : s.pending = none) (line : Text) :
    s.step line.trim.bare = s.step line := by
  simp only [step, hs, takeLine_bare]

/-- A line without what stands beside its braces. A line that goes on with a value has no braces. -/
def bareLine (s : State) (line : Text) : Text :=
  match s.pending with
  | none => (stripComment line).trim.bare
  | some _ => line

/-- A step does not see what stands beside the braces of its line. -/
theorem step_bareLine (s : State) (line : Text) :
    s.step (stripComment (s.bareLine line)) = s.step (stripComment line) := by
  unfold bareLine
  cases hs : s.pending with
  | none => rw [← step_trim, trim_stripComment_bare, step_trim, step_bare hs]
  | some pending => rfl

def bareLines (s : State) : List Text → List Text
  | [] => []
  | line :: rest =>
    s.bareLine line :: match s.step (stripComment line) with
      | .ok next => next.bareLines rest
      | .error _ => rest

theorem run_bareLines (s : State) (lines : List Text) :
    (s.run ((s.bareLines lines).map stripComment)).1 = (s.run (lines.map stripComment)).1 := by
  induction lines generalizing s with
  | nil => rfl
  | cons line rest ih =>
    simp only [bareLines, List.map_cons, run, step_bareLine]
    cases s.step (stripComment line) with
    | error e => rfl
    | ok next => exact ih next

end State

structure ItemAt (lines before : List Text) (line : Text) (rest : List Text) (s : State) :
    Prop where
  lines_eq : lines = before ++ line :: rest
  taken : (State.initial 0).stepAll (before.map stripComment) = .ok s
  pending : s.pending = none

/-- What becomes of a line with a brace, the `n`th of the lines: what stands beside its braces is
left out, unless the block has no name or there is a text between the braces. -/
inductive BraceLine (lines : List Text) (n : Nat) (text : Text) : Prop
  | kept (hpart : text.bare <:+: text) (htidy : text.bare.IsTidy)
      (hbeside : text.IsTidy ↔ text.bare = text)
  | unnamed {body : Option Text} (hshape : LineShape.of text = .opening [] body)
      (h : Document.ofLines lines = .error ⟨.emptyBlockName, n, some "Open blocks with: name \x7b"⟩)
  | filled {name content : Text} (hshape : LineShape.of text = .opening name (some content))
      (hcontent : content ≠ [])
      (h : Document.ofLines lines = .error ⟨.inlineContent name content, n,
        some "Put each attribute of the block on its own line"⟩)

section Braces

variable {lines before rest : List Text} {line : Text} {s : State}

theorem ItemAt.ofLines_of_takeLine (h : ItemAt lines before line rest s) {e : Error}
    (htake : State.takeLine { s with line := before.length + 1 } (stripComment line) = .error e) :
    Document.ofLines lines = .error e := by
  have hline := State.line_of_stepAll_initial h.taken
  rw [List.length_map] at hline
  have hstep : s.step (stripComment line) = .error e := by
    simpa only [State.step, h.pending, hline] using htake
  unfold Document.ofLines Reader.ofLines Reader.read
  rw [h.lines_eq, List.map_append, State.run_append_of_stepAll_ok h.taken, List.map_cons, State.run,
    hstep]

theorem BraceLine.of_isTidy {n : Nat} {text : Text} (h : text.bare.IsTidy) :
    BraceLine lines n text := by
  refine .kept text.bare_isInfix h ?_
  rw [Text.isTidy_iff]
  exact and_iff_right h

theorem ItemAt.braceLine (h : ItemAt lines before line rest s)
    (hbrace : (LineShape.of (stripComment line)).hasBrace = true) :
    BraceLine lines (before.length + 1) (stripComment line).trim := by
  have htrim := shape_trim (stripComment line)
  rcases shape_cases (stripComment line) with ⟨name, back, hcut, hshape⟩ | ⟨-, hbare⟩ | ⟨hnot, -⟩
  · have htake := @ItemAt.ofLines_of_takeLine _ _ _ _ _ h
    by_cases hname : name.trim = []
    · rw [hname] at hshape
      refine .unnamed (htrim.trans hshape) (htake ?_)
      rw [State.takeLine, hshape]
      rfl
    · have hnames := Text.namesBlock_of_cut hcut hname
      have hbare := Text.bare_of_opening hcut
      cases hclose : back.cutUnquoted? ['}'] with
      | none =>
        rw [Text.throughClosing, hclose] at hbare
        exact .of_isTidy (hbare ▸ .opening hnames)
      | some parts =>
        rw [Text.throughClosing, hclose] at hbare
        by_cases hcontent : parts.1.trim = []
        · exact .of_isTidy (hbare ▸ .empty hnames (Text.all_isBlank_of_trim hcontent))
        · rw [hclose] at hshape
          refine .filled (htrim.trans hshape) hcontent (htake ?_)
          have hne : ¬ name.trim.isEmpty = true := by simpa using hname
          rw [State.takeLine, hshape]
          simp only [Option.map_some, if_neg hne]
  · exact .of_isTidy (hbare ▸ .closing)
  · rw [hbrace] at hnot
    cases hnot

/-- Lines denote what they do without the texts beside their braces, with the same error at the same
line. Only a text between the two braces of a block is refused; of any other line with a brace, what
is read has nothing beside the brace, and the line itself has nothing beside it exactly if all of it
is read. -/
theorem ofLines_beside_braces (lines : List Text) :
    Document.ofLines ((State.initial 0).bareLines lines) = Document.ofLines lines ∧
      ∀ before line rest s, ItemAt lines before line rest s →
        (LineShape.of (stripComment line)).hasBrace = true →
        BraceLine lines (before.length + 1) (stripComment line).trim :=
  ⟨State.run_bareLines _ lines, fun _ _ _ _ h hbrace => h.braceLine hbrace⟩

/-- Attributes behind an opening brace, around a closing one and behind an empty block are lost. -/
theorem ofLines_beside_braces_lost :
    let lines : List Text := ["a \x7b y = 1", "x = 2 \x7d z = 3", "b \x7b \x7d w = 4"]
    Document.ofLines lines = .ok ⟨[], [("a", ⟨"a", [], []⟩), ("b", ⟨"b", [], []⟩)]⟩ ∧
      Document.ofLines ["a \x7b", "\x7d", "b \x7b \x7d"] = Document.ofLines lines ∧
      (BraceLine lines 1 "a \x7b y = 1" ∧ BraceLine lines 2 "x = 2 \x7d z = 3" ∧
        BraceLine lines 3 "b \x7b \x7d w = 4") ∧
      ∀ line ∈ lines, ¬ line.IsTidy := by
  intro lines
  obtain ⟨hbare, hread⟩ := ofLines_beside_braces lines
  have hchanged : ∀ line ∈ lines, line.bare ≠ line := by decide
  exact ⟨rfl, hbare, ⟨hread [] _ _ _ ⟨rfl, rfl, rfl⟩ rfl, hread [_] _ _ _ ⟨rfl, rfl, rfl⟩ rfl,
    hread [_, _] _ _ _ ⟨rfl, rfl, rfl⟩ rfl⟩, fun line hline h => hchanged line hline h.bare_eq⟩

end Braces

end BlockConfig
