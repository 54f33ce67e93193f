import BlockConfig.Proofs.Comment
import BlockConfig.Proofs.Splitting

set_option autoImplicit false

namespace BlockConfig

namespace OpenQuote

theorem after_of_no_quotes {t : Text} (h : t.any isQuote = false) : after none t = none := by
  induction t with
  | nil => rfl
  | cons c rest ih =>
    rw [List.any_cons, Bool.or_eq_false_iff] at h
    rw [after_cons, step, h.1]
    exact ih h.2

theorem after_trimStart (t : Text) : after none t.trimStart = after none t := by
  have hblank : after none (t.takeWhile isBlank) = none :=
    after_of_no_quotes (Text.isQuote_of_blank List.all_takeWhile)
  calc after none t.trimStart
      = (after none (t.takeWhile isBlank)).after t.trimStart := by rw [hblank]
    _ = after none t := by rw [← after_append, Text.takeWhile_append_trimStart]

end OpenQuote

namespace Text

inductive Swapped (l l' : Text) : Text → Text → Prop
  | same (t : Text) : Swapped l l' t t
  | swap (front back : Text) : Swapped l l' (front ++ (l ++ back)) (front ++ (l' ++ back))

/-- What a search finds in two texts that differ in a literal between `front` and `back`: nothing,
or the needle at one place of `front`, or the needle at one place of `back`. Its position is where
the first of the two parts ends, so behind the literals it is shifted by the difference of their
lengths. -/
inductive SameCut (front l l' back needle : Text) :
    Option (Text × Text) → Option (Text × Text) → Prop
  | missing : SameCut front l l' back needle none none
  | before {u v : Text} (h : front = u ++ needle ++ v) (hu : OpenQuote.after none u = none) :
      SameCut front l l' back needle (some (u, v ++ (l ++ back))) (some (u, v ++ (l' ++ back)))
  | behind {u v : Text} (h : back = u ++ needle ++ v) (hu : OpenQuote.after none u = none) :
      SameCut front l l' back needle (some (front ++ (l ++ u), v)) (some (front ++ (l' ++ u), v))

theorem not_mem_of_isQuote {q : Char} (hq : isQuote q = true) {t : Text}
    (h : t.any isQuote = false) : q ∉ t := fun hmem => List.any_eq_false.1 h q hmem hq

theorem cutFrom?_inQuotes {q : Char} {t : Text} (h : q ∉ t) (needle rest : Text) :
    cutFrom? (some q) (t ++ q :: rest) needle =
      (cutFrom? none rest needle).map (Prod.map (t ++ q :: ·) id) := by
  induction t with
  | nil =>
    cases hr : cutFrom? none rest needle <;>
      simp [cutFrom?, OpenQuote.isPlain, OpenQuote.step, Prod.map, hr]
  | cons c more ih =>
    simp only [List.mem_cons, not_or] at h
    have hc : ¬ c = q := fun he => h.1 he.symm
    simp only [List.cons_append, cutFrom?, OpenQuote.isPlain, OpenQuote.step, hc, if_false, ih h.2]
    cases cutFrom? none rest needle <;> simp [Prod.map]

section Around

variable {q : Char} (hq : isQuote q = true) {s : Text} (hs : q ∉ s)

include hq

theorem trimEnd_around (front back : Text) :
    (front ++ (quotedBy q s ++ back)).trimEnd = front ++ (quotedBy q s ++ back.trimEnd) := by
  have hend : (front ++ quotedBy q s).getLast? = some q := by
    rw [quotedBy, ← List.cons_append, ← List.append_assoc, List.getLast?_concat]
  have hlast : ∀ c ∈ (front ++ quotedBy q s).getLast?, isBlank c = false := by
    rw [hend]
    rintro c ⟨⟩
    exact isBlank_of_isQuote hq
  rw [← List.append_assoc, trimEnd_append_of_solid hlast, List.append_assoc]

theorem trim_around (front back : Text) :
    (front ++ (quotedBy q s ++ back)).trim = front.trimStart ++ (quotedBy q s ++ back.trimEnd) := by
  have hstart : (front ++ (quotedBy q s ++ back)).trimStart =
      front.trimStart ++ (quotedBy q s ++ back) := by
    have hrest : (quotedBy q s ++ back).dropWhile isBlank = quotedBy q s ++ back :=
      trimStart_of_head (isBlank_of_isQuote hq)
    unfold trimStart
    rw [List.dropWhile_append, hrest]
    split <;> simp_all
  rw [trim, hstart, trimEnd_around hq]

include hs

theorem cutUnquoted?_quotedBy (needle rest : Text) : cutUnquoted? (quotedBy q s ++ rest) needle =
    (rest.cutUnquoted? needle).map (Prod.map (quotedBy q s ++ ·) id) := by
  have hstep : OpenQuote.step none q = some q := by simp [OpenQuote.step, hq]
  unfold cutUnquoted?
  rw [quotedBy, List.cons_append, cutFrom?, if_neg (by simp [OpenQuote.isPlain, hq]), hstep,
    List.append_assoc, List.singleton_append, cutFrom?_inQuotes hs]
  cases cutFrom? none rest needle <;> simp [Prod.map]

variable {front : Text} (hfront : OpenQuote.after none front = none) (back : Text)

include hfront

theorem cutUnquoted?_around {needle : Text} (hneedle : q ∉ needle)
    (h : front.cutUnquoted? needle = none) :
    cutUnquoted? (front ++ (quotedBy q s ++ back)) needle =
      (back.cutUnquoted? needle).map
        (Prod.map (fun before => front ++ (quotedBy q s ++ before)) id) := by
  have hhead : ∀ c ∈ (quotedBy q s ++ back).head?, c ∉ needle := by
    rintro c ⟨⟩
    exact hneedle
  have happend := cutFrom?_append_of_none h hhead
  rw [hfront] at happend
  refine happend.trans ?_
  rw [← cutUnquoted?, cutUnquoted?_quotedBy hq hs]
  cases back.cutUnquoted? needle <;> rfl

end Around

section TwoRuns

variable {q : Char} (hq : isQuote q = true) {s s' : Text} (hs : q ∉ s) (hs' : q ∉ s')
  {front : Text} (hfront : OpenQuote.after none front = none) (back : Text)

include hq hs hs' hfront

theorem sameCut_around {needle : Text} (hneedle : q ∉ needle) :
    SameCut front (quotedBy q s) (quotedBy q s') back needle
      (cutUnquoted? (front ++ (quotedBy q s ++ back)) needle)
      (cutUnquoted? (front ++ (quotedBy q s' ++ back)) needle) := by
  cases hcut : front.cutUnquoted? needle with
  | some parts =>
    obtain ⟨hall, hu⟩ := eq_of_cutFrom? hcut
    have hlonger : ∀ rest, cutUnquoted? (front ++ rest) needle = some (parts.1, parts.2 ++ rest) :=
      cutFrom?_append_of_some hcut
    rw [hlonger, hlonger]
    exact .before hall hu
  | none =>
    rw [cutUnquoted?_around hq hs hfront back hneedle hcut,
      cutUnquoted?_around hq hs' hfront back hneedle hcut]
    cases hback : back.cutUnquoted? needle with
    | none => exact .missing
    | some parts =>
      obtain ⟨hall, hu⟩ := eq_of_cutFrom? hback
      exact .behind hall hu

end TwoRuns

/-- The parts of a text with a literal in it are the same whatever the literal is, apart from the
part that holds it. -/
theorem exists_splitCommas_around {front : Text} (hfront : OpenQuote.after none front = none)
    (back : Text) : ∃ before u v after, ∀ q s, isQuote q = true → q ∉ s →
      splitCommas (front ++ (quotedBy q s ++ back)) =
        before ++ (u ++ (quotedBy q s ++ v)) :: after := by
  obtain ⟨before, u, hsplit⟩ := exists_splitInside_append .outside front
  have hplace : Nesting.outside.after front = ⟨none, (Nesting.outside.after front).depth⟩ :=
    congrArg (Nesting.mk · _) ((Nesting.quote_after .outside front).trans hfront)
  refine ⟨before, u, (splitInside (Nesting.outside.after front) back).1,
    (splitInside (Nesting.outside.after front) back).2, fun q s hq hs => ?_⟩
  rw [splitCommas_eq, hsplit, hplace,
    splitInside_append (Nesting.not_meetsComma_quotedBy hs hq _), Nesting.after_quotedBy hs hq]

end Text

theorem stripComment_append_of_some {front : Text} {parts : Text × Text}
    (h : front.cutUnquoted? "//" = some parts) (rest : Text) :
    stripComment (front ++ rest) = stripComment front := by
  rw [stripComment_eq, stripComment_eq, Text.uncommented_append_of_some h]

section Line

variable {q : Char} (hq : isQuote q = true) {front : Text}
  (hfront : OpenQuote.after none front = none) {s : Text} (hs : q ∉ s) (back : Text)

include hq hfront hs

theorem stripComment_around_of_none (h : front.cutUnquoted? "//" = none) :
    stripComment (front ++ (quotedBy q s ++ back)) =
      front ++ (quotedBy q s ++ stripComment back) := by
  have hslash : q ∉ "//".toList := Text.not_mem_of_isQuote hq (by decide)
  have hbefore : Text.uncommented (front ++ (quotedBy q s ++ back)) =
      front ++ (quotedBy q s ++ back.uncommented) := by
    unfold Text.uncommented
    rw [Text.cutUnquoted?_around hq hs hfront back hslash h]
    cases back.cutUnquoted? "//" <;> rfl
  rw [stripComment_eq, stripComment_eq, hbefore, Text.trimEnd_around hq]

end Line

namespace LineShape

inductive Swapped (l l' : Text) : LineShape → LineShape → Prop
  | closing : Swapped l l' .closing .closing
  | content : Swapped l l' .content .content
  | opening {name name' : Text} {body body' : Option Text}
      (hname : Text.Swapped l l' name name')
      (hbody : Option.Rel (Text.Swapped l l') body body') :
      Swapped l l' (.opening name body) (.opening name' body')

def ofBraces : Option (Text × Text) → Bool → LineShape
  | some (name, rest), _ =>
    .opening name.trim ((rest.cutUnquoted? ['}']).map fun parts => parts.1.trim)
  | none, closes => if closes then .closing else .content

theorem of_eq_ofBraces {line : Text} (h : line.trim ≠ []) : LineShape.of line =
    ofBraces (line.trim.cutUnquoted? ['{']) (line.trim.cutUnquoted? ['}']).isSome := by
  have hne : ¬ line.trim.isEmpty = true := by simpa using h
  simp only [LineShape.of, if_neg hne]
  cases line.trim.cutUnquoted? ['{'] <;> rfl

end LineShape

section Shape

variable {q : Char} (hq : isQuote q = true) {s s' : Text} {front back : Text}

include hq

theorem shape_around (s : Text) : LineShape.of (front ++ (quotedBy q s ++ back)) =
    LineShape.ofBraces
      (Text.cutUnquoted? (front.trimStart ++ (quotedBy q s ++ back.trimEnd)) ['{'])
      (Text.cutUnquoted? (front.trimStart ++ (quotedBy q s ++ back.trimEnd)) ['}']).isSome := by
  have hne : (front ++ (quotedBy q s ++ back)).trim ≠ [] := by
    rw [Text.trim_around hq]
    simp [quotedBy]
  rw [LineShape.of_eq_ofBraces hne, Text.trim_around hq]

theorem swapped_trim (front back : Text) :
    Text.Swapped (quotedBy q s) (quotedBy q s') (Text.trim (front ++ (quotedBy q s ++ back)))
      (Text.trim (front ++ (quotedBy q s' ++ back))) := by
  rw [Text.trim_around hq, Text.trim_around hq]
  exact .swap _ _

theorem Text.SameCut.rel_trim {needle : Text} {found found' : Option (Text × Text)}
    (h : Text.SameCut front (quotedBy q s) (quotedBy q s') back needle found found') :
    Option.Rel (Text.Swapped (quotedBy q s) (quotedBy q s'))
      (found.map fun parts => parts.1.trim) (found'.map fun parts => parts.1.trim) := by
  cases h with
  | missing => exact .none
  | before => exact .some (.same _)
  | behind => exact .some (swapped_trim hq front _)

variable (hs : q ∉ s) (hs' : q ∉ s') (hfront : OpenQuote.after none front = none)

include hs hs' hfront

theorem swapped_ofBraces {opening opening' closing closing' : Option (Text × Text)}
    (hopen : Text.SameCut front (quotedBy q s) (quotedBy q s') back ['{'] opening opening')
    (hclose : Text.SameCut front (quotedBy q s) (quotedBy q s') back ['}'] closing closing') :
    LineShape.Swapped (quotedBy q s) (quotedBy q s')
      (LineShape.ofBraces opening closing.isSome)
      (LineShape.ofBraces opening' closing'.isSome) := by
  cases hopen with
  | missing =>
    cases hclose with
    | missing => exact .content
    | before | behind => exact .closing
  | before hall hu =>
    rename_i u v
    -- the text behind the brace starts outside quotes and holds the literal
    have hv : OpenQuote.after none v = none := by
      rw [hall, OpenQuote.after_append, OpenQuote.after_append, hu] at hfront
      exact hfront
    have hbrace : q ∉ ['}'] := Text.not_mem_of_isQuote hq (by decide)
    have hbody := Text.sameCut_around hq hs hs' hv back hbrace
    exact .opening (.same _) (hbody.rel_trim hq)
  | behind hall hu =>
    rename_i u v
    refine .opening (swapped_trim hq front u) ?_
    cases v.cutUnquoted? ['}'] with
    | none => exact .none
    | some parts => exact .some (.same _)

theorem swapped_shape (back : Text) : LineShape.Swapped (quotedBy q s) (quotedBy q s')
    (LineShape.of (front ++ (quotedBy q s ++ back)))
    (LineShape.of (front ++ (quotedBy q s' ++ back))) := by
  have htrimmed : OpenQuote.after none front.trimStart = none :=
    (OpenQuote.after_trimStart front).trans hfront
  have hopen : q ∉ ['{'] := Text.not_mem_of_isQuote hq (by decide)
  have hclose : q ∉ ['}'] := Text.not_mem_of_isQuote hq (by decide)
  rw [shape_around hq, shape_around hq]
  exact swapped_ofBraces hq hs hs' htrimmed
    (Text.sameCut_around hq hs hs' htrimmed back.trimEnd hopen)
    (Text.sameCut_around hq hs hs' htrimmed back.trimEnd hclose)

end Shape

structure SameScans (front l l' back : Text) : Prop where
  cut : ∀ needle ∈ ["//".toList, ['{'], ['}']], Text.SameCut front l l' back needle
    (Text.cutUnquoted? (front ++ (l ++ back)) needle)
    (Text.cutUnquoted? (front ++ (l' ++ back)) needle)
  split : ∃ before u v after,
    Text.splitCommas (front ++ (l ++ back)) = before ++ (u ++ (l ++ v)) :: after ∧
      Text.splitCommas (front ++ (l' ++ back)) = before ++ (u ++ (l' ++ v)) :: after
  comment :
    if (front.cutUnquoted? "//").isSome then
      stripComment (front ++ (l ++ back)) = stripComment front ∧
        stripComment (front ++ (l' ++ back)) = stripComment front
    else ∃ v, stripComment (front ++ (l ++ back)) = front ++ (l ++ v) ∧
      stripComment (front ++ (l' ++ back)) = front ++ (l' ++ v)
  shape : LineShape.Swapped l l' (LineShape.of (front ++ (l ++ back)))
    (LineShape.of (front ++ (l' ++ back)))

/-- No scan looks into a literal: it finds in a line what it finds with any other text between the
same quotes. -/
theorem sameScans_quotedBy {q : Char} (hq : isQuote q = true) {front s s' : Text}
    (hfront : OpenQuote.after none front = none) (hs : q ∉ s) (hs' : q ∉ s') (back : Text) :
    SameScans front (quotedBy q s) (quotedBy q s') back := by
  refine ⟨fun needle hneedle => ?_, ?_, ?_, swapped_shape hq hs hs' hfront back⟩
  · have hnot : needle.any isQuote = false := by
      have hall : List.all ["//".toList, ['{'], ['}']] (fun t => !t.any isQuote) = true := by decide
      simpa using List.all_eq_true.1 hall needle hneedle
    exact Text.sameCut_around hq hs hs' hfront back (Text.not_mem_of_isQuote hq hnot)
  · obtain ⟨before, u, v, after, h⟩ := Text.exists_splitCommas_around hfront back
    exact ⟨before, u, v, after, h q s hq hs, h q s' hq hs'⟩
  · cases hcut : front.cutUnquoted? "//" with
    | some parts =>
      exact ⟨stripComment_append_of_some hcut _, stripComment_append_of_some hcut _⟩
    | none =>
      exact ⟨stripComment back, stripComment_around_of_none hq hfront hs back hcut,
        stripComment_around_of_none hq hfront hs' back hcut⟩

theorem sameScans_quotedBy_marks :
    isQuote '"' = true ∧ OpenQuote.after none "a('//', " = none ∧ '"' ∉ "\x7d, // \x7b".toList ∧
      '"' ∉ "it's".toList ∧
      SameScans "a('//', " (quotedBy '"' "\x7d, // \x7b") (quotedBy '"' "it's")
        "), b \x7b // c" :=
  ⟨by decide, by decide, by decide, by decide,
    sameScans_quotedBy (by decide) (by decide) (by decide) (by decide) _⟩

end BlockConfig
