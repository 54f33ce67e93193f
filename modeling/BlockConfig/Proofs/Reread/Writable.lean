import BlockConfig.Proofs.Reader.Contents
import BlockConfig.Proofs.Reread.Array
import BlockConfig.Proofs.Reread.Line

set_option autoImplicit false

namespace BlockConfig

/-- What a value has to be for its text to be read as the same value: no comment or brace is found
in the text, every scalar is a literal, and an array is cut at the commas between its elements. -/
structure Value.Writable (v : Value) : Prop where
  no_comment : v.source.cutUnquoted? "//" = none
  no_brace : v.source.cutUnquoted? "\x7b" = none ∧ v.source.cutUnquoted? "\x7d" = none
  literal : ∀ s ∈ v.scalars, s.isLiteral = true
  elements : ∀ items, v = .array items → elementTexts v.source = items.map Scalar.source

theorem keywordBody?_of_solid {t : Text} (h : ∀ c ∈ t, isBlank c = false) (keyword : Text) :
    keywordBody? keyword t = none := by
  unfold keywordBody?
  split
  · split
    · rename_i c rest hdrop
      have hc : c ∈ t := List.mem_of_mem_drop (hdrop ▸ List.mem_cons_self ..)
      simp [h c hc]
    · rfl
  · rfl

theorem keywordBody?_of_head {c d : Char} (h : c ≠ d) (keyword rest : Text) :
    keywordBody? (c :: keyword) (d :: rest) = none := by
  simp [keywordBody?, h]

theorem length_lt_of_keywordBody? {keyword t body : Text} (hne : keyword ≠ [])
    (h : keywordBody? keyword t = some body) : body.length < t.length := by
  unfold keywordBody? at h
  split at h
  · split at h
    · rename_i c rest hdrop
      have hlength := congrArg List.length hdrop
      have hpos := List.length_pos_of_ne_nil hne
      rw [List.length_drop, List.length_cons] at hlength
      split at h
      · rw [← Option.some.inj h, List.length_cons]
        omega
      · cases h
    · cases h
  · cases h

/-- A text that is the value of one line as it stands, and neither conditional nor projection. -/
structure Text.IsSingle (t : Text) : Prop where
  not_if : keywordBody? "if" t = none
  not_for : keywordBody? "for" t = none
  not_continues : continues t = false
  not_open : ¬ (t.head? = some '[' ∧ ']' ∉ t)

theorem Text.IsSingle.readAlone {t : Text} (h : t.IsSingle) :
    BlockConfig.readAlone t = ((evaluatePlain t []).map fun v => (v.kind, v)).toOption := by
  rw [BlockConfig.readAlone, h.not_continues, if_neg h.not_open,
    evaluate_of_not_keyword h.not_if h.not_for]
  rfl

theorem Text.IsSingle.evaluatePlain {t : Text} (h : t.IsSingle) {k : Kind} {w : Value}
    (hread : BlockConfig.readAlone t = some (k, w)) : BlockConfig.evaluatePlain t [] = .ok w := by
  rw [h.readAlone] at hread
  cases hplain : BlockConfig.evaluatePlain t [] with
  | error e => simp [hplain, Except.map, Except.toOption] at hread
  | ok v => simp_all [Except.map, Except.toOption]

theorem isSingle_of_all {p : Char → Bool} {t : Text} (h : t.all p = true)
    (hblank : ∀ c ∈ t, isBlank c = false) (hp : p '\\' = false ∧ p '[' = false) : t.IsSingle := by
  refine ⟨keywordBody?_of_solid hblank _, keywordBody?_of_solid hblank _, ?_, ?_⟩
  · rw [continues, beq_eq_false_iff_ne]
    exact fun hlast => not_mem_of_all h hp.1 (List.mem_of_getLast? hlast)
  · exact fun hhead => not_mem_of_all h hp.2 (List.mem_of_head? hhead.1)

theorem isSingle_word {t : Text} (h : t.all isWordChar = true) : t.IsSingle :=
  isSingle_of_all h (fun c hc => isBlank_of_isWordChar (List.all_eq_true.1 h c hc)) (by decide)

theorem isSingle_of_quote {q : Char} (hq : isQuote q = true) {rest : Text}
    (hcontinues : continues (q :: rest) = false) : Text.IsSingle (q :: rest) := by
  rcases (by simpa [isQuote] using hq : q = '"' ∨ q = '\'') with rfl | rfl
  · exact ⟨keywordBody?_of_head (by decide) _ _, keywordBody?_of_head (by decide) _ _, hcontinues,
      by simp⟩
  · exact ⟨keywordBody?_of_head (by decide) _ _, keywordBody?_of_head (by decide) _ _, hcontinues,
      by simp⟩

theorem isSingle_of_bracket {rest : Text} (hcontinues : continues ('[' :: rest) = false)
    (hclose : ']' ∈ rest) : Text.IsSingle ('[' :: rest) :=
  ⟨keywordBody?_of_head (by decide) _ _, keywordBody?_of_head (by decide) _ _, hcontinues,
    by simp [hclose]⟩

theorem eq_of_read_expression {t u : Text} {o : Outcome} (h : Outcome.read t [] = .ok o)
    (hvalue : o.value = .scalar (.expression u)) : u = t := by
  have hfind : Scope.find? [] t = none := rfl
  rw [Outcome.read, hfind] at h
  simp only at h
  split at h
  · cases h
    cases hvalue
  · split at h
    · cases h
      cases hvalue
      rfl
    · split at h
      · cases h
        cases hvalue
      · split at h
        · rename_i number hnumber
          cases h
          have hscalar : number = .expression u := Value.scalar.inj hvalue
          subst hscalar
          exact absurd ((readNumber_meets Anything t).of_ok hnumber).2 (by simp [Scalar.isExpression])
        · cases h

theorem length_le_of_evaluateConditional {whole body u : Text} {o : Outcome}
    (h : evaluateConditional whole body [] = .ok o)
    (hvalue : o.value = .scalar (.expression u)) : u.length ≤ body.length := by
  unfold evaluateConditional at h
  split at h
  · cases h
  · rename_i condition positive negative hparts
    obtain ⟨-, hpositive, hnegative⟩ := conditionalParts?_infix hparts
    obtain ⟨first, hfirst, h⟩ := exists_of_bind_ok h
    obtain ⟨second, hsecond, h⟩ := exists_of_bind_ok h
    obtain ⟨b, -, h⟩ := exists_of_bind_ok h
    cases b with
    | true =>
      rw [← Except.ok.inj h] at hvalue
      exact eq_of_read_expression hfirst hvalue ▸ hpositive.length_le
    | false =>
      rw [← Except.ok.inj h] at hvalue
      exact eq_of_read_expression hsecond hvalue ▸ hnegative.length_le

theorem toOption_eq_some {α : Type} {x : Except Error α} {a : α} (h : x.toOption = some a) :
    x = .ok a := by
  cases x with
  | error e => cases h
  | ok b => exact congrArg Except.ok (Option.some.inj h)

theorem length_lt_of_readAlone_expression {t u : Text} {k : Kind}
    (h : readAlone t = some (k, .scalar (.expression u))) : u.length < t.length := by
  unfold readAlone at h
  split at h
  · cases h
  · split at h
    · cases h
    · have hvalue := toOption_eq_some h
      unfold evaluate at hvalue
      split at hvalue
      · rename_i body hbody
        obtain ⟨o, ho, heq⟩ := exists_of_map_ok hvalue
        have hbelow := length_lt_of_keywordBody? (by decide) hbody
        have hle := length_le_of_evaluateConditional ho (Prod.mk.inj heq).2
        omega
      · split at hvalue
        · obtain ⟨items, -, heq⟩ := exists_of_map_ok hvalue
          cases heq
        · obtain ⟨v, hv, heq⟩ := exists_of_map_ok hvalue
          have hnever : v.Holds Anything ∧ ∀ u, v ≠ .scalar (.expression u) :=
            (evaluatePlain_meets Text.closed_anything (Scope.holds_anything []) trivial).of_ok hv
          exact absurd (Prod.mk.inj heq).2 (hnever.2 u)

theorem length_stringPiece_lt {t : Text} (h : continues t = true) :
    (stringPiece t).length < t.length := by
  have hlast : t.trim.getLast? = some '\\' := by
    obtain ⟨front, hfront⟩ := List.getLast?_eq_some_iff.1 (by simpa [continues] using h)
    rw [Text.getLast?_trim, hfront, Text.lastSolid?_append]
    rfl
  have hdrop : t.trim.dropEnd? '\\' = some t.trim.dropLast := by simp [Text.dropEnd?, hlast]
  have htrim := (Text.trim_infix t).length_le
  have hne : t.trim ≠ [] := by
    intro he
    rw [he] at hlast
    cases hlast
  have hpos := List.length_pos_of_ne_nil hne
  have hpiece := ((Text.unquote_infix (Text.trim t.trim.dropLast)).trans
    (Text.trim_infix _)).length_le
  rw [List.length_dropLast] at hpiece
  unfold stringPiece
  simp only [hdrop, Option.getD_some]
  omega

theorem length_lt_of_readAlone_string {q : Char} (hq : isQuote q = true) {rest u : Text} {k : Kind}
    (h : readAlone (q :: rest) = some (k, .scalar (.string u))) :
    u.length < (q :: rest).length := by
  cases hcontinues : continues (q :: rest) with
  | true =>
    rw [readAlone, if_pos hcontinues] at h
    cases h
    exact length_stringPiece_lt hcontinues
  | false =>
    have hplain := (isSingle_of_quote hq hcontinues).evaluatePlain h
    have hscalar := (evaluateScalar_iff (.plain .emptyBlockName)).1 hplain
    rw [eq_of_evaluateScalar_string hq hscalar]
    simp only [List.length_cons, List.length_append, List.length_nil]
    omega

theorem exists_uncommented {c : Char} (hblank : isBlank c = false) (hslash : c ≠ '/')
    (rest : Text) : ∃ more, Text.trim (Text.uncommented (c :: rest)) = c :: more ∧
      c :: more <+: Text.uncommented (c :: rest) := by
  have hstart : ∃ more, Text.uncommented (c :: rest) = c :: more := by
    cases hcut : Text.cutUnquoted? (c :: rest) "//" with
    | none => exact ⟨rest, Text.uncommented_of_none hcut⟩
    | some parts =>
      obtain ⟨before, after⟩ := parts
      have heq := (Text.eq_of_cutFrom? hcut).1
      rw [Text.uncommented, hcut]
      cases before with
      | nil => exact absurd (List.cons.inj heq).1 hslash
      | cons d more => exact ⟨more, by rw [← (List.cons.inj heq).1]⟩
  obtain ⟨more, hmore⟩ := hstart
  rw [hmore]
  exact ⟨Text.trimEnd more, Text.trim_cons_of_solid hblank more,
    List.cons_prefix_cons.2 ⟨rfl, Text.trimEnd_isPrefix more⟩⟩

theorem cutUnquoted?_of_word {t : Text} (h : t.all isWordChar = true) {mark : Char}
    (hmark : isWordChar mark = false) (needle : Text) :
    t.cutUnquoted? (mark :: needle) = none :=
  Text.cutUnquoted?_eq_none fun hinside =>
    not_mem_of_all h hmark (hinside.subset (List.mem_cons_self ..))

theorem exists_of_same_scalar {w : Value} {s : Scalar} (h : w.same (.scalar s) = true) :
    ∃ found, w = .scalar found ∧ found.same s = true := by
  cases w with
  | scalar found => exact ⟨found, rfl, h⟩
  | array items => cases h

theorem exists_of_same_array {w : Value} {items : List Scalar} (h : w.same (.array items) = true) :
    ∃ found, w = .array found ∧ (Value.array found).same (.array items) = true := by
  cases w with
  | scalar s => cases h
  | array found => exact ⟨found, rfl, h⟩

section Survives

variable {k : Kind}

theorem writable_of_survives_string {u : Text} (hnewline : '\n' ∉ (Scalar.string u).source)
    (h : (Value.scalar (.string u)).survives k = true) :
    (Value.scalar (.string u)).Writable := by
  obtain ⟨hshape, w, hread, hsame⟩ := (survives_iff (v := .scalar (.string u)) hnewline k).1 h
  obtain ⟨found, rfl, hfound⟩ := exists_of_same_scalar hsame
  rw [Scalar.eq_of_same hfound (by simp)] at hread
  change LineShape.of (entryLine (Scalar.string u).source) = _ at hshape
  change readAlone (Scalar.string u).source.uncommented.trim = _ at hread
  have hcomment : (Scalar.string u).source.cutUnquoted? "//" = none := by
    rw [Scalar.source_string] at hread ⊢
    obtain ⟨more, hmore, hpart⟩ := exists_uncommented (Scalar.isBlank_quoteFor u)
      (Scalar.quoteFor_ne_slash u) (u ++ [Scalar.quoteFor u])
    rw [hmore] at hread
    have hlonger := length_lt_of_readAlone_string (Scalar.isQuote_quoteFor u) hread
    refine Text.cutUnquoted?_comment_eq_none hpart ?_
    simp only [List.length_cons, List.length_append, List.length_nil] at hlonger ⊢
    omega
  have hbraces := (shape_entryLine_iff (Scalar.source_ne_nil (by simp))
    (Scalar.trim_source (by simp)) hcomment).1 hshape
  exact ⟨hcomment, hbraces, by simp [Value.scalars, Scalar.isLiteral], by simp⟩

theorem writable_of_survives_word {s : Scalar} (hs : s.kind ≠ .string)
    (he : ∀ u, s ≠ .expression u) (hnewline : '\n' ∉ s.source)
    (h : (Value.scalar s).survives k = true) : (Value.scalar s).Writable := by
  have hword := Scalar.isWordChar_source hs he
  have hcomment : s.source.cutUnquoted? "//" = none := cutUnquoted?_of_word hword (by decide) ['/']
  obtain ⟨-, w, hread, hsame⟩ := (survives_iff (v := .scalar s) hnewline k).1 h
  obtain ⟨found, rfl, hfound⟩ := exists_of_same_scalar hsame
  change readAlone s.source.uncommented.trim = _ at hread
  rw [Text.uncommented_of_none hcomment, Scalar.trim_source he] at hread
  have hdenotes : s.source.Denotes s := ⟨found, (isSingle_word hword).evaluatePlain hread, hfound⟩
  have hopening := cutUnquoted?_of_word hword (show isWordChar '{' = false by decide) []
  have hclosing := cutUnquoted?_of_word hword (show isWordChar '}' = false by decide) []
  exact ⟨hcomment, ⟨hopening, hclosing⟩, by simpa [Value.scalars] using hdenotes.isLiteral hs, by simp⟩

theorem not_survives_expression {u : Text} (hnewline : '\n' ∉ u) :
    (Value.scalar (.expression u)).survives k ≠ true := by
  intro h
  obtain ⟨-, w, hread, hsame⟩ := (survives_iff (v := .scalar (.expression u)) hnewline k).1 h
  obtain ⟨found, rfl, hfound⟩ := exists_of_same_scalar hsame
  rw [Scalar.eq_of_same hfound (by simp)] at hread
  have hlonger := length_lt_of_readAlone_expression hread
  have hpart := ((Text.trim_infix _).trans (Text.uncommented_isPrefix u).isInfix).length_le
  exact absurd hlonger (Nat.not_lt.2 hpart)

theorem writable_of_survives_array {items : List Scalar}
    (hnewline : '\n' ∉ (Value.array items).source)
    (h : (Value.array items).survives k = true) : (Value.array items).Writable := by
  obtain ⟨hshape, w, hread, hsame⟩ := (survives_iff hnewline k).1 h
  obtain ⟨found, rfl, hfound⟩ := exists_of_same_array hsame
  obtain ⟨more, hmore, hpart⟩ := exists_uncommented (c := '[') (by decide) (by decide)
    (joinedSources items ++ [']'])
  rw [← source_array] at hmore hpart
  rw [hmore] at hread
  have hcontinues : continues ('[' :: more) = false := by
    cases hc : continues ('[' :: more) with
    | false => rfl
    | true =>
      rw [readAlone, if_pos hc] at hread
      cases hread
  have hclose : ']' ∈ more := by
    by_contra hopen
    rw [readAlone, hcontinues, if_neg (by simp), if_pos ⟨rfl, by simpa using hopen⟩] at hread
    cases hread
  have hsingle := isSingle_of_bracket hcontinues hclose
  obtain ⟨hbrackets, hitems⟩ := array_of_evaluatePlain (hsingle.evaluatePlain hread)
  obtain ⟨hwhole, helements, hliteral⟩ := eq_source_of_evaluateArray
    (hpart.trans (Text.uncommented_isPrefix _)) hbrackets hitems hfound
  have hcomment : (Value.array items).source.cutUnquoted? "//" = none :=
    Text.cutUnquoted?_comment_eq_none hpart (by rw [hwhole]; omega)
  have htrim : (Value.array items).source.trim = (Value.array items).source := by
    rw [Text.uncommented_of_none hcomment] at hmore
    rw [hmore, hwhole]
  have hbraces := (shape_entryLine_iff (by simp [source_array]) htrim hcomment).1 hshape
  rw [hwhole] at helements
  refine ⟨hcomment, hbraces, hliteral, ?_⟩
  rintro others heq
  cases heq
  exact helements

theorem writable_of_survives {v : Value} (hnewline : '\n' ∉ v.source)
    (h : v.survives k = true) : v.Writable := by
  cases v with
  | array items => exact writable_of_survives_array hnewline h
  | scalar s =>
    by_cases hs : s.kind = .string
    · cases s with
      | string u => exact writable_of_survives_string hnewline h
      | _ => cases hs
    · by_cases he : s.isExpression = true
      · cases s with
        | expression u => exact absurd h (not_survives_expression hnewline)
        | _ => cases he
      · refine writable_of_survives_word hs ?_ hnewline h
        rintro u rfl
        exact he rfl

end Survives

theorem survives_of_evaluatePlain {v : Value} (hnewline : '\n' ∉ v.source) (hv : v.Writable)
    (hne : v.source ≠ []) (htrim : v.source.trim = v.source) (hsingle : v.source.IsSingle)
    (hplain : evaluatePlain v.source [] = .ok v) (hsame : v.same v = true) :
    v.survives v.kind = true := by
  have hshape := (shape_entryLine_iff hne htrim hv.no_comment).2 hv.no_brace
  have hread : readAlone v.source.uncommented.trim = some (v.kind, v) := by
    rw [Text.uncommented_of_none hv.no_comment, htrim, hsingle.readAlone, hplain]
    rfl
  exact (survives_iff hnewline v.kind).2 ⟨hshape, v, hread, hsame⟩

theorem continues_wrap (first last : Char) (t : Text) :
    continues (first :: (t ++ [last])) = (last == '\\') := by
  rw [continues, ← List.cons_append, List.getLast?_concat]
  rfl

theorem isSingle_source {s : Scalar} (he : ∀ u, s ≠ .expression u) : s.source.IsSingle := by
  by_cases hs : s.kind = .string
  · cases s with
    | string u =>
      have hslash : Scalar.quoteFor u ≠ '\\' := by
        unfold Scalar.quoteFor
        split <;> decide
      rw [Scalar.source_string]
      refine isSingle_of_quote (Scalar.isQuote_quoteFor u) ?_
      rw [continues_wrap]
      simpa using hslash
    | _ => cases hs
  · exact isSingle_word (Scalar.isWordChar_source hs he)

theorem classify_brackets (inner : Text) : classify ('[' :: (inner ++ [']'])) = .ok .array := by
  have hquoted : Text.isQuoted ('[' :: (inner ++ [']'])) = false := by cases inner <;> rfl
  have hbrackets : isBracketed ('[' :: (inner ++ [']'])) = true := by
    rw [isBracketed, ← List.cons_append, List.getLast?_concat]
    rfl
  rw [classify, hquoted, hbrackets]
  rfl

theorem evaluatePlain_source {v : Value} (hv : v.Writable) : evaluatePlain v.source [] = .ok v := by
  cases v with
  | scalar s =>
    have hliteral := hv.literal s (by simp [Value.scalars])
    exact (evaluateScalar_iff (.plain .emptyBlockName)).2 (Scalar.evaluateScalar_source hliteral _ [])
  | array items =>
    have hitems : evaluateArray (Value.array items).source [] = .ok items := by
      unfold evaluateArray
      rw [hv.elements items rfl]
      simp only
      rw [mapM_ok_iff, List.forall₂_map_left_iff, List.forall₂_same]
      exact fun s hs => Scalar.evaluateScalar_source (hv.literal s hs) _ []
    have hform : classify (Value.array items).source = .ok .array := classify_brackets _
    rw [evaluatePlain_of_array hform, hitems]
    rfl

theorem Value.Writable.survives {v : Value} (hv : v.Writable) (hnewline : '\n' ∉ v.source) :
    v.survives v.kind = true := by
  have hplain := evaluatePlain_source hv
  cases v with
  | scalar s =>
    have hliteral := hv.literal s (by simp [Value.scalars])
    have he : ∀ u, s ≠ .expression u := by
      rintro u rfl
      cases hliteral
    exact survives_of_evaluatePlain hnewline hv (Scalar.source_ne_nil he) (Scalar.trim_source he)
      (isSingle_source he) hplain (Scalar.same_self hliteral)
  | array items =>
    have hcontinues : continues (Value.array items).source = false := continues_wrap '[' ']' _
    have htrim : (Value.array items).source.trim = (Value.array items).source :=
      Text.trim_wrap (by decide) (by decide) _
    have hsame : (Value.array items).same (.array items) = true := by
      rw [same_array_iff, List.forall₂_same]
      exact fun s hs => Scalar.same_self (hv.literal s hs)
    exact survives_of_evaluatePlain hnewline hv (by simp [source_array]) htrim
      (isSingle_of_bracket hcontinues (by simp)) hplain hsame

theorem newline_not_mem_scalar {s : Scalar} (h : s.Holds ('\n' ∉ ·)) : '\n' ∉ s.source := by
  cases s with
  | string u =>
    have hquote : '\n' ≠ Scalar.quoteFor u := by
      unfold Scalar.quoteFor
      split <;> decide
    have hu : '\n' ∉ u := h
    simp [Scalar.source_string, hquote, hu]
  | expression u => exact h
  | _ => exact not_mem_of_all (Scalar.isWordChar_source (by simp [Scalar.kind]) (by simp)) (by decide)

theorem newline_not_mem_joinedSources {items : List Scalar} :
    '\n' ∉ joinedSources items ↔ ∀ s ∈ items, '\n' ∉ s.source := by
  induction items with
  | nil => simp [joinedSources]
  | cons s rest ih =>
    cases rest with
    | nil => simp [joinedSources]
    | cons second more => simp [joinedSources_cons, ih]

theorem newline_not_mem_array {items : List Scalar} :
    '\n' ∉ (Value.array items).source ↔ ∀ s ∈ items, '\n' ∉ s.source := by
  rw [← newline_not_mem_joinedSources, source_array]
  simp

theorem newline_not_mem_source {v : Value} (h : v.Holds ('\n' ∉ ·)) : '\n' ∉ v.source := by
  cases v with
  | scalar s => exact newline_not_mem_scalar h
  | array items => exact newline_not_mem_array.2 fun s hs => newline_not_mem_scalar (h s hs)

/-- An attribute of any document, at any depth, is the same after its value is written as source
and read again exactly where the value is writable. -/
theorem survives_iff_writable {source : Text} {d : Document} (hd : Document.ofSource source = .ok d)
    {a : Attribute} (ha : a ∈ d.allAttributes) :
    a.value.survives a.kind = true ↔ a.value.Writable := by
  obtain ⟨hkind, hholds⟩ := newline_not_mem_of_ofSource hd ha
  have hnewline := newline_not_mem_source hholds
  rw [hkind]
  exact ⟨writable_of_survives hnewline, fun hv => hv.survives hnewline⟩

/-- The difference of two literals can be a number that is no literal. -/
theorem difference_not_writable :
    ∃ d a, Document.ofSource "x = 3 - 5" = .ok d ∧ a ∈ d.allAttributes ∧
      a.value = .scalar (.integer (-2)) ∧ a.value.survives a.kind = false ∧ ¬ a.value.Writable := by
  let a : Attribute := ⟨"x", .number, .scalar (.integer (-2))⟩
  have hd : Document.ofSource "x = 3 - 5" = .ok ⟨[("x".toList, a)], []⟩ := by rfl
  have ha : a ∈ (Document.mk [("x".toList, a)] []).allAttributes := by simp [Document.allAttributes]
  have hlost : a.value.survives a.kind = false := by rfl
  refine ⟨_, a, hd, ha, rfl, hlost, fun hw => ?_⟩
  rw [(survives_iff_writable hd ha).2 hw] at hlost
  cases hlost

end BlockConfig
