import BlockConfig.Proofs.Line
import BlockConfig.Proofs.Reread.Scalar
import BlockConfig.Proofs.Splitting

set_option autoImplicit false

/-!
Arrays written as source and evaluated again. The text of an array, or a part of it up to a place
where a bracket closes it, stands for its elements only where the commas between them are all the
commas it is cut at.
-/

namespace BlockConfig

namespace Text

theorem splitFrom_cases (q : OpenQuote) (depth : Nat) (t : Text) :
    (t = (splitFrom q depth t).1 ∧ (splitFrom q depth t).2 = []) ∨
      ∃ rest, t = (splitFrom q depth t).1 ++ ',' :: rest ∧
        (splitFrom q depth t).2 = splitCommas rest := by
  rcases (splitInside_cases ⟨q, depth⟩ t).2 with h | ⟨-, h⟩
  · exact .inl h
  · exact .inr h

theorem splitFrom_isPrefix (q : OpenQuote) (depth : Nat) (t : Text) :
    (splitFrom q depth t).1 <+: t := by
  rcases splitFrom_cases q depth t with ⟨h, -⟩ | ⟨rest, h, -⟩
  · exact ⟨[], by rw [List.append_nil, ← h]⟩
  · exact ⟨',' :: rest, h.symm⟩

theorem isClosed_of_word {word : Text} (h : word.all isWordChar = true) : word.IsClosed :=
  isClosed_of_flat (List.all_eq_true.2 fun c hc =>
    isFlat_of (by decide) (List.all_eq_true.1 h c hc))

theorem splitFrom_quote {q : Char} (hq : isQuote q = true) (t : Text) :
    ∃ part, (splitFrom none 0 (q :: t)).1 = q :: part := by
  refine ⟨(splitFrom (OpenQuote.step none q) 0 t).1, ?_⟩
  simp [splitFrom, OpenQuote.isPlain, hq]

theorem trim_cons_of_solid {c : Char} (h : isBlank c = false) (t : Text) :
    trim (c :: t) = c :: t.trimEnd := by
  rw [trim, trimStart_of_head h]
  exact trimEnd_append_of_solid (s := [c]) (by simpa using h) t

end Text

def joinedSources (items : List Scalar) : Text :=
  List.intercalate ", ".toList (items.map Scalar.source)

theorem joinedSources_cons (s second : Scalar) (rest : List Scalar) :
    joinedSources (s :: second :: rest) =
      s.source ++ ',' :: ' ' :: joinedSources (second :: rest) := by
  simp [joinedSources, List.intercalate_cons_cons]

def EndsItem (tail : Text) : Prop := tail = [']'] ∨ ∃ rest, tail = ',' :: rest

def IsEnd (c : Char) : Prop := isBlank c = true ∨ c = ']'

theorem not_isEnd_of_isWordChar {c : Char} (h : isWordChar c = true) : ¬ IsEnd c := by
  rintro (hblank | rfl)
  · rw [isBlank_of_isWordChar h] at hblank
    cases hblank
  · cases h

theorem not_isEnd_of_isQuote {c : Char} (h : isQuote c = true) : ¬ IsEnd c := by
  rcases (by simpa [isQuote] using h : c = '"' ∨ c = '\'') with rfl | rfl
  · rintro (hblank | hclose)
    · cases hblank
    · cases hclose
  · rintro (hblank | hclose)
    · cases hblank
    · cases hclose

section FirstPart

variable {t tail : Text} {c : Char}

theorem first_part_of_word {word : Text} (hword : word.all isWordChar = true) (hc : IsEnd c)
    (htail : EndsItem tail) (hfront : t ++ [c] <+: word ++ tail) :
    (Text.splitFrom none 0 t).1 = word := by
  have hnot : c ∉ word := fun hm => not_isEnd_of_isWordChar (List.all_eq_true.1 hword c hm) hc
  have hwhole : word <+: t := by
    rcases List.prefix_or_prefix_of_prefix hfront (List.prefix_append word tail) with h | h
    · exact absurd (h.subset (by simp)) hnot
    · rcases List.prefix_concat_iff.1 h with h | h
      · exact absurd (h ▸ by simp) hnot
      · exact h
  obtain ⟨more, rfl⟩ := hwhole
  rw [List.append_assoc, List.prefix_append_right_inj] at hfront
  rw [(Text.isClosed_of_word hword).splitFrom_append]
  cases more with
  | nil => simp [Text.splitFrom]
  | cons d rest =>
    rcases htail with rfl | ⟨others, rfl⟩
    · have hlength := hfront.length_le
      simp at hlength
    · have hd : d = ',' := (List.cons_prefix_cons.1 hfront).1
      subst hd
      simp [Text.splitFrom, OpenQuote.isPlain, isQuote]

theorem first_part_of_string {u : Text} (hc : IsEnd c) (htail : EndsItem tail)
    (hfront : t ++ [c] <+: (Scalar.string u).source ++ tail)
    (h : (Text.splitFrom none 0 t).1.trim.Denotes (.string u)) :
    (Text.splitFrom none 0 t).1 = (Scalar.string u).source := by
  have hquote := Scalar.isQuote_quoteFor u
  have hsolid := Scalar.isBlank_quoteFor u
  rw [Scalar.source_string] at hfront ⊢
  cases t with
  | nil =>
    rw [List.nil_append, List.cons_append] at hfront
    exact absurd hc ((List.cons_prefix_cons.1 hfront).1 ▸ not_isEnd_of_isQuote hquote)
  | cons d rest =>
    have hd : d = Scalar.quoteFor u := (List.cons_prefix_cons.1 hfront).1
    subst hd
    obtain ⟨part, hpart⟩ := Text.splitFrom_quote hquote rest
    obtain ⟨right, hright, hblank⟩ := Text.exists_eq_trimEnd part
    rw [hpart, Text.trim_cons_of_solid hsolid] at h
    have hwhole := h.eq_of_quote hquote
    have hfirst := (Text.splitFrom_isPrefix none 0 (Scalar.quoteFor u :: rest)).trans
      ((List.prefix_append _ [c]).trans hfront)
    rw [hpart, hright, ← List.cons_append, hwhole, List.prefix_append_right_inj] at hfirst
    -- Blanks behind the closing quote would stand where the array goes on or ends.
    have hnil : right = [] := by
      cases right with
      | nil => rfl
      | cons d more =>
        have hd : isBlank d = true := List.all_eq_true.1 hblank d (by simp)
        rcases htail with rfl | ⟨others, rfl⟩
        · rw [(List.cons_prefix_cons.1 hfirst).1] at hd
          cases hd
        · rw [(List.cons_prefix_cons.1 hfirst).1] at hd
          cases hd
    rw [hpart, hright, ← List.cons_append, hwhole, hnil, List.append_nil]

/-- The first part of a text that goes on as an item does, up to such an end, is all of the item if
it stands for it. -/
theorem first_part_eq {s : Scalar} (hc : IsEnd c) (htail : EndsItem tail)
    (hfront : t ++ [c] <+: s.source ++ tail)
    (h : (Text.splitFrom none 0 t).1.trim.Denotes s) :
    (Text.splitFrom none 0 t).1 = s.source ∧ s.isLiteral = true := by
  by_cases hs : s.kind = .string
  · cases s with
    | string u => exact ⟨first_part_of_string hc htail hfront h, rfl⟩
    | _ => cases hs
  · have hword := Scalar.isWordChar_source hs h.ne_expression
    have hpart := first_part_of_word hword hc htail hfront
    rw [hpart, Scalar.trim_source h.ne_expression] at h
    exact ⟨hpart, h.isLiteral hs⟩

end FirstPart

theorem denotes_ne_nil {t : Text} {s : Scalar} (h : t.Denotes s) : t ≠ [] := by
  rintro rfl
  obtain ⟨found, hfound, -⟩ := h
  cases hfound

theorem eq_joinedSources_of_denotes {items : List Scalar} (hne : items ≠ []) {c : Char}
    (hc : IsEnd c) {t : Text} (hfront : t ++ [c] <+: joinedSources items ++ [']'])
    {parts : List Text} (hparts : parts <+: t.splitCommas.map Text.trim)
    (h : List.Forall₂ Text.Denotes parts items) :
    t = joinedSources items ∧ parts = items.map Scalar.source ∧
      ∀ s ∈ items, s.isLiteral = true := by
  induction items generalizing t parts with
  | nil => exact absurd rfl hne
  | cons s rest ih =>
    obtain ⟨part, others, hs, hrest, rfl⟩ := List.forall₂_cons_right_iff.1 h
    rw [Text.splitCommas, List.map_cons, List.cons_prefix_cons] at hparts
    obtain ⟨rfl, hothers⟩ := hparts
    have htrim := Scalar.trim_source hs.ne_expression
    have hsplit := Text.splitFrom_cases none 0 t
    cases rest with
    | nil =>
      cases hrest
      have hsource : joinedSources [s] = s.source := by simp [joinedSources]
      rw [hsource] at hfront ⊢
      obtain ⟨hfirst, hliteral⟩ := first_part_eq hc (.inl rfl) hfront hs
      rw [hfirst] at hsplit ⊢
      rcases hsplit with ⟨ht, -⟩ | ⟨after, ht, -⟩
      · exact ⟨ht, by simp [htrim], by simpa using hliteral⟩
      · rw [ht, List.append_assoc, List.prefix_append_right_inj] at hfront
        exact absurd (List.cons_prefix_cons.1 hfront).1 (by decide)
    | cons second more =>
      have hassoc : joinedSources (s :: second :: more) ++ [']'] =
          s.source ++ ',' :: ' ' :: (joinedSources (second :: more) ++ [']']) := by
        simp [joinedSources_cons]
      rw [hassoc] at hfront
      obtain ⟨hfirst, hliteral⟩ := first_part_eq hc (.inr ⟨_, rfl⟩) hfront hs
      rw [hfirst] at hsplit ⊢
      rcases hsplit with ⟨-, hnone⟩ | ⟨after, ht, hafter⟩
      · rw [hnone, List.map_nil, List.prefix_nil] at hothers
        rw [hothers] at hrest
        cases hrest
      rw [hafter] at hothers
      rw [ht, List.append_assoc, List.prefix_append_right_inj, List.cons_append,
        List.cons_prefix_cons] at hfront
      cases after with
      | nil =>
        obtain ⟨next, last, hnext, -, rfl⟩ := List.forall₂_cons_right_iff.1 hrest
        exact absurd (List.cons_prefix_cons.1 hothers).1 (denotes_ne_nil hnext)
      | cons d after =>
        obtain ⟨rfl, hbehind⟩ := List.cons_prefix_cons.1 hfront.2
        rw [Text.map_trim_splitCommas_blank] at hothers
        obtain ⟨hjoined, hsources, hliterals⟩ := ih (by simp) hbehind hothers hrest
        refine ⟨?_, by simp [htrim, hsources], ?_⟩
        · rw [ht, hjoined, joinedSources_cons]
        · simpa [hliteral] using hliterals

theorem mapM_ok_iff {α β : Type} {f : α → Except Error β} {xs : List α} {ys : List β} :
    xs.mapM f = .ok ys ↔ List.Forall₂ (fun x y => f x = .ok y) xs ys := by
  induction xs generalizing ys with
  | nil => cases ys <;> simp [pure, Except.pure]
  | cons x xs ih =>
    rw [List.mapM_cons]
    cases hx : f x with
    | error e => cases ys <;> simp [hx, bind, Except.bind]
    | ok y =>
      cases hxs : xs.mapM f with
      | error e => cases ys <;> simp [hx, hxs, bind, Except.bind, ← ih]
      | ok rest => cases ys <;> simp [hx, hxs, bind, Except.bind, pure, Except.pure, ← ih]

theorem same_array_iff {found items : List Scalar} :
    (Value.array found).same (.array items) = true ↔
      List.Forall₂ (fun s t => s.same t = true) found items := by
  rw [List.forall₂_iff_zip]
  simp [Value.same]

theorem denotes_of_mapM {nested : Error} {parts : List Text} {found items : List Scalar}
    (h : (parts.mapM fun part => evaluateScalar nested part []) = .ok found)
    (hsame : (Value.array found).same (.array items) = true) :
    List.Forall₂ Text.Denotes parts items := by
  rw [mapM_ok_iff] at h
  rw [same_array_iff] at hsame
  induction h generalizing items with
  | nil =>
    cases hsame
    exact .nil
  | cons hpart _ ih =>
    cases hsame with
    | cons hfirst hothers =>
      exact .cons ⟨_, (evaluateScalar_iff nested).2 hpart, hfirst⟩ (ih hothers)

theorem source_array (items : List Scalar) :
    (Value.array items).source = '[' :: (joinedSources items ++ [']']) := rfl

theorem exists_inner_of_isBracketed {t : Text} (h : isBracketed t = true) :
    ∃ inner, t = '[' :: (inner ++ [']']) := by
  simp only [isBracketed, Bool.and_eq_true, beq_iff_eq] at h
  obtain ⟨rest, rfl⟩ := List.head?_eq_some_iff.1 h.1
  cases rest with
  | nil => simp at h
  | cons c more =>
    rw [List.getLast?_cons_of_ne_nil (by simp)] at h
    obtain ⟨inner, hinner⟩ := List.getLast?_eq_some_iff.1 h.2
    exact ⟨inner, by rw [hinner]⟩

theorem elementTexts_isPrefix (inner : Text) :
    elementTexts ('[' :: (inner ++ [']'])) <+: inner.trim.splitCommas.map Text.trim := by
  have hinner : List.dropLast (List.drop 1 ('[' :: (inner ++ [']']))) = inner := by simp
  unfold elementTexts
  rw [hinner]
  simp only
  split
  · exact List.nil_prefix
  · split
    · exact List.dropLast_prefix _
    · exact List.prefix_refl _

theorem trimStart_of_isPrefix {s : Scalar} {rest : List Scalar} {inner : Text}
    (he : ∀ u, s ≠ .expression u) (h : inner ++ [']'] <+: joinedSources (s :: rest) ++ [']']) :
    inner.trimStart = inner := by
  have hstart : s.source <+: joinedSources (s :: rest) := by
    cases rest with
    | nil => simp [joinedSources]
    | cons second more => exact joinedSources_cons .. ▸ List.prefix_append _ _
  cases inner with
  | nil => rfl
  | cons c more =>
    have hhead := Text.isBlank_head?_of_trim (Scalar.trim_source he)
    cases hsource : s.source with
    | nil => exact absurd hsource (Scalar.source_ne_nil he)
    | cons d behind =>
      rw [hsource] at hhead hstart
      obtain ⟨tail, htail⟩ := hstart
      rw [← htail, List.append_assoc] at h
      rw [(List.cons_prefix_cons.1 h).1]
      exact Text.trimStart_of_head (hhead d rfl)

/-- A text that the text of an array starts with stands for the array only if it is all of it, and
its commas are all that it is cut at. -/
theorem eq_source_of_evaluateArray {raw : Text} {found items : List Scalar}
    (hfront : raw <+: (Value.array items).source) (hbrackets : isBracketed raw = true)
    (h : evaluateArray raw [] = .ok found)
    (hsame : (Value.array found).same (.array items) = true) :
    raw = (Value.array items).source ∧ elementTexts raw = items.map Scalar.source ∧
      ∀ s ∈ items, s.isLiteral = true := by
  obtain ⟨inner, rfl⟩ := exists_inner_of_isBracketed hbrackets
  have hdenotes := denotes_of_mapM h hsame
  have hparts := elementTexts_isPrefix inner
  rw [source_array, List.cons_prefix_cons] at hfront
  have hlength := hfront.2.length_le
  simp only [List.length_append, List.length_singleton] at hlength
  cases items with
  | nil =>
    have hnil : inner = [] := List.eq_nil_of_length_eq_zero (by simpa [joinedSources] using hlength)
    subst hnil
    exact ⟨rfl, rfl, by simp⟩
  | cons s rest =>
    obtain ⟨part, others, hs, -, helements⟩ := List.forall₂_cons_right_iff.1 hdenotes
    have hstart := trimStart_of_isPrefix hs.ne_expression hfront.2
    obtain ⟨right, hright, hblank⟩ := Text.exists_eq_trimEnd inner
    have htrim : Text.trim inner = Text.trimEnd inner := by rw [Text.trim, hstart]
    obtain ⟨c, more, hcons, hc⟩ : ∃ c more, right ++ [']'] = c :: more ∧ IsEnd c := by
      cases right with
      | nil => exact ⟨']', [], rfl, .inr rfl⟩
      | cons d more => exact ⟨d, more ++ [']'], rfl, .inl (List.all_eq_true.1 hblank d (by simp))⟩
    have hend : Text.trim inner ++ [c] <+: joinedSources (s :: rest) ++ [']'] := by
      have hinner : inner ++ [']'] = Text.trim inner ++ [c] ++ more := by
        rw [htrim, List.append_assoc, List.singleton_append, ← hcons, ← List.append_assoc, ← hright]
      exact (hinner ▸ List.prefix_append _ more).trans hfront.2
    obtain ⟨hjoined, hsources, hliteral⟩ :=
      eq_joinedSources_of_denotes (by simp) hc hend hparts hdenotes
    have hwhole : inner = joinedSources (s :: rest) := by
      have hcount := congrArg List.length hright
      rw [← htrim, hjoined, List.length_append] at hcount
      have hnil : right = [] := List.eq_nil_of_length_eq_zero (by omega)
      rw [hright, hnil, List.append_nil, ← htrim, hjoined]
    exact ⟨by rw [source_array, hwhole], hsources, hliteral⟩

end BlockConfig
