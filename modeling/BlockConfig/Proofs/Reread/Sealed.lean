import BlockConfig.Proofs.Quoting
import BlockConfig.Proofs.Reread.Writable

set_option autoImplicit false

namespace BlockConfig

def IsMark (c : Char) : Prop := c = '/' ∨ c = '{' ∨ c = '}'

def isOrdinary (c : Char) : Bool := !isQuote c && !(c == '/' || c == '{' || c == '}')

theorem IsMark.not_mem {c : Char} (h : IsMark c) {t : Text} (ht : t.all isOrdinary = true) :
    c ∉ t := by
  intro hc
  have hd := List.all_eq_true.1 ht c hc
  rcases h with rfl | rfl | rfl <;> cases hd

/-- A text that is one piece for every search outside quotes: what is behind it is searched as if
it stood alone. -/
structure Text.Sealed (t : Text) : Prop where
  split : ∀ rest, splitFrom none 0 (t ++ rest) =
    (t ++ (splitFrom none 0 rest).1, (splitFrom none 0 rest).2)
  cut : ∀ {mark}, IsMark mark → ∀ needle rest, cutUnquoted? (t ++ rest) (mark :: needle) =
    (cutUnquoted? rest (mark :: needle)).map (Prod.map (t ++ ·) id)

def doubleQuoted (t : Text) : Text := '"' :: (t ++ ['"'])

namespace Text

theorem not_isWordChar_of_isMark {c : Char} (h : IsMark c) : isWordChar c = false := by
  rcases h with rfl | rfl | rfl <;> decide

theorem sealed_of_word {t : Text} (h : t.all isWordChar = true) : t.Sealed := by
  refine ⟨(isClosed_of_word h).splitFrom_append, fun hmark needle rest => ?_⟩
  have hquotes : t.any isQuote = false := List.any_eq_false.2 fun c hc => by
    simp [isQuote_of_isWordChar (List.all_eq_true.1 h c hc)]
  have hword := not_isWordChar_of_isMark hmark
  exact cutUnquoted?_append_front t hquotes (not_mem_of_all h hword) rest

theorem sealed_wrap {q : Char} (hq : isQuote q = true) {t : Text} (h : q ∉ t) :
    Sealed (q :: (t ++ [q])) :=
  ⟨(isClosed_quotedBy hq h).splitFrom_append, fun _ needle rest =>
    cutUnquoted?_quotedBy hq h (_ :: needle) rest⟩

def IsUnmarked (t : Text) : Prop :=
  ∀ mark, IsMark mark → ∀ needle, t.cutUnquoted? (mark :: needle) = none

theorem isUnmarked_nil : IsUnmarked [] := fun _ _ _ => rfl

theorem IsUnmarked.prepend {rest : Text} (h : rest.IsUnmarked) {t : Text}
    (ht : t.all isOrdinary = true) : IsUnmarked (t ++ rest) := by
  intro mark hmark needle
  have hquotes : t.any isQuote = false := List.any_eq_false.2 fun c hc => by
    have hc := List.all_eq_true.1 ht c hc
    simp only [isOrdinary, Bool.and_eq_true, Bool.not_eq_true'] at hc
    simp [hc.1]
  rw [cutUnquoted?_append_front t hquotes (hmark.not_mem ht), h mark hmark needle]
  rfl

theorem isUnmarked_of_all {t : Text} (ht : t.all isOrdinary = true) : t.IsUnmarked := by
  have h := isUnmarked_nil.prepend ht
  rwa [List.append_nil] at h

theorem Sealed.isUnmarked_append {t rest : Text} (ht : t.Sealed) (h : rest.IsUnmarked) :
    IsUnmarked (t ++ rest) := by
  intro mark hmark needle
  rw [ht.cut hmark, h mark hmark needle]
  rfl

theorem Sealed.isUnmarked {t : Text} (ht : t.Sealed) : t.IsUnmarked := by
  have h := ht.isUnmarked_append isUnmarked_nil
  rwa [List.append_nil] at h

end Text

def Scalar.IsPlain (s : Scalar) : Prop :=
  s.isLiteral = true ∧ ∀ u, s = .string u → '"' ∉ u ∨ '\'' ∉ u

namespace Scalar.IsPlain

variable {s : Scalar} {items : List Scalar}

theorem ne_expression (h : s.IsPlain) (u : Text) : s ≠ .expression u := by
  rintro rfl
  cases h.1

theorem quoteFor_not_mem {u : Text} (h : '"' ∉ u ∨ '\'' ∉ u) : quoteFor u ∉ u := by
  unfold quoteFor
  split <;> simp_all

theorem source_cases (h : s.IsPlain) :
    (∃ q u, isQuote q = true ∧ q ∉ u ∧ s.source = quotedBy q u) ∨
      s.source.all isWordChar = true := by
  by_cases hs : s.kind = .string
  · cases s with
    | string u =>
      exact .inl ⟨quoteFor u, u, isQuote_quoteFor u, quoteFor_not_mem (h.2 u rfl), source_string u⟩
    | _ => cases hs
  · exact .inr (isWordChar_source hs h.ne_expression)

theorem sealed_source (h : s.IsPlain) : s.source.Sealed := by
  rcases h.source_cases with ⟨q, u, hq, hu, hsource⟩ | hword
  · rw [hsource]
    exact Text.sealed_wrap hq hu
  · exact Text.sealed_of_word hword

theorem isClosed_source (h : s.IsPlain) : s.source.IsClosed := by
  rcases h.source_cases with ⟨q, u, hq, hu, hsource⟩ | hword
  · rw [hsource]
    exact Text.isClosed_quotedBy hq hu
  · exact Text.isClosed_of_word hword

theorem isUnmarked_joinedSources (h : ∀ s ∈ items, s.IsPlain) :
    Text.IsUnmarked (joinedSources items ++ [']']) := by
  induction items with
  | nil => exact Text.isUnmarked_of_all (by decide)
  | cons s rest ih =>
    have hsealed := (h s (by simp)).sealed_source
    have hrest := ih fun t ht => h t (List.mem_cons_of_mem _ ht)
    cases rest with
    | nil => simpa [joinedSources] using hsealed.isUnmarked_append hrest
    | cons second more =>
      have hassoc : joinedSources (s :: second :: more) ++ [']'] =
          s.source ++ ([',', ' '] ++ (joinedSources (second :: more) ++ [']'])) := by
        simp [joinedSources_cons]
      rw [hassoc]
      exact hsealed.isUnmarked_append (hrest.prepend (by decide))

theorem map_trim_splitCommas_joinedSources (hne : items ≠ []) (h : ∀ s ∈ items, s.IsPlain) :
    (joinedSources items).splitCommas.map Text.trim = items.map source := by
  have hsplit := Text.map_trim_splitCommas_list (List.map_eq_nil_iff.not.2 hne)
    (List.forall_mem_map.2 fun s hs => (h s hs).isClosed_source)
  have htrim : ∀ s ∈ items, s.source.trim = s.source := fun s hs =>
    trim_source (h s hs).ne_expression
  rw [joinedSources, hsplit, List.map_map]
  exact List.map_congr_left htrim

end Scalar.IsPlain

theorem joinedSources_ne_nil {s : Scalar} {rest : List Scalar} (h : s.IsPlain) :
    joinedSources (s :: rest) ≠ [] := by
  have hsource := Scalar.source_ne_nil h.ne_expression
  cases rest with
  | nil => simpa [joinedSources] using hsource
  | cons second more => simp [joinedSources_cons]

theorem isBlank_getLast?_joinedSources {items : List Scalar} (h : ∀ s ∈ items, s.IsPlain) :
    ∀ c ∈ (joinedSources items).getLast?, isBlank c = false := by
  induction items with
  | nil => simp [joinedSources]
  | cons s rest ih =>
    have hrest := ih fun t ht => h t (List.mem_cons_of_mem _ ht)
    cases rest with
    | nil =>
      have htrim := Scalar.trim_source (h s (by simp)).ne_expression
      simpa [joinedSources] using Text.isBlank_getLast?_of_trim htrim
    | cons second more =>
      have hne : joinedSources (second :: more) ≠ [] := joinedSources_ne_nil (h second (by simp))
      have hlast : (joinedSources (s :: second :: more)).getLast? =
          (joinedSources (second :: more)).getLast? := by
        rw [joinedSources_cons, List.getLast?_append_of_ne_nil _ (by simp),
          List.getLast?_cons_of_ne_nil (by simp), List.getLast?_cons_of_ne_nil hne]
      rw [hlast]
      exact hrest

theorem elementTexts_source {items : List Scalar} (h : ∀ s ∈ items, s.IsPlain) :
    elementTexts (Value.array items).source = items.map Scalar.source := by
  cases items with
  | nil => rfl
  | cons s rest =>
    have hs := h s (by simp)
    have htrim : (joinedSources (s :: rest)).trim = joinedSources (s :: rest) := by
      rw [Text.trim, trimStart_of_isPrefix hs.ne_expression (List.prefix_refl _)]
      exact Text.trimEnd_of_getLast (isBlank_getLast?_joinedSources h)
    have hinner : List.dropLast (List.drop 1 (Value.array (s :: rest)).source) =
        joinedSources (s :: rest) := by simp [source_array]
    have hempty : ¬ (joinedSources (s :: rest)).isEmpty = true := by
      simpa using joinedSources_ne_nil hs
    have hlast : ¬ (1 < (List.map Scalar.source (s :: rest)).length ∧
        (List.map Scalar.source (s :: rest)).getLast? = some []) := by
      rintro ⟨-, hnil⟩
      obtain ⟨t, ht, hsource⟩ := List.mem_map.1 (List.mem_of_getLast? hnil)
      exact Scalar.source_ne_nil (h t ht).ne_expression hsource
    have hparts := Scalar.IsPlain.map_trim_splitCommas_joinedSources (by simp) h
    rw [elementTexts, hinner, htrim, if_neg hempty, hparts, if_neg hlast]

theorem writable_of_isPlain {v : Value} (h : ∀ s ∈ v.scalars, s.IsPlain) : v.Writable := by
  have hunmarked : v.source.IsUnmarked := by
    cases v with
    | scalar s => exact (h s (by simp [Value.scalars])).sealed_source.isUnmarked
    | array items =>
      exact (Scalar.IsPlain.isUnmarked_joinedSources h).prepend (by decide : List.all ['['] _ = true)
  refine ⟨hunmarked '/' (.inl rfl) ['/'], ⟨hunmarked '{' (.inr (.inl rfl)) [],
    hunmarked '}' (.inr (.inr rfl)) []⟩, fun s hs => (h s hs).1, ?_⟩
  rintro items rfl
  exact elementTexts_source h

theorem survives_of_isPlain {source : Text} {d : Document} (hd : Document.ofSource source = .ok d)
    {a : Attribute} (ha : a ∈ d.allAttributes) (h : ∀ s ∈ a.value.scalars, s.IsPlain) :
    a.value.survives a.kind = true := by
  obtain ⟨hkind, hholds⟩ := newline_not_mem_of_ofSource hd ha
  rw [hkind]
  exact (writable_of_isPlain h).survives (newline_not_mem_source hholds)

theorem Scalar.holds_of_same {P : Text → Prop} {s found : Scalar} (h : found.same s = true)
    (hfound : found.Holds P) : s.Holds P := by
  by_cases hs : ∃ x, s = .float x
  · obtain ⟨x, rfl⟩ := hs
    trivial
  · exact Scalar.eq_of_same h (not_exists.1 hs) ▸ hfound

theorem Value.holds_of_same {P : Text → Prop} {v w : Value} (h : w.same v = true)
    (hw : w.Holds P) : v.Holds P := by
  cases v with
  | scalar s =>
    obtain ⟨found, rfl, hsame⟩ := exists_of_same_scalar h
    exact Scalar.holds_of_same hsame hw
  | array items =>
    obtain ⟨found, rfl, hsame⟩ := exists_of_same_array h
    rw [same_array_iff] at hsame
    change ∀ s ∈ found, s.Holds P at hw
    change ∀ s ∈ items, s.Holds P
    induction hsame with
    | nil => exact hw
    | cons hfirst hothers ih =>
      rw [List.forall_mem_cons] at hw ⊢
      exact ⟨Scalar.holds_of_same hfirst hw.1, ih (same_array_iff.2 hothers) hw.2⟩

theorem newline_not_mem_of_survives {v : Value} {k : Kind} (h : v.survives k = true) :
    '\n' ∉ v.source := by
  unfold Value.survives at h
  split at h
  · rename_i d hd
    split at h
    · rename_i a ha
      rw [Bool.and_eq_true] at h
      have hmem : a ∈ d.allAttributes :=
        List.mem_append_left _ (List.mem_map_of_mem (Table.mem_of_get? ha))
      exact newline_not_mem_source (Value.holds_of_same h.2 (newline_not_mem_of_ofSource hd hmem).2)
    · cases h
  · cases h

theorem survives_iff_single_line {v : Value} :
    v.survives v.kind = true ↔ '\n' ∉ v.source ∧ v.Writable :=
  ⟨fun h => ⟨newline_not_mem_of_survives h, writable_of_survives (newline_not_mem_of_survives h) h⟩,
    fun h => h.2.survives h.1⟩

theorem survives_scalar_iff {s : Scalar} (hquotes : ∀ u, s = .string u → '"' ∉ u ∨ '\'' ∉ u) :
    (Value.scalar s).survives s.kind = true ↔ '\n' ∉ s.source ∧ s.isLiteral = true := by
  refine survives_iff_single_line.trans (and_congr_right fun _ => ?_)
  constructor
  · exact fun hv => hv.literal s (by simp [Value.scalars])
  · intro hliteral
    refine writable_of_isPlain fun t ht => ?_
    obtain rfl : t = s := by simpa [Value.scalars] using ht
    exact ⟨hliteral, hquotes⟩

/-- An array survives exactly where its elements do, if none of its strings holds both kinds of
quotes. -/
theorem survives_array_iff {items : List Scalar}
    (hquotes : ∀ u, .string u ∈ items → '"' ∉ u ∨ '\'' ∉ u) :
    (Value.array items).survives .array = true ↔
      ∀ s ∈ items, (Value.scalar s).survives s.kind = true := by
  have hscalar : ∀ s ∈ items, ((Value.scalar s).survives s.kind = true ↔
      '\n' ∉ s.source ∧ s.isLiteral = true) := fun s hs =>
    survives_scalar_iff fun u hu => hquotes u (hu ▸ hs)
  have hwhole : (Value.array items).survives .array = true ↔
      (∀ s ∈ items, '\n' ∉ s.source) ∧ (Value.array items).Writable :=
    survives_iff_single_line.trans (and_congr_left' newline_not_mem_array)
  rw [hwhole]
  constructor
  · rintro ⟨hnewline, hv⟩ s hs
    exact (hscalar s hs).2 ⟨hnewline s hs, hv.literal s hs⟩
  · intro hitems
    have hplain : ∀ s ∈ items, s.IsPlain := fun s hs =>
      ⟨((hscalar s hs).1 (hitems s hs)).2, fun u hu => hquotes u (hu ▸ hs)⟩
    exact ⟨fun s hs => ((hscalar s hs).1 (hitems s hs)).1, writable_of_isPlain hplain⟩

theorem survives_array_iff_marks :
    let items : List Scalar := [.string "a, [b] // \x7bc\x7d", .string "it's", .integer 7]
    (Value.array items).survives .array = true := by
  intro items
  have hquotes : ∀ u, Scalar.string u ∈ items → '"' ∉ u ∨ '\'' ∉ u := by
    intro u hu
    rcases (by simpa [items] using hu : u = "a, [b] // \x7bc\x7d".toList ∨ u = "it's".toList) with
      rfl | rfl
    · exact .inr (by decide)
    · exact .inl (by decide)
  have hitems : ∀ s ∈ items, (Value.scalar s).survives s.kind = true := by decide
  exact (survives_array_iff hquotes).2 hitems

end BlockConfig
