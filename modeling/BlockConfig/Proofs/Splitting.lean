import BlockConfig.Text.Quoted

set_option autoImplicit false

/-!
The commas that a text is cut at are those where neither a quote nor a bracket is open. The parts
are therefore closed in themselves, and cutting a text is the inverse of joining such parts.
-/

namespace BlockConfig

def isFlat (c : Char) : Bool := !isQuote c && !List.contains [',', '[', ']', '(', ')'] c

theorem isFlat_of {p : Char → Bool}
    (hmarks : ['"', '\'', ',', '[', ']', '(', ')'].all (fun mark => !p mark) = true) {c : Char}
    (hc : p c = true) : isFlat c = true := by
  have hne : ∀ mark ∈ ['"', '\'', ',', '[', ']', '(', ')'], c ≠ mark := by
    rintro mark hmark rfl
    simpa [hc] using List.all_eq_true.1 hmarks c hmark
  simp [isFlat, isQuote, hne]

def quotedBy (q : Char) (t : Text) : Text := q :: (t ++ [q])

structure Nesting where
  quote : OpenQuote
  depth : Nat
  deriving DecidableEq

namespace Nesting

def outside : Nesting := ⟨none, 0⟩

/-- What is open after one more character. Brackets count outside quotes only, and a closing one
that closes nothing is passed over. -/
def step (n : Nesting) (c : Char) : Nesting :=
  ⟨n.quote.step c, if n.quote.isPlain c then Text.depthAfter n.depth c else n.depth⟩

def after (n : Nesting) (t : Text) : Nesting := t.foldl step n

@[simp] theorem after_nil (n : Nesting) : n.after [] = n := rfl

@[simp] theorem after_cons (n : Nesting) (c : Char) (t : Text) :
    n.after (c :: t) = (n.step c).after t := rfl

theorem after_append (n : Nesting) (s t : Text) : n.after (s ++ t) = (n.after s).after t := by
  simp [after]

theorem quote_after (n : Nesting) (t : Text) : (n.after t).quote = n.quote.after t := by
  induction t generalizing n with
  | nil => rfl
  | cons c rest ih => exact ih (n.step c)

theorem step_openingQuote {q : Char} (hq : isQuote q = true) (depth : Nat) :
    step ⟨none, depth⟩ q = ⟨some q, depth⟩ := by
  simp [step, OpenQuote.step, OpenQuote.isPlain, hq]

theorem step_closingQuote (q : Char) (depth : Nat) : step ⟨some q, depth⟩ q = ⟨none, depth⟩ := by
  simp [step, OpenQuote.step, OpenQuote.isPlain]

theorem step_flat {c : Char} (hc : isFlat c = true) (depth : Nat) :
    step ⟨none, depth⟩ c = ⟨none, depth⟩ := by
  have hmarks : isQuote c = false ∧ ∀ mark ∈ [',', '[', ']', '(', ')'], c ≠ mark := by
    simpa [isFlat] using hc
  have hdepth : Text.depthAfter depth c = depth := by simp [Text.depthAfter, hmarks.2]
  simp [step, OpenQuote.step, hmarks.1, hdepth]

def MeetsComma (n : Nesting) (t : Text) : Prop :=
  ∃ before after, t = before ++ ',' :: after ∧ n.after before = outside

theorem not_meetsComma_nil (n : Nesting) : ¬ n.MeetsComma [] := by
  rintro ⟨before, after, h, -⟩
  simp at h

theorem not_meetsComma_of_not_mem {t : Text} (h : ',' ∉ t) (n : Nesting) : ¬ n.MeetsComma t := by
  rintro ⟨before, after, rfl, -⟩
  simp at h

theorem meetsComma_cons (n : Nesting) (c : Char) (t : Text) :
    n.MeetsComma (c :: t) ↔ c = ',' ∧ n = outside ∨ (n.step c).MeetsComma t := by
  constructor
  · rintro ⟨before, after, h, hafter⟩
    cases before with
    | nil => exact .inl ⟨(List.cons.inj h).1, hafter⟩
    | cons d more =>
      obtain ⟨rfl, rfl⟩ := List.cons.inj h
      exact .inr ⟨more, after, rfl, hafter⟩
  · rintro (⟨rfl, rfl⟩ | ⟨before, after, rfl, hafter⟩)
    · exact ⟨[], t, rfl, rfl⟩
    · exact ⟨c :: before, after, rfl, hafter⟩

theorem meetsComma_append (n : Nesting) (s t : Text) :
    n.MeetsComma (s ++ t) ↔ n.MeetsComma s ∨ (n.after s).MeetsComma t := by
  induction s generalizing n with
  | nil => simp [not_meetsComma_nil]
  | cons c rest ih =>
    rw [List.cons_append, meetsComma_cons, ih, meetsComma_cons, after_cons, or_assoc]

instance decidableMeetsComma : (n : Nesting) → (t : Text) → Decidable (n.MeetsComma t)
  | n, [] => isFalse n.not_meetsComma_nil
  | n, c :: t =>
    have := decidableMeetsComma (n.step c) t
    decidable_of_iff _ (n.meetsComma_cons c t).symm

section QuotedBy

variable {q : Char} {t : Text} (ht : q ∉ t)

include ht

theorem after_inQuotes (depth : Nat) : after ⟨some q, depth⟩ t = ⟨some q, depth⟩ := by
  induction t with
  | nil => rfl
  | cons c rest ih =>
    rw [List.mem_cons, not_or] at ht
    have hstep : step ⟨some q, depth⟩ c = ⟨some q, depth⟩ := by
      simp [step, OpenQuote.step, OpenQuote.isPlain, Ne.symm ht.1]
    rw [after_cons, hstep, ih ht.2]

theorem not_meetsComma_inQuotes (depth : Nat) : ¬ MeetsComma ⟨some q, depth⟩ t := by
  rintro ⟨before, after, rfl, hbefore⟩
  rw [after_inQuotes fun h => ht (List.mem_append_left _ h)] at hbefore
  cases hbefore

variable (hq : isQuote q = true) (depth : Nat)

include hq

theorem after_quotedBy : after ⟨none, depth⟩ (quotedBy q t) = ⟨none, depth⟩ := by
  rw [quotedBy, after_cons, step_openingQuote hq, after_append, after_inQuotes ht, after_cons,
    step_closingQuote, after_nil]

theorem not_meetsComma_quotedBy : ¬ MeetsComma ⟨none, depth⟩ (quotedBy q t) := by
  have hcomma : q ≠ ',' := by
    rintro rfl
    cases hq
  rw [quotedBy, meetsComma_cons, step_openingQuote hq, meetsComma_append, after_inQuotes ht]
  rintro (h | h | h)
  · exact hcomma h.1
  · exact not_meetsComma_inQuotes ht depth h
  · exact not_meetsComma_of_not_mem (by simpa using hcomma.symm) _ h

end QuotedBy

end Nesting

namespace Text

/-- A text that leaves nothing open and holds no comma where nothing is open. -/
structure IsClosed (t : Text) : Prop where
  after_eq : Nesting.outside.after t = .outside
  not_meetsComma : ¬ Nesting.outside.MeetsComma t

instance (t : Text) : Decidable t.IsClosed :=
  decidable_of_iff (Nesting.outside.after t = .outside ∧ ¬ Nesting.outside.MeetsComma t)
    ⟨fun h => ⟨h.1, h.2⟩, fun h => ⟨h.1, h.2⟩⟩

theorem isClosed_of_flat {t : Text} (h : t.all isFlat = true) : t.IsClosed := by
  constructor
  · induction t with
    | nil => rfl
    | cons c rest ih =>
      rw [List.all_cons, Bool.and_eq_true] at h
      rw [Nesting.after_cons, Nesting.outside, Nesting.step_flat h.1]
      exact ih h.2
  · refine Nesting.not_meetsComma_of_not_mem (fun hcomma => ?_) _
    exact absurd (List.all_eq_true.1 h ',' hcomma) (by decide)

theorem isClosed_quotedBy {q : Char} (hq : isQuote q = true) {t : Text} (ht : q ∉ t) :
    IsClosed (quotedBy q t) :=
  ⟨Nesting.after_quotedBy ht hq 0, Nesting.not_meetsComma_quotedBy ht hq 0⟩

def splitInside (n : Nesting) (t : Text) : Text × List Text := splitFrom n.quote n.depth t

theorem splitCommas_eq (t : Text) :
    t.splitCommas = (splitInside .outside t).1 :: (splitInside .outside t).2 := rfl

theorem splitInside_cons (n : Nesting) (c : Char) (t : Text) :
    splitInside n (c :: t) =
      if c = ',' ∧ n = .outside then ([], t.splitCommas)
      else (c :: (splitInside (n.step c) t).1, (splitInside (n.step c) t).2) := by
  obtain ⟨quote, depth⟩ := n
  cases quote with
  | some q => simp [splitInside, splitFrom, Nesting.step, Nesting.outside, OpenQuote.isPlain]
  | none =>
    by_cases hquote : isQuote c = true
    · have hcomma : c ≠ ',' := by
        rintro rfl
        cases hquote
      simp [splitInside, splitFrom, Nesting.step, OpenQuote.isPlain, hquote, hcomma]
    · by_cases hcomma : c = ',' ∧ depth = 0
      · obtain ⟨rfl, rfl⟩ := hcomma
        rfl
      · simp [splitInside, splitFrom, Nesting.step, Nesting.outside, OpenQuote.isPlain,
          OpenQuote.step, hquote, hcomma]

theorem splitInside_append {n : Nesting} {t : Text} (h : ¬ n.MeetsComma t) (rest : Text) :
    splitInside n (t ++ rest) =
      (t ++ (splitInside (n.after t) rest).1, (splitInside (n.after t) rest).2) := by
  induction t generalizing n with
  | nil => rfl
  | cons c more ih =>
    rw [Nesting.meetsComma_cons, not_or] at h
    rw [List.cons_append, splitInside_cons, if_neg h.1, ih h.2]
    rfl

/-- What is behind a text adds to its last part, and nothing to the parts before. -/
theorem exists_splitInside_append (n : Nesting) (t : Text) :
    ∃ before last, ∀ rest, (splitInside n (t ++ rest)).1 :: (splitInside n (t ++ rest)).2 =
      before ++ (last ++ (splitInside (n.after t) rest).1) :: (splitInside (n.after t) rest).2 := by
  induction t generalizing n with
  | nil => exact ⟨[], [], fun rest => rfl⟩
  | cons c more ih =>
    -- a comma to cut at ends a part; any other character goes in front of the first one
    by_cases hcomma : c = ',' ∧ n = .outside
    · obtain ⟨rfl, rfl⟩ := hcomma
      obtain ⟨before, last, h⟩ := ih .outside
      refine ⟨[] :: before, last, fun rest => ?_⟩
      rw [List.cons_append, splitInside_cons, if_pos ⟨rfl, rfl⟩]
      exact congrArg ([] :: ·) (h rest)
    · obtain ⟨before, last, h⟩ := ih (n.step c)
      cases before with
      | nil =>
        refine ⟨[], c :: last, fun rest => ?_⟩
        obtain ⟨hfirst, hothers⟩ := List.cons.inj (h rest)
        rw [List.cons_append, splitInside_cons, if_neg hcomma, hfirst, hothers]
        rfl
      | cons first before =>
        refine ⟨(c :: first) :: before, last, fun rest => ?_⟩
        obtain ⟨hfirst, hothers⟩ := List.cons.inj (h rest)
        rw [List.cons_append, splitInside_cons, if_neg hcomma, hfirst, hothers]
        rfl

/-- The first part meets no comma. It is all there is, or a comma follows it where nothing is open,
behind which the others are found afresh. -/
theorem splitInside_cases (n : Nesting) (t : Text) :
    ¬ n.MeetsComma (splitInside n t).1 ∧
      (t = (splitInside n t).1 ∧ (splitInside n t).2 = [] ∨
        n.after (splitInside n t).1 = .outside ∧
          ∃ rest, t = (splitInside n t).1 ++ ',' :: rest ∧
            (splitInside n t).2 = splitCommas rest) := by
  induction t generalizing n with
  | nil => exact ⟨n.not_meetsComma_nil, .inl ⟨rfl, rfl⟩⟩
  | cons c more ih =>
    rw [splitInside_cons]
    split
    · rename_i hcomma
      obtain ⟨rfl, rfl⟩ := hcomma
      exact ⟨Nesting.not_meetsComma_nil _, .inr ⟨rfl, more, rfl, rfl⟩⟩
    · rename_i hcomma
      obtain ⟨hnot, hrest⟩ := ih (n.step c)
      refine ⟨by rw [Nesting.meetsComma_cons, not_or]; exact ⟨hcomma, hnot⟩, ?_⟩
      rcases hrest with ⟨hall, hnone⟩ | ⟨hafter, rest, hall, hothers⟩
      · exact .inl ⟨congrArg (c :: ·) hall, hnone⟩
      · exact .inr ⟨hafter, rest, congrArg (c :: ·) hall, hothers⟩

theorem splitCommas_of_not_meetsComma {t : Text} (h : ¬ Nesting.outside.MeetsComma t) :
    t.splitCommas = [t] := by
  have hsplit := splitInside_append h []
  rw [List.append_nil] at hsplit
  rw [splitCommas_eq, hsplit]
  simp [splitInside, splitFrom]

theorem IsClosed.splitFrom_append {t : Text} (h : t.IsClosed) (rest : Text) :
    splitFrom none 0 (t ++ rest) = (t ++ (splitFrom none 0 rest).1, (splitFrom none 0 rest).2) := by
  have hsplit := splitInside_append h.not_meetsComma rest
  rwa [h.after_eq] at hsplit

theorem IsClosed.splitCommas_append {part : Text} (h : part.IsClosed) (rest : Text) :
    splitCommas (part ++ ',' :: rest) = part :: splitCommas rest := by
  rw [splitCommas_eq, splitInside_append h.not_meetsComma, h.after_eq, splitInside_cons,
    if_pos ⟨rfl, rfl⟩, List.append_nil]

/-- Texts that commas can join so that nothing else is cut: none meets a comma, and each but the
last leaves nothing open. -/
def AreParts (parts : List Text) : Prop :=
  ∃ front last, parts = front ++ [last] ∧ (∀ part ∈ front, part.IsClosed) ∧
    ¬ Nesting.outside.MeetsComma last

theorem AreParts.cons {part : Text} (h : part.IsClosed) {others : List Text}
    (hothers : AreParts others) : AreParts (part :: others) := by
  obtain ⟨front, last, rfl, hfront, hlast⟩ := hothers
  exact ⟨part :: front, last, rfl, List.forall_mem_cons.2 ⟨h, hfront⟩, hlast⟩

theorem areParts_splitCommas (t : Text) : AreParts t.splitCommas := by
  obtain ⟨hnot, hcases⟩ := splitInside_cases .outside t
  rw [splitCommas_eq]
  rcases hcases with ⟨-, hnone⟩ | ⟨hafter, rest, hall, hothers⟩
  · exact ⟨[], (splitInside .outside t).1, by rw [hnone]; rfl, by simp, hnot⟩
  · -- behind its comma the text is shorter, and split as if it stood alone
    have hshorter : rest.length < t.length := by
      have hlength := congrArg List.length hall
      simp only [List.length_append, List.length_cons] at hlength
      omega
    rw [hothers]
    exact (areParts_splitCommas rest).cons ⟨hafter, hnot⟩
termination_by t.length

theorem splitCommas_intercalate {parts : List Text} (h : AreParts parts) :
    splitCommas (List.intercalate [','] parts) = parts := by
  obtain ⟨front, last, rfl, hfront, hlast⟩ := h
  induction front with
  | nil => simpa using splitCommas_of_not_meetsComma hlast
  | cons part more ih =>
    obtain ⟨hpart, hmore⟩ := List.forall_mem_cons.1 hfront
    have hjoin : List.intercalate [','] (part :: (more ++ [last])) =
        part ++ ',' :: List.intercalate [','] (more ++ [last]) := by
      cases more <;> simp [List.intercalate_cons_cons]
    rw [List.cons_append, hjoin, hpart.splitCommas_append, ih hmore]

theorem map_trim_splitCommas_blank (t : Text) :
    (splitCommas (' ' :: t)).map trim = t.splitCommas.map trim := by
  have hpart : ∀ part : Text, trim (' ' :: part) = part.trim := fun _ => rfl
  have hblank : splitInside .outside (' ' :: t) =
      (' ' :: (splitInside .outside t).1, (splitInside .outside t).2) := rfl
  rw [splitCommas_eq, hblank, List.map_cons, hpart]
  rfl

theorem map_trim_splitCommas_list {items : List Text} (hne : items ≠ [])
    (h : ∀ item ∈ items, item.IsClosed) :
    (splitCommas (List.intercalate ", ".toList items)).map trim = items.map trim := by
  induction items with
  | nil => exact absurd rfl hne
  | cons item rest ih =>
    obtain ⟨hitem, hrest⟩ := List.forall_mem_cons.1 h
    cases rest with
    | nil => simp [splitCommas_of_not_meetsComma hitem.not_meetsComma]
    | cons second more =>
      have hjoin : List.intercalate ", ".toList (item :: second :: more) =
          item ++ ',' :: ' ' :: List.intercalate ", ".toList (second :: more) := by
        simp [List.intercalate_cons_cons]
      rw [hjoin, hitem.splitCommas_append, List.map_cons, map_trim_splitCommas_blank,
        ih (by simp) hrest]
      rfl

/-- Splitting is the inverse of joining: the parts of a text are those texts that give it when they
are joined with commas and that hold no other comma to cut at. -/
theorem splitCommas_eq_iff (t : Text) (parts : List Text) :
    t.splitCommas = parts ↔ List.intercalate [','] parts = t ∧ AreParts parts := by
  constructor
  · rintro rfl
    exact ⟨intercalate_splitCommas t, areParts_splitCommas t⟩
  · rintro ⟨rfl, hparts⟩
    exact splitCommas_intercalate hparts

/-- A bracket that closes nothing is passed over, and one that nothing closes holds the rest
together. -/
example : splitCommas "'a,b'), (c, d" = ["'a,b')".toList, " (c, d".toList] := by decide

end Text

end BlockConfig
