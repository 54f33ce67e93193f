set_option autoImplicit false

namespace BlockConfig

/-- Source text, names and messages: characters in order. -/
abbrev Text := List Char

instance : Coe String Text := ⟨String.toList⟩

namespace Text

/-- Whether `needle` occurs somewhere in the text. The empty needle occurs everywhere. -/
def contains : Text → Text → Bool
  | [], needle => needle.isEmpty
  | c :: rest, needle => needle.isPrefixOf (c :: rest) || contains rest needle

theorem contains_iff (t needle : Text) : t.contains needle = true ↔ needle <:+: t := by
  induction t with
  | nil => simp [contains]
  | cons c rest ih => simp [contains, ih, List.infix_cons_iff]

def containsAny (t : Text) (needles : List Text) : Bool := needles.any t.contains

theorem containsAny_iff (t : Text) (needles : List Text) :
    t.containsAny needles = true ↔ ∃ needle ∈ needles, needle <:+: t := by
  simp [containsAny, contains_iff]

def cut? : Text → Text → Option (Text × Text)
  | [], needle => if needle.isEmpty then some ([], []) else none
  | c :: rest, needle =>
    if needle.isPrefixOf (c :: rest) then some ([], (c :: rest).drop needle.length)
    else (cut? rest needle).map fun (before, after) => (c :: before, after)

theorem eq_of_cut? {needle t before after : Text} (h : t.cut? needle = some (before, after)) :
    t = before ++ needle ++ after := by
  induction t generalizing before with
  | nil =>
    simp only [cut?] at h
    split at h <;> simp_all
  | cons c rest ih =>
    simp only [cut?] at h
    split at h
    · rename_i hp
      obtain ⟨tail, ht⟩ := List.isPrefixOf_iff_prefix.1 hp
      simp only [Option.some.injEq, Prod.mk.injEq] at h
      obtain ⟨rfl, rfl⟩ := h
      simp [← ht]
    · obtain ⟨⟨b, a⟩, hb, he⟩ := Option.map_eq_some_iff.1 h
      simp only [Prod.mk.injEq] at he
      obtain ⟨rfl, rfl⟩ := he
      simp [ih hb]

theorem cut?_isSome (t needle : Text) : (t.cut? needle).isSome = t.contains needle := by
  induction t with
  | nil => cases needle <;> rfl
  | cons c rest ih =>
    simp only [cut?, contains]
    split <;> simp_all

def cutLast? (mark : Char) : Text → Option (Text × Text)
  | [] => none
  | c :: rest =>
    match cutLast? mark rest with
    | some (before, after) => some (c :: before, after)
    | none => if c = mark then some ([], rest) else none

theorem cutLast?_eq_none_iff (mark : Char) (t : Text) : cutLast? mark t = none ↔ mark ∉ t := by
  induction t with
  | nil => simp [cutLast?]
  | cons c rest ih =>
    simp only [cutLast?]
    split
    · simp_all
    · by_cases h : c = mark
      · simp [h]
      · simp_all [Ne.symm h]

theorem eq_of_cutLast? {mark : Char} {t before after : Text}
    (h : cutLast? mark t = some (before, after)) : t = before ++ mark :: after ∧ mark ∉ after := by
  induction t generalizing before with
  | nil => simp [cutLast?] at h
  | cons c rest ih =>
    simp only [cutLast?] at h
    split at h
    · rename_i b a hr
      simp only [Option.some.injEq, Prod.mk.injEq] at h
      obtain ⟨rfl, rfl⟩ := h
      have := ih hr
      exact ⟨by simp [this.1], this.2⟩
    · rename_i hr
      split at h
      · simp only [Option.some.injEq, Prod.mk.injEq] at h
        obtain ⟨rfl, rfl⟩ := h
        exact ⟨by simp_all, (cutLast?_eq_none_iff _ _).1 hr⟩
      · simp at h

def splitOn (mark : Char) : Text → Text × List Text
  | [] => ([], [])
  | c :: rest =>
    let (part, parts) := splitOn mark rest
    if c = mark then ([], part :: parts) else (c :: part, parts)

def parts (mark : Char) (t : Text) : List Text := (splitOn mark t).1 :: (splitOn mark t).2

theorem intercalate_parts (mark : Char) (t : Text) :
    List.intercalate [mark] (t.parts mark) = t := by
  unfold parts
  induction t with
  | nil => rfl
  | cons c rest ih =>
    simp only [splitOn]
    split
    · rename_i h
      subst h
      simpa [List.intercalate] using ih
    · cases hs : (splitOn mark rest).2 <;> simp_all [List.intercalate]

theorem not_mem_of_mem_parts {mark : Char} {t part : Text} (h : part ∈ t.parts mark) :
    mark ∉ part := by
  unfold parts at h
  induction t generalizing part with
  | nil => simp_all [splitOn]
  | cons c rest ih =>
    simp only [splitOn] at h
    split at h
    · rcases List.mem_cons.1 h with rfl | h
      · simp
      · exact ih h
    · rename_i hc
      rcases List.mem_cons.1 h with rfl | h
      · simp only [List.mem_cons, not_or]
        exact ⟨fun e => hc e.symm, ih List.mem_cons_self⟩
      · exact ih (List.mem_cons_of_mem _ h)

def replace (old new : Char) (t : Text) : Text := t.map fun c => if c = old then new else c

def replaceFirst (old new : Char) : Text → Text
  | [] => []
  | c :: rest => if c = old then new :: rest else c :: replaceFirst old new rest

def dropEnd? (mark : Char) (t : Text) : Option Text :=
  if t.getLast? = some mark then some t.dropLast else none

/-- The lines of a source: each ends at a newline, which a carriage return may precede, or at the
end of the text; an empty last line does not count. -/
def lines : Text → List Text
  | [] => []
  | '\n' :: rest => [] :: lines rest
  | '\r' :: '\n' :: rest => [] :: lines rest
  | c :: rest =>
    match lines rest with
    | [] => [[c]]
    | line :: others => (c :: line) :: others

theorem lines_append {line : Text} (h : '\n' ∉ line) (hr : line.getLast? ≠ some '\r') (rest : Text) :
    lines (line ++ '\n' :: rest) = line :: lines rest := by
  induction line with
  | nil => simp [lines]
  | cons c line ih =>
    have hc : c ≠ '\n' := fun e => h (by simp [e])
    have hl : '\n' ∉ line := fun e => h (by simp [e])
    cases line with
    | nil =>
      have hcr : c ≠ '\r' := fun e => hr (by simp [e])
      simp [lines, hcr]
    | cons d line =>
      have hd : d ≠ '\n' := fun e => hl (by simp [e])
      have hi := ih hl (by simpa using hr)
      rw [List.cons_append, List.cons_append, lines]
      · rw [← List.cons_append, hi]
      · exact hc
      · intro rest' _ he
        simp only [List.cons.injEq] at he
        exact hd he.1

end Text
end BlockConfig
