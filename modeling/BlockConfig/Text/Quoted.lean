import BlockConfig.Text.Blank

set_option autoImplicit false

/-!
Quoted text. A single or a double quote opens a literal that runs to the next quote of the same
kind; structural characters count only outside literals.
-/

namespace BlockConfig

def isQuote (c : Char) : Bool := c == '"' || c == '\''

theorem isBlank_of_isQuote {c : Char} (h : isQuote c = true) : isBlank c = false := by
  rcases (by simpa [isQuote] using h : c = '"' ∨ c = '\'') with rfl | rfl <;> decide

abbrev OpenQuote := Option Char

namespace OpenQuote

def step : OpenQuote → Char → OpenQuote
  | some q, c => if c = q then none else some q
  | none, c => if isQuote c then some c else none

/-- Whether a character is plain: outside every literal and no quote itself. -/
def isPlain : OpenQuote → Char → Bool
  | some _, _ => false
  | none, c => !isQuote c

def after (q : OpenQuote) (t : Text) : OpenQuote := t.foldl step q

@[simp] theorem after_nil (q : OpenQuote) : q.after [] = q := rfl

@[simp] theorem after_cons (q : OpenQuote) (c : Char) (t : Text) :
    q.after (c :: t) = (q.step c).after t := rfl

theorem after_append (q : OpenQuote) (s t : Text) : q.after (s ++ t) = (q.after s).after t := by
  simp [after]

end OpenQuote

namespace Text

/-- The text before and after the first occurrence of `needle` that starts at a plain character,
when `q` is open at the start. -/
def cutFrom? : OpenQuote → Text → Text → Option (Text × Text)
  | _, [], _ => none
  | q, c :: rest, needle =>
    if q.isPlain c && needle.isPrefixOf (c :: rest) then
      some ([], (c :: rest).drop needle.length)
    else (cutFrom? (q.step c) rest needle).map fun (before, after) => (c :: before, after)

def cutUnquoted? (t needle : Text) : Option (Text × Text) := cutFrom? none t needle

theorem eq_of_cutFrom? {needle t before after : Text} {q : OpenQuote}
    (h : cutFrom? q t needle = some (before, after)) :
    t = before ++ needle ++ after ∧ q.after before = none := by
  induction t generalizing q before with
  | nil => simp [cutFrom?] at h
  | cons c rest ih =>
    simp only [cutFrom?] at h
    split at h
    · rename_i hp
      rw [Bool.and_eq_true] at hp
      obtain ⟨tail, ht⟩ := List.isPrefixOf_iff_prefix.1 hp.2
      simp only [Option.some.injEq, Prod.mk.injEq] at h
      obtain ⟨rfl, rfl⟩ := h
      refine ⟨by simp [← ht], ?_⟩
      cases q with
      | none => rfl
      | some _ => simp [OpenQuote.isPlain] at hp
    · obtain ⟨⟨b, a⟩, hb, he⟩ := Option.map_eq_some_iff.1 h
      simp only [Prod.mk.injEq] at he
      obtain ⟨rfl, rfl⟩ := he
      have := ih hb
      exact ⟨by simp [this.1], this.2⟩

/-- Bracket depth after a plain character; a closing bracket at depth 0 changes nothing. -/
def depthAfter (depth : Nat) (c : Char) : Nat :=
  if c = '[' ∨ c = '(' then depth + 1
  else if c = ']' ∨ c = ')' then depth - 1
  else depth

/-- The first part and the later parts of a text cut at its commas, those in quotes or in brackets
apart, when `q` is open and `depth` brackets are open at the start. -/
def splitFrom : OpenQuote → Nat → Text → Text × List Text
  | _, _, [] => ([], [])
  | q, depth, c :: rest =>
    if q.isPlain c then
      if c = ',' ∧ depth = 0 then
        let (part, others) := splitFrom none 0 rest
        ([], part :: others)
      else
        let (part, others) := splitFrom none (depthAfter depth c) rest
        (c :: part, others)
    else
      let (part, others) := splitFrom (q.step c) depth rest
      (c :: part, others)

def splitCommas (t : Text) : List Text := (splitFrom none 0 t).1 :: (splitFrom none 0 t).2

theorem intercalate_splitFrom (q : OpenQuote) (depth : Nat) (t : Text) :
    List.intercalate [','] ((splitFrom q depth t).1 :: (splitFrom q depth t).2) = t := by
  induction t generalizing q depth with
  | nil => simp [splitFrom, List.intercalate]
  | cons c rest ih =>
    simp only [splitFrom]
    split
    · split
      · rename_i h
        have := ih none 0
        simp_all [List.intercalate]
      · have := ih none (depthAfter depth c)
        cases hs : (splitFrom none (depthAfter depth c) rest).2 <;> simp_all [List.intercalate]
    · have := ih (q.step c) depth
      cases hs : (splitFrom (q.step c) depth rest).2 <;> simp_all [List.intercalate]

theorem intercalate_splitCommas (t : Text) : List.intercalate [','] t.splitCommas = t :=
  intercalate_splitFrom none 0 t

def isQuoted : Text → Bool
  | c :: d :: rest => isQuote c && (d :: rest).getLast? == some c
  | _ => false

def unquote (t : Text) : Text := if t.isQuoted then (t.drop 1).dropLast else t

theorem isQuoted_wrap {q : Char} (h : isQuote q = true) (t : Text) :
    isQuoted (q :: (t ++ [q])) = true := by
  cases t with
  | nil => simp [isQuoted, h]
  | cons c rest =>
    have hl : ((c :: rest) ++ [q]).getLast? = some q := List.getLast?_concat
    rw [List.cons_append] at hl
    simp [isQuoted, h, hl]

theorem unquote_wrap {q : Char} (h : isQuote q = true) (t : Text) :
    unquote (q :: (t ++ [q])) = t := by
  rw [unquote, if_pos (isQuoted_wrap h t), List.drop_one, List.tail_cons, List.dropLast_concat]

end Text
end BlockConfig
