import BlockConfig.Text.Basic

set_option autoImplicit false

/-!
Tables from names to values that remember the order in which names first came.
-/

namespace BlockConfig

abbrev Table (α : Type) := List (Text × α)

namespace Table

variable {α : Type}

def get? : Table α → Text → Option α
  | [], _ => none
  | (k, a) :: rest, name => if k = name then some a else get? rest name

/-- Gives a name a value: in place if the table has the name, else at the end. -/
def insert : Table α → Text → α → Table α
  | [], name, a => [(name, a)]
  | (k, b) :: rest, name, a => if k = name then (k, a) :: rest else (k, b) :: insert rest name a

def names (t : Table α) : List Text := t.map Prod.fst

@[simp] theorem get?_nil (name : Text) : get? ([] : Table α) name = none := rfl

theorem get?_insert (t : Table α) (name other : Text) (a : α) :
    get? (insert t name a) other = if name = other then some a else get? t other := by
  induction t with
  | nil => simp [insert, get?]
  | cons e rest ih =>
    obtain ⟨k, b⟩ := e
    by_cases h : k = name
    · subst h
      by_cases ho : k = other <;> simp [insert, get?, ho]
    · by_cases ho : k = other
      · subst ho
        simp [insert, get?, h, Ne.symm h]
      · simp [insert, get?, h, ho, ih]

theorem names_insert (t : Table α) (name : Text) (a : α) :
    names (insert t name a) = if name ∈ names t then names t else names t ++ [name] := by
  induction t with
  | nil => simp [insert, names]
  | cons e rest ih =>
    obtain ⟨k, b⟩ := e
    by_cases h : k = name
    · simp [insert, names, h]
    · have h' : ¬ name = k := fun e => h e.symm
      simp only [names] at ih
      simp only [insert, h, if_false, names, List.map_cons, ih, List.mem_cons, h', false_or]
      split <;> rename_i hn <;> simp [hn]

theorem nodup_names_insert {t : Table α} (h : (names t).Nodup) (name : Text) (a : α) :
    (names (insert t name a)).Nodup := by
  rw [names_insert]
  split
  · exact h
  · rename_i hn
    rw [List.nodup_append]
    refine ⟨h, by simp, ?_⟩
    intro x hx y hy
    simp only [List.mem_singleton] at hy
    subst hy
    intro he
    subst he
    exact hn hx

end Table
end BlockConfig
