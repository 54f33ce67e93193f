import BlockConfig.Table

set_option autoImplicit false

namespace BlockConfig

namespace Table

variable {α : Type}

def without (t : Table α) (name : Text) : Table α := t.filter fun e => e.1 ≠ name

def insertAll (t added : Table α) : Table α := added.foldl (fun t e => insert t e.1 e.2) t

@[simp] theorem insertAll_nil (t : Table α) : insertAll t [] = t := rfl

@[simp] theorem insertAll_cons (t : Table α) (e : Text × α) (added : Table α) :
    insertAll t (e :: added) = insertAll (insert t e.1 e.2) added := rfl

theorem mem_names_insertAll (t added : Table α) (name : Text) :
    name ∈ names (insertAll t added) ↔ name ∈ names t ∨ name ∈ names added := by
  induction added generalizing t with
  | nil => simp [names]
  | cons e rest ih =>
    rw [insertAll_cons, ih, names_insert]
    by_cases h : e.1 ∈ names t
    · rw [if_pos h]
      simp only [names, List.map_cons, List.mem_cons]
      constructor
      · rintro (hn | hn)
        · exact .inl hn
        · exact .inr (.inr hn)
      · rintro (hn | rfl | hn)
        · exact .inl hn
        · exact .inl h
        · exact .inr hn
    · rw [if_neg h]
      simp only [names, List.map_cons, List.mem_cons, List.mem_append, List.not_mem_nil, or_false]
      exact or_assoc

theorem mem_insert {t : Table α} {name : Text} {a : α} {e : Text × α}
    (h : e ∈ insert t name a) : e = (name, a) ∨ e ∈ t := by
  induction t with
  | nil => exact .inl (List.mem_singleton.1 h)
  | cons first rest ih =>
    obtain ⟨k, b⟩ := first
    by_cases hk : k = name
    · subst hk
      simp only [insert, if_true] at h
      exact (List.mem_cons.1 h).imp_right (List.mem_cons_of_mem _)
    · simp only [insert, if_neg hk] at h
      rcases List.mem_cons.1 h with he | he
      · exact .inr (he ▸ List.mem_cons_self)
      · exact (ih he).imp_right (List.mem_cons_of_mem _)

/-- Each name comes once, and is the one its value has. -/
structure Keyed (nameOf : α → Text) (t : Table α) : Prop where
  nodup : (names t).Nodup
  name_eq : ∀ e ∈ t, nameOf e.2 = e.1

theorem keyed_nil (nameOf : α → Text) : Keyed nameOf [] := ⟨List.nodup_nil, by simp⟩

theorem Keyed.insert {nameOf : α → Text} {t : Table α} (h : Keyed nameOf t) (a : α) :
    Keyed nameOf (insert t (nameOf a) a) := by
  refine ⟨nodup_names_insert h.nodup (nameOf a) a, fun e he => ?_⟩
  rcases mem_insert he with rfl | he
  · rfl
  · exact h.name_eq e he

theorem mem_of_get? {t : Table α} {name : Text} {a : α} (h : get? t name = some a) :
    (name, a) ∈ t := by
  induction t with
  | nil => simp at h
  | cons e rest ih =>
    obtain ⟨k, b⟩ := e
    by_cases hk : k = name
    · simp only [get?, if_pos hk, Option.some.injEq] at h
      rw [hk, h]
      exact List.mem_cons_self
    · simp only [get?, if_neg hk] at h
      exact List.mem_cons_of_mem _ (ih h)

theorem without_cons (e : Text × α) (t : Table α) (name : Text) :
    without (e :: t) name = if e.1 = name then without t name else e :: without t name := by
  by_cases h : e.1 = name <;> simp [without, h]

theorem without_insert_self (t : Table α) (name : Text) (a : α) :
    without (insert t name a) name = without t name := by
  induction t with
  | nil => simp [without, insert]
  | cons e rest ih =>
    obtain ⟨k, b⟩ := e
    by_cases h : k = name <;> simp [without_cons, insert, h, ih]

theorem without_insert_of_ne {name other : Text} (h : other ≠ name) (t : Table α) (a : α) :
    without (insert t other a) name = insert (without t name) other a := by
  induction t with
  | nil => simp [without, insert, h]
  | cons e rest ih =>
    obtain ⟨k, b⟩ := e
    by_cases hk : k = other
    · subst hk
      simp [without_cons, insert, h]
    · by_cases hn : k = name
      · subst hn
        simp [without_cons, insert, hk, ih]
      · simp [without_cons, insert, hk, hn, ih]

theorem exists_insert_eq (t : Table α) (name : Text) : ∃ before after : Table α,
    name ∉ names before ∧ ∀ a, insert t name a = before ++ (name, a) :: after := by
  induction t with
  | nil => exact ⟨[], [], by simp [names], fun a => rfl⟩
  | cons e rest ih =>
    obtain ⟨k, b⟩ := e
    by_cases h : k = name
    · subst h
      exact ⟨[], rest, by simp [names], fun a => by simp [insert]⟩
    · obtain ⟨before, after, hbefore, hinsert⟩ := ih
      refine ⟨(k, b) :: before, after, ?_, fun a => by simp [insert, h, hinsert a]⟩
      simp only [names, List.map_cons, List.mem_cons, not_or] at hbefore ⊢
      exact ⟨fun he => h he.symm, hbefore⟩

theorem insert_append_self {before : Table α} {name : Text} (h : name ∉ names before)
    (after : Table α) (a b : α) :
    insert (before ++ (name, a) :: after) name b = before ++ (name, b) :: after := by
  induction before with
  | nil => simp [insert]
  | cons e rest ih =>
    obtain ⟨k, c⟩ := e
    simp only [names, List.map_cons, List.mem_cons, not_or] at h ih
    have hk : k ≠ name := fun he => h.1 he.symm
    simp [insert, hk, ih h.2]

theorem insert_insert_self (t : Table α) (name : Text) (a b : α) :
    insert (insert t name a) name b = insert t name b := by
  obtain ⟨before, after, hbefore, hinsert⟩ := exists_insert_eq t name
  rw [hinsert a, hinsert b, insert_append_self hbefore]

theorem mem_names_insert (t : Table α) (name : Text) (a : α) : name ∈ names (insert t name a) := by
  rw [names_insert]
  split
  · assumption
  · simp

/-- A name that a table has keeps its place, whatever else is inserted. -/
theorem insert_insert_of_mem {t : Table α} {name other : Text} (h : name ∈ names t)
    (hne : name ≠ other) (a b : α) :
    insert (insert t other b) name a = insert (insert t name a) other b := by
  induction t with
  | nil => simp [names] at h
  | cons e rest ih =>
    obtain ⟨k, c⟩ := e
    by_cases hk : k = name
    · subst hk
      simp [insert, hne]
    · have hrest : name ∈ names rest := by
        rcases List.mem_cons.1 h with he | he
        · exact absurd he.symm hk
        · exact he
      by_cases ho : k = other
      · subst ho
        simp [insert, hk]
      · simp [insert, hk, ho, ih hrest]

theorem get?_append_self {before : Table α} {name : Text} (h : name ∉ names before)
    (after : Table α) (a : α) : get? (before ++ (name, a) :: after) name = some a := by
  induction before with
  | nil => simp [get?]
  | cons e rest ih =>
    obtain ⟨k, c⟩ := e
    simp only [names, List.map_cons, List.mem_cons, not_or] at h ih
    have hk : k ≠ name := fun he => h.1 he.symm
    simp [get?, hk, ih h.2]

theorem exists_insert_append {before : Table α} {name other : Text} (h : name ∉ names before)
    (hne : other ≠ name) (after : Table α) (b : α) : ∃ before' after' : Table α,
    name ∉ names before' ∧
      ∀ a, insert (before ++ (name, a) :: after) other b = before' ++ (name, a) :: after' := by
  induction before with
  | nil => exact ⟨[], insert after other b, h, fun a => by simp [insert, hne.symm]⟩
  | cons e rest ih =>
    obtain ⟨k, c⟩ := e
    simp only [names, List.map_cons, List.mem_cons, not_or] at h
    by_cases hk : k = other
    · refine ⟨(k, b) :: rest, after, ?_, fun a => by simp [insert, hk]⟩
      simp only [names, List.map_cons, List.mem_cons, not_or]
      exact h
    · obtain ⟨before', after', hbefore, hinsert⟩ := ih h.2
      refine ⟨(k, c) :: before', after', ?_, fun a => by simp [insert, hk, hinsert a]⟩
      simp only [names, List.map_cons, List.mem_cons, not_or]
      exact ⟨h.1, hbefore⟩

end Table

end BlockConfig
