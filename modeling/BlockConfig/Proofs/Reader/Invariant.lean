import BlockConfig.Proofs.Evaluation.Results
import BlockConfig.Proofs.Grammar
import BlockConfig.Proofs.Line

set_option autoImplicit false

/-!
What reading keeps: a property of levels that every attribute and every finished block keep is one
of all that is read.
-/

namespace BlockConfig

structure Text.IsName (t : Text) : Prop where
  ne_nil : t ≠ []
  trim_eq : t.trim = t

theorem Text.isName_trim {t : Text} (h : ¬ t.trim.isEmpty = true) : t.trim.IsName :=
  ⟨fun hnil => h (by rw [hnil]; rfl), t.trim_trim⟩

theorem LineShape.isName_of_opening {line name : Text} {body : Option Text}
    (h : LineShape.of line = .opening name body) (hname : ¬ name.isEmpty = true) :
    name.IsName := by
  unfold LineShape.of at h
  simp only at h
  split at h
  · cases h
  · split at h
    · cases h
      exact Text.isName_trim hname
    · split at h <;> cases h

theorem eq_or_arrayLines_of_valueText {start n : Nat} {raw text : Text} {rest : List Text}
    (h : valueText start raw rest = .ok (text, n)) :
    text = raw ∨ raw.head? = some '[' ∧ arrayLines raw rest = .ok (text, n) := by
  unfold valueText at h
  by_cases harray : raw.head? = some '[' ∧ ']' ∉ raw
  · rw [if_pos harray] at h
    cases hall : arrayLines raw rest with
    | error all => simp [hall] at h
    | ok found => exact .inr ⟨harray.1, by simpa [hall] using h⟩
  · rw [if_neg harray] at h
    cases h
    exact .inl rfl

/-- A line that reads as an attribute enters nothing, or a string of all its lines, or the value
of its text, which goes on up to a closing bracket if it opens one. -/
theorem readAttribute_cases {level next : Level} {start k : Nat} {line : Text} {rest : List Text}
    (h : readAttribute level start line rest = .ok (next, k)) :
    next = level ∨ ∃ front back, line.cut? "=" = some (front, back) ∧ front.trim.IsName ∧
      (next = level.defineString front.trim (stringPiece back.trim :: stringLines rest) ∨
        ∃ raw, continues back.trim = false ∧ valueText start back.trim rest = .ok (raw, k) ∧
          level.define front.trim raw start = .ok next) := by
  rw [readAttribute_eq] at h
  cases hcut : line.cut? "=" with
  | none =>
    simp only [hcut, Except.ok.injEq, Prod.mk.injEq] at h
    exact .inl h.1.symm
  | some parts =>
    obtain ⟨front, back⟩ := parts
    simp only [hcut] at h
    by_cases hname : front.trim.isEmpty
    · simp [hname] at h
    refine .inr ⟨front, back, rfl, Text.isName_trim hname, ?_⟩
    by_cases hcont : continues back.trim
    · simp only [if_neg hname, if_pos hcont, Except.ok.injEq, Prod.mk.injEq] at h
      exact .inl h.1.symm
    simp only [if_neg hname, if_neg hcont] at h
    cases htext : valueText start back.trim rest with
    | error e => simp [htext] at h
    | ok found =>
      obtain ⟨raw, n⟩ := found
      simp only [htext] at h
      obtain ⟨last, hlast, heq⟩ := exists_of_map_ok h
      cases heq
      exact .inr ⟨raw, by simpa using hcont, rfl, hlast⟩

theorem Level.exists_of_define {level next : Level} {name raw : Text} {start : Nat}
    (h : level.define name raw start = .ok next) :
    ∃ kind value, (evaluate raw level.scope).1 = .ok (kind, value) ∧
      next = { level with scope := (evaluate raw level.scope).2.add ⟨name, kind, value⟩ } := by
  unfold define at h
  rcases he : evaluate raw level.scope with ⟨result, last⟩
  cases result with
  | error e => simp [he] at h
  | ok found =>
    obtain ⟨kind, value⟩ := found
    simp only [he, Except.ok.injEq] at h
    exact ⟨kind, value, rfl, h.symm⟩

theorem exists_of_skipping {k n : Nat} {result : Except Error (Level × Nat)} {last : Level}
    (h : skipping k result = .ok (last, n)) : ∃ m, result = .ok (last, m) := by
  obtain ⟨⟨level, m⟩, hm, heq⟩ := exists_of_map_ok h
  cases heq
  exact ⟨m, hm⟩

/-- A property of levels that reading keeps, where the lines have the property `P`. -/
structure Level.Kept (P : Text → Prop) (I : Level → Prop) : Prop where
  empty : I .empty
  enter : ∀ {level inner : Level} {name : Text}, I level → I inner → name.IsName →
    I (level.enter name inner)
  readAttribute : ∀ {level next : Level} {start k : Nat} {line : Text} {rest : List Text},
    I level → P line → (∀ l ∈ rest, P l) →
    readAttribute level start line rest = .ok (next, k) → I next

section Kept

variable {P : Text → Prop} {I : Level → Prop} (hI : Level.Kept P I)

include hI

theorem Level.Kept.readItems {outer : Option (Text × Nat)} {level last : Level} {taken n : Nat}
    {lines : List Text} (h : I level) (hlines : ∀ line ∈ lines, P line)
    (hlast : BlockConfig.readItems outer level taken lines = .ok (last, n)) : I last := by
  induction outer, level, taken, lines using readItems.induct generalizing last n with
  | case1 level taken =>
    rw [readItems.eq_def] at hlast
    simp only [Except.ok.injEq, Prod.mk.injEq] at hlast
    exact hlast.1 ▸ h
  | case2 level taken name start =>
    rw [readItems.eq_def] at hlast
    simp at hlast
  | case3 outer level taken line rest hshape ih =>
    rw [readItems_of_blank hshape] at hlast
    obtain ⟨m, hm⟩ := exists_of_skipping hlast
    exact ih h (fun l hl => hlines l (List.mem_cons_of_mem _ hl)) hm
  | case4 level taken line rest hshape =>
    rw [readItems_of_closing hshape] at hlast
    simp at hlast
  | case5 level taken line rest hshape opened =>
    rw [readItems_of_closing hshape] at hlast
    simp only [Except.ok.injEq, Prod.mk.injEq] at hlast
    exact hlast.1 ▸ h
  | case6 outer level taken line rest hshape e he =>
    rw [readItems_of_content hshape, he] at hlast
    simp at hlast
  | case7 outer level taken line rest hshape next k hk ih =>
    rw [readItems_of_content hshape, hk] at hlast
    obtain ⟨m, hm⟩ := exists_of_skipping hlast
    have hrest : ∀ l ∈ rest, P l := fun l hl => hlines l (List.mem_cons_of_mem _ hl)
    have hnext := hI.readAttribute h (hlines line (by simp)) hrest hk
    exact ih hnext (fun l hl => hrest l (List.mem_of_mem_drop hl)) hm
  | case8 outer level taken line rest name body hshape hname =>
    rw [readItems_of_emptyName hshape hname] at hlast
    simp at hlast
  | case9 outer level taken line rest name hname hshape ih =>
    rw [readItems_of_bothBraces hshape hname] at hlast
    obtain ⟨m, hm⟩ := exists_of_skipping hlast
    have hempty := hI.enter h hI.empty (LineShape.isName_of_opening hshape hname)
    exact ih hempty (fun l hl => hlines l (List.mem_cons_of_mem _ hl)) hm
  | case10 outer level taken line rest name hname content hne hshape =>
    rw [readItems_of_inlineContent hshape hname hne] at hlast
    simp at hlast
  | case11 outer level taken line rest name hname e he hshape ih =>
    rw [readItems_of_block hshape hname, he] at hlast
    simp at hlast
  | case12 outer level taken line rest name hname inner k hk hshape ih₁ ih₂ =>
    rw [readItems_of_block hshape hname, hk] at hlast
    obtain ⟨m, hm⟩ := exists_of_skipping hlast
    have hrest : ∀ l ∈ rest, P l := fun l hl => hlines l (List.mem_cons_of_mem _ hl)
    have hinner := ih₁ hI.empty hrest hk
    have henter := hI.enter h hinner (LineShape.isName_of_opening hshape hname)
    exact ih₂ henter (fun l hl => hrest l (List.mem_of_mem_drop hl)) hm

theorem Level.Kept.ofLines {lines : List Text} (hlines : ∀ line ∈ lines, P (stripComment line))
    {d : Document} (hd : Document.ofLines lines = .ok d) : I ⟨d.attributes, d.blocks⟩ := by
  rw [ofLines_eq_ofItems, Document.ofItems] at hd
  obtain ⟨⟨last, n⟩, hitems, rfl⟩ := exists_of_map_ok hd
  refine hI.readItems hI.empty (fun line hline => ?_) hitems
  obtain ⟨raw, hraw, rfl⟩ := List.mem_map.1 hline
  exact hlines raw hraw

end Kept

end BlockConfig
