import BlockConfig.Proofs.Comment
import BlockConfig.Proofs.Reader.Invariant
import BlockConfig.Reread

set_option autoImplicit false

namespace BlockConfig

def Attribute.Holds (P : Text → Prop) (a : Attribute) : Prop :=
  a.kind = a.value.kind ∧ a.value.Holds P

structure Level.All (Q : Attribute → Prop) (level : Level) : Prop where
  scope : ∀ e ∈ level.scope, Q e.2
  blocks : ∀ a ∈ attributesOfBlocks level.blocks, Q a

abbrev Level.Holds (P : Text → Prop) (level : Level) : Prop := level.All (Attribute.Holds P)

theorem attributesOfBlocks_eq (blocks : Table Block) :
    attributesOfBlocks blocks = blocks.flatMap fun e => e.2.allAttributes := by
  induction blocks with
  | nil => rw [attributesOfBlocks]; rfl
  | cons e rest ih =>
    obtain ⟨name, b⟩ := e
    rw [attributesOfBlocks, ih]
    rfl

theorem mem_attributesOfBlocks_insert {blocks : Table Block} {name : Text} {b : Block}
    {a : Attribute} (h : a ∈ attributesOfBlocks (Table.insert blocks name b)) :
    a ∈ b.allAttributes ∨ a ∈ attributesOfBlocks blocks := by
  rw [attributesOfBlocks_eq, List.mem_flatMap] at h
  obtain ⟨e, he, ha⟩ := h
  rcases Table.mem_insert he with rfl | he
  · exact .inl ha
  · rw [attributesOfBlocks_eq, List.mem_flatMap]
    exact .inr ⟨e, he, ha⟩

namespace Level

variable {P : Text → Prop} {Q : Attribute → Prop} {level : Level}

theorem all_empty : All Q .empty := ⟨by simp [empty], by simp [empty, attributesOfBlocks_eq]⟩

theorem All.enter (h : level.All Q) (name : Text) {inner : Level} (hinner : inner.All Q) :
    (level.enter name inner).All Q := by
  refine ⟨h.scope, fun a ha => ?_⟩
  rcases mem_attributesOfBlocks_insert ha with ha | ha
  · rw [Block.allAttributes] at ha
    rcases List.mem_append.1 ha with ha | ha
    · obtain ⟨e, he, rfl⟩ := List.mem_map.1 ha
      exact hinner.scope e he
    · exact hinner.blocks a ha
  · exact h.blocks a ha

theorem All.add (h : level.All Q) {a : Attribute} (ha : Q a) {last : Scope}
    (hlast : ∀ e ∈ last, Q e.2) : Level.All Q { level with scope := last.add a } := by
  refine ⟨fun e he => ?_, h.blocks⟩
  rcases Table.mem_insert he with rfl | he
  · exact ha
  · exact hlast e he

/-- A property of attributes that reading keeps is one of all attributes, at any depth. -/
theorem Kept.attribute (hQ : Kept P (All Q)) {lines : List Text}
    (hlines : ∀ line ∈ lines, P (stripComment line)) {d : Document}
    (hd : Document.ofLines lines = .ok d) {a : Attribute} (ha : a ∈ d.allAttributes) : Q a := by
  have hlast := hQ.ofLines hlines hd
  rw [Document.allAttributes] at ha
  rcases List.mem_append.1 ha with ha | ha
  · obtain ⟨e, he, rfl⟩ := List.mem_map.1 ha
    exact hlast.scope e he
  · exact hlast.blocks a ha

theorem holds_of_define (hP : Text.Closed P) (h : level.Holds P) {name raw : Text} (hraw : P raw)
    {start : Nat} {next : Level} (hnext : level.define name raw start = .ok next) :
    next.Holds P := by
  have hscope : level.scope.Holds P := fun e he => (h.scope e he).2
  have htagged : level.scope.Tagged := fun e he => (h.scope e he).1
  obtain ⟨hvalue, hlast⟩ := evaluate_meets hP hscope hraw
  have hlastTagged := evaluate_tagged htagged raw
  obtain ⟨kind, value, hfound, rfl⟩ := exists_of_define hnext
  have hfound := hvalue.of_ok hfound
  exact h.add ⟨hfound.2 htagged, hfound.1⟩ fun e he => ⟨hlastTagged e he, hlast e he⟩

theorem holds_defineString (h : level.Holds P) {name : Text} {pieces : List Text}
    (hpieces : P (List.intercalate " ".toList pieces)) :
    (level.defineString name pieces).Holds P := by
  have hattribute : Attribute.Holds P
      ⟨name, .string, .scalar (.string (List.intercalate " ".toList pieces))⟩ := ⟨rfl, hpieces⟩
  exact h.add hattribute h.scope

end Level

section Reading

variable {P : Text → Prop} (hP : Text.Closed P)

include hP

theorem holds_intercalate {piece : Text} (hpiece : P piece) {pieces : List Text}
    (h : ∀ p ∈ pieces, P p) : P (List.intercalate " ".toList (piece :: pieces)) := by
  induction pieces generalizing piece with
  | nil => simpa using hpiece
  | cons second rest ih =>
    rw [List.intercalate_cons_cons]
    exact hP.joined hpiece (ih (h second (by simp)) fun p hp => h p (List.mem_cons_of_mem _ hp))

theorem holds_stringPiece {line : Text} (h : P line) : P (stringPiece line) := by
  have htrim := hP.part (Text.trim_infix line) h
  have hend : P ((line.trim.dropEnd? '\\').getD line.trim) := by
    cases hd : line.trim.dropEnd? '\\' with
    | none => exact htrim
    | some inner => exact hP.part (Text.infix_of_dropEnd? hd) htrim
  exact hP.part (Text.unquote_infix _) (hP.part (Text.trim_infix _) hend)

theorem holds_of_mem_stringLines {lines : List Text} (h : ∀ line ∈ lines, P line) {piece : Text}
    (hp : piece ∈ stringLines lines) : P piece := by
  induction lines with
  | nil => simp [stringLines] at hp
  | cons line rest ih =>
    have hline := holds_stringPiece hP (h line (by simp))
    rw [stringLines] at hp
    split at hp
    · rcases List.mem_cons.1 hp with rfl | hp
      · exact hline
      · exact ih (fun l hl => h l (List.mem_cons_of_mem _ hl)) hp
    · rw [List.mem_singleton.1 hp]
      exact hline

theorem holds_of_arrayLines {lines : List Text} (h : ∀ line ∈ lines, P line) {joined all : Text}
    (hjoined : P joined) {n : Nat} (hall : arrayLines joined lines = .ok (all, n)) : P all := by
  induction lines generalizing joined n with
  | nil => simp [arrayLines] at hall
  | cons line rest ih =>
    have hnext : P (joined ++ ' ' :: line.trim) := by
      have hline := hP.joined hjoined (hP.part (Text.trim_infix line) (h line (by simp)))
      simpa using hline
    rw [arrayLines] at hall
    simp only at hall
    split at hall
    · simp only [Except.ok.injEq, Prod.mk.injEq] at hall
      rw [← hall.1]
      exact hnext
    · obtain ⟨⟨text, k⟩, hr, heq⟩ := exists_of_map_ok hall
      cases heq
      exact ih (fun l hl => h l (List.mem_cons_of_mem _ hl)) hnext hr

theorem holds_of_readAttribute {level next : Level} (h : level.Holds P) {start k : Nat}
    {line : Text} (hline : P line) {rest : List Text} (hrest : ∀ l ∈ rest, P l)
    (hnext : readAttribute level start line rest = .ok (next, k)) : next.Holds P := by
  rcases readAttribute_cases hnext with rfl | ⟨front, back, hcut, -, hentered⟩
  · exact h
  have hback : P back.trim :=
    hP.part ((Text.trim_infix back).trans (Text.infix_of_cut? hcut).2) hline
  rcases hentered with rfl | ⟨raw, -, htext, hdefine⟩
  · exact Level.holds_defineString h (holds_intercalate hP (holds_stringPiece hP hback)
      fun p hp => holds_of_mem_stringLines hP hrest hp)
  · rcases eq_or_arrayLines_of_valueText htext with rfl | ⟨-, hall⟩
    · exact Level.holds_of_define hP h hback hdefine
    · exact Level.holds_of_define hP h (holds_of_arrayLines hP hrest hback hall) hdefine

theorem holds_kept : Level.Kept P (Level.Holds P) where
  empty := Level.all_empty
  enter h hinner _ := h.enter _ hinner
  readAttribute h hline hrest hnext := holds_of_readAttribute hP h hline hrest hnext

theorem holds_of_ofLines {lines : List Text} (hlines : ∀ line ∈ lines, P (stripComment line))
    {d : Document} (hd : Document.ofLines lines = .ok d) {a : Attribute}
    (ha : a ∈ d.allAttributes) : a.Holds P :=
  (holds_kept hP).attribute hlines hd ha

end Reading

theorem newline_not_mem_of_mem_lines {source line : Text} (h : line ∈ source.lines) :
    '\n' ∉ line := by
  induction source using Text.lines.induct generalizing line with
  | case1 => simp [Text.lines] at h
  | case2 rest ih =>
    rw [Text.lines] at h
    rcases List.mem_cons.1 h with rfl | h
    · simp
    · exact ih h
  | case3 rest ih =>
    rw [Text.lines] at h
    rcases List.mem_cons.1 h with rfl | h
    · simp
    · exact ih h
  | case4 c rest hc hcr hnil ih =>
    simp only [Text.lines, hnil, List.mem_singleton] at h
    rw [h]
    simpa using fun he : '\n' = c => hc he.symm
  | case5 c rest hc hcr first others hlines ih =>
    simp only [Text.lines, hlines, List.mem_cons] at h
    rcases h with rfl | h
    · have hfirst : '\n' ∉ first := ih (by simp [hlines])
      simp only [List.mem_cons, not_or]
      exact ⟨fun he => hc he.symm, hfirst⟩
    · exact ih (by simp [hlines, h])

theorem ofNat_ne_newline {n : Nat} (h : n ≠ 10) : Char.ofNat n ≠ '\n' := by
  intro he
  unfold Char.ofNat at he
  by_cases hn : n.isValidChar
  · rw [dif_pos hn] at he
    exact h (congrArg Char.toNat he)
  · rw [dif_neg hn] at he
    cases he

theorem newline_not_mem_mapCase {expansions : List (Nat × List Nat)} {runs : List CaseRun}
    (hexpansions : ∀ e ∈ expansions, 10 ∉ e.2) (hruns : ∀ r ∈ runs, 10 < r.target) {c : Char}
    (hc : c ≠ '\n') : '\n' ∉ mapCase expansions runs c := by
  unfold mapCase
  split
  · rename_i targets hlookup
    intro hm
    obtain ⟨n, hn, he⟩ := List.mem_map.1 hm
    obtain ⟨before, after, hsplit, -⟩ := List.lookup_eq_some_iff.1 hlookup
    have hten : 10 ∉ targets := hexpansions (c.toNat, targets) (by simp [hsplit])
    exact ofNat_ne_newline (fun h => hten (h ▸ hn)) he
  · split
    · rename_i run hfind
      have htarget := hruns run (List.mem_of_find?_eq_some hfind)
      have hne : run.map c.toNat ≠ 10 := by
        unfold CaseRun.map
        omega
      simpa using (ofNat_ne_newline hne).symm
    · simpa using hc.symm

theorem newline_not_mem_upperChar {c : Char} (hc : c ≠ '\n') : '\n' ∉ upperChar c := by
  unfold upperChar
  split
  · rename_i hascii
    have hall : ∀ n < 128, (Char.ofNat n).toUpper = '\n' → Char.ofNat n = '\n' := by decide
    have hletter := hall c.toNat hascii
    rw [Char.ofNat_toNat] at hletter
    simpa using fun he => hc (hletter he.symm)
  · exact newline_not_mem_mapCase (by decide +kernel) (by decide +kernel) hc

theorem newline_not_mem_lowerChar {c : Char} (hc : c ≠ '\n') : '\n' ∉ lowerChar c := by
  unfold lowerChar
  split
  · rename_i hascii
    have hall : ∀ n < 128, (Char.ofNat n).toLower = '\n' → Char.ofNat n = '\n' := by decide
    have hletter := hall c.toNat hascii
    rw [Char.ofNat_toNat] at hletter
    simpa using fun he => hc (hletter he.symm)
  · exact newline_not_mem_mapCase (by decide +kernel) (by decide +kernel) hc

theorem newline_not_mem_lowerFrom (before : Text) {t : Text} (h : '\n' ∉ t) :
    '\n' ∉ Text.lowerFrom before t := by
  induction t generalizing before with
  | nil => simp [Text.lowerFrom]
  | cons c rest ih =>
    simp only [List.mem_cons, not_or] at h
    intro hm
    rw [Text.lowerFrom] at hm
    rcases List.mem_append.1 hm with hm | hm
    · split at hm
      · split at hm <;> simp at hm
      · exact newline_not_mem_lowerChar (Ne.symm h.1) hm
    · exact ih (c :: before) h.2 hm

theorem newline_closed : Text.Closed ('\n' ∉ ·) := by
  refine ⟨fun h ht hm => ht (h.subset hm), ?_, newline_not_mem_lowerFrom [], ?_⟩
  · intro t ht hm
    obtain ⟨c, hc, hm⟩ := List.mem_flatMap.1 hm
    exact newline_not_mem_upperChar (fun he => ht (he ▸ hc)) hm
  · intro s t hs ht hm
    rcases List.mem_append.1 hm with hm | hm
    · rcases List.mem_append.1 hm with hm | hm
      · exact hs hm
      · exact absurd hm (by decide)
    · exact ht hm

/-- No text in the document that a source denotes goes over the end of a line. -/
theorem newline_not_mem_of_ofSource {source : Text} {d : Document}
    (hd : Document.ofSource source = .ok d) {a : Attribute} (ha : a ∈ d.allAttributes) :
    a.Holds ('\n' ∉ ·) := by
  refine holds_of_ofLines newline_closed (fun line hline hm => ?_) hd ha
  exact newline_not_mem_of_mem_lines hline ((stripComment_isPrefix line).subset hm)

end BlockConfig
