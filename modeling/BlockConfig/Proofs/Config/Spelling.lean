import BlockConfig.Config.Path
import Mathlib.Data.List.Forall2
import Mathlib.Data.List.Nodup

set_option autoImplicit false

/-!
Which entry a path leads to. The search goes into one block after another and comes back from those
that lead nowhere; what it finds is the first of all spellings of the path that is one of the
document as it is written, in lexicographic order.
-/

namespace BlockConfig

section First

variable {α β : Type}

theorem findSome?_flatMap (l : List α) (f : α → List β) {γ : Type} (g : β → Option γ) :
    (l.flatMap f).findSome? g = l.findSome? fun a => (f a).findSome? g := by
  induction l with
  | nil => rfl
  | cons a rest ih =>
    rw [List.flatMap_cons, List.findSome?_append, ih, List.findSome?_cons]
    cases (f a).findSome? g <;> rfl

theorem findSome?_congr {l : List α} {f g : α → Option β} (h : ∀ a ∈ l, f a = g a) :
    l.findSome? f = l.findSome? g := by
  induction l with
  | nil => rfl
  | cons a rest ih =>
    rw [List.findSome?_cons, List.findSome?_cons, h a (by simp),
      ih fun b hb => h b (List.mem_cons_of_mem _ hb)]

/-- In a list whose members come in order, what is found is the least that has a result. -/
theorem findSome?_eq_some_iff_of_pairwise {r : α → α → Prop} (hasymm : ∀ a b, r a b → ¬ r b a)
    {l : List α} (hl : l.Pairwise r) (f : α → Option β) {b : β} :
    l.findSome? f = some b ↔ ∃ a ∈ l, f a = some b ∧ ∀ other ∈ l, r other a → f other = none := by
  rw [List.findSome?_eq_some_iff]
  constructor
  · rintro ⟨front, a, back, rfl, ha, hfront⟩
    obtain ⟨-, hback, -⟩ := List.pairwise_append.1 hl
    refine ⟨a, by simp, ha, fun other hother hr => ?_⟩
    rcases List.mem_append.1 hother with hother | hother
    · exact hfront other hother
    · rcases List.mem_cons.1 hother with rfl | hother
      · exact absurd hr (hasymm _ _ hr)
      · exact absurd hr (hasymm _ _ ((List.pairwise_cons.1 hback).1 other hother))
  · rintro ⟨a, hmem, ha, hleast⟩
    obtain ⟨front, back, rfl⟩ := List.append_of_mem hmem
    obtain ⟨-, -, hfront⟩ := List.pairwise_append.1 hl
    exact ⟨front, a, back, rfl, ha, fun other hother =>
      hleast other (by simp [hother]) (hfront other hother a (by simp))⟩

theorem pairwise_idxOf_lt [BEq α] [LawfulBEq α] {l : List α} (h : l.Nodup) :
    l.Pairwise fun a b => l.idxOf a < l.idxOf b := by
  rw [List.pairwise_iff_getElem]
  intro i j hi hj hij
  rwa [h.idxOf_getElem, h.idxOf_getElem]

end First

theorem eq_of_replace_eq {t : Text} (h : t.replace '-' '_' = t.replace '_' '-') :
    t.replace '-' '_' = t := by
  rw [Text.replace, Text.replace, List.map_inj_left] at h
  have hsame : ∀ c ∈ t, (if c = '-' then '_' else c) = c := by
    intro c hc
    by_cases hhyphen : c = '-'
    · subst hhyphen
      exact absurd (h '-' hc) (by decide)
    · rw [if_neg hhyphen]
  rw [Text.replace, List.map_congr_left hsame, List.map_id']

theorem spellings_eq_eraseDups (segment : Text) :
    spellings segment =
      [segment, segment.replace '-' '_', segment.replace '_' '-'].eraseDups := by
  have heq := eq_of_replace_eq (t := segment)
  rw [spellings, List.eraseDups_cons]
  by_cases hunderscored : segment.replace '-' '_' = segment
  · by_cases hhyphenated : segment.replace '_' '-' = segment <;>
      simp [hunderscored, hhyphenated, List.eraseDups_cons]
  · by_cases hhyphenated : segment.replace '_' '-' = segment
    · simp [hunderscored, hhyphenated, List.eraseDups_cons]
    · have hne : segment.replace '_' '-' ≠ segment.replace '-' '_' :=
        fun he => hunderscored (heq he.symm)
      simp [hunderscored, hhyphenated, hne, List.eraseDups_cons]

theorem nodup_spellings (segment : Text) : (spellings segment).Nodup := by
  have heq := eq_of_replace_eq (t := segment)
  rw [spellings, List.nodup_cons]
  refine ⟨by simp, ?_⟩
  by_cases hunderscored : segment.replace '-' '_' = segment
  · simpa [hunderscored] using List.Nodup.filter _ (List.nodup_singleton _)
  · have hne : segment.replace '-' '_' ≠ segment.replace '_' '-' :=
      fun he => hunderscored (heq he)
    exact List.Nodup.filter _ (by simpa using hne)

def Spells (names segments : List Text) : Prop :=
  List.Forall₂ (fun name segment => name ∈ spellings segment) names segments

def ranks (segments names : List Text) : List Nat :=
  List.zipWith (fun segment name => (spellings segment).idxOf name) segments names

/-- All names that spell the segments, those that spell a first segment alike side by side. -/
def spelledOut : List Text → List (List Text)
  | [] => [[]]
  | segment :: rest => (spellings segment).flatMap fun name => (spelledOut rest).map (name :: ·)

theorem mem_spelledOut {names segments : List Text} :
    names ∈ spelledOut segments ↔ Spells names segments := by
  induction segments generalizing names with
  | nil => simp [spelledOut, Spells]
  | cons segment rest ih =>
    rw [spelledOut, List.mem_flatMap, Spells, List.forall₂_cons_right_iff]
    constructor
    · rintro ⟨name, hname, hnames⟩
      obtain ⟨more, hmore, rfl⟩ := List.mem_map.1 hnames
      exact ⟨name, more, hname, ih.1 hmore, rfl⟩
    · rintro ⟨name, more, hname, hmore, rfl⟩
      exact ⟨name, hname, List.mem_map.2 ⟨more, ih.2 hmore, rfl⟩⟩

theorem ne_nil_of_mem_spelledOut {names : List Text} {segment : Text} {rest : List Text}
    (h : names ∈ spelledOut (segment :: rest)) : names ≠ [] := by
  rintro rfl
  cases mem_spelledOut.1 h

theorem exists_spelledOut_eq_cons (segments : List Text) :
    ∃ others, spelledOut segments = segments :: others := by
  induction segments with
  | nil => exact ⟨[], rfl⟩
  | cons segment rest ih =>
    obtain ⟨others, hothers⟩ := ih
    rw [spelledOut, hothers, spellings, List.flatMap_cons, List.map_cons, List.cons_append]
    exact ⟨_, rfl⟩

theorem spelledOut_pairwise (segments : List Text) :
    (spelledOut segments).Pairwise fun names others =>
      ranks segments names < ranks segments others := by
  induction segments with
  | nil => simp [spelledOut]
  | cons segment rest ih =>
    rw [spelledOut, List.pairwise_flatMap]
    constructor
    · intro name _
      rw [List.pairwise_map]
      refine ih.imp fun hlt => ?_
      rw [ranks, ranks, List.zipWith_cons_cons, List.zipWith_cons_cons, List.cons_lt_cons_iff]
      exact .inr ⟨rfl, hlt⟩
    · refine (pairwise_idxOf_lt (nodup_spellings segment)).imp fun hlt => ?_
      intro names hnames others hothers
      obtain ⟨more, -, rfl⟩ := List.mem_map.1 hnames
      obtain ⟨otherMore, -, rfl⟩ := List.mem_map.1 hothers
      rw [ranks, ranks, List.zipWith_cons_cons, List.zipWith_cons_cons, List.cons_lt_cons_iff]
      exact .inl hlt

namespace Document

/-- The entry that names lead to as they are: each but the last is the name of a block in the one
before it, and the last is that of an attribute there or, if there is none, of a block. -/
def entryAt? : Document → List Text → Option Entry
  | _, [] => none
  | d, [name] => entryOf? d.attributes d.blocks name
  | d, name :: next :: rest =>
    (Table.get? d.blocks name).bind fun b => entryAt? ⟨b.attributes, b.blocks⟩ (next :: rest)

theorem entryAt?_cons (d : Document) (name : Text) {names : List Text} (h : names ≠ []) :
    d.entryAt? (name :: names) =
      (Table.get? d.blocks name).bind fun b => entryAt? ⟨b.attributes, b.blocks⟩ names := by
  obtain ⟨next, rest, rfl⟩ := List.exists_cons_of_ne_nil h
  rfl

/-- The search through the blocks tries the spellings of the whole path one after another. -/
theorem lookupFrom_eq_findSome? (d : Document) (segments : List Text) :
    lookupFrom d.attributes d.blocks segments = (spelledOut segments).findSome? d.entryAt? := by
  induction segments generalizing d with
  | nil => rfl
  | cons segment rest ih =>
    rw [spelledOut, findSome?_flatMap]
    cases rest with
    | nil =>
      rw [lookupFrom]
      refine congrArg (fun f => (spellings segment).findSome? f) (funext fun name => ?_)
      simp [spelledOut, entryAt?]
    | cons next more =>
      rw [lookupFrom]
      refine congrArg (fun f => (spellings segment).findSome? f) (funext fun name => ?_)
      have hexact : ∀ names ∈ spelledOut (next :: more), d.entryAt? (name :: names) =
          (Table.get? d.blocks name).bind fun b => entryAt? ⟨b.attributes, b.blocks⟩ names :=
        fun names hnames => d.entryAt?_cons name (ne_nil_of_mem_spelledOut hnames)
      rw [List.findSome?_map, Function.comp_def, findSome?_congr hexact]
      cases Table.get? d.blocks name with
      | none => exact (List.findSome?_eq_none_iff.2 fun _ _ => rfl).symm
      | some b => exact ih ⟨b.attributes, b.blocks⟩

theorem lookup_eq_findSome? (d : Document) (path : Text) :
    d.lookup path =
      if [] ∈ (path.parts '.').map Text.trim then none
      else (spelledOut ((path.parts '.').map Text.trim)).findSome? d.entryAt? := by
  have hempty : ((path.parts '.').map Text.trim).any List.isEmpty = true ↔
      [] ∈ (path.parts '.').map Text.trim := by
    rw [List.any_eq_true]
    exact ⟨fun ⟨segment, hmem, hnil⟩ => List.isEmpty_iff.1 hnil ▸ hmem, fun h => ⟨[], h, rfl⟩⟩
  unfold lookup segments?
  by_cases h : [] ∈ (path.parts '.').map Text.trim
  · simp only [if_pos h, if_pos (hempty.2 h), Option.bind_none]
  · simp only [if_neg h, if_neg (mt hempty.1 h), Option.bind_some]
    exact d.lookupFrom_eq_findSome? _

theorem lookup_eq_some_iff (d : Document) (path : Text) (entry : Entry) :
    d.lookup path = some entry ↔ [] ∉ (path.parts '.').map Text.trim ∧
      ∃ names, Spells names ((path.parts '.').map Text.trim) ∧ d.entryAt? names = some entry ∧
        ∀ others, Spells others ((path.parts '.').map Text.trim) →
          ranks ((path.parts '.').map Text.trim) others <
            ranks ((path.parts '.').map Text.trim) names → d.entryAt? others = none := by
  rw [lookup_eq_findSome?]
  generalize (path.parts '.').map Text.trim = segments
  by_cases hsegments : [] ∈ segments
  · simp [hsegments]
  · have hasymm : ∀ names others, ranks segments names < ranks segments others →
        ¬ ranks segments others < ranks segments names := fun _ _ => List.lt_asymm
    rw [if_neg hsegments, findSome?_eq_some_iff_of_pairwise hasymm (spelledOut_pairwise segments)]
    simp only [hsegments, not_false_eq_true, true_and, mem_spelledOut]

/-- A path with an empty segment leads nowhere. Any other leads to the entry of the first of its
spellings, by the order of the spellings of its segments, that is exactly one of the document; to
none only if no spelling is; and to that of its own spelling if it has one. -/
theorem lookup_eq_some_iff_first (d : Document) (path : Text) :
    let segments := (path.parts '.').map Text.trim
    (∀ segment, spellings segment =
      [segment, segment.replace '-' '_', segment.replace '_' '-'].eraseDups) ∧
    (∀ entry, d.lookup path = some entry ↔ [] ∉ segments ∧
      ∃ names, Spells names segments ∧ d.entryAt? names = some entry ∧
        ∀ others, Spells others segments → ranks segments others < ranks segments names →
          d.entryAt? others = none) ∧
    (d.lookup path = none ↔ [] ∈ segments ∨
      ∀ names, Spells names segments → d.entryAt? names = none) ∧
    ∀ entry, [] ∉ segments → d.entryAt? segments = some entry → d.lookup path = some entry := by
  intro segments
  have hlookup : d.lookup path =
      if [] ∈ segments then none else (spelledOut segments).findSome? d.entryAt? :=
    d.lookup_eq_findSome? path
  refine ⟨spellings_eq_eraseDups, d.lookup_eq_some_iff path, ?_,
    fun entry hsegments hexact => ?_⟩
  · rw [hlookup]
    by_cases hsegments : [] ∈ segments
    · simp [hsegments]
    · rw [if_neg hsegments, List.findSome?_eq_none_iff, or_iff_right hsegments]
      simp only [mem_spelledOut]
  · obtain ⟨others, hothers⟩ := exists_spelledOut_eq_cons segments
    rw [hlookup, if_neg hsegments, hothers, List.findSome?_cons, hexact]

theorem lookup_eq_some_iff_first_fallback :
    let port (n : Int64) : Attribute := ⟨"x_y", .number, .scalar (.integer n)⟩
    let d : Document := ⟨[], [("a-b", ⟨"a-b", [("q", port 1)], []⟩),
      ("a_b", ⟨"a_b", [("x_y", port 2), ("x-y", port 3)], []⟩)]⟩
    d.lookup "a-b.x_y" = some (.attribute (port 2)) ∧
      d.lookup "a_b . x-y" = some (.attribute (port 3)) ∧
      d.lookup "a-b.z" = none ∧ d.lookup "a-b..q" = none := by
  intro port d
  obtain ⟨-, hsome, -, -⟩ := lookup_eq_some_iff_first d "a-b.x_y"
  obtain ⟨-, -, -, hown⟩ := lookup_eq_some_iff_first d "a_b . x-y"
  obtain ⟨-, -, hnone, -⟩ := lookup_eq_some_iff_first d "a-b.z"
  obtain ⟨-, -, hempty, -⟩ := lookup_eq_some_iff_first d "a-b..q"
  have hbefore : ∀ others ∈ spelledOut ["a-b", "x_y"],
      ranks ["a-b", "x_y"] others < ranks ["a-b", "x_y"] ["a_b", "x_y"] →
        (d.entryAt? others).isNone = true := by decide
  have hmissing : ∀ names ∈ spelledOut ["a-b", "z"], (d.entryAt? names).isNone = true := by decide
  refine ⟨(hsome _).2 ⟨by decide, ["a_b", "x_y"], mem_spelledOut.1 (by decide), rfl,
      fun others hothers hlt => ?_⟩, hown _ (by decide) rfl, hnone.2 (.inr fun names hnames => ?_),
    hempty.2 (.inl (by decide))⟩
  · exact Option.isNone_iff_eq_none.1 (hbefore others (mem_spelledOut.2 hothers) hlt)
  · exact Option.isNone_iff_eq_none.1 (hmissing names (mem_spelledOut.2 hnames))

end Document

end BlockConfig
