import BlockConfig.Config.Locate
import BlockConfig.Proofs.Config.Spelling
import BlockConfig.Proofs.Reader.Items
import Mathlib.Order.Bounds.Defs

set_option autoImplicit false

/-!
The line that a path is looked for by text. Where attributes go on over lines that look idle, the
search is inside the same blocks as the reader at every item, and what it finds is the first line
that is headed as the path, or else the first that defines the last segment of it.
-/

namespace BlockConfig

structure Heading where
  place : Place
  names : List Text
  defines : Bool

namespace Heading

def key (h : Heading) : Text := List.intercalate ".".toList h.names

def definesName (name : Text) (h : Heading) : Bool :=
  h.defines && h.names.getLast? == some name

end Heading

namespace Item

def heading? (item : Item) : Option Heading :=
  let here : Place := ⟨item.start, item.line.trim⟩
  match LineShape.of item.line with
  | .opening name _ => some ⟨here, item.before.path ++ [name], false⟩
  | .content => (item.line.cut? "=").map fun parts =>
      ⟨here, item.before.path ++ [parts.1.trim], true⟩
  | .blank | .closing => none

/-- Whether all lines that an attribute goes on over are idle: no brace and no equals sign. -/
def Quiet (item : Item) : Prop :=
  ∀ line ∈ item.more, LineShape.of line = .blank ∨
    LineShape.of line = .content ∧ line.cut? "=" = none

theorem start_of_heading? {item : Item} {h : Heading} (hh : item.heading? = some h) :
    h.place.line = item.start := by
  unfold heading? at hh
  cases hshape : LineShape.of item.line with
  | blank | closing => simp [hshape] at hh
  | opening name body =>
    simp only [hshape] at hh
    cases hh
    rfl
  | content =>
    simp only [hshape] at hh
    obtain ⟨parts, -, rfl⟩ := Option.map_eq_some_iff.1 hh
    rfl

end Item

namespace State

def headings (s : State) (lines : List Text) : List Heading :=
  (s.items lines).filterMap Item.heading?

theorem pairwise_headings (s : State) (lines : List Text) :
    (s.headings lines).Pairwise fun first later => first.place.line < later.place.line := by
  rw [headings, List.pairwise_filterMap]
  refine (s.pairwise_items lines).imp fun hlt first hfirst later hlater => ?_
  rwa [Item.start_of_heading? hfirst, Item.start_of_heading? hlater]

end State

def headingsOf (source : Text) : List Heading := (itemsOf source).filterMap Item.heading?

/-- Of headings in the order of their lines, the place of the first that is headed as the key, or
else the fallback or of the first that defines its last segment. -/
def firstPlace (key last : Text) (fallback : Option Place) (headings : List Heading) : Place :=
  match headings.find? fun h => h.key == key with
  | some h => h.place
  | none =>
    (fallback.or ((headings.find? (Heading.definesName last)).map Heading.place)).getD .unknown

section Search

variable {key last : Text} {fallback : Option Place}

theorem firstPlace_cons (h : Heading) (headings : List Heading) :
    firstPlace key last fallback (h :: headings) =
      if h.key = key then h.place
      else firstPlace key last
        (if h.definesName last then fallback.or (some h.place) else fallback) headings := by
  unfold firstPlace
  by_cases hkey : h.key = key
  · simp [hkey]
  · by_cases hlast : h.definesName last
    · cases hfind : headings.find? fun h => h.key == key <;> cases fallback <;>
        simp [hkey, hlast, hfind]
    · simp [hkey, hlast]

theorem locateFrom_map_stripComment (line : Nat) (path : List Text) (lines : List Text) :
    locateFrom key last line path fallback (lines.map stripComment) =
      locateFrom key last line path fallback lines := by
  induction lines generalizing line path fallback with
  | nil => rfl
  | cons source rest ih => simp only [List.map_cons, locateFrom, stripComment_stripComment, ih]

theorem locateFrom_idle {lines : List Text} (hlines : ∀ l ∈ lines, stripComment l = l) (k : Nat)
    (h : ∀ l ∈ lines.take k, LineShape.of l = .blank ∨
      LineShape.of l = .content ∧ l.cut? "=" = none) (line : Nat) (path : List Text) :
    locateFrom key last line path fallback lines =
      locateFrom key last (line + k) path fallback (lines.drop k) := by
  induction k generalizing line lines with
  | zero => rfl
  | succ k ih =>
    cases lines with
    | nil => rfl
    | cons source rest =>
      simp only [List.take_succ_cons, List.forall_mem_cons] at h hlines
      have hrest := ih hlines.2 h.2 (line + 1)
      rw [List.drop_succ_cons, Nat.add_comm k, ← Nat.add_assoc, ← hrest, locateFrom]
      rcases h.1 with hblank | ⟨hcontent, hcut⟩
      · simp only [hlines.1, hblank]
      · simp only [hlines.1, hcontent, hcut]

/-- At an item the search does what its heading says, and goes on where the reader does. -/
theorem locateFrom_item {s next : State} {line : Text} {rest : List Text} {k : Nat}
    (htake : s.takeItem line rest = .ok (next, k))
    (hlines : ∀ l ∈ line :: rest, stripComment l = l) (hquiet : Item.Quiet ⟨s, line, rest⟩) :
    locateFrom key last s.line s.path fallback (line :: rest) =
      match Item.heading? ⟨s, line, rest⟩ with
      | none => locateFrom key last next.line next.path fallback (rest.drop k)
      | some h =>
        if h.key = key then h.place
        else locateFrom key last next.line next.path
          (if h.definesName last then fallback.or (some h.place) else fallback) (rest.drop k) := by
  obtain ⟨hline, hrest⟩ := List.forall_mem_cons.1 hlines
  have hmore : ∀ l ∈ rest.take k, LineShape.of l = .blank ∨
      LineShape.of l = .content ∧ l.cut? "=" = none := by
    simpa only [Item.Quiet, Item.more, htake] using hquiet
  rw [locateFrom, hline]
  cases State.takes_of_takeItem htake with
  | blank hshape => simp [Item.heading?, hshape]
  | closing hshape next hleave =>
    obtain ⟨b, outer, hopened, rfl⟩ := State.exists_of_leave? hleave
    have hpath : s.path =
        ({ s with opened := outer, line := s.line + 1 } : State).path ++ [b.name] := by
      simp [State.path, hopened]
    simp [Item.heading?, hshape, hpath]
  | opening name hshape hname =>
    have hpath : ((s.atLine (s.line + 1)).openBlock name).path = s.path ++ [name] := by
      simp [State.path, State.openBlock, State.atLine]
    rw [hpath]
    simp [Item.heading?, hshape, Heading.key, Heading.definesName, Item.start, State.openBlock,
      State.atLine]
  | bothBraces name hshape hname =>
    simp [Item.heading?, hshape, Heading.key, Heading.definesName, Item.start]
  | content hshape level k hread =>
    -- the reader is done with the lines behind, and the search passes them one by one
    have hidle : ∀ fallback, locateFrom key last (s.line + 1) s.path fallback rest =
        locateFrom key last (s.line + 1 + k) s.path fallback (rest.drop k) := fun fallback =>
      locateFrom_idle hrest k hmore (s.line + 1) s.path
    cases hcut : line.cut? "=" with
    | none =>
      simp only [Item.heading?, hshape, hcut, hidle, Option.map_none]
      simp
    | some parts =>
      simp only [Item.heading?, hshape, hcut, hidle, Option.map_some]
      simp [Heading.key, Heading.definesName, Item.start]

theorem locateFrom_eq_firstPlace {d : Document} {s : State} {lines : List Text}
    (hs : s.pending = none) (hrun : (s.run lines).1 = .ok d)
    (hlines : ∀ l ∈ lines, stripComment l = l) (hquiet : ∀ item ∈ s.items lines, item.Quiet) :
    locateFrom key last s.line s.path fallback lines =
      firstPlace key last fallback (s.headings lines) := by
  refine State.items_induction (d := d) (motive := fun s lines =>
    (∀ l ∈ lines, stripComment l = l) → (∀ item ∈ s.items lines, item.Quiet) →
      ∀ fallback, locateFrom key last s.line s.path fallback lines =
        firstPlace key last fallback (s.headings lines)) ?_ ?_ hs hrun hlines hquiet fallback
  · intro s _ _ _ _ fallback
    simp [locateFrom, State.headings, firstPlace]
  · intro s next line rest k htake ih hlines hquiet fallback
    rw [State.items_cons htake] at hquiet
    obtain ⟨hitem, hlater⟩ := List.forall_mem_cons.1 hquiet
    have hnext :=
      ih (fun l hl => hlines l (List.mem_cons_of_mem _ (List.mem_of_mem_drop hl))) hlater
    rw [locateFrom_item htake hlines hitem, State.headings, State.items_cons htake,
      List.filterMap_cons]
    cases Item.heading? ⟨s, line, rest⟩ with
    | none => exact hnext fallback
    | some h =>
      simp only [hnext]
      exact (firstPlace_cons h (next.headings (rest.drop k))).symm

end Search

def headedLines (source key : Text) : Set Nat :=
  {n | ∃ h ∈ headingsOf source, h.key = key ∧ h.place.line = n}

def definingLines (source name : Text) : Set Nat :=
  {n | ∃ h ∈ headingsOf source, h.definesName name = true ∧ h.place.line = n}

theorem find?_headings_iff {headings : List Heading}
    (h : headings.Pairwise fun first later => first.place.line < later.place.line)
    (p : Heading → Bool) (n : Nat) :
    (headings.find? p).map (fun h => h.place.line) = some n ↔
      IsLeast {m | ∃ h ∈ headings, p h = true ∧ h.place.line = m} n := by
  rw [Option.map_eq_some_iff]
  constructor
  · rintro ⟨first, hfirst, rfl⟩
    obtain ⟨hp, front, back, rfl, hfront⟩ := List.find?_eq_some_iff_append.1 hfirst
    refine ⟨⟨first, by simp, hp, rfl⟩, ?_⟩
    rintro m ⟨other, hother, hpother, rfl⟩
    rcases List.mem_append.1 hother with hmem | hmem
    · exact absurd hpother (by simpa using hfront other hmem)
    · rcases List.mem_cons.1 hmem with rfl | hmem
      · exact Nat.le_refl _
      · exact Nat.le_of_lt ((List.pairwise_cons.1 (List.pairwise_append.1 h).2.1).1 other hmem)
  · rintro ⟨⟨other, hother, hpother, rfl⟩, hleast⟩
    cases hfind : headings.find? p with
    | none => exact absurd hpother (by simpa using List.find?_eq_none.1 hfind other hother)
    | some first =>
      refine ⟨first, rfl, ?_⟩
      obtain ⟨hp, front, back, rfl, hfront⟩ := List.find?_eq_some_iff_append.1 hfind
      have hle := hleast ⟨first, by simp, hp, rfl⟩
      rcases List.mem_append.1 hother with hmem | hmem
      · exact absurd hpother (by simpa using hfront other hmem)
      · rcases List.mem_cons.1 hmem with rfl | hmem
        · rfl
        · have hlt := (List.pairwise_cons.1 (List.pairwise_append.1 h).2.1).1 other hmem
          omega

theorem locate_eq_firstPlace {source key : Text} {d : Document}
    (hd : Document.ofSource source = .ok d) (hquiet : ∀ item ∈ itemsOf source, item.Quiet) :
    locate key source =
      firstPlace key (((key.parts '.').getLast?).getD key) none (headingsOf source) := by
  have hlines : ∀ l ∈ source.lines.map stripComment, stripComment l = l := by
    rintro l hl
    obtain ⟨raw, -, rfl⟩ := List.mem_map.1 hl
    exact stripComment_stripComment raw
  rw [locate, ← locateFrom_map_stripComment]
  exact locateFrom_eq_firstPlace (s := .initial 0) rfl hd hlines hquiet

theorem line_locate_eq_iff {source key last : Text} {d : Document}
    (hd : Document.ofSource source = .ok d) (hquiet : ∀ item ∈ itemsOf source, item.Quiet)
    (hlast : ((key.parts '.').getLast?).getD key = last) {n : Nat} (hn : 0 < n) :
    (locate key source).line = n ↔
      IsLeast (headedLines source key) n ∨
        headedLines source key = ∅ ∧ IsLeast (definingLines source last) n := by
  have hpairwise : (headingsOf source).Pairwise fun first later =>
      first.place.line < later.place.line := State.pairwise_headings _ _
  have hheaded : ((headingsOf source).find? fun h => h.key == key).map (fun h => h.place.line) =
      some n ↔ IsLeast (headedLines source key) n := by
    simpa only [headedLines, beq_iff_eq] using find?_headings_iff hpairwise (fun h => h.key == key) n
  have hdefining : ((headingsOf source).find? (Heading.definesName last)).map
      (fun h => h.place.line) = some n ↔ IsLeast (definingLines source last) n :=
    find?_headings_iff hpairwise (Heading.definesName last) n
  rw [locate_eq_firstPlace hd hquiet, hlast, firstPlace, ← hheaded, ← hdefining]
  cases hfind : (headingsOf source).find? fun h => h.key == key with
  | some h =>
    have hmem : h.place.line ∈ headedLines source key :=
      ⟨h, List.mem_of_find?_eq_some hfind, by simpa using List.find?_some hfind, rfl⟩
    have hne : headedLines source key ≠ ∅ := Set.nonempty_iff_ne_empty.1 ⟨_, hmem⟩
    simp [hne]
  | none =>
    have hempty : headedLines source key = ∅ := by
      refine Set.eq_empty_of_forall_notMem ?_
      rintro m ⟨h, hh, hkey, -⟩
      exact absurd hkey (by simpa using List.find?_eq_none.1 hfind h hh)
    cases (headingsOf source).find? (Heading.definesName last) with
    | some h => simp [hempty]
    | none => simp [Place.unknown, hn.ne]

end BlockConfig
