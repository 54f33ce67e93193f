import BlockConfig.Proofs.Config.Locate

set_option autoImplicit false

/-!
Where no attribute goes on over several lines, every line of a source is an item of its own. The
search for a path then has at every line the blocks open that the reader has, and finds the first
line that opens or defines what the path names.
-/

namespace BlockConfig

/-- An attribute starts in the line and goes on in the next one, as a string that a backslash ends
or as an array with no bracket to close it. -/
def Text.StartsSpread (line : Text) : Prop :=
  LineShape.of line = .content ∧ ∃ parts ∈ line.cut? "=",
    continues parts.2.trim = true ∨ parts.2.trim.head? = some '[' ∧ ']' ∉ parts.2.trim

instance (line : Text) : Decidable line.StartsSpread := inferInstanceAs (Decidable (_ ∧ _))

/-- A line at which the reader, inside the blocks it has open there, opens a block or defines an
attribute. -/
inductive HeadedAt (source : Text) : Heading → Prop
  | opening {front back : List Text} {line name : Text} {body : Option Text} {s : State}
      (hlines : source.lines = front ++ line :: back)
      (hfront : (State.initial 0).stepAll (front.map stripComment) = .ok s)
      (hshape : LineShape.of (stripComment line) = .opening name body) :
      HeadedAt source ⟨⟨front.length + 1, (stripComment line).trim⟩, s.path ++ [name], false⟩
  | defining {front back : List Text} {line name value : Text} {s : State}
      (hlines : source.lines = front ++ line :: back)
      (hfront : (State.initial 0).stepAll (front.map stripComment) = .ok s)
      (hshape : LineShape.of (stripComment line) = .content)
      (hcut : (stripComment line).cut? "=" = some (name, value)) :
      HeadedAt source ⟨⟨front.length + 1, (stripComment line).trim⟩, s.path ++ [name.trim], true⟩

structure Heading.IsFirst (p : Heading → Prop) (h : Heading) : Prop where
  holds : p h
  le : ∀ other, p other → h.place.line ≤ other.place.line

/-- Where a path belongs in a source: at the first line whose names, from the outermost block in,
are the path, or else at the first that defines an attribute of its last name, or nowhere. -/
inductive Locates (source key last : Text) : Place → Prop
  | headed {h : Heading} (hfirst : Heading.IsFirst (fun h => HeadedAt source h ∧ h.key = key) h) :
      Locates source key last h.place
  | defined {h : Heading} (hnone : ∀ other, HeadedAt source other → other.key ≠ key)
      (hfirst : Heading.IsFirst (fun h => HeadedAt source h ∧ h.definesName last = true) h) :
      Locates source key last h.place
  | nowhere (hnone : ∀ other, HeadedAt source other → other.key ≠ key)
      (hlast : ∀ other, HeadedAt source other → other.definesName last = false) :
      Locates source key last .unknown

section Lines

variable {line : Text} (hline : ¬ line.StartsSpread)

include hline

theorem readAttribute_of_not_startsSpread (hshape : LineShape.of line = .content) (s : State)
    (rest : List Text) :
    (readAttribute s.level s.line line rest).map
        (fun found => ((s.setLevel found.1).atLine (s.line + found.2), found.2)) =
      (s.takeContent line).map fun next => (next, 0) := by
  rw [readAttribute_eq]
  unfold State.takeContent
  cases hcut : line.cut? "=" with
  | none =>
    have hsame : (s.setLevel s.level).atLine (s.line + 0) = s := by
      rw [Nat.add_zero, State.setLevel_atLine_line, State.setLevel_level]
    simp only [Except.map, hsame]
  | some parts =>
    obtain ⟨front, back⟩ := parts
    have hone := not_or.1 fun h => hline ⟨hshape, _, hcut, h⟩
    by_cases hname : front.trim.isEmpty = true
    · simp only [if_pos hname, Except.map]
    · simp only [if_neg hname, if_neg hone.1, valueText, if_neg hone.2]
      cases s.level.define front.trim back.trim s.line with
      | error e => rfl
      | ok level =>
        simp only [Except.map, Nat.add_zero, State.setLevel_atLine_line]

theorem State.takeItem_of_not_startsSpread (s : State) (rest : List Text) :
    s.takeItem line rest =
      ((s.atLine (s.line + 1)).takeLine line).map fun next => (next, 0) := by
  rw [takeItem, takeLine]
  cases hshape : LineShape.of line with
  | blank | closing | opening => rfl
  | content =>
    have hread := readAttribute_of_not_startsSpread hline hshape (s.atLine (s.line + 1)) rest
    simpa only [level_atLine, line_atLine, setLevel_atLine, atLine_atLine] using hread

theorem Item.quiet_of_not_startsSpread (s : State) (rest : List Text) :
    Item.Quiet ⟨s, line, rest⟩ := by
  have hmore : Item.more ⟨s, line, rest⟩ = [] := by
    rw [Item.more, s.takeItem_of_not_startsSpread hline]
    cases (s.atLine (s.line + 1)).takeLine line <;> rfl
  simp [Item.Quiet, hmore]

end Lines

namespace State

theorem step_of_takeItem {s next : State} (hs : s.pending = none) {line : Text}
    (hline : ¬ line.StartsSpread) {rest : List Text} {k : Nat}
    (h : s.takeItem line rest = .ok (next, k)) : s.step line = .ok next ∧ k = 0 := by
  rw [s.takeItem_of_not_startsSpread hline] at h
  obtain ⟨found, hfound, heq⟩ := exists_of_map_ok h
  cases heq
  have hstep : s.step line = (s.atLine (s.line + 1)).takeLine line := by simp [step, atLine, hs]
  exact ⟨hstep.trans hfound, rfl⟩

/-- The items of such lines are the lines, each with the state that the lines before it leave. -/
theorem mem_items_iff {d : Document} {s : State} {lines : List Text} (hs : s.pending = none)
    (hrun : (s.run lines).1 = .ok d) (hlines : ∀ line ∈ lines, ¬ line.StartsSpread) (item : Item) :
    item ∈ s.items lines ↔
      ∃ front, lines = front ++ item.line :: item.rest ∧ s.stepAll front = .ok item.before := by
  refine items_induction (d := d) (motive := fun s lines => s.pending = none →
    (∀ line ∈ lines, ¬ line.StartsSpread) → (item ∈ s.items lines ↔
      ∃ front, lines = front ++ item.line :: item.rest ∧ s.stepAll front = .ok item.before))
    ?_ ?_ hs hrun hs hlines
  · intro s _ _ _ _
    simp
  · intro s next line rest k htake ih hs hlines
    obtain ⟨hline, hrest⟩ := List.forall_mem_cons.1 hlines
    obtain ⟨hstep, rfl⟩ := step_of_takeItem hs hline htake
    -- the item is the one line, so the items behind it are those of the lines behind it
    have hlater := ih ((takes_of_takeItem htake).pending hs) hrest
    rw [items_cons htake, List.mem_cons, hlater, List.drop_zero]
    constructor
    · rintro (rfl | ⟨front, rfl, hfront⟩)
      · exact ⟨[], rfl, rfl⟩
      · exact ⟨line :: front, rfl, by rw [stepAll, hstep]; exact hfront⟩
    · rintro ⟨front, hall, hfront⟩
      cases front with
      | nil =>
        obtain ⟨rfl, rfl⟩ := List.cons.inj hall
        cases hfront
        exact .inl rfl
      | cons first more =>
        obtain ⟨rfl, hmore⟩ := List.cons.inj hall
        obtain ⟨found, hfound, hafter⟩ := exists_step_of_stepAll hfront
        rw [hstep] at hfound
        cases hfound
        exact .inr ⟨more, hmore, hafter⟩

end State

section Source

variable {source : Text} {d : Document} (hd : Document.ofSource source = .ok d)
  (hlines : ∀ line ∈ source.lines, ¬ (stripComment line).StartsSpread)

include hd hlines

theorem mem_itemsOf_iff (item : Item) : item ∈ itemsOf source ↔
    ∃ front line back, source.lines = front ++ line :: back ∧
      (State.initial 0).stepAll (front.map stripComment) = .ok item.before ∧
      item.line = stripComment line ∧ item.rest = back.map stripComment := by
  have hitems : item ∈ itemsOf source ↔
      ∃ front, source.lines.map stripComment = front ++ item.line :: item.rest ∧
        (State.initial 0).stepAll front = .ok item.before :=
    State.mem_items_iff rfl hd (List.forall_mem_map.2 hlines) item
  rw [hitems]
  constructor
  · rintro ⟨front, hall, hfront⟩
    obtain ⟨first, others, hsource, rfl, hothers⟩ := List.map_eq_append_iff.1 hall
    obtain ⟨line, back, rfl, hline, hback⟩ := List.map_eq_cons_iff.1 hothers
    exact ⟨first, line, back, hsource, hfront, hline.symm, hback.symm⟩
  · rintro ⟨front, line, back, hsource, hfront, hline, hback⟩
    exact ⟨front.map stripComment, by simp [hsource, hline, hback], hfront⟩

theorem mem_headingsOf_iff (h : Heading) : h ∈ headingsOf source ↔ HeadedAt source h := by
  rw [headingsOf, List.mem_filterMap]
  constructor
  · rintro ⟨⟨s, stripped, rest⟩, hitem, hheading⟩
    obtain ⟨front, line, back, hsource, hfront, rfl, rfl⟩ := (mem_itemsOf_iff hd hlines _).1 hitem
    have hcount : s.line = front.length := by
      rw [State.line_of_stepAll_initial hfront, List.length_map]
    unfold Item.heading? at hheading
    cases hshape : LineShape.of (stripComment line) with
    | blank | closing => simp [hshape] at hheading
    | opening name body =>
      simp only [hshape, Item.start, hcount] at hheading
      cases hheading
      exact .opening hsource hfront hshape
    | content =>
      simp only [hshape, Item.start, hcount] at hheading
      obtain ⟨⟨name, value⟩, hcut, rfl⟩ := Option.map_eq_some_iff.1 hheading
      exact .defining hsource hfront hshape hcut
  · have hitem : ∀ {front back line s}, source.lines = front ++ line :: back →
        (State.initial 0).stepAll (front.map stripComment) = .ok s →
          ⟨s, stripComment line, back.map stripComment⟩ ∈ itemsOf source ∧
            s.line = front.length := by
      intro front back line s hsource hfront
      refine ⟨(mem_itemsOf_iff hd hlines _).2 ⟨front, line, back, hsource, hfront, rfl, rfl⟩, ?_⟩
      rw [State.line_of_stepAll_initial hfront, List.length_map]
    intro h
    cases h with
    | opening hsource hfront hshape =>
      obtain ⟨hmem, hcount⟩ := hitem hsource hfront
      exact ⟨_, hmem, by simp only [Item.heading?, Item.start, hshape, hcount]⟩
    | defining hsource hfront hshape hcut =>
      obtain ⟨hmem, hcount⟩ := hitem hsource hfront
      exact ⟨_, hmem, by
        simp only [Item.heading?, Item.start, hshape, hcount, hcut, Option.map_some]⟩

theorem quiet_of_not_startsSpread {item : Item} (hitem : item ∈ itemsOf source) : item.Quiet := by
  obtain ⟨s, stripped, rest⟩ := item
  obtain ⟨front, line, back, hsource, -, rfl, -⟩ := (mem_itemsOf_iff hd hlines _).1 hitem
  exact Item.quiet_of_not_startsSpread (hlines line (by simp [hsource])) s rest

end Source

theorem isFirst_of_find? {headings : List Heading}
    (hordered : headings.Pairwise fun first later => first.place.line < later.place.line)
    {p : Heading → Bool} {h : Heading} (hfind : headings.find? p = some h) :
    Heading.IsFirst (fun h => h ∈ headings ∧ p h = true) h := by
  have hleast := (find?_headings_iff hordered p h.place.line).1 (by rw [hfind]; rfl)
  exact ⟨⟨List.mem_of_find?_eq_some hfind, List.find?_some hfind⟩,
    fun other hother => hleast.2 ⟨other, hother.1, hother.2, rfl⟩⟩

/-- The search for a path in an accepted source whose attributes all end on their line keeps to the
blocks of the reader, whatever is nested in what. -/
theorem locates_locate {source key last : Text} {d : Document}
    (hd : Document.ofSource source = .ok d)
    (hlines : ∀ line ∈ source.lines, ¬ (stripComment line).StartsSpread)
    (hlast : ((key.parts '.').getLast?).getD key = last) :
    Locates source key last (locate key source) := by
  have hordered : (headingsOf source).Pairwise fun first later =>
      first.place.line < later.place.line := State.pairwise_headings _ _
  have hheadings := mem_headingsOf_iff hd hlines
  rw [locate_eq_firstPlace hd fun item hitem => quiet_of_not_startsSpread hd hlines hitem, hlast,
    firstPlace]
  cases hkey : (headingsOf source).find? fun h => h.key == key with
  | some h =>
    have hfirst := isFirst_of_find? hordered hkey
    simp only [hheadings, beq_iff_eq] at hfirst
    exact .headed hfirst
  | none =>
    have hnone : ∀ other, HeadedAt source other → other.key ≠ key := by
      simpa [hheadings] using hkey
    cases hdefines : (headingsOf source).find? (Heading.definesName last) with
    | some h =>
      have hfirst := isFirst_of_find? hordered hdefines
      simp only [hheadings] at hfirst
      exact .defined hnone hfirst
    | none => exact .nowhere hnone (by simpa [hheadings] using hdefines)

theorem locates_locate_nested :
    let source : Text := "server \x7b\n  // port = 1\n  tls \x7b \x7d\n  port = 80\n" ++
      "  tls \x7b\n    port = 443\n  \x7d\n\x7d\n"
    ∃ d, Document.ofSource source = .ok d ∧
      (∀ line ∈ source.lines, ¬ (stripComment line).StartsSpread) ∧
      Locates source "server.tls.port" "port" ⟨6, "port = 443"⟩ ∧
      Locates source "tls.port" "port" ⟨4, "port = 80"⟩ := by
  intro source
  have hlines : ∀ line ∈ source.lines, ¬ (stripComment line).StartsSpread := by decide
  have hheaded : locate "server.tls.port" source = ⟨6, "port = 443"⟩ := by decide
  have hdefined : locate "tls.port" source = ⟨4, "port = 80"⟩ := by decide
  refine ⟨_, rfl, hlines, ?_, ?_⟩
  · rw [← hheaded]
    exact locates_locate rfl hlines rfl
  · rw [← hdefined]
    exact locates_locate rfl hlines rfl

end BlockConfig
