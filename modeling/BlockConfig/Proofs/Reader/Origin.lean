import BlockConfig.Proofs.Config.Spelling
import BlockConfig.Proofs.Evaluation.Projection
import BlockConfig.Proofs.Reader.Items

set_option autoImplicit false

/-!
Where the attributes of a document come from. Every one was given its value by an item of the
source, and by no item behind that one.
-/

namespace BlockConfig

namespace Level

def Has (level : Level) (names : List Text) (a : Attribute) : Prop :=
  Document.entryAt? ⟨level.scope, level.blocks⟩ names = some (.attribute a)

theorem not_has_nil (level : Level) (a : Attribute) : ¬ level.Has [] a := nofun

theorem has_singleton {level : Level} {name : Text} {a : Attribute} :
    level.Has [name] a ↔ level.scope.find? name = some a := by
  unfold Has Document.entryAt? entryOf? Scope.find?
  cases Table.get? level.scope name with
  | some found => simp
  | none => cases Table.get? level.blocks name <;> simp

theorem has_cons {level : Level} {name : Text} {names : List Text} (hne : names ≠ [])
    {a : Attribute} :
    level.Has (name :: names) a ↔
      ∃ b, Table.get? level.blocks name = some b ∧ Has ⟨b.attributes, b.blocks⟩ names a := by
  rw [Has, Document.entryAt?_cons _ _ hne, Option.bind_eq_some_iff]
  rfl

theorem not_has_empty (names : List Text) (a : Attribute) : ¬ Level.empty.Has names a := by
  intro h
  match names with
  | [] => exact not_has_nil _ a h
  | [name] => cases has_singleton.1 h
  | name :: next :: rest =>
    obtain ⟨b, hb, -⟩ := (has_cons (List.cons_ne_nil next rest)).1 h
    cases hb

theorem has_enter {level inner : Level} {name : Text} {names : List Text} (hne : names ≠ [])
    {a : Attribute} :
    (level.enter name inner).Has (name :: names) a ↔ inner.Has names a := by
  rw [has_cons hne]
  simp [enter, Table.get?_insert]

theorem has_enter_of_ne {level inner : Level} {name other : Text} (hother : other ≠ name)
    {names : List Text} {a : Attribute} :
    (level.enter name inner).Has (other :: names) a ↔ level.Has (other :: names) a := by
  by_cases hne : names = []
  · subst hne
    rw [has_singleton, has_singleton]
    rfl
  · rw [has_cons hne, has_cons hne]
    simp [enter, Table.get?_insert, Ne.symm hother]

end Level

namespace State

def levelOf (root : Level) : List OpenBlock → Level
  | [] => root
  | b :: _ => b.level

/-- The document's level if all open blocks were closed here, the innermost one with `level` in
it. -/
def closedUp (root : Level) : List OpenBlock → Level → Level
  | [], level => level
  | b :: outer, level => closedUp root outer ((levelOf root outer).enter b.name level)

def whole (s : State) : Level := closedUp s.root s.opened s.level

section ClosedUp

variable {root level : Level} {opened : List OpenBlock} {names : List Text} {a : Attribute}

theorem has_closedUp_append (hne : names ≠ []) :
    (closedUp root opened level).Has ((opened.map OpenBlock.name).reverse ++ names) a ↔
      level.Has names a := by
  induction opened generalizing level names with
  | nil => rfl
  | cons b outer ih =>
    rw [closedUp, List.map_cons, List.reverse_cons, List.append_assoc, List.singleton_append,
      ih (List.cons_ne_nil _ _), Level.has_enter hne]

theorem has_closedUp_mono {other : Level}
    (h : ∀ rest, names = (opened.map OpenBlock.name).reverse ++ rest → other.Has rest a →
      level.Has rest a)
    (hhas : (closedUp root opened other).Has names a) :
    (closedUp root opened level).Has names a := by
  induction opened generalizing level other with
  | nil => exact h names rfl hhas
  | cons b outer ih =>
    -- one block further out, the two levels differ in what is entered as this block
    refine ih (fun rest hrest hother => ?_) hhas
    cases rest with
    | nil => exact absurd hother (Level.not_has_nil _ a)
    | cons name more =>
      by_cases hname : name = b.name
      · subst hname
        by_cases hmore : more = []
        · subst hmore
          rw [Level.has_singleton] at hother ⊢
          exact hother
        · refine (Level.has_enter hmore).2 (h more ?_ ((Level.has_enter hmore).1 hother))
          simp [hrest]
      · exact (Level.has_enter_of_ne hname).2 ((Level.has_enter_of_ne hname).1 hother)

end ClosedUp

theorem whole_setLevel (s : State) (level : Level) :
    (s.setLevel level).whole = closedUp s.root s.opened level := by
  unfold setLevel whole State.level
  cases s.opened <;> rfl

@[simp] theorem whole_atLine (s : State) (line : Nat) : (s.atLine line).whole = s.whole := rfl

theorem level_eq_levelOf (s : State) : s.level = levelOf s.root s.opened := by
  unfold State.level levelOf
  cases s.opened <;> rfl

theorem whole_of_leave? {s next : State} {taken : Nat} (h : s.leave? s.level taken = some next) :
    next.whole = s.whole := by
  obtain ⟨b, outer, hopened, rfl⟩ := exists_of_leave? h
  rw [whole_setLevel, whole, hopened, closedUp, level_eq_levelOf]

theorem whole_openBlock (s : State) (name : Text) :
    (s.openBlock name).whole = closedUp s.root s.opened (s.level.enter name .empty) := by
  rw [whole, level_eq_levelOf s]
  rfl

/-- A block that is entered with nothing in it hides what it takes the place of. -/
theorem has_of_enter_empty {s : State} {name : Text} {names : List Text} {a : Attribute}
    (h : (closedUp s.root s.opened (s.level.enter name .empty)).Has names a) :
    s.whole.Has names a := by
  refine has_closedUp_mono (fun rest hrest hhas => ?_) h
  cases rest with
  | nil => exact absurd hhas (Level.not_has_nil _ a)
  | cons first more =>
    by_cases hfirst : first = name
    · subst hfirst
      by_cases hmore : more = []
      · subst hmore
        rw [Level.has_singleton] at hhas ⊢
        exact hhas
      · exact absurd ((Level.has_enter hmore).1 hhas) (Level.not_has_empty more a)
    · exact (Level.has_enter_of_ne hfirst).1 hhas

end State

/-- The names that a line gives a value to: its own, and those of the elements that its value is
projected over. -/
inductive LineGives (scope : Scope) (line : Text) : Text → Prop
  | own {front back : Text} (hcut : line.cut? "=" = some (front, back)) :
      LineGives scope line front.trim
  | element {front back source outcome : Text} {element : Scalar} {rest : List Scalar} {name : Text}
      (hcut : line.cut? "=" = some (front, back)) (hvalue : continues back.trim = false)
      (hprojection : back.IsProjection source outcome)
      (helements : scope.Elements source (element :: rest))
      (hname : name = indexName ∨ name = valueName) : LineGives scope line name

theorem find?_evaluate {t name : Text} {scope : Scope}
    (h : name = indexName ∨ name = valueName → ∀ body source outcome element rest,
      keywordBody? "for" t = some body → projectionParts? body = some (source, outcome) →
      ¬ scope.Elements source (element :: rest)) :
    (evaluate t scope).2.find? name = scope.find? name := by
  by_cases hname : name = indexName ∨ name = valueName
  · cases hbody : keywordBody? "for" t with
    | none =>
      unfold evaluate
      rw [hbody]
      cases keywordBody? "if" t <;> rfl
    | some body =>
      rw [evaluate_of_for hbody, evaluateProjection]
      cases hparts : projectionParts? body with
      | none => rfl
      | some parts =>
        cases hsource : projectionSource parts.1 scope with
        | error e => simp [hsource]
        | ok items =>
          cases items with
          | nil => simp [hsource, projectFrom]
          | cons element rest =>
            exact absurd (projectionSource_eq_ok_iff.1 hsource)
              (h hname body parts.1 parts.2 element rest hbody hparts)
  · simp only [not_or] at hname
    refine evaluate_keeps (I := fun s => s.find? name = scope.find? name) ?_ rfl t
    intro s index element hs
    rw [Scope.find?_bind, if_neg hname.2, if_neg hname.1, hs]

theorem arrayLines_isPrefix {joined all : Text} {rest : List Text} {n : Nat}
    (h : arrayLines joined rest = .ok (all, n)) : joined <+: all := by
  induction rest generalizing joined n with
  | nil => cases h
  | cons line rest ih =>
    rw [arrayLines] at h
    have hjoined : joined <+: joined ++ ' ' :: line.trim := List.prefix_append _ _
    split at h
    · cases h
      exact hjoined
    · obtain ⟨⟨text, m⟩, hm, heq⟩ := exists_of_map_ok h
      cases heq
      exact hjoined.trans (ih hm)

theorem find?_readAttribute {level next : Level} {start k : Nat} {line : Text} {rest : List Text}
    (h : readAttribute level start line rest = .ok (next, k)) :
    next.blocks = level.blocks ∧ ∀ name, ¬ LineGives level.scope line name →
      next.scope.find? name = level.scope.find? name := by
  rcases readAttribute_cases h with rfl | ⟨front, back, hcut, -, hentered⟩
  · exact ⟨rfl, fun _ _ => rfl⟩
  have hown : ∀ name, ¬ LineGives level.scope line name → front.trim ≠ name :=
    fun name hgives heq => hgives (heq ▸ .own hcut)
  rcases hentered with rfl | ⟨raw, hcont, htext, hdefine⟩
  · refine ⟨rfl, fun name hgives => ?_⟩
    rw [Level.defineString, Scope.find?_add, if_neg (hown name hgives)]
  · obtain ⟨kind, value, -, rfl⟩ := Level.exists_of_define hdefine
    refine ⟨rfl, fun name hgives => ?_⟩
    rw [Scope.find?_add, if_neg (hown name hgives)]
    refine find?_evaluate fun hname body source outcome element more hbody hparts helements => ?_
    rcases eq_or_arrayLines_of_valueText htext with rfl | ⟨hopen, hall⟩
    · have hprojection : back.IsProjection source outcome :=
        isProjection_iff.2 ⟨body, hbody, hparts⟩
      exact hgives (.element hcut hcont hprojection helements hname)
    · -- what starts with a bracket is no projection
      obtain ⟨joined, rfl⟩ := arrayLines_isPrefix hall
      obtain ⟨hfor, -⟩ := keywordBody?_eq_some_iff.1 hbody
      have hhead := congrArg List.head? hfor
      rw [List.head?_append, hopen] at hhead
      cases hhead

inductive Item.Gives (item : Item) (names : List Text) (a : Attribute) : Prop
  | intro (name : Text) (next : Level) (k : Nat) (hshape : LineShape.of item.line = .content)
      (hread : readAttribute item.before.level item.start item.line item.rest = .ok (next, k))
      (hgives : LineGives item.before.level.scope item.line name)
      (hfound : next.scope.find? name = some a) (hnames : names = item.before.path ++ [name])

namespace State

variable {s next : State} {line : Text} {rest : List Text} {k : Nat} {names : List Text}
  {a : Attribute}

theorem gives_or_has_of_takeItem (htake : s.takeItem line rest = .ok (next, k))
    (h : next.whole.Has names a) :
    Item.Gives ⟨s, line, rest⟩ names a ∨
      s.whole.Has names a ∧ ∀ b, ¬ Item.Gives ⟨s, line, rest⟩ names b := by
  have hother : LineShape.of line ≠ .content → ∀ b, ¬ Item.Gives ⟨s, line, rest⟩ names b := by
    rintro hshape b ⟨-, -, -, hcontent⟩
    exact hshape hcontent
  cases takes_of_takeItem htake with
  | blank hshape => exact .inr ⟨h, hother (by simp [hshape])⟩
  | closing hshape next hleave =>
    exact .inr ⟨whole_of_leave? hleave ▸ h, hother (by simp [hshape])⟩
  | opening name hshape hname =>
    rw [whole_openBlock] at h
    exact .inr ⟨has_of_enter_empty h, hother (by simp [hshape])⟩
  | bothBraces name hshape hname =>
    rw [whole_atLine, whole_setLevel] at h
    exact .inr ⟨has_of_enter_empty h, hother (by simp [hshape])⟩
  | content hshape level k hread =>
    rw [whole_atLine, whole_setLevel] at h
    by_cases hgiven : ∃ name, names = s.path ++ [name] ∧ LineGives s.level.scope line name
    · obtain ⟨name, rfl, hgives⟩ := hgiven
      have hhas := (has_closedUp_append (List.cons_ne_nil name [])).1 h
      exact .inl ⟨name, level, k, hshape, hread, hgives, Level.has_singleton.1 hhas, rfl⟩
    · obtain ⟨hblocks, hscope⟩ := find?_readAttribute hread
      refine .inr ⟨has_closedUp_mono (fun inner hinner hhas => ?_) h, ?_⟩
      · match inner with
        | [] => exact absurd hhas (Level.not_has_nil _ a)
        | [name] =>
          rw [Level.has_singleton] at hhas ⊢
          rw [← hscope name fun hgives => hgiven ⟨name, hinner, hgives⟩, hhas]
        | name :: second :: more =>
          rw [Level.has_cons (List.cons_ne_nil second more)] at hhas ⊢
          rwa [hblocks] at hhas
      · rintro b ⟨name, -, -, -, -, hgives, -, hnames⟩
        exact hgiven ⟨name, hnames, hgives⟩

inductive LastGives (items : List Item) (names : List Text) (a : Attribute) : Item → Prop
  | intro (front back : List Item) (item : Item) (hitems : items = front ++ item :: back)
      (hgives : item.Gives names a) (hback : ∀ later ∈ back, ∀ b, ¬ later.Gives names b) :
      LastGives items names a item

theorem exists_lastGives_of_run {d : Document} {lines : List Text} (hs : s.pending = none)
    (hrun : (s.run lines).1 = .ok d) (h : d.entryAt? names = some (.attribute a)) :
    (s.whole.Has names a ∧ ∀ item ∈ s.items lines, ∀ b, ¬ item.Gives names b) ∨
      ∃ item, LastGives (s.items lines) names a item := by
  refine items_induction (d := d) (motive := fun s lines =>
    (s.whole.Has names a ∧ ∀ item ∈ s.items lines, ∀ b, ¬ item.Gives names b) ∨
      ∃ item, LastGives (s.items lines) names a item) ?_ ?_ hs hrun
  · rintro s hopened rfl
    -- no block is open at the end, and the whole is the document
    refine .inl ⟨?_, by simp⟩
    rw [whole, level_eq_levelOf, hopened]
    exact h
  · intro s next line rest k htake ih
    rw [items_cons htake]
    rcases ih with ⟨hhas, hlater⟩ | ⟨item, front, back, _, hitems, hgives, hback⟩
    · rcases gives_or_has_of_takeItem htake hhas with hgives | ⟨hbefore, hnone⟩
      · exact .inr ⟨_, [], _, _, rfl, hgives, hlater⟩
      · exact .inl ⟨hbefore, List.forall_mem_cons.2 ⟨hnone, hlater⟩⟩
    · exact .inr ⟨item, _ :: front, back, item, by rw [hitems]; rfl, hgives, hback⟩

end State

/-- Every attribute of a document was given its value by the last item of the source that gives it
one. -/
theorem exists_lastGives {source : Text} {d : Document} (hd : Document.ofSource source = .ok d)
    {names : List Text} {a : Attribute} (h : d.entryAt? names = some (.attribute a)) :
    ∃ item, State.LastGives (itemsOf source) names a item := by
  rcases State.exists_lastGives_of_run (s := .initial 0) rfl hd h with ⟨hhas, -⟩ | hgiven
  · exact absurd hhas (Level.not_has_empty names a)
  · exact hgiven

end BlockConfig
