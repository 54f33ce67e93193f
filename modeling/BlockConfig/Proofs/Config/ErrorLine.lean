import BlockConfig.Config.Access
import BlockConfig.Proofs.Config.Locate
import BlockConfig.Proofs.Reader.Origin

set_option autoImplicit false

namespace BlockConfig

structure Error.IsMismatch (e : Error) : Prop where
  unplaced : e.line = 0
  cause : ∃ message, e.cause = .typeMismatch message

namespace Target

theorem error_of_map {α β : Type} {x : Except Error α} {f : α → β} {e : Error}
    (h : x.map f = .error e) : x = .error e := by
  cases x with
  | error found =>
    cases h
    rfl
  | ok a => cases h

theorem exists_of_mapM_error {α β : Type} {f : α → Except Error β} {xs : List α} {e : Error}
    (h : xs.mapM f = .error e) : ∃ x ∈ xs, f x = .error e := by
  induction xs with
  | nil => cases h
  | cons x rest ih =>
    rw [List.mapM_cons] at h
    cases hx : f x with
    | error found =>
      rw [hx] at h
      cases h
      exact ⟨x, by simp, hx⟩
    | ok a =>
      rw [hx] at h
      cases hrest : rest.mapM f with
      | error found =>
        simp only [hrest] at h
        cases h
        obtain ⟨y, hy, hfails⟩ := ih hrest
        exact ⟨y, List.mem_cons_of_mem x hy, hfails⟩
      | ok ys =>
        simp only [hrest] at h
        cases h

theorem isMismatch_of_convert {target : Target} {v : Value} {e : Error}
    (h : target.convert v = .error e) : e.IsMismatch := by
  induction target generalizing v e with
  | string =>
    have htext := error_of_map h
    unfold toText at htext
    split at htext
    · cases htext
    · cases htext
      exact ⟨rfl, _, rfl⟩
  | boolean =>
    have hboolean := error_of_map h
    unfold toBoolean at hboolean
    split at hboolean
    · cases hboolean
    · cases hboolean
      exact ⟨rfl, _, rfl⟩
    · cases hboolean
      exact ⟨rfl, _, rfl⟩
  | integer type =>
    have hinteger := error_of_map h
    unfold toInteger at hinteger
    split at hinteger
    · cases hinteger
      exact ⟨rfl, _, rfl⟩
    · split at hinteger
      · cases hinteger
      · cases hinteger
        exact ⟨rfl, _, rfl⟩
  | single =>
    have hsingle := error_of_map h
    unfold toSingle at hsingle
    split at hsingle
    · cases hsingle
    · cases hsingle
    · cases hsingle
      exact ⟨rfl, _, rfl⟩
  | double =>
    have hdouble := error_of_map h
    unfold toDouble at hdouble
    split at hdouble
    · cases hdouble
    · cases hdouble
      exact ⟨rfl, _, rfl⟩
  | list item ih =>
    cases v with
    | scalar s =>
      cases h
      exact ⟨rfl, _, rfl⟩
    | array items =>
      rw [convert] at h
      obtain ⟨s, -, hs⟩ := exists_of_mapM_error (error_of_map h)
      exact ih hs

end Target

namespace Config

theorem line_locateError (c : Config) (path : Text) {e : Error} (h : e.IsMismatch) :
    (c.locateError path e).line = (c.place path).line ∧
      ∃ message, (c.locateError path e).cause = .typeMismatch message := by
  obtain ⟨message, hcause⟩ := h.cause
  unfold locateError
  rw [hcause]
  cases hline : (c.place path).line with
  | zero => exact ⟨h.unplaced, message, hcause⟩
  | succ line => exact ⟨rfl, _, rfl⟩

theorem get_of_convert_error {c : Config} {path : Text} {target : Target} {a : Attribute}
    {e : Error} (ha : c.lookup path = some (.attribute a)) (he : target.convert a.value = .error e) :
    c.get target path = .error (c.locateError path e) := by
  simp only [get, read, ha, he]
  rfl

/-- A path leads to an attribute by the first of its spellings, and the last item that gives that
attribute its value starts its definition. A value that cannot be converted is reported at the line
of that item if and only if the line is the first that is headed as the path is written, or no line
is and it is the first that defines the last segment. -/
theorem line_of_get_error {source path : Text} {c : Config} {target : Target} {a : Attribute}
    {e : Error} (hc : Config.ofSource source = .ok c) (ha : c.lookup path = some (.attribute a))
    (he : target.convert a.value = .error e) :
    ∃ names item reported,
      Spells names ((path.parts '.').map Text.trim) ∧
      c.document.entryAt? names = some (.attribute a) ∧
      (∀ others, Spells others ((path.parts '.').map Text.trim) →
        ranks ((path.parts '.').map Text.trim) others < ranks ((path.parts '.').map Text.trim) names →
        c.document.entryAt? others = none) ∧
      State.LastGives (itemsOf source) names a item ∧
      c.get target path = .error reported ∧
      (∃ message, reported.cause = .typeMismatch message) ∧
      reported.line = (locate path source).line ∧
      ((∀ other ∈ itemsOf source, other.Quiet) →
        (reported.line = item.start ↔
          IsLeast (headedLines source path) item.start ∨
            headedLines source path = ∅ ∧
              IsLeast (definingLines source (((path.parts '.').getLast?).getD path)) item.start)) := by
  obtain ⟨d, hd, hcd⟩ := exists_of_map_ok hc
  subst hcd
  obtain ⟨-, names, hspells, hexact, hfirst⟩ := (d.lookup_eq_some_iff path (.attribute a)).1 ha
  obtain ⟨item, hitem⟩ := exists_lastGives hd hexact
  obtain ⟨hline, hcause⟩ :=
    line_locateError (Config.mk d source) path (Target.isMismatch_of_convert he)
  refine ⟨names, item, _, hspells, hexact, hfirst, hitem, get_of_convert_error ha he, hcause, hline,
    fun hquiet => ?_⟩
  rw [hline]
  exact line_locate_eq_iff hd hquiet rfl (Nat.succ_pos _)

/-- The second definition gives the value, and the first is reported. -/
theorem line_of_get_error_redefined :
    ∃ c item reported, Config.ofSource "x = 1\nx = 'a'" = .ok c ∧
      State.LastGives (itemsOf "x = 1\nx = 'a'") ["x".toList]
        ⟨"x", .string, .scalar (.string "a")⟩ item ∧ item.start = 2 ∧
      c.get (.integer .int64) "x" = .error reported ∧ reported.line = 1 := by
  let a : Attribute := ⟨"x", .string, .scalar (.string "a")⟩
  let c : Config := ⟨⟨[("x", a)], []⟩, "x = 1\nx = 'a'"⟩
  have hc : Config.ofSource "x = 1\nx = 'a'" = .ok c := rfl
  have ha : c.lookup "x" = some (.attribute a) := rfl
  have he : Target.convert (.integer .int64) a.value =
      .error (a.value.mismatch "integer" "Use a whole number in your config") := rfl
  obtain ⟨names, item, reported, hspells, -, -, hitem, hget, -⟩ := line_of_get_error hc ha he
  obtain rfl : names = ["x".toList] := List.mem_singleton.1 (mem_spelledOut.2 hspells)
  let s : State := ⟨1, ⟨[("x", ⟨"x", .number, .scalar (.integer 1)⟩)], []⟩, [], none⟩
  have hfirst : (State.initial 0).takeItem "x = 1" ["x = 'a'".toList] = .ok (s, 0) := rfl
  have hsecond : s.takeItem "x = 'a'" [] = .ok (⟨2, ⟨[("x", a)], []⟩, [], none⟩, 0) := rfl
  have hitems : itemsOf "x = 1\nx = 'a'" =
      [⟨.initial 0, "x = 1", ["x = 'a'".toList]⟩, ⟨s, "x = 'a'", []⟩] := by
    have hlines : (Text.lines "x = 1\nx = 'a'").map stripComment =
        ["x = 1".toList, "x = 'a'".toList] := rfl
    rw [itemsOf, hlines, State.items_cons hfirst]
    simp only [List.drop_zero, State.items_cons hsecond, List.drop_nil, State.items_nil]
  have hgives : Item.Gives ⟨s, "x = 'a'", []⟩ ["x".toList] a := by
    have hcut : Text.cut? "x = 'a'" "=" = some ("x ".toList, " 'a'".toList) := rfl
    exact ⟨"x", ⟨[("x", a)], []⟩, 0, rfl, rfl, .own hcut, rfl, rfl⟩
  have hstart : item.start = 2 := by
    obtain ⟨front, back, _, hsplit, -, hback⟩ := hitem
    rw [hitems] at hsplit
    match front with
    | [] =>
      cases hsplit
      exact absurd hgives (hback _ (by simp) a)
    | [_] =>
      cases hsplit
      rfl
    | _ :: _ :: _ =>
      have hlength := congrArg List.length hsplit
      simp at hlength
  have hline := congrArg (fun result => match result with | .error e => e.line | .ok _ => 0) hget
  exact ⟨c, item, reported, hc, hitem, hstart, hget, hline.symm⟩

end Config

end BlockConfig
