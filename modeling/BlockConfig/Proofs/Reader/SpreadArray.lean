import BlockConfig.Proofs.Reader.Spread

set_option autoImplicit false

/-!
Arrays written over several lines, an element to a line. A closing bracket ends such an array
wherever it stands in a line, in a string as well: only where no element holds one do the lines say
what one line says.
-/

namespace BlockConfig

/-- A literal: a string in quotes that it does not hold, a number or a truth value. -/
inductive Text.IsElement : Text → Prop
  | quoted {q : Char} {t : Text} (hq : isQuote q = true) (h : q ∉ t) : IsElement (q :: (t ++ [q]))
  | number {t : Text} {s : Scalar} (h : readNumber t = .ok s) : IsElement t
  | boolean {t : Text} {b : Bool} (h : readBoolean? t = some b) : IsElement t

theorem isNumberChar_cases {c : Char} (h : isNumberChar c = true) :
    isWordChar c = true ∨ c = ',' ∨ c = '+' := by
  simp only [isNumberChar, Bool.or_eq_true, List.contains_iff_mem, List.mem_cons,
    List.not_mem_nil, or_false] at h
  rcases h with h | rfl | rfl | rfl | rfl
  · exact .inl (by simp [isWordChar, h])
  · exact .inl rfl
  · exact .inr (.inl rfl)
  · exact .inr (.inr rfl)
  · exact .inl rfl

theorem isBlank_of_isNumberChar {c : Char} (h : isNumberChar c = true) : isBlank c = false := by
  rcases isNumberChar_cases h with h | rfl | rfl
  · exact isBlank_of_isWordChar h
  · decide
  · decide

theorem isOrdinary_of_isNumberChar {c : Char} (h : isNumberChar c = true) :
    isOrdinary c = true := by
  rcases isNumberChar_cases h with h | rfl | rfl
  · exact forall_wordChar (by decide) h
  · rfl
  · rfl

theorem isNumberChar_of_readBoolean? {t : Text} {b : Bool} (h : readBoolean? t = some b) :
    t.all isNumberChar = true ∧ t ≠ [] := by
  have hspelling : t ∈ trueSpellings ++ falseSpellings := by
    unfold readBoolean? at h
    split at h
    · exact List.mem_append_left _ ‹_›
    · split at h
      · exact List.mem_append_right _ ‹_›
      · cases h
  have hall : ∀ u ∈ trueSpellings ++ falseSpellings, u.all isNumberChar = true ∧ u ≠ [] := by decide
  exact hall t hspelling

namespace Text.IsElement

variable {e : Text}

theorem quoted_or_bare (h : e.IsElement) :
    (∃ q t, isQuote q = true ∧ q ∉ t ∧ e = q :: (t ++ [q])) ∨
      (e.all isNumberChar = true ∧ e ≠ []) := by
  cases h with
  | quoted hq h => exact .inl ⟨_, _, hq, h, rfl⟩
  | boolean h => exact .inr (isNumberChar_of_readBoolean? h)
  | number h =>
    refine .inr ⟨isNumberChar_of_readNumber h, ?_⟩
    rintro rfl
    cases h

theorem ne_nil (h : e.IsElement) : e ≠ [] := by
  rcases h.quoted_or_bare with ⟨q, t, -, -, rfl⟩ | ⟨-, hne⟩
  · simp
  · exact hne

theorem trim_eq (h : e.IsElement) : e.trim = e := by
  rcases h.quoted_or_bare with ⟨q, t, hq, -, rfl⟩ | ⟨hall, -⟩
  · have hblank := isBlank_of_isQuote hq
    exact Text.trim_wrap hblank hblank t
  · exact Text.trim_of_solid fun c hc => isBlank_of_isNumberChar (List.all_eq_true.1 hall c hc)

theorem isUnmarked_append (h : e.IsElement) {rest : Text} (hrest : rest.IsUnmarked) :
    IsUnmarked (e ++ rest) := by
  rcases h.quoted_or_bare with ⟨q, t, hq, ht, rfl⟩ | ⟨hall, -⟩
  · exact (Text.sealed_wrap hq ht).isUnmarked_append hrest
  · exact hrest.prepend (List.all_eq_true.2 fun c hc =>
      isOrdinary_of_isNumberChar (List.all_eq_true.1 hall c hc))

theorem isValue (h : e.IsElement) : e.IsValue := by
  have hunmarked := h.isUnmarked_append Text.isUnmarked_nil
  rw [List.append_nil] at hunmarked
  exact ⟨h.ne_nil, h.trim_eq, hunmarked⟩

theorem isValue_comma (h : e.IsElement) : IsValue (e ++ [',']) := by
  refine ⟨by simp, Text.trim_of_ends ?_ (by simp; decide), h.isUnmarked_append ?_⟩
  · rw [List.head?_append_of_ne_nil _ h.ne_nil]
    exact Text.isBlank_head?_of_trim h.trim_eq
  · exact Text.isUnmarked_of_all (by decide)

theorem getLast?_ne (h : e.IsElement) : e.getLast? ≠ some ']' := by
  rcases h.quoted_or_bare with ⟨q, t, hq, -, rfl⟩ | ⟨hall, -⟩
  · rw [← List.cons_append, List.getLast?_concat]
    rintro ⟨rfl⟩
    cases hq
  · exact fun hlast => not_mem_of_all hall (c := ']') rfl (List.mem_of_getLast? hlast)

theorem front_ne (h : e.IsElement) {name : Text} (hname : name.IsPlainName) {rest : Text}
    (hrest : '=' ∉ rest) {front back : Text} (hcut : Text.cut? (e ++ rest) "=" = some (front, back)) :
    front.trim ≠ name := by
  rintro rfl
  have hline := Text.eq_of_cut? hcut
  rcases h.quoted_or_bare with ⟨q, t, hq, -, rfl⟩ | ⟨hall, -⟩
  · cases front with
    | nil =>
      have hhead : q = '=' := (List.cons.inj hline).1
      subst hhead
      cases hq
    | cons c more =>
      obtain rfl : q = c := (List.cons.inj hline).1
      have hquote := hname.not_quote q
      rw [Text.trim_cons_of_solid (isBlank_of_isQuote hq)] at hquote
      simp [hq] at hquote
  · have hequals : '=' ∈ e ++ rest := by rw [hline]; simp
    rcases List.mem_append.1 hequals with hm | hm
    · exact not_mem_of_all hall (c := '=') rfl hm
    · exact hrest hm

end Text.IsElement

def joinedElements (es : List Text) : Text := List.intercalate ", ".toList es

theorem joinedElements_cons (e next : Text) (more : List Text) :
    joinedElements (e :: next :: more) = e ++ ", ".toList ++ joinedElements (next :: more) :=
  List.intercalate_cons_cons

def arrayText (es : List Text) : Text := '[' :: (joinedElements es ++ [']'])

def elementLines : List Text → List Text
  | [] => ["]".toList]
  | [last] => [last, "]".toList]
  | e :: next :: more => (e ++ [',']) :: elementLines (next :: more)

def spreadArray (name : Text) (es : List Text) : List Text :=
  attributeLine name "[" :: elementLines es

theorem length_elementLines (es : List Text) : (elementLines es).length = es.length + 1 := by
  induction es using elementLines.induct with
  | case1 => rfl
  | case2 last => rfl
  | case3 e next more ih => simpa [elementLines] using ih

theorem elementLines_cases {es : List Text} {line : Text} (h : line ∈ elementLines es) :
    line = "]".toList ∨ ∃ e ∈ es, line = e ∨ line = e ++ [','] := by
  induction es using elementLines.induct with
  | case1 => exact .inl (List.mem_singleton.1 h)
  | case2 last =>
    rw [elementLines, List.mem_cons, List.mem_singleton] at h
    exact h.symm.imp_right fun hlast => ⟨last, by simp, .inl hlast⟩
  | case3 e next more ih =>
    rw [elementLines, List.mem_cons] at h
    rcases h with rfl | h
    · exact .inr ⟨e, by simp, .inr rfl⟩
    · refine (ih h).imp_right ?_
      rintro ⟨f, hf, hline⟩
      exact ⟨f, List.mem_cons_of_mem _ hf, hline⟩

section Lines

variable {es : List Text} (helements : ∀ e ∈ es, e.IsElement)

include helements

theorem isUnmarked_joinedElements : Text.IsUnmarked (joinedElements es ++ [']']) := by
  induction es with
  | nil => exact Text.isUnmarked_of_all (by decide)
  | cons e rest ih =>
    have hrest := ih fun f hf => helements f (List.mem_cons_of_mem _ hf)
    have he := helements e (by simp)
    cases rest with
    | nil => simpa [joinedElements] using he.isUnmarked_append hrest
    | cons next more =>
      rw [joinedElements_cons, List.append_assoc, List.append_assoc]
      exact he.isUnmarked_append (hrest.prepend (by decide))

theorem isUnmarked_arrayText : (arrayText es).IsUnmarked :=
  (isUnmarked_joinedElements helements).prepend (by decide : List.all ['['] isOrdinary = true)

theorem isValue_arrayText : (arrayText es).IsValue :=
  ⟨by simp [arrayText], Text.trim_wrap (by decide) (by decide) (joinedElements es),
    isUnmarked_arrayText helements⟩

theorem isValue_of_mem_elementLines {line : Text} (h : line ∈ elementLines es) : line.IsValue := by
  rcases elementLines_cases h with rfl | ⟨e, he, hline | hline⟩
  · exact ⟨by decide, by decide, Text.isUnmarked_of_all (by decide)⟩
  · exact hline ▸ (helements e he).isValue
  · exact hline ▸ (helements e he).isValue_comma

theorem arrayLines_elementLines (hne : es ≠ []) (hclose : ∀ e ∈ es, ']' ∉ e) (front : Text)
    (rest : List Text) :
    arrayLines front (elementLines es ++ rest) =
      .ok (front ++ ' ' :: (joinedElements es ++ " ]".toList), es.length + 1) := by
  induction es using elementLines.induct generalizing front with
  | case1 => exact absurd rfl hne
  | case2 last =>
    have htrim := (helements last (by simp)).trim_eq
    have hlast := hclose last (by simp)
    have hbracket : Text.trim "]" = "]".toList := by decide
    rw [elementLines, List.cons_append, arrayLines, if_neg hlast, htrim, List.cons_append,
      arrayLines, if_pos (by decide), hbracket]
    simp [Except.map, joinedElements]
  | case3 e next more ih =>
    have he := helements e (by simp)
    have hopen : ']' ∉ e ++ [','] := by simp [hclose e (by simp)]
    have hmore := ih (fun f hf => helements f (List.mem_cons_of_mem _ hf)) (by simp)
      (fun f hf => hclose f (List.mem_cons_of_mem _ hf))
    rw [elementLines, List.cons_append, arrayLines, if_neg hopen, he.isValue_comma.trim_eq, hmore,
      joinedElements_cons]
    simp [Except.map]

/-- An element that holds a closing bracket ends the array on its line. -/
theorem arrayLines_of_close (hclose : ∃ e ∈ es, ']' ∈ e) (front : Text) (rest : List Text) :
    ∃ last n, arrayLines front (elementLines es ++ rest) = .ok (front ++ ' ' :: last, n) ∧
      last ≠ [] ∧ last.getLast? ≠ some ']' := by
  induction es using elementLines.induct generalizing front with
  | case1 => simp at hclose
  | case2 last =>
    have hlast := helements last (by simp)
    have hmem : ']' ∈ last := by simpa using hclose
    refine ⟨last, 1, ?_, hlast.ne_nil, hlast.getLast?_ne⟩
    rw [elementLines, List.cons_append, arrayLines, if_pos hmem, hlast.trim_eq]
  | case3 e next more ih =>
    have he := helements e (by simp)
    rw [elementLines, List.cons_append, arrayLines, he.isValue_comma.trim_eq]
    by_cases hmem : ']' ∈ e
    · exact ⟨e ++ [','], 1, by rw [if_pos (by simp [hmem])], by simp, by simp⟩
    · have hmore : ∃ f ∈ next :: more, ']' ∈ f := by simpa [hmem] using hclose
      obtain ⟨last, n, hlines, hne, hlast⟩ := ih (fun f hf => helements f (List.mem_cons_of_mem _ hf))
        hmore (front ++ ' ' :: (e ++ [',']))
      refine ⟨e ++ ',' :: ' ' :: last, n + 1, ?_, by simp, ?_⟩
      · rw [if_neg (by simp [hmem]), hlines]
        simp [Except.map]
      · rw [List.getLast?_append_of_ne_nil _ (by simp), List.getLast?_cons_of_ne_nil (by simp),
          List.getLast?_cons_of_ne_nil hne]
        exact hlast

end Lines

theorem evaluate_of_bracket (rest : Text) (scope : Scope) :
    evaluate ('[' :: rest) scope =
      ((evaluatePlain ('[' :: rest) scope).map fun v => (v.kind, v), scope) :=
  evaluate_of_not_keyword (keywordBody?_of_head (by decide) _ rest)
    (keywordBody?_of_head (by decide) _ rest)

theorem evaluate_brackets (inner : Text) (scope : Scope) :
    evaluate ('[' :: (inner ++ [']'])) scope =
      ((evaluateArray ('[' :: (inner ++ [']'])) scope).map fun items => (.array, .array items),
        scope) := by
  rw [evaluate_of_bracket, evaluatePlain_of_array (classify_brackets inner)]
  cases evaluateArray ('[' :: (inner ++ [']'])) scope <;> rfl

/-- A text with an opening bracket in front stands for no array unless a closing one ends it. -/
theorem exists_scalar_of_evaluate {rest : Text} {scope : Scope} {kind : Kind} {value : Value}
    (h : (evaluate ('[' :: rest) scope).1 = .ok (kind, value))
    (hlast : List.getLast? ('[' :: rest) ≠ some ']') : ∃ s, value = .scalar s := by
  rw [evaluate_of_bracket] at h
  obtain ⟨v, hv, heq⟩ := exists_of_map_ok h
  obtain rfl : v = value := (Prod.mk.inj heq).2
  cases v with
  | scalar s => exact ⟨s, rfl⟩
  | array items =>
    have hbrackets := (array_of_evaluatePlain hv).1
    simp only [isBracketed, Bool.and_eq_true, beq_iff_eq] at hbrackets
    exact absurd hbrackets.2 hlast

theorem define_brackets_eq_ok_iff {level next : Level} {name inner : Text} {start : Nat} :
    level.define name ('[' :: (inner ++ [']'])) start = .ok next ↔
      ∃ items, evaluateArray ('[' :: (inner ++ [']'])) level.scope = .ok items ∧
        next = { level with scope := level.scope.add ⟨name, .array, .array items⟩ } := by
  rw [Level.define, evaluate_brackets]
  cases evaluateArray ('[' :: (inner ++ [']'])) level.scope with
  | error e => simp [Except.map]
  | ok items => simp [Except.map, eq_comm]

theorem evaluateArray_padded {inner : Text} {scope : Scope} {items : List Scalar}
    (h : evaluateArray ('[' :: (inner ++ [']'])) scope = .ok items) :
    evaluateArray ('[' :: (' ' :: (inner ++ [' ']) ++ [']'])) scope = .ok items := by
  have hinner : ∀ t : Text, List.dropLast (List.drop 1 ('[' :: (t ++ [']']))) = t := fun t => by simp
  have htrim : Text.trim (' ' :: (inner ++ [' '])) = Text.trim inner :=
    (Text.trim_prepend_blank (by decide : List.all [' '] isBlank = true) _).trans
      (Text.trim_append_blank (by decide) inner)
  have htexts : elementTexts ('[' :: (' ' :: (inner ++ [' ']) ++ [']'])) =
      elementTexts ('[' :: (inner ++ [']'])) := by
    unfold elementTexts
    rw [hinner, hinner, htrim]
  unfold evaluateArray at h ⊢
  rw [htexts]
  simp only [mapM_ok_iff] at h ⊢
  exact h.imp fun part s hs => (evaluateScalar_iff _).1 ((evaluateScalar_iff _).2 hs)

theorem define_padded {level next : Level} {name inner : Text} {start : Nat}
    (h : level.define name ('[' :: (inner ++ [']'])) start = .ok next) :
    level.define name ('[' :: (' ' :: (inner ++ [' ']) ++ [']'])) start = .ok next := by
  obtain ⟨items, hitems, hnext⟩ := define_brackets_eq_ok_iff.1 h
  exact define_brackets_eq_ok_iff.2 ⟨items, evaluateArray_padded hitems, hnext⟩

def Scope.LacksArray (scope : Scope) (name : Text) : Prop :=
  ∀ a ∈ scope.find? name, ∀ items, a.value ≠ .array items

namespace Scope.LacksArray

variable {scope : Scope} {name : Text}

theorem add_scalar (h : scope.LacksArray name) (other : Text) (kind : Kind) (s : Scalar) :
    (scope.add ⟨other, kind, .scalar s⟩).LacksArray name := by
  intro a ha items
  rw [Scope.find?_add] at ha
  split at ha
  · cases ha
    simp
  · exact h a ha items

theorem add_of_ne (h : scope.LacksArray name) {a : Attribute} (ha : a.name ≠ name) :
    (scope.add a).LacksArray name := by
  unfold LacksArray
  rwa [Scope.find?_add, if_neg ha]

theorem evaluate (h : scope.LacksArray name) (t : Text) :
    (BlockConfig.evaluate t scope).2.LacksArray name :=
  evaluate_keeps (I := fun scope => scope.LacksArray name)
    (fun _ index element h => (h.add_scalar indexName .number (.integer (.ofNat index))).add_scalar
      valueName element.kind element) h t

theorem kept (name : Text) :
    Level.Kept (fun line => ∀ front back, line.cut? "=" = some (front, back) → front.trim ≠ name)
      (fun level => level.scope.LacksArray name) where
  empty := by
    intro a ha
    cases ha
  enter h _ _ := h
  readAttribute := by
    intro level next start k line rest h hline _ hread
    rcases readAttribute_cases hread with rfl | ⟨front, back, hcut, -, rfl | ⟨raw, -, -, hdefine⟩⟩
    · exact h
    · exact h.add_scalar _ _ _
    · obtain ⟨kind, value, -, rfl⟩ := Level.exists_of_define hdefine
      exact (h.evaluate raw).add_of_ne (hline front back hcut)

end Scope.LacksArray

section SpreadArray

variable {name : Text} {es : List Text}

theorem readAttribute_arrayText (hname : name.IsPlainName) (helements : ∀ e ∈ es, e.IsElement)
    (level : Level) (start : Nat) (rest : List Text) :
    readAttribute level start (attributeLine name (arrayText es)) rest =
      (level.define name (arrayText es) start).map fun next => (next, 0) := by
  have hsingle : (arrayText es).IsSingle :=
    isSingle_of_bracket (continues_wrap '[' ']' (joinedElements es)) (by simp)
  exact readAttribute_of_single hname level start rest hsingle (isValue_arrayText helements).trim_eq

theorem exists_define_of_ofLines (hname : name.IsPlainName) (helements : ∀ e ∈ es, e.IsElement)
    {d : Document} (h : Document.ofLines [attributeLine name (arrayText es)] = .ok d) :
    ∃ next, Level.empty.define name (arrayText es) 1 = .ok next ∧ d = ⟨next.scope, next.blocks⟩ := by
  have hvalue := isValue_attributeLine hname (isValue_arrayText helements)
  rw [ofLines_eq_ofItems, List.map_singleton, hvalue.stripComment, Document.ofItems,
    readItems_of_content (shape_of_isValue hvalue), readAttribute_arrayText hname helements] at h
  cases hdefine : Level.empty.define name (arrayText es) 1 with
  | error e =>
    rw [hdefine] at h
    cases h
  | ok next =>
    simp only [hdefine, Except.map, List.drop_nil, readItems, skipping_ok, Except.ok.injEq] at h
    exact ⟨next, rfl, h.symm⟩

theorem readAttribute_spread (hname : name.IsPlainName) {level : Level} {start : Nat}
    {rest : List Text} {all : Text} {n : Nat} (h : arrayLines "[" rest = .ok (all, n)) :
    readAttribute level start (attributeLine name "[") rest =
      (level.define name all start).map fun next => (next, n) :=
  readAttribute_of_open hname level start rest (by decide) (by decide) List.not_mem_nil h

theorem isValue_of_mem_spreadArray (hname : name.IsPlainName) (helements : ∀ e ∈ es, e.IsElement) :
    ∀ line ∈ spreadArray name es, line.IsValue := by
  have hopen : Text.IsValue "[" := ⟨by decide, by decide, Text.isUnmarked_of_all (by decide)⟩
  exact List.forall_mem_cons.2 ⟨isValue_attributeLine hname hopen, fun line hline =>
    isValue_of_mem_elementLines helements hline⟩

theorem lacksArray_of_close (hname : name.IsPlainName) (helements : ∀ e ∈ es, e.IsElement)
    (hclose : ∃ e ∈ es, ']' ∈ e) {d : Document}
    (h : Document.ofLines (spreadArray name es) = .ok d) :
    Scope.LacksArray d.attributes name := by
  have hkept := Scope.LacksArray.kept name
  have hvalues := isValue_of_mem_spreadArray hname helements
  have hshape := shape_of_isValue (hvalues (attributeLine name "[") (List.mem_cons_self ..))
  obtain ⟨last, n, hlines, hne, hlast⟩ := arrayLines_of_close helements hclose "[" []
  rw [List.append_nil] at hlines
  rw [ofLines_eq_ofItems, map_stripComment_of_isValue hvalues, Document.ofItems, spreadArray,
    readItems_of_content hshape, readAttribute_spread hname hlines] at h
  obtain ⟨⟨level, count⟩, hitems, rfl⟩ := exists_of_map_ok h
  cases hdefine : Level.empty.define name ("[" ++ ' ' :: last) (0 + 1) with
  | error e =>
    rw [hdefine] at hitems
    cases hitems
  | ok next =>
    rw [hdefine] at hitems
    obtain ⟨m, hrest⟩ := exists_of_skipping hitems
    obtain ⟨kind, value, hvalue, hnext⟩ := Level.exists_of_define hdefine
    have hend : List.getLast? ('[' :: ' ' :: last) ≠ some ']' := by
      rw [List.getLast?_cons_of_ne_nil (by simp), List.getLast?_cons_of_ne_nil hne]
      exact hlast
    obtain ⟨s, rfl⟩ := exists_scalar_of_evaluate hvalue hend
    have hstart : next.scope.LacksArray name :=
      hnext ▸ (Scope.LacksArray.evaluate hkept.empty _).add_scalar name kind s
    -- the lines that the array left over are items of their own
    refine hkept.readItems hstart (fun line hline front back hcut => ?_) hrest
    rcases elementLines_cases (List.mem_of_mem_drop hline) with rfl | ⟨e, he, heq | heq⟩
    · cases hcut
    · rw [heq, ← List.append_nil e] at hcut
      exact (helements e he).front_ne hname List.not_mem_nil hcut
    · rw [heq] at hcut
      exact (helements e he).front_ne hname (by simp) hcut

theorem ofLines_spreadArray_append (hname : name.IsPlainName) (helements : ∀ e ∈ es, e.IsElement)
    (hne : es ≠ []) (hclose : ∀ e ∈ es, ']' ∉ e) {next : Level}
    (hdefine : Level.empty.define name (arrayText es) 1 = .ok next) (after : List Text) :
    Document.ofLines (spreadArray name es ++ after) =
      (Document.ofLines (attributeLine name (arrayText es) :: after)).mapError
        (Error.raise 1 (es.length + 1)) := by
  have hs : (State.initial 0).stepAll (List.map stripComment []) = .ok (State.initial 0) := rfl
  have hstarts : (State.initial 0).StartsBehind := by simp [State.StartsBehind, State.initial]
  have hlines := arrayLines_elementLines helements hne hclose "[" (after.map stripComment)
  have htext : "[".toList ++ ' ' :: (joinedElements es ++ " ]".toList) =
      '[' :: (' ' :: (joinedElements es ++ [' ']) ++ [']']) := by simp
  have hone : readAttribute .empty 1 (attributeLine name (arrayText es)) (after.map stripComment) =
      .ok (next, 0) := by
    rw [readAttribute_arrayText hname helements, hdefine]
    rfl
  have hspread : readAttribute .empty 1 (attributeLine name "[")
      (elementLines es ++ after.map stripComment) = .ok (next, (elementLines es).length) := by
    rw [readAttribute_spread hname hlines, htext, define_padded hdefine, length_elementLines]
    rfl
  have h := ofLines_spread hs rfl hstarts (isValue_attributeLine hname (isValue_arrayText helements))
    (isValue_of_mem_spreadArray hname helements) hone hspread
  rwa [length_elementLines] at h

/-- An array that is read from one line is read from its lines, and so is what follows, exactly
where no element holds a closing bracket. -/
theorem ofLines_spreadArray (hname : name.IsPlainName) (helements : ∀ e ∈ es, e.IsElement)
    (hne : es ≠ []) {d : Document}
    (hone : Document.ofLines [attributeLine name (arrayText es)] = .ok d) :
    (Document.ofLines (spreadArray name es) = .ok d ↔ ∀ e ∈ es, ']' ∉ e) ∧
      ((∀ e ∈ es, ']' ∉ e) → ∀ after,
        Document.ofLines (spreadArray name es ++ after) =
          (Document.ofLines (attributeLine name (arrayText es) :: after)).mapError
            (Error.raise 1 (es.length + 1))) := by
  obtain ⟨next, hdefine, rfl⟩ := exists_define_of_ofLines hname helements hone
  have hafter := fun hclose => ofLines_spreadArray_append hname helements hne hclose hdefine
  refine ⟨⟨fun h e he hmem => ?_, fun hclose => ?_⟩, hafter⟩
  · have hlacks := lacksArray_of_close hname helements ⟨e, he, hmem⟩ h
    obtain ⟨items, -, rfl⟩ := define_brackets_eq_ok_iff.1 hdefine
    have hfind : Scope.find? (Level.empty.scope.add ⟨name, .array, .array items⟩) name =
        some ⟨name, .array, .array items⟩ := by
      rw [Scope.find?_add, if_pos rfl]
    exact hlacks _ hfind items rfl
  · have h := hafter hclose []
    rw [List.append_nil, hone] at h
    exact h

/-- Commas and opening brackets in a string do no harm. A closing bracket ends the array, and what
is left of it here is a truth value. -/
theorem ofLines_spreadArray_brackets :
    let whole : List Text := ["'a, [b'", "2.5"]
    let cut : List Text := ["'true]'", "1"]
    let after : List Text := ["y = 1 / 0"]
    let found : Document := ⟨[("x", ⟨"x", .boolean, .scalar (.boolean false)⟩)], []⟩
    let meant : Document := ⟨[("x", ⟨"x", .array, .array [.string "true]", .integer 1]⟩)], []⟩
    Document.ofLines (spreadArray "x" whole ++ after) =
        (Document.ofLines (attributeLine "x" (arrayText whole) :: after)).mapError
          (Error.raise 1 3) ∧
      Document.ofLines [attributeLine "x" (arrayText cut)] = .ok meant ∧
      Document.ofLines (spreadArray "x" cut) = .ok found ∧
      Document.ofLines (spreadArray "x" cut) ≠ .ok meant := by
  intro whole cut after found meant
  have hname : Text.IsPlainName "x" := Text.isPlainName_of_all (by decide) (by decide)
  have hwhole : ∀ e ∈ whole, e.IsElement := by
    intro e he
    rcases (by simpa [whole] using he : e = "'a, [b'".toList ∨ e = "2.5".toList) with rfl | rfl
    · exact .quoted (t := "a, [b") (q := '\'') rfl (by decide)
    · exact .number rfl
  have hcut : ∀ e ∈ cut, e.IsElement := by
    intro e he
    rcases (by simpa [cut] using he : e = "'true]'".toList ∨ e = "1".toList) with rfl | rfl
    · exact .quoted (t := "true]") (q := '\'') rfl (by decide)
    · exact .number rfl
  have hmeant : Document.ofLines [attributeLine "x" (arrayText cut)] = .ok meant := rfl
  refine ⟨(ofLines_spreadArray hname hwhole (by simp [whole]) rfl).2 (by decide) after, hmeant, rfl,
    fun h => ?_⟩
  have hnone := (ofLines_spreadArray hname hcut (by simp [cut]) hmeant).1.1 h
  exact hnone "'true]'" (by simp [cut]) (by decide)

end SpreadArray

end BlockConfig
