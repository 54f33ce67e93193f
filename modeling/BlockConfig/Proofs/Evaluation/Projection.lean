import BlockConfig.Proofs.Evaluation.Results
import BlockConfig.Proofs.Line

set_option autoImplicit false

/-!
A projection maps its outcome over its elements. The scope it hands on from one element to the next
carries nothing over: every binding replaces the one before it, so that each result is that of its
own element, bound in the scope as it was before the projection.
-/

namespace BlockConfig

namespace Text

theorem cutLast?_append {mark : Char} (before : Text) {after : Text} (h : mark ∉ after) :
    cutLast? mark (before ++ mark :: after) = some (before, after) := by
  induction before with
  | nil =>
    have hnone := (cutLast?_eq_none_iff mark after).2 h
    simp [cutLast?, hnone]
  | cons c rest ih => simp [cutLast?, ih]

/-- A value that reads as `for source : outcome`, with no colon in the outcome. -/
inductive IsProjection (raw source outcome : Text) : Prop
  | intro (gap : Char) (front back : Text) (hgap : isBlank gap = true) (hback : ':' ∉ back)
      (hraw : raw.trim = "for" ++ gap :: (front ++ ':' :: back)) (hsource : front.trim = source)
      (houtcome : back.trim = outcome) (hsourceNe : source ≠ []) (houtcomeNe : outcome ≠ [])

end Text

theorem keywordBody?_eq_some_iff {keyword t body : Text} :
    keywordBody? keyword t = some body ↔
      t = keyword ++ body ∧ ∃ c rest, body = c :: rest ∧ isBlank c = true := by
  unfold keywordBody?
  constructor
  · intro h
    split at h
    · rename_i hkeyword
      obtain ⟨rest, rfl⟩ := List.isPrefixOf_iff_prefix.1 hkeyword
      rw [List.drop_left] at h
      split at h
      · rename_i c more
        split at h
        · rename_i hblank
          cases h
          exact ⟨rfl, c, more, rfl, hblank⟩
        · cases h
      · cases h
    · cases h
  · rintro ⟨rfl, c, rest, rfl, hblank⟩
    simp [hblank]

theorem keywordBody?_if_of_for {t body : Text} (h : keywordBody? "for" t = some body) :
    keywordBody? "if" t = none := by
  obtain ⟨rfl, -⟩ := keywordBody?_eq_some_iff.1 h
  rfl

theorem projectionParts?_eq_some_iff {body source outcome : Text} :
    projectionParts? body = some (source, outcome) ↔
      ∃ front back : Text, body = front ++ ':' :: back ∧ ':' ∉ back ∧ front.trim = source ∧
        back.trim = outcome ∧ source ≠ [] ∧ outcome ≠ [] := by
  unfold projectionParts?
  simp only [Option.bind_eq_bind, Option.bind_eq_some_iff]
  constructor
  · rintro ⟨⟨front, back⟩, hcut, hparts⟩
    obtain ⟨hbody, hback⟩ := Text.eq_of_cutLast? hcut
    split at hparts
    · cases hparts
    · rename_i hne
      simp only [Bool.or_eq_true, List.isEmpty_iff, not_or] at hne
      cases hparts
      exact ⟨front, back, hbody, hback, rfl, rfl, hne.1, hne.2⟩
  · rintro ⟨front, back, rfl, hback, rfl, rfl, hsource, houtcome⟩
    refine ⟨(front, back), Text.cutLast?_append front hback, ?_⟩
    simp [hsource, houtcome]

theorem isProjection_iff {raw source outcome : Text} :
    raw.IsProjection source outcome ↔
      ∃ body, keywordBody? "for" raw.trim = some body ∧
        projectionParts? body = some (source, outcome) := by
  constructor
  · rintro ⟨gap, front, back, hgap, hback, hraw, hsource, houtcome, hsourceNe, houtcomeNe⟩
    refine ⟨gap :: (front ++ ':' :: back), keywordBody?_eq_some_iff.2 ⟨hraw, _, _, rfl, hgap⟩, ?_⟩
    have hblank : ([gap] : Text).all isBlank = true := by simpa using hgap
    have hfront : Text.trim (gap :: front) = source :=
      (Text.trim_prepend_blank hblank front).trans hsource
    exact projectionParts?_eq_some_iff.2
      ⟨gap :: front, back, rfl, hback, hfront, houtcome, hsourceNe, houtcomeNe⟩
  · rintro ⟨body, hbody, hparts⟩
    obtain ⟨hraw, gap, rest, rfl, hgap⟩ := keywordBody?_eq_some_iff.1 hbody
    obtain ⟨front, back, hrest, hback, hsource, houtcome, hsourceNe, houtcomeNe⟩ :=
      projectionParts?_eq_some_iff.1 hparts
    cases front with
    | nil => exact absurd hsource.symm hsourceNe
    | cons c front =>
      cases hrest
      have hblank : ([gap] : Text).all isBlank = true := by simpa using hgap
      exact ⟨gap, front, back, hgap, hback, hraw,
        (Text.trim_prepend_blank hblank front).symm.trans hsource, houtcome, hsourceNe, houtcomeNe⟩

namespace Scope

theorem bind_bind (scope : Scope) (i j : Nat) (first last : Scalar) :
    (scope.bind i first).bind j last = scope.bind j last := by
  have hne : indexName ≠ valueName := by decide
  simp only [bind, add]
  rw [Table.insert_insert_of_mem (Table.mem_names_insert scope indexName _) hne,
    Table.insert_insert_self, Table.insert_insert_self]

theorem find?_bind (scope : Scope) (index : Nat) (element : Scalar) (name : Text) :
    (scope.bind index element).find? name =
      if name = valueName then some ⟨valueName, element.kind, .scalar element⟩
      else if name = indexName then
        some ⟨indexName, .number, .scalar (.integer (.ofNat index))⟩
      else scope.find? name := by
  rw [bind, find?_add, find?_add]
  simp only [eq_comm]

theorem names_bind (scope : Scope) (index : Nat) (element : Scalar) :
    Table.names (scope.bind index element) =
      Table.names scope ++ [indexName, valueName].filter (· ∉ Table.names scope) := by
  have hne : valueName ≠ indexName := by decide
  rw [bind, add, add, Table.names_insert, Table.names_insert]
  by_cases hindex : indexName ∈ Table.names scope <;>
    by_cases hvalue : valueName ∈ Table.names scope <;> simp [hindex, hvalue, hne]

/-- The elements that a source stands for: those of the array of that name, or if nothing has the
name, those of an array that is written out. -/
inductive Elements (scope : Scope) (source : Text) (items : List Scalar) : Prop
  | named (a : Attribute) (ha : scope.find? source = some a) (hvalue : a.value = .array items)
  | written (hfree : scope.find? source = none) (hbracketed : isBracketed source = true)
      (hitems : evaluateArray source scope = .ok items)

def boundAt (scope : Scope) (items : List Scalar) (position : Nat) : Scope :=
  match items[position]? with
  | some element => scope.bind position element
  | none => scope

/-- What it comes to when the outcome is evaluated for each element in turn, bound in the scope as
it was before all of them. -/
structure Maps (scope : Scope) (outcome : Text) (items : List Scalar)
    (result : Except Error (List Scalar)) (last : Scope) : Prop where
  of_ok : ∀ results : List Scalar, results.length = items.length →
    (∀ i element found, items[i]? = some element → results[i]? = some found →
      projectionOutcome outcome (scope.bind i element) = .ok found) →
    result = .ok results ∧ last = scope.boundAt items (items.length - 1)
  of_error : ∀ k element e, items[k]? = some element →
    projectionOutcome outcome (scope.bind k element) = .error e →
    (∀ i < k, ∀ other, items[i]? = some other →
      ∃ found, projectionOutcome outcome (scope.bind i other) = .ok found) →
    result = .error e ∧ last = scope.bind k element

end Scope

theorem projectionSource_eq_ok_iff {source : Text} {scope : Scope} {items : List Scalar} :
    projectionSource source scope = .ok items ↔ scope.Elements source items := by
  unfold projectionSource
  constructor
  · intro h
    split at h
    · rename_i a ha
      split at h
      · rename_i found hvalue
        cases h
        exact .named a ha hvalue
      · cases h
    · rename_i hfree
      split at h
      · rename_i hbracketed
        exact .written hfree hbracketed h
      · cases h
  · rintro (⟨a, ha, hvalue⟩ | ⟨hfree, hbracketed, hitems⟩)
    · simp [ha, hvalue]
    · simp [hfree, hbracketed, hitems]

section Loop

/-! The loop has bound elements already when it comes to the later ones; its scope binds as the
scope before the projection, `base`, does. -/

variable {outcome : Text} {base scope : Scope}
  (hbase : ∀ i element, scope.bind i element = base.bind i element)

include hbase

theorem projectFrom_of_ok {items results : List Scalar} (hlength : results.length = items.length)
    (index : Nat) (h : ∀ i element found, items[i]? = some element → results[i]? = some found →
      projectionOutcome outcome (base.bind (index + i) element) = .ok found) :
    projectFrom outcome index items scope = (.ok results,
      (items.getLast?.map (base.bind (index + (items.length - 1)))).getD scope) := by
  induction items generalizing index results scope with
  | nil =>
    obtain rfl := List.length_eq_zero_iff.1 hlength
    rfl
  | cons element rest ih =>
    obtain ⟨found, others, rfl⟩ := List.exists_cons_of_length_eq_add_one hlength
    have hfirst : projectionOutcome outcome (scope.bind index element) = .ok found := by
      rw [hbase]
      exact h 0 element found rfl rfl
    have hbound : ∀ i other, (scope.bind index element).bind i other = base.bind i other :=
      fun i other => by rw [scope.bind_bind, hbase]
    have hrest := ih hbound (Nat.succ.inj hlength) (index + 1) fun i other result hi hr => by
      rw [Nat.add_assoc, Nat.add_comm 1 i]
      exact h (i + 1) other result hi hr
    rw [projectFrom, hfirst]
    simp only [hrest]
    cases rest with
    | nil => simp [Except.map, hbase]
    | cons second more =>
      have hposition : index + 1 + more.length = index + (more.length + 1) := by omega
      have hlast := List.getLast?_eq_some_getLast (List.cons_ne_nil second more)
      simp [Except.map, hposition, hlast]

theorem projectFrom_of_error {items : List Scalar} (index : Nat) {k : Nat} {element : Scalar}
    {e : Error} (hk : items[k]? = some element)
    (hfails : projectionOutcome outcome (base.bind (index + k) element) = .error e)
    (hbefore : ∀ i < k, ∀ other, items[i]? = some other →
      ∃ found, projectionOutcome outcome (base.bind (index + i) other) = .ok found) :
    projectFrom outcome index items scope = (.error e, base.bind (index + k) element) := by
  induction items generalizing index k scope with
  | nil => simp at hk
  | cons first rest ih =>
    rw [projectFrom, hbase]
    cases k with
    | zero =>
      obtain rfl : first = element := by simpa using hk
      rw [Nat.add_zero] at hfails
      rw [hfails]
      rfl
    | succ k =>
      obtain ⟨found, hfound⟩ := hbefore 0 (by omega) first rfl
      have hbound : ∀ i other, (base.bind index first).bind i other = base.bind i other :=
        fun i other => base.bind_bind index i first other
      have hrest := ih hbound (index + 1) (k := k) (by simpa using hk)
        (by rwa [Nat.add_assoc, Nat.add_comm 1 k]) fun i hi other hother => by
          rw [Nat.add_assoc, Nat.add_comm 1 i]
          exact hbefore (i + 1) (by omega) other (by simpa using hother)
      rw [Nat.add_zero] at hfound
      rw [hfound]
      simp only [hrest, Except.map]
      rw [Nat.add_assoc, Nat.add_comm 1 k]

end Loop

theorem maps_projectFrom (outcome : Text) (items : List Scalar) (scope : Scope) :
    scope.Maps outcome items (projectFrom outcome 0 items scope).1
      (projectFrom outcome 0 items scope).2 where
  of_ok results hlength h := by
    have hbase : ∀ i element, scope.bind i element = scope.bind i element := fun _ _ => rfl
    have hrun := projectFrom_of_ok hbase hlength 0 fun i element found hi hr => by
      rw [Nat.zero_add]
      exact h i element found hi hr
    refine ⟨by rw [hrun], ?_⟩
    rw [hrun, List.getLast?_eq_getElem?, Scope.boundAt]
    cases items[items.length - 1]? with
    | none => rfl
    | some element => simp
  of_error k element e hk hfails hbefore := by
    have hbase : ∀ i element, scope.bind i element = scope.bind i element := fun _ _ => rfl
    have hrun := projectFrom_of_error hbase 0 hk
      (by rwa [Nat.zero_add]) fun i hi other hother => by
        rw [Nat.zero_add]
        exact hbefore i hi other hother
    rw [Nat.zero_add] at hrun
    exact ⟨by rw [hrun], by rw [hrun]⟩

theorem evaluate_of_for {t body : Text} (h : keywordBody? "for" t = some body) (scope : Scope) :
    evaluate t scope = ((evaluateProjection t body scope).1.map fun xs => (.array, .array xs),
      (evaluateProjection t body scope).2) := by
  unfold evaluate
  simp only [keywordBody?_if_of_for h, h]

theorem evaluateAttribute_of_for {raw body : Text}
    (h : keywordBody? "for" raw.trim = some body) (scope : Scope) :
    evaluateAttribute raw scope =
      ((evaluateProjection raw.trim body scope).1.map fun xs => ⟨[], .array, .array xs⟩,
        (evaluateProjection raw.trim body scope).2) := by
  unfold evaluateAttribute
  rw [evaluate_of_for h]
  cases (evaluateProjection raw.trim body scope).1 <;> rfl

theorem Scope.Maps.of_value {scope : Scope} {items : List Scalar}
    {result : Except Error (List Scalar)} {last : Scope}
    (h : scope.Maps valueName items result last) : result = .ok items := by
  refine (h.of_ok items rfl fun i element found hi hfound => ?_).1
  obtain rfl : element = found := Option.some.inj (hi.symm.trans hfound)
  simp [projectionOutcome, Scope.find?_bind]

/-- A projection maps its outcome over the elements of its source, each bound in the scope as it was
before; what stays in the scope is the binding of the last element that was tried. A projection
without parts or without elements fails and leaves the scope as it was, and so does every value of
another form, whether or not it fails. -/
theorem evaluateAttribute_projection (scope : Scope) :
    (∀ raw source outcome items, Text.IsProjection raw source outcome →
      scope.Elements source items → ∃ result last, scope.Maps outcome items result last ∧
        evaluateAttribute raw scope = (result.map fun xs => ⟨[], .array, .array xs⟩, last)) ∧
    (∀ raw source outcome, Text.IsProjection raw source outcome →
      (∀ items, ¬ scope.Elements source items) →
      ∃ e, evaluateAttribute raw scope = (.error e, scope)) ∧
    (∀ raw body : Text, keywordBody? "for" raw.trim = some body →
      (∀ source outcome, ¬ raw.IsProjection source outcome) →
      ∃ e, evaluateAttribute raw scope = (.error e, scope)) ∧
    (∀ raw source a items, Text.IsProjection raw source valueName →
      scope.find? source = some a → a.value = .array items →
      (evaluateAttribute raw scope).1 = .ok ⟨[], .array, .array items⟩) ∧
    (∀ raw : Text, keywordBody? "for" raw.trim = none → (evaluateAttribute raw scope).2 = scope) ∧
    ∀ index element,
      Table.names (scope.bind index element) =
        Table.names scope ++ [indexName, valueName].filter (· ∉ Table.names scope) ∧
      ∀ name, (scope.bind index element).find? name =
        if name = valueName then some ⟨valueName, element.kind, .scalar element⟩
        else if name = indexName then
          some ⟨indexName, .number, .scalar (.integer (.ofNat index))⟩
        else scope.find? name := by
  have hmapped : ∀ raw source outcome items, Text.IsProjection raw source outcome →
      scope.Elements source items → ∃ result last, scope.Maps outcome items result last ∧
        evaluateAttribute raw scope =
          (result.map fun xs => ⟨[], .array, .array xs⟩, last) := by
    intro raw source outcome items hraw hitems
    obtain ⟨body, hbody, hparts⟩ := isProjection_iff.1 hraw
    refine ⟨_, _, maps_projectFrom outcome items scope, ?_⟩
    rw [evaluateAttribute_of_for hbody, evaluateProjection, hparts]
    simp only [projectionSource_eq_ok_iff.2 hitems]
  refine ⟨hmapped, ?_, ?_, ?_, ?_,
    fun index element => ⟨scope.names_bind index element, scope.find?_bind index element⟩⟩
  · intro raw source outcome hraw hitems
    obtain ⟨body, hbody, hparts⟩ := isProjection_iff.1 hraw
    rw [evaluateAttribute_of_for hbody, evaluateProjection, hparts]
    cases hsource : projectionSource source scope with
    | error e => exact ⟨e, by simp only [hsource]; rfl⟩
    | ok items => exact absurd (projectionSource_eq_ok_iff.1 hsource) (hitems items)
  · intro raw body hbody hraw
    rw [evaluateAttribute_of_for hbody, evaluateProjection]
    cases hparts : projectionParts? body with
    | none => exact ⟨_, rfl⟩
    | some parts => exact absurd (isProjection_iff.2 ⟨body, hbody, hparts⟩) (hraw parts.1 parts.2)
  · intro raw source a items hraw ha hvalue
    obtain ⟨result, last, hmaps, heval⟩ :=
      hmapped raw source valueName items hraw (.named a ha hvalue)
    rw [heval, hmaps.of_value]
    rfl
  · intro raw hraw
    unfold evaluateAttribute evaluate
    cases hif : keywordBody? "if" raw.trim with
    | some body => simp only
    | none => simp only [hraw]

/-- The source is itself called `value`: its elements are those it had before the loop, and the last
of them stays in its place. A division fails at the second element, which stays bound. -/
theorem evaluateAttribute_projection_value :
    let scope : Scope := [(valueName, ⟨valueName, .array, .array [.integer 3, .integer 4]⟩)]
    evaluateAttribute "for value : value * index" scope =
      (.ok ⟨[], .array, .array [.integer 0, .integer 4]⟩,
        [(valueName, ⟨valueName, .number, .scalar (.integer 4)⟩),
          (indexName, ⟨indexName, .number, .scalar (.integer 1)⟩)]) ∧
    evaluateAttribute "for [1, 0, 5] : 6 / value" scope =
      (.error (.plain (.divisionByZero "6 / value")),
        [(valueName, ⟨valueName, .number, .scalar (.integer 0)⟩),
          (indexName, ⟨indexName, .number, .scalar (.integer 1)⟩)]) ∧
    (evaluateAttribute "for value : value" scope).1 =
      .ok ⟨[], .array, .array [.integer 3, .integer 4]⟩ ∧
    (∃ e, evaluateAttribute "for other : value" scope = (.error e, scope)) ∧
    (∃ e, evaluateAttribute "for value" scope = (.error e, scope)) ∧
    (evaluateAttribute "1 / 0" scope).2 = scope := by
  intro scope
  obtain ⟨hmapped, hsource, hparts, hvalues, hother, -⟩ := evaluateAttribute_projection scope
  have hwhole : Text.IsProjection "for value : value" valueName valueName :=
    isProjection_iff.2 ⟨_, rfl, rfl⟩
  refine ⟨?_, ?_, hvalues _ valueName _ _ hwhole rfl rfl, hsource _ "other" valueName ?_ ?_,
    hparts _ " value" rfl ?_, hother _ rfl⟩
  · have hraw : Text.IsProjection "for value : value * index" valueName "value * index" :=
      isProjection_iff.2 ⟨_, rfl, rfl⟩
    obtain ⟨result, last, hmaps, heval⟩ := hmapped _ _ _ _ hraw (.named _ rfl rfl)
    obtain ⟨rfl, rfl⟩ := hmaps.of_ok [.integer 0, .integer 4] rfl fun i element found hi hr => by
      match i with
      | 0 => cases hi; cases hr; rfl
      | 1 => cases hi; cases hr; rfl
      | n + 2 => cases hi
    exact heval
  · have hraw : Text.IsProjection "for [1, 0, 5] : 6 / value" "[1, 0, 5]" "6 / value" :=
      isProjection_iff.2 ⟨_, rfl, rfl⟩
    obtain ⟨result, last, hmaps, heval⟩ := hmapped _ _ _ [.integer 1, .integer 0, .integer 5] hraw
      (.written rfl rfl rfl)
    obtain ⟨rfl, rfl⟩ := hmaps.of_error 1 (.integer 0) _ rfl rfl fun i hi other hother => by
      obtain rfl : i = 0 := by omega
      cases hother
      exact ⟨_, rfl⟩
    exact heval
  · exact isProjection_iff.2 ⟨_, rfl, rfl⟩
  · rintro items (⟨a, ha, -⟩ | ⟨-, hbracketed, -⟩)
    · cases ha
    · cases hbracketed
  · intro source outcome hraw
    obtain ⟨body, hbody, hsplit⟩ := isProjection_iff.1 hraw
    cases hbody
    cases hsplit

end BlockConfig
