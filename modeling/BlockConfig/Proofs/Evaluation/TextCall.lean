import BlockConfig.Proofs.Evaluation.Comparison
import BlockConfig.Proofs.Evaluation.WrittenCall
import BlockConfig.Proofs.Reread.Sealed

set_option autoImplicit false

/-!
Calls of the functions on text with their arguments in quotes. Commas, brackets and names of other
functions are safe in the quotes; operators are not, since the form of a text is told by its
characters before any quotes are looked at.
-/

namespace BlockConfig

def quotedList (texts : List Text) : Text :=
  List.intercalate ", ".toList (texts.map doubleQuoted)

namespace TextFunction

def strings : TextFunction → Text → Text → List Text
  | .upper, s, _ | .lower, s, _ | .length, s, _ => [s]
  | .concat, s, t | .contains, s, t => [s, t]

def written (f : TextFunction) (s t : Text) : Text :=
  f.name ++ '(' :: (quotedList (f.strings s t) ++ [')'])

/-- What the function makes of the texts themselves. Lengths are counted in characters. -/
def result : TextFunction → Text → Text → Scalar
  | .upper, s, _ => .string s.upper
  | .lower, s, _ => .string s.lower
  | .length, s, _ => .integer (.ofNat s.length)
  | .concat, s, t => .string (s ++ " " ++ t)
  | .contains, s, t => .boolean (decide (t <:+: s))

end TextFunction

theorem quotedList_cons (u v : Text) (others : List Text) :
    quotedList (u :: v :: others) =
      doubleQuoted u ++ (", ".toList ++ quotedList (v :: others)) := by
  rw [quotedList, List.map_cons, List.map_cons, List.intercalate_cons_cons, List.append_assoc]
  rfl

theorem areArguments_doubleQuoted {texts : List Text} (hne : texts ≠ [])
    (hquote : ∀ u ∈ texts, '"' ∉ u) (hline : ∀ u ∈ texts, '\n' ∉ u) :
    AreArguments (texts.map doubleQuoted) := by
  have hnil : ∀ a ∈ texts.map doubleQuoted, a ≠ [] :=
    List.forall_mem_map.2 fun u _ => List.cons_ne_nil '"' (u ++ ['"'])
  refine ⟨List.map_eq_nil_iff.not.2 hne, List.forall_mem_map.2 fun u hu => ?_,
    List.forall_mem_map.2 fun u _ => ?_, List.forall_mem_map.2 fun u hu => ?_,
    fun a ha => hnil a (List.mem_of_head? ha), fun a ha => hnil a (List.mem_of_getLast? ha)⟩
  · exact Text.isClosed_quotedBy rfl (hquote u hu)
  · exact Text.trim_wrap (by decide) (by decide) u
  · simpa [doubleQuoted] using hline u hu

def Text.IsOperatorFree (t : Text) : Prop :=
  t.containsAny comparisonTokens = false ∧ t.containsAny arithmeticTokens = false

instance (t : Text) : Decidable t.IsOperatorFree := inferInstanceAs (Decidable (_ ∧ _))

def isFrameChar (c : Char) : Bool := isNameChar c || ['(', '"', ',', ' ', ')'].contains c

theorem not_isFrameChar_of_mem_token {token : Text}
    (h : token ∈ comparisonTokens ++ arithmeticTokens) :
    token ≠ [] ∧ ∀ c ∈ token, isFrameChar c = false := by
  have hall : (comparisonTokens ++ arithmeticTokens).all
      (fun token => !token.isEmpty && token.all (!isFrameChar ·)) = true := by decide
  simpa using List.all_eq_true.mp hall token h

section Written

variable {needle : Text} (hne : needle ≠ []) (hframe : ∀ c ∈ needle, isFrameChar c = false)

include hframe

theorem not_mem_of_isFrameChar {frame : Text} (h : frame.all isFrameChar = true) :
    ∀ c ∈ needle, c ∉ frame := fun c hc => not_mem_of_all h (hframe c hc)

include hne

theorem contains_doubleQuoted_append (u rest : Text) :
    Text.contains (doubleQuoted u ++ rest) needle =
      (u.contains needle || rest.contains needle) := by
  have hquote : '"' ∉ needle := fun h => absurd (hframe _ h) (by decide)
  have hsplit : doubleQuoted u ++ rest = ['"'] ++ (u ++ '"' :: rest) := by simp [doubleQuoted]
  rw [hsplit, Text.contains_append_front hne (not_mem_of_isFrameChar hframe (by decide)),
    Text.contains_append_cons hquote]

theorem contains_quotedList (texts : List Text) :
    Text.contains (quotedList texts) needle = texts.any (·.contains needle) := by
  have hnil : Text.contains [] needle = false := by simpa [Text.contains] using hne
  induction texts with
  | nil => exact hnil
  | cons u more ih =>
    cases more with
    | nil =>
      have hone := contains_doubleQuoted_append hne hframe u []
      rw [List.append_nil, hnil] at hone
      simpa [quotedList] using hone
    | cons v others =>
      have hcomma : ∀ rest, Text.contains (", ".toList ++ rest) needle = rest.contains needle :=
        Text.contains_append_front hne (not_mem_of_isFrameChar hframe (by decide))
      rw [quotedList_cons, contains_doubleQuoted_append hne hframe, hcomma, ih]
      rfl

end Written

namespace TextFunction

variable (f : TextFunction) (s t : Text)

theorem isFunctionName_name : f.name.IsFunctionName := by
  cases f <;> exact ⟨⟨_, rfl, rfl⟩, by decide⟩

theorem all_isFrameChar_name : f.name.all isFrameChar = true := by
  cases f <;> decide

theorem containsAny_written {tokens : List Text}
    (h : ∀ token ∈ tokens, token ∈ comparisonTokens ++ arithmeticTokens) :
    (f.written s t).containsAny tokens = (f.strings s t).any (·.containsAny tokens) := by
  have htoken : ∀ token ∈ tokens, (f.written s t).contains token =
      (f.strings s t).any (·.contains token) := by
    intro token hmem
    obtain ⟨hne, hframe⟩ := not_isFrameChar_of_mem_token (h token hmem)
    have hfront : (f.name ++ ['(']).all isFrameChar = true := by
      rw [List.all_append, all_isFrameChar_name]
      decide
    have hsplit : f.written s t = (f.name ++ ['(']) ++
        (quotedList (f.strings s t) ++ [')']) := by
      simp [written]
    rw [hsplit, Text.contains_append_front hne (not_mem_of_isFrameChar hframe hfront),
      Text.contains_append_back hne (not_mem_of_isFrameChar hframe (by decide)),
      contains_quotedList hne hframe]
  rw [Bool.eq_iff_iff, Text.containsAny, List.any_eq_true, List.any_eq_true]
  constructor
  · rintro ⟨token, hmem, hin⟩
    rw [htoken token hmem] at hin
    obtain ⟨u, hu, hin⟩ := List.any_eq_true.1 hin
    exact ⟨u, hu, List.any_eq_true.2 ⟨token, hmem, hin⟩⟩
  · rintro ⟨u, hu, hin⟩
    obtain ⟨token, hmem, hin⟩ := List.any_eq_true.1 hin
    refine ⟨token, hmem, ?_⟩
    rw [htoken token hmem]
    exact List.any_eq_true.2 ⟨u, hu, hin⟩

theorem trim_written : (f.written s t).trim = f.written s t := by
  have hlast : f.written s t = (f.name ++ '(' :: quotedList (f.strings s t)) ++ [')'] := by
    simp [written]
  refine Text.trim_of_ends ?_ ?_
  · cases f <;> (rintro c ⟨⟩; decide)
  · rw [hlast, List.getLast?_concat]
    rintro c ⟨⟩
    decide

theorem evaluateAttribute_written {form : Form} (hform : classify (f.written s t) = .ok form)
    (harray : form ≠ .array) (scope : Scope) :
    evaluateAttribute (f.written s t) scope =
      ((evaluateAs form (f.written s t) scope).map fun s => ⟨[], s.kind, .scalar s⟩, scope) := by
  have hif : keywordBody? "if" (f.written s t) = none := by cases f <;> rfl
  have hfor : keywordBody? "for" (f.written s t) = none := by cases f <;> rfl
  exact evaluateAttribute_of_classify (f.trim_written s t) hif hfor hform harray

/-- The form of a call is that of the operators in its arguments, if there are any. -/
theorem classify_written : classify (f.written s t) =
    if (f.strings s t).any (·.containsAny comparisonTokens) then .ok .comparison
    else if (f.strings s t).any (·.containsAny arithmeticTokens) then .ok .arithmetic
    else .ok .textCall := by
  have hquoted : (f.written s t).isQuoted = false := by cases f <;> rfl
  have hbracketed : isBracketed (f.written s t) = false := by cases f <;> rfl
  have hmark : f.name ++ ['('] ∈ textCallMarks := by cases f <;> decide
  have hcall : (f.written s t).containsAny textCallMarks = true :=
    (Text.containsAny_iff _ _).2 ⟨f.name ++ ['('], hmark, List.IsPrefix.isInfix ⟨_, by
      rw [written, List.append_assoc, List.singleton_append]⟩⟩
  rw [classify, hquoted, hbracketed, f.containsAny_written s t fun _ => List.mem_append_left _,
    f.containsAny_written s t fun _ => List.mem_append_right _, hcall]
  rfl

end TextFunction

section Read

variable {scope : Scope} {s t : Text}

theorem textArgument_doubleQuoted (call : Call) (hfree : scope.find? (doubleQuoted s) = none) :
    call.textArgument scope (doubleQuoted s) = .ok s := by
  rw [Call.textArgument, hfree]
  exact congrArg Except.ok (Text.unquote_wrap rfl s)

end Read

section Call

variable (f : TextFunction) {scope : Scope} {s t : Text}

theorem callOnText_written (hquote : ∀ u ∈ f.strings s t, '"' ∉ u)
    (hline : ∀ u ∈ f.strings s t, '\n' ∉ u)
    (hfree : ∀ u ∈ f.strings s t, scope.find? (doubleQuoted u) = none) :
    callOnText (f.written s t) scope = .ok (f.result s t) := by
  have harguments : AreArguments ((f.strings s t).map doubleQuoted) :=
    areArguments_doubleQuoted (by cases f <;> exact List.cons_ne_nil _ _) hquote hline
  have hread : Call.read (f.written s t) =
      .ok ⟨f.name, quotedList (f.strings s t), f.written s t⟩ :=
    Call.read_list f.isFunctionName_name harguments
  have hfunction : TextFunction.ofName? f.name = some f := by cases f <;> rfl
  have hpair : f.strings s t = [s, t] →
      Call.pair ⟨f.name, quotedList [s, t], f.written s t⟩ =
        .ok (doubleQuoted s, doubleQuoted t) := by
    intro hstrings
    rw [hstrings] at harguments
    exact Call.pair_list harguments _ _
  have hone : ∀ u, quotedList [u] = doubleQuoted u := fun u => argumentList_singleton _
  rw [callOnText, hread]
  simp only [bind, Except.bind, hfunction]
  cases f with
  | upper | lower | length =>
    rw [TextFunction.strings, hone, textArgument_doubleQuoted _ (hfree s List.mem_cons_self)]
    rfl
  | concat =>
    have ht : t ∈ TextFunction.concat.strings s t := List.mem_cons_of_mem _ List.mem_cons_self
    rw [TextFunction.strings, hpair rfl]
    simp only [textArgument_doubleQuoted _ (hfree s List.mem_cons_self),
      textArgument_doubleQuoted _ (hfree t ht)]
    rfl
  | contains =>
    have ht : t ∈ TextFunction.contains.strings s t := List.mem_cons_of_mem _ List.mem_cons_self
    have htest : s.contains t = decide (t <:+: s) := by
      rw [Bool.eq_iff_iff, Text.contains_iff, decide_eq_true_eq]
    rw [TextFunction.strings, hpair rfl]
    simp only [textArgument_doubleQuoted _ (hfree s List.mem_cons_self),
      textArgument_doubleQuoted _ (hfree t ht), htest]
    rfl

theorem quote_mem_operandsAt {token : Text} (htoken : token ∈ comparisonTokens ++ arithmeticTokens)
    (hin : (f.written s t).contains token = true) :
    '"' ∈ (operandsAt token (f.written s t)).1 := by
  obtain ⟨hne, hframe⟩ := not_isFrameChar_of_mem_token htoken
  obtain ⟨rest, hrest⟩ : ∃ rest, f.written s t = f.name ++ ['(', '"'] ++ rest := by
    cases f <;> exact ⟨_, rfl⟩
  have hfront : (f.name ++ ['(', '"']).all isFrameChar = true := by
    rw [List.all_append, f.all_isFrameChar_name]
    decide
  rw [hrest] at hin ⊢
  have hapart := not_mem_of_isFrameChar hframe hfront
  rw [Text.contains_append_front hne hapart, ← Text.cut?_isSome] at hin
  obtain ⟨⟨before, after⟩, hcut⟩ := Option.isSome_iff_exists.1 hin
  obtain ⟨mark, more, rfl⟩ := List.exists_cons_of_ne_nil hne
  rw [operandsAt, Text.cut?_append_front (hapart mark List.mem_cons_self), hcut]
  exact (Text.mem_trim_iff (by decide) _).2 (by simp)

/-- An operator in an argument takes the call for its operands: it fails where the left one is
neither a number nor bound. -/
theorem exists_operator_written (h : ∃ u ∈ f.strings s t, ¬ u.IsOperatorFree) :
    ∃ token ∈ comparisonTokens ++ arithmeticTokens, (f.written s t).contains token = true ∧
      ∃ form, form ≠ .array ∧ classify (f.written s t) = .ok form ∧
        let left := (operandsAt token (f.written s t)).1
        left.toInt64? = none → scope.find? left = none →
          evaluateAs form (f.written s t) scope =
            .error (.unknownReference left (f.written s t)) := by
  obtain ⟨u, hu, hoperator⟩ := h
  have hclass := f.classify_written s t
  by_cases hcomparison : (f.strings s t).any (·.containsAny comparisonTokens) = true
  · rw [if_pos hcomparison] at hclass
    rw [← f.containsAny_written s t fun _ => List.mem_append_left _] at hcomparison
    obtain ⟨c, hselect⟩ := Comparator.exists_select? hcomparison
    have htoken : c.token ∈ comparisonTokens ++ arithmeticTokens := by cases c <;> decide
    refine ⟨c.token, htoken, by simpa using List.find?_some hselect, .comparison, by decide,
      hclass, fun hread hunbound => ?_⟩
    rw [evaluateAs, compare_of_unread hselect hread hunbound]
    rfl
  · have harithmetic : (f.strings s t).any (·.containsAny arithmeticTokens) = true := by
      have hnone := List.any_eq_false.1 (Bool.eq_false_iff.2 hcomparison) u hu
      refine List.any_eq_true.2 ⟨u, hu, ?_⟩
      by_contra hnot
      exact hoperator ⟨Bool.eq_false_iff.2 hnone, Bool.eq_false_iff.2 hnot⟩
    rw [if_neg hcomparison, if_pos harithmetic] at hclass
    rw [← f.containsAny_written s t fun _ => List.mem_append_right _] at harithmetic
    obtain ⟨o, hselect⟩ := Operator.exists_select? harithmetic
    have htoken : o.token ∈ comparisonTokens ++ arithmeticTokens := by cases o <;> decide
    refine ⟨o.token, htoken, by simpa using List.find?_some hselect, .arithmetic, by decide,
      hclass, fun hread hunbound => ?_⟩
    rw [evaluateAs, calculate_of_unread hselect hread hunbound]
    rfl

end Call

/-- Calls on quoted texts yield what the functions make of the texts, as long as no operator occurs
in these. Otherwise the call is taken for a comparison or a calculation, and what stands in front
of the operator for the name of an attribute. -/
theorem evaluateAttribute_textCall (f : TextFunction) {scope : Scope} {s t : Text}
    (hquote : ∀ u ∈ f.strings s t, '"' ∉ u) (hline : ∀ u ∈ f.strings s t, '\n' ∉ u)
    (hfree : ∀ u ∈ f.strings s t, scope.find? (doubleQuoted u) = none) :
    ((∀ u ∈ f.strings s t, u.IsOperatorFree) →
      evaluateAttribute (f.written s t) scope =
        (.ok ⟨[], (f.result s t).kind, .scalar (f.result s t)⟩, scope)) ∧
    ((∃ u ∈ f.strings s t, ¬ u.IsOperatorFree) →
      ∃ token ∈ comparisonTokens ++ arithmeticTokens, (f.written s t).contains token = true ∧
        let left := (operandsAt token (f.written s t)).1
        '"' ∈ left ∧ (scope.find? left = none →
          evaluateAttribute (f.written s t) scope =
            (.error (.unknownReference left (f.written s t)), scope))) := by
  constructor
  · intro hoperators
    have hcomparison : (f.strings s t).any (·.containsAny comparisonTokens) = false :=
      List.any_eq_false.2 fun u hu => Bool.eq_false_iff.1 (hoperators u hu).1
    have harithmetic : (f.strings s t).any (·.containsAny arithmeticTokens) = false :=
      List.any_eq_false.2 fun u hu => Bool.eq_false_iff.1 (hoperators u hu).2
    have hclass := f.classify_written s t
    rw [hcomparison, harithmetic] at hclass
    rw [f.evaluateAttribute_written s t hclass (by decide)]
    simp only [evaluateAs, callOnText_written f hquote hline hfree]
    rfl
  · intro hoperator
    obtain ⟨token, htoken, hin, form, harray, hclass, hfails⟩ := exists_operator_written f hoperator
    have hleft := quote_mem_operandsAt f htoken hin
    refine ⟨token, htoken, hin, hleft, fun hunbound => ?_⟩
    rw [f.evaluateAttribute_written s t hclass harray,
      hfails (toInt64?_eq_none_of_mem hleft (by decide)) hunbound]
    rfl

theorem evaluateAttribute_textCall_marks :
    let scope : Scope := [("n", ⟨"n", .number, .scalar (.integer 2)⟩)]
    let call : Text := "contains(\"a, [b] ? true : or(c)\", \", [b]\")"
    evaluateAttribute call scope = (.ok ⟨[], .boolean, .scalar (.boolean true)⟩, scope) ∧
      evaluateAttribute "upper(\"a-b\")" scope =
        (.error (.unknownReference "upper(\"a" "upper(\"a-b\")"), scope) := by
  intro scope call
  have hpair : ∀ u ∈ TextFunction.contains.strings "a, [b] ? true : or(c)" ", [b]",
      scope.find? (doubleQuoted u) = none := by decide
  have hone : ∀ u ∈ TextFunction.upper.strings "a-b" [], scope.find? (doubleQuoted u) = none := by
    decide
  have hcontains := (evaluateAttribute_textCall .contains (by decide) (by decide) hpair).1
    (by decide)
  obtain ⟨token, htoken, hin, -, hfails⟩ :=
    (evaluateAttribute_textCall .upper (by decide) (by decide) hone).2 (by decide)
  have honly : ∀ token ∈ comparisonTokens ++ arithmeticTokens,
      Text.contains "upper(\"a-b\")" token = true → token = ['-'] := by decide
  obtain rfl := honly token htoken hin
  exact ⟨hcontains, hfails rfl⟩

/-- Not every text can be an argument in quotes. -/
theorem not_evaluateAttribute_quoted :
    ¬ ∀ (f : TextFunction) (scope : Scope) (s t : Text),
      (∀ u ∈ f.strings s t, (∀ c ∈ u, isQuote c = false) ∧ '\n' ∉ u ∧ '\r' ∉ u ∧
        scope.find? (doubleQuoted u) = none) →
      (evaluateAttribute (f.written s t) scope).1 =
        .ok ⟨[], (f.result s t).kind, .scalar (f.result s t)⟩ := by
  intro h
  refine absurd (h .upper [] "a-b" [] fun u hu => ?_) (by decide)
  obtain rfl : u = "a-b" := List.mem_singleton.mp hu
  exact ⟨by simpa using List.all_eq_true.mp (show ("a-b" : Text).all (!isQuote ·) = true from rfl),
    by decide, by decide, rfl⟩

end BlockConfig
