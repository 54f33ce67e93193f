import BlockConfig.Proofs.Evaluation.Projection
import BlockConfig.Proofs.Reread.Scalar
import BlockConfig.Proofs.Splitting

set_option autoImplicit false

namespace BlockConfig

/-- The text between the first opening and the last closing parenthesis. -/
def Text.parenthesized? (t : Text) : Option Text :=
  (t.cut? "(").bind fun parts => (cutLast? ')' parts.2).map Prod.fst

structure Text.IsFunctionName (name : Text) : Prop where
  head : ∃ c ∈ name.head?, isNameStart c = true
  all_chars : name.all isNameChar = true

def argumentList (arguments : List Text) : Text := List.intercalate ", ".toList arguments

def callText (name : Text) (arguments : List Text) : Text :=
  name ++ '(' :: (argumentList arguments ++ [')'])

/-- Texts that can be written as the arguments of a call. Only those in between may be empty. -/
structure AreArguments (arguments : List Text) : Prop where
  ne_nil : arguments ≠ []
  closed : ∀ a ∈ arguments, a.IsClosed
  trimmed : ∀ a ∈ arguments, a.trim = a
  one_line : ∀ a ∈ arguments, '\n' ∉ a
  head_ne_nil : ∀ a ∈ arguments.head?, a ≠ []
  last_ne_nil : ∀ a ∈ arguments.getLast?, a ≠ []

theorem argumentList_singleton (a : Text) : argumentList [a] = a := by simp [argumentList]

theorem argumentList_cons (a b : Text) (others : List Text) :
    argumentList (a :: b :: others) = a ++ ',' :: ' ' :: argumentList (b :: others) := by
  simp [argumentList, List.intercalate_cons_cons]

theorem isPrefix_argumentList (a : Text) (others : List Text) :
    a <+: argumentList (a :: others) := by
  cases others with
  | nil => simp [argumentList_singleton]
  | cons b more =>
    rw [argumentList_cons]
    exact List.prefix_append _ _

theorem isSuffix_argumentList (others : List Text) (a : Text) :
    a <:+ argumentList (others ++ [a]) := by
  induction others with
  | nil => simp [argumentList_singleton]
  | cons first rest ih =>
    obtain ⟨b, more, hmore⟩ : ∃ b more, rest ++ [a] = b :: more :=
      List.exists_cons_of_ne_nil (by simp)
    rw [hmore] at ih
    rw [List.cons_append, hmore, argumentList_cons]
    exact ih.trans ⟨first ++ [',', ' '], by simp⟩

theorem not_mem_argumentList {c : Char} (hc : c ∉ ", ".toList) {arguments : List Text}
    (h : ∀ a ∈ arguments, c ∉ a) : c ∉ argumentList arguments := by
  induction arguments with
  | nil => simp [argumentList]
  | cons a rest ih =>
    obtain ⟨ha, hrest⟩ := List.forall_mem_cons.1 h
    cases rest with
    | nil => rwa [argumentList_singleton]
    | cons b others =>
      have hcomma : c ≠ ',' ∧ c ≠ ' ' := by simpa using hc
      rw [argumentList_cons]
      simp [ha, hcomma, ih hrest]

namespace AreArguments

variable {arguments : List Text} (h : AreArguments arguments)

include h

theorem newline_not_mem : '\n' ∉ argumentList arguments :=
  not_mem_argumentList (by decide) h.one_line

/-- The list begins with the first argument and ends with the last, so that nothing is trimmed. -/
theorem trim_eq : (argumentList arguments).trim = argumentList arguments := by
  refine Text.trim_of_ends (fun c hc => ?_) fun c hc => ?_
  · obtain ⟨a, others, rfl⟩ := List.exists_cons_of_ne_nil h.ne_nil
    have hne : a ≠ [] := h.head_ne_nil a rfl
    obtain ⟨rest, hrest⟩ := isPrefix_argumentList a others
    rw [← hrest, List.head?_append_of_ne_nil _ hne] at hc
    exact Text.isBlank_head?_of_trim (h.trimmed a List.mem_cons_self) c hc
  · obtain ⟨others, a, rfl⟩ := (List.eq_nil_or_concat arguments).resolve_left h.ne_nil
    rw [List.concat_eq_append] at h hc
    have hne : a ≠ [] := h.last_ne_nil a (by simp)
    obtain ⟨rest, hrest⟩ := isSuffix_argumentList others a
    rw [← hrest, List.getLast?_append_of_ne_nil _ hne] at hc
    exact Text.isBlank_getLast?_of_trim (h.trimmed a (by simp)) c hc

theorem argumentList_ne_nil : argumentList arguments ≠ [] := by
  obtain ⟨a, others, rfl⟩ := List.exists_cons_of_ne_nil h.ne_nil
  intro hnil
  have hprefix := isPrefix_argumentList a others
  rw [hnil, List.prefix_nil] at hprefix
  exact h.head_ne_nil a rfl hprefix

theorem arguments_eq (name expression : Text) :
    Call.arguments ⟨name, argumentList arguments, expression⟩ = arguments := by
  have hne : ¬ (argumentList arguments).isEmpty = true := by simpa using h.argumentList_ne_nil
  have hsplit := Text.map_trim_splitCommas_list h.ne_nil h.closed
  rw [Call.arguments, if_neg hne, argumentList, hsplit]
  exact (List.map_congr_left h.trimmed).trans (List.map_id _)

end AreArguments

namespace Call

theorem read_append {name inner : Text} (hname : name.IsFunctionName) (hline : '\n' ∉ inner) :
    read (name ++ '(' :: (inner ++ [')'])) =
      .ok ⟨name, inner.trim, name ++ '(' :: (inner ++ [')'])⟩ := by
  obtain ⟨d, hd, hstart⟩ := hname.head
  obtain ⟨more, rfl⟩ := List.head?_eq_some_iff.1 hd
  have hletters : ∀ c ∈ d :: more, isNameChar c = true := List.all_eq_true.1 hname.all_chars
  have hblank : isBlank d = false := isBlank_of_isNameChar (hletters d List.mem_cons_self)
  have hfirst : Text.trimStart (d :: more ++ '(' :: (inner ++ [')'])) =
      d :: more ++ '(' :: (inner ++ [')']) := Text.trimStart_of_head hblank
  have htake : (d :: more ++ '(' :: (inner ++ [')'])).takeWhile isNameChar = d :: more := by
    rw [List.takeWhile_append_of_pos hletters]
    simp [isNameChar]
  have hdrop : (d :: more ++ '(' :: (inner ++ [')'])).dropWhile isNameChar =
      '(' :: (inner ++ [')']) := by
    rw [List.dropWhile_append_of_pos hletters]
    rfl
  have hopen : Text.trimStart ('(' :: (inner ++ [')'])) = '(' :: (inner ++ [')']) :=
    Text.trimStart_of_head (by decide)
  have hend : Text.trimEnd (inner ++ [')']) = inner ++ [')'] :=
    Text.trimEnd_of_getLast (by simp; decide)
  have hinner : Text.dropEnd? ')' (inner ++ [')']) = some inner := by simp [Text.dropEnd?]
  rw [read, read?, hfirst, htake, hdrop, hopen]
  simp [hend, hinner, hstart, hline]

theorem read_list {name : Text} (hname : name.IsFunctionName) {arguments : List Text}
    (h : AreArguments arguments) : read (callText name arguments) =
      .ok ⟨name, argumentList arguments, callText name arguments⟩ := by
  have hread := read_append hname h.newline_not_mem
  rwa [h.trim_eq] at hread

theorem pair_list {a b : Text} (h : AreArguments [a, b]) (name expression : Text) :
    pair ⟨name, argumentList [a, b], expression⟩ = .ok (a, b) := by
  have hne : ¬ b.isEmpty = true := by simpa using h.last_ne_nil b rfl
  simp only [pair, h.arguments_eq, if_neg hne]

theorem pair_of_length_ne {call : Call} (h : call.arguments.length ≠ 2) : call.pair =
    .error (.hinted (.argumentCount call.name 2 (call.arguments.filter (! ·.isEmpty)).length)
      ("Call it as " ++ call.name ++ "(a, b)")) := by
  rw [pair]
  split
  · rename_i a b hpair
    rw [hpair] at h
    exact absurd rfl h
  · rfl

theorem parenthesized?_of_read {expression : Text} {call : Call}
    (h : read expression = .ok call) :
    expression.parenthesized?.map Text.trim = some call.inner := by
  obtain ⟨left, gap, rest, inside, hexpression, hend, hinner, hleft, hgap, hname⟩ :=
    exists_of_read h
  have hfront : '(' ∉ left ++ call.name ++ gap := by
    simp only [List.mem_append, not_or]
    exact ⟨⟨fun hm => absurd (List.all_eq_true.1 hleft _ hm) (by decide),
      fun hm => absurd (List.all_eq_true.1 hname _ hm) (by decide)⟩,
      fun hm => absurd (List.all_eq_true.1 hgap _ hm) (by decide)⟩
  have hopen : expression.cut? "(" = some (left ++ call.name ++ gap, rest) := by
    rw [hexpression]
    exact (Text.cut?_append_front hfront _).trans (by simp [Text.cut?])
  obtain ⟨right, hrest, hright⟩ := Text.exists_eq_trimEnd rest
  have hclose : Text.cutLast? ')' rest = some (inside, right) := by
    rw [hrest, hend, List.append_assoc]
    exact Text.cutLast?_append inside fun hm =>
      absurd (List.all_eq_true.1 hright _ hm) (by decide)
  simp only [Text.parenthesized?, hopen, Option.bind_some, hclose, Option.map_some, hinner]

/-- A call is read as it is written, whatever its arguments hold in quotes and brackets, both as a
list of arguments and as one argument. -/
theorem read_callText {name : Text} (hname : name.IsFunctionName) :
    (∀ arguments, AreArguments arguments → ∃ call : Call,
      read (callText name arguments) = .ok call ∧ call.name = name ∧
        call.arguments = arguments ∧
        (∀ a b, arguments = [a, b] → call.pair = .ok (a, b)) ∧
        (arguments.length ≠ 2 → call.pair =
          .error (.hinted (.argumentCount name 2 (arguments.filter (! ·.isEmpty)).length)
            ("Call it as " ++ name ++ "(a, b)")))) ∧
      ∀ a, '\n' ∉ a → ∃ call : Call,
        read (callText name [a]) = .ok call ∧ call.name = name ∧ call.inner = a.trim ∧
          (callText name [a]).parenthesized?.map Text.trim = some a.trim := by
  constructor
  · intro arguments h
    have harguments := h.arguments_eq name (callText name arguments)
    refine ⟨_, read_list hname h, rfl, harguments, ?_, fun hlength => ?_⟩
    · rintro a b rfl
      exact pair_list h _ _
    · have hpair := pair_of_length_ne (harguments ▸ hlength)
      rwa [harguments] at hpair
  · intro a ha
    rw [callText, argumentList_singleton]
    have hread := read_append hname ha
    exact ⟨_, hread, rfl, rfl, parenthesized?_of_read hread⟩

theorem read_callText_nested :
    let name : Text := "f_2"
    let arguments : List Text := ["'a, (b'", "", "g(1, [2, 3])"]
    name.IsFunctionName ∧ AreArguments arguments ∧
      (∃ call : Call, read "f_2('a, (b', , g(1, [2, 3]))" = .ok call ∧
        call.arguments = arguments ∧
        call.pair = .error (.hinted (.argumentCount "f_2" 2 2) "Call it as f_2(a, b)")) ∧
      ∃ call : Call, read "f_2( 'a)', (b )" = .ok call ∧ call.inner = "'a)', (b".toList := by
  intro name arguments
  have hname : name.IsFunctionName := ⟨⟨_, rfl, rfl⟩, by decide⟩
  have harguments : AreArguments arguments :=
    ⟨by decide, by decide, by decide, by decide, by decide, by decide⟩
  obtain ⟨hlist, hone⟩ := read_callText hname
  refine ⟨hname, harguments, ?_, ?_⟩
  · obtain ⟨call, hread, -, hcall, -, hpair⟩ := hlist arguments harguments
    exact ⟨call, hread, hcall, hpair (by decide)⟩
  · obtain ⟨call, hread, -, hinner, -⟩ := hone " 'a)', (b " (by decide)
    exact ⟨call, hread, hinner⟩

end Call

end BlockConfig
