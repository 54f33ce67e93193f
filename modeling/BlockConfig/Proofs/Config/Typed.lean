import BlockConfig.Proofs.Config.ErrorLine
import BlockConfig.Proofs.Reread.Array

set_option autoImplicit false

namespace BlockConfig

namespace IntegerType

def Has : IntegerType → Int → Prop
  | .int32, n => -2 ^ 31 ≤ n ∧ n < 2 ^ 31
  | .int64, n => -2 ^ 63 ≤ n ∧ n < 2 ^ 63
  | .uint16, n => 0 ≤ n ∧ n < 2 ^ 16
  | .uint32, n => 0 ≤ n ∧ n < 2 ^ 32
  | .uint64, n => 0 ≤ n ∧ n < 2 ^ 64

theorem has_iff (type : IntegerType) (n : Int) :
    type.Has n ↔ type.least ≤ n ∧ n ≤ type.greatest := by
  cases type with
  | int32 =>
    rw [Has, least, greatest, Int32.toInt_minValue, Int32.toInt_maxValue]
    omega
  | int64 =>
    rw [Has, least, greatest, Int64.toInt_minValue, Int64.toInt_maxValue]
    omega
  | uint16 | uint32 | uint64 =>
    simp only [Has, least, greatest, UInt16.size, UInt32.size, UInt64.size]
    omega

instance (type : IntegerType) (n : Int) : Decidable (type.Has n) :=
  decidable_of_iff _ (type.has_iff n).symm

def outOfRange (type : IntegerType) (n : Int64) : Error :=
  .hinted (.typeMismatch ("Number " ++ .ofInt64 n ++ " out of range for " ++ type.name))
    ("Use a number that fits in " ++ type.name)

end IntegerType

/-- The types of whole numbers: integers, lists of integers, lists of such lists and so on. -/
inductive WholeType where
  | integer (type : IntegerType)
  | list (item : WholeType)

namespace WholeType

def target : WholeType → Target
  | integer type => .integer type
  | list item => .list item.target

def Reads : WholeType → Value → Converted → Prop
  | integer type, v, r =>
    ∃ n : Int64, v = .scalar (.integer n) ∧ type.Has n.toInt ∧ r = .integer n.toInt
  | list item, v, r => ∃ items results, v = .array items ∧ r = .list results ∧
    List.Forall₂ (fun s result => item.Reads (.scalar s) result) items results

/-- The error of a value that a type does not have. That of an array is the error of its first
element that the type of the items does not have. -/
def Refuses : WholeType → Value → Error → Prop
  | integer type, v, e =>
    (∃ n : Int64, v = .scalar (.integer n) ∧ ¬ type.Has n.toInt ∧ e = type.outOfRange n) ∨
      (∀ n : Int64, v ≠ .scalar (.integer n)) ∧
        e = v.mismatch "integer" "Use a whole number in your config"
  | list item, v, e =>
    (∃ front s back, v = .array (front ++ s :: back) ∧
      (∀ t ∈ front, ∃ result, item.Reads (.scalar t) result) ∧ item.Refuses (.scalar s) e) ∨
      (∀ items, v ≠ .array items) ∧ e = v.mismatch "array" "Use an array [...] in your config"

end WholeType

namespace Target

/-- The first element that cannot be converted decides the error of all. -/
theorem mapM_error_iff {α β : Type} {f : α → Except Error β} {xs : List α} {e : Error} :
    xs.mapM f = .error e ↔
      ∃ front x back, xs = front ++ x :: back ∧ (∀ y ∈ front, ∃ b, f y = .ok b) ∧ f x = .error e := by
  induction xs with
  | nil => simp [pure, Except.pure]
  | cons x rest ih =>
    have hcons : (x :: rest).mapM f = (f x).bind fun b => (rest.mapM f).map (b :: ·) := by
      rw [List.mapM_cons]
      cases f x with
      | error found => rfl
      | ok b => cases rest.mapM f <;> rfl
    rw [hcons]
    constructor
    · intro h
      cases hx : f x with
      | error found =>
        rw [hx] at h
        cases h
        exact ⟨[], x, rest, rfl, by simp, hx⟩
      | ok b =>
        rw [hx] at h
        obtain ⟨front, y, back, rfl, hfront, hy⟩ := ih.1 (error_of_map h)
        exact ⟨x :: front, y, back, rfl, List.forall_mem_cons.2 ⟨⟨b, hx⟩, hfront⟩, hy⟩
    · rintro ⟨front, y, back, hsplit, hfront, hy⟩
      cases front with
      | nil =>
        cases hsplit
        rw [hy]
        rfl
      | cons first more =>
        cases hsplit
        obtain ⟨⟨b, hb⟩, hmore⟩ := List.forall_mem_cons.1 hfront
        rw [hb, Except.bind, ih.2 ⟨more, y, back, rfl, hmore, hy⟩]
        rfl

theorem convert_integer_of_has {type : IntegerType} {n : Int64} (h : type.Has n.toInt) :
    convert (.integer type) (.scalar (.integer n)) = .ok (.integer n.toInt) := by
  have hread : toInteger type (.scalar (.integer n)) = .ok n.toInt :=
    if_pos ((type.has_iff n.toInt).1 h)
  rw [convert, hread]
  rfl

theorem convert_integer_of_not_has {type : IntegerType} {n : Int64} (h : ¬ type.Has n.toInt) :
    convert (.integer type) (.scalar (.integer n)) = .error (type.outOfRange n) := by
  have hread : toInteger type (.scalar (.integer n)) = .error (type.outOfRange n) :=
    if_neg (mt (type.has_iff n.toInt).2 h)
  rw [convert, hread]
  rfl

theorem convert_integer_of_ne {type : IntegerType} {v : Value}
    (h : ∀ n : Int64, v ≠ .scalar (.integer n)) :
    convert (.integer type) v =
      .error (v.mismatch "integer" "Use a whole number in your config") := by
  have hnone : v.scalar?.bind Scalar.integer? = none := by
    match v with
    | .array _ => rfl
    | .scalar (.string _) | .scalar (.float _) | .scalar (.boolean _) | .scalar (.expression _) =>
      rfl
    | .scalar (.integer n) => exact absurd rfl (h n)
  rw [convert, toInteger, hnone]
  rfl

theorem convert_list_of_ne {item : Target} {v : Value} (h : ∀ items, v ≠ .array items) :
    convert (.list item) v = .error (v.mismatch "array" "Use an array [...] in your config") := by
  cases v with
  | scalar s => rfl
  | array items => exact absurd rfl (h items)

end Target

namespace WholeType

theorem convert_of_reads {type : WholeType} {v : Value} {r : Converted} (h : type.Reads v r) :
    type.target.convert v = .ok r := by
  induction type generalizing v r with
  | integer type =>
    obtain ⟨n, rfl, hn, rfl⟩ := h
    exact Target.convert_integer_of_has hn
  | list item ih =>
    obtain ⟨items, results, rfl, rfl, hitems⟩ := h
    have hmap : (items.mapM fun s => item.target.convert (.scalar s)) = .ok results :=
      mapM_ok_iff.2 (hitems.imp fun _ _ hs => ih hs)
    rw [target, Target.convert, hmap]
    rfl

theorem convert_of_refuses {type : WholeType} {v : Value} {e : Error} (h : type.Refuses v e) :
    type.target.convert v = .error e := by
  induction type generalizing v e with
  | integer type =>
    obtain ⟨n, rfl, hn, rfl⟩ | ⟨hne, rfl⟩ := h
    · exact Target.convert_integer_of_not_has hn
    · exact Target.convert_integer_of_ne hne
  | list item ih =>
    obtain ⟨front, s, back, rfl, hfront, hs⟩ | ⟨hne, rfl⟩ := h
    · have hmap : ((front ++ s :: back).mapM fun t => item.target.convert (.scalar t)) = .error e :=
        Target.mapM_error_iff.2 ⟨front, s, back, rfl, fun t ht =>
          (hfront t ht).imp fun _ hread => convert_of_reads hread, ih hs⟩
      rw [target, Target.convert, hmap]
      rfl
    · exact Target.convert_list_of_ne hne

theorem reads_or_refuses (type : WholeType) (v : Value) :
    (∃ r, type.Reads v r) ∨ ∃ e, type.Refuses v e := by
  induction type generalizing v with
  | integer type =>
    by_cases hv : ∃ n : Int64, v = .scalar (.integer n)
    · obtain ⟨n, rfl⟩ := hv
      by_cases hn : type.Has n.toInt
      · exact .inl ⟨_, n, rfl, hn, rfl⟩
      · exact .inr ⟨_, .inl ⟨n, rfl, hn, rfl⟩⟩
    · exact .inr ⟨_, .inr ⟨fun n h => hv ⟨n, h⟩, rfl⟩⟩
  | list item ih =>
    cases v with
    | scalar s => exact .inr ⟨_, .inr ⟨nofun, rfl⟩⟩
    | array items =>
      -- the elements up to the first that is refused, one by one
      have hsplit : (∃ results,
            List.Forall₂ (fun s result => item.Reads (.scalar s) result) items results) ∨
          ∃ front s back e, items = front ++ s :: back ∧
            (∀ t ∈ front, ∃ result, item.Reads (.scalar t) result) ∧ item.Refuses (.scalar s) e := by
        induction items with
        | nil => exact .inl ⟨[], .nil⟩
        | cons s rest ihrest =>
          obtain ⟨result, hs⟩ | ⟨e, hs⟩ := ih (.scalar s)
          · obtain ⟨results, hrest⟩ | ⟨front, t, back, e, rfl, hfront, ht⟩ := ihrest
            · exact .inl ⟨result :: results, .cons hs hrest⟩
            · exact .inr ⟨s :: front, t, back, e, rfl,
                List.forall_mem_cons.2 ⟨⟨result, hs⟩, hfront⟩, ht⟩
          · exact .inr ⟨[], s, rest, e, rfl, by simp, hs⟩
      obtain ⟨results, hresults⟩ | ⟨front, s, back, e, rfl, hfront, hs⟩ := hsplit
      · exact .inl ⟨_, items, results, rfl, rfl, hresults⟩
      · exact .inr ⟨e, .inl ⟨front, s, back, rfl, hfront, hs⟩⟩

theorem refuses_unique {type : WholeType} {v : Value} {e other : Error} (h : type.Refuses v e)
    (hother : type.Refuses v other) : other = e :=
  Except.error.inj ((convert_of_refuses hother).symm.trans (convert_of_refuses h))

theorem not_reads_of_refuses {type : WholeType} {v : Value} {e : Error} (h : type.Refuses v e) :
    ¬ ∃ r, type.Reads v r := by
  rintro ⟨r, hr⟩
  have hboth := (convert_of_reads hr).symm.trans (convert_of_refuses h)
  cases hboth

theorem convert_eq_ok_iff (type : WholeType) (v : Value) (r : Converted) :
    type.target.convert v = .ok r ↔ type.Reads v r := by
  refine ⟨fun h => ?_, convert_of_reads⟩
  obtain ⟨found, hfound⟩ | ⟨e, he⟩ := type.reads_or_refuses v
  · rw [convert_of_reads hfound, Except.ok.injEq] at h
    exact h ▸ hfound
  · rw [convert_of_refuses he] at h
    cases h

end WholeType

namespace Config

variable (c : Config) (target : Target) {path : Text}

theorem get_of_none (h : c.lookup path = none) : c.get target path = .error (notFound path) := by
  rw [get, read, h]

theorem get_of_block {b : Block} (h : c.lookup path = some (.block b)) :
    c.get target path = .error ⟨.typeMismatch ("Path '" ++ path ++ "' is a block, not an attribute"),
      (c.place path).line, some "Add an attribute name after the block path"⟩ := by
  rw [get, read, h]

theorem get_of_attribute {a : Attribute} (h : c.lookup path = some (.attribute a)) :
    c.get target path = (target.convert a.value).mapError (c.locateError path) := by
  rw [get, read, h]

theorem locateError_eq {e : Error} {message : Text} (hline : e.line = 0)
    (hcause : e.cause = .typeMismatch message) :
    c.locateError path e =
      ⟨.typeMismatch (if (c.place path).line = 0 then message
        else message ++ "\n  → " ++ (c.place path).text), (c.place path).line, e.hint⟩ := by
  obtain ⟨cause, line, hint⟩ := e
  cases hline
  cases hcause
  rw [locateError]
  cases (c.place path).line <;> rfl

theorem exists_get_of_convert_error {a : Attribute} {e : Error}
    (h : c.lookup path = some (.attribute a)) (he : target.convert a.value = .error e) :
    ∃ message, e.cause = .typeMismatch message ∧ c.get target path =
      .error ⟨.typeMismatch (if (c.place path).line = 0 then message
        else message ++ "\n  → " ++ (c.place path).text), (c.place path).line, e.hint⟩ := by
  have hmismatch := Target.isMismatch_of_convert he
  obtain ⟨message, hcause⟩ := hmismatch.cause
  refine ⟨message, hcause, ?_⟩
  rw [get_of_convert_error h he, c.locateError_eq hmismatch.unplaced hcause]

theorem get_eq_ok_iff (r : Converted) :
    c.get target path = .ok r ↔
      ∃ a, c.lookup path = some (.attribute a) ∧ target.convert a.value = .ok r := by
  cases h : c.lookup path with
  | none => simp [c.get_of_none target h]
  | some entry =>
    rcases entry with a | b
    · rw [c.get_of_attribute target h]
      cases hconvert : target.convert a.value <;> simp [hconvert, Except.mapError]
    · simp [c.get_of_block target h]

theorem get_notFound_iff :
    (∃ e p, c.get target path = .error e ∧ e.cause = .pathNotFound p) ↔ c.lookup path = none := by
  refine ⟨fun ⟨e, p, he, hp⟩ => ?_, fun h => ⟨_, path, c.get_of_none target h, rfl⟩⟩
  cases h : c.lookup path with
  | none => rfl
  | some entry =>
    rcases entry with a | b
    · cases hconvert : target.convert a.value with
      | ok r =>
        rw [(c.get_eq_ok_iff target r).2 ⟨a, h, hconvert⟩] at he
        cases he
      | error found =>
        obtain ⟨message, -, hget⟩ := c.exists_get_of_convert_error target h hconvert
        rw [hget] at he
        cases he
        cases hp
    · rw [c.get_of_block target h] at he
      cases he
      cases hp

theorem getOptional_of_none (h : c.lookup path = none) : c.getOptional target path = .ok none := by
  rw [getOptional, c.get_of_none target h]
  rfl

theorem getOptional_of_ne_none (h : c.lookup path ≠ none) :
    c.getOptional target path = (c.get target path).map some := by
  rw [getOptional]
  cases hget : c.get target path with
  | ok r => rfl
  | error e =>
    have hcause : ∀ p, e.cause ≠ .pathNotFound p := fun p hp =>
      h ((c.get_notFound_iff target).1 ⟨e, p, hget, hp⟩)
    simp only [Except.map]

theorem getOptional_eq_none_iff : c.getOptional target path = .ok none ↔ c.lookup path = none := by
  refine ⟨fun h => ?_, c.getOptional_of_none target⟩
  by_contra hne
  rw [c.getOptional_of_ne_none target hne] at h
  cases hget : c.get target path with
  | ok r =>
    rw [hget] at h
    cases h
  | error e =>
    rw [hget] at h
    cases h

/-- Access to a whole number or to lists of them. A path that leads nowhere is the one thing that is
not found, and the one where optional access finds none; an attribute gives its own numbers, in
order, and only where the type has all of them; anything else is an error about the type, the first
element that the type does not have deciding what it says; and a default stands in for every error. -/
theorem get_whole (c : Config) (type : WholeType) (path : Text) :
    (c.lookup path = none → c.get type.target path = .error (notFound path)) ∧
    ((∃ e p, c.get type.target path = .error e ∧ e.cause = .pathNotFound p) ↔
      c.lookup path = none) ∧
    (c.getOptional type.target path = .ok none ↔ c.lookup path = none) ∧
    (c.lookup path ≠ none →
      c.getOptional type.target path = (c.get type.target path).map some) ∧
    (∀ r, c.get type.target path = .ok r ↔
      ∃ a, c.lookup path = some (.attribute a) ∧ type.Reads a.value r) ∧
    (∀ b, c.lookup path = some (.block b) → c.get type.target path =
      .error ⟨.typeMismatch ("Path '" ++ path ++ "' is a block, not an attribute"),
        (c.place path).line, some "Add an attribute name after the block path"⟩) ∧
    (∀ a, c.lookup path = some (.attribute a) → (¬ ∃ r, type.Reads a.value r) →
      ∃ e message, type.Refuses a.value e ∧ (∀ other, type.Refuses a.value other → other = e) ∧
        e.cause = .typeMismatch message ∧ c.get type.target path =
          .error ⟨.typeMismatch (if (c.place path).line = 0 then message
            else message ++ "\n  → " ++ (c.place path).text), (c.place path).line, e.hint⟩) ∧
    ∀ default, (∀ r, c.get type.target path = .ok r → c.getOr type.target path default = r) ∧
      ((¬ ∃ r, c.get type.target path = .ok r) → c.getOr type.target path default = default) := by
  refine ⟨c.get_of_none type.target, c.get_notFound_iff type.target,
    c.getOptional_eq_none_iff type.target, c.getOptional_of_ne_none type.target, fun r => ?_,
    fun b hb => c.get_of_block type.target hb, fun a ha hreads => ?_,
    fun default => ⟨fun r hr => ?_, fun hnone => ?_⟩⟩
  · simp only [c.get_eq_ok_iff, type.convert_eq_ok_iff]
  · obtain ⟨e, he⟩ := (type.reads_or_refuses a.value).resolve_left hreads
    obtain ⟨message, hcause, hget⟩ :=
      c.exists_get_of_convert_error type.target ha (WholeType.convert_of_refuses he)
    exact ⟨e, message, he, fun other hother => WholeType.refuses_unique he hother, hcause, hget⟩
  · rw [getOr, hr]
  · cases hget : c.get type.target path with
    | ok r => exact absurd ⟨r, hget⟩ hnone
    | error e => rw [getOr, hget]

/-- A list of ports in which the second is none: as 16-bit integers the first is in the way already,
as 64-bit integers it is the second; an empty list is one of lists as well. -/
theorem get_whole_ports :
    let source : Text := "ports = [70000, 'a']\nopen = []"
    let ports : Value := .array [.integer 70000, .string "a"]
    let d : Document :=
      ⟨[("ports", ⟨"ports", .array, ports⟩), ("open", ⟨"open", .array, .array []⟩)], []⟩
    let c : Config := ⟨d, source⟩
    let list (type : IntegerType) : WholeType := .list (.integer type)
    Config.ofSource source = .ok c ∧
      c.get (list .uint16).target "ports" = .error ⟨.typeMismatch
        "Number 70000 out of range for u16\n  → ports = [70000, 'a']", 1,
        some "Use a number that fits in u16"⟩ ∧
      c.get (list .int64).target "ports" = .error ⟨.typeMismatch
        "Expected integer, got string 'a'\n  → ports = [70000, 'a']", 1,
        some "Use a whole number in your config"⟩ ∧
      c.get (WholeType.list (list .int64)).target "open" = .ok (.list []) ∧
      c.getOptional (list .int64).target "port" = .ok none := by
  intro source ports d c list
  have hports : c.lookup "ports" = some (.attribute ⟨"ports", .array, ports⟩) := rfl
  have hempty : c.lookup "open" = some (.attribute ⟨"open", .array, .array []⟩) := rfl
  have hsmall : (list .uint16).Refuses ports (IntegerType.outOfRange .uint16 70000) :=
    .inl ⟨[], .integer 70000, [.string "a"], rfl, by simp, .inl ⟨70000, rfl, by decide, rfl⟩⟩
  have hlarge : (list .int64).Refuses ports (Value.mismatch (.scalar (.string "a")) "integer"
      "Use a whole number in your config") :=
    .inl ⟨[.integer 70000], .string "a", [], rfl, by
      simpa using ⟨_, 70000, rfl, by decide, rfl⟩, .inr ⟨nofun, rfl⟩⟩
  refine ⟨rfl, ?_, ?_, ?_, ?_⟩
  · obtain ⟨-, -, -, -, -, -, herror, -⟩ := c.get_whole (list .uint16) "ports"
    obtain ⟨e, message, -, hunique, hcause, hget⟩ :=
      herror _ hports (WholeType.not_reads_of_refuses hsmall)
    rw [hget]
    cases hunique _ hsmall
    cases hcause
    rfl
  · obtain ⟨-, -, -, -, -, -, herror, -⟩ := c.get_whole (list .int64) "ports"
    obtain ⟨e, message, -, hunique, hcause, hget⟩ :=
      herror _ hports (WholeType.not_reads_of_refuses hlarge)
    rw [hget]
    cases hunique _ hlarge
    cases hcause
    rfl
  · obtain ⟨-, -, -, -, hok, -⟩ := c.get_whole (.list (list .int64)) "open"
    exact (hok _).2 ⟨_, hempty, [], [], rfl, rfl, .nil⟩
  · obtain ⟨-, -, hnone, -⟩ := c.get_whole (list .int64) "port"
    exact hnone.2 rfl

end Config

end BlockConfig
