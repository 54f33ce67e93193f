import BlockConfig.Proofs.Export
import BlockConfig.Proofs.Number.Nearest
import BlockConfig.Proofs.Number.Numeral
import BlockConfig.Reread

set_option autoImplicit false

namespace BlockConfig

/-- What a number is in a plain export: an integer itself; a finite float the double nearest to a
numeral that the float is nearest to; and any other float null. -/
inductive NumberJson : Scalar → Json → Prop
  | integer (n : Int64) : NumberJson (.integer n) (.integer n)
  | finite (negative : Bool) {m : Magnitude .single} {y : Magnitude .double} (d : Decimal)
      (hm : m.Covers d.val) (hy : y.Covers d.val) :
      NumberJson (.float (.finite negative m)) (.double (.finite negative y))
  | infinite (negative : Bool) : NumberJson (.float (.infinite negative)) .null
  | nan : NumberJson (.float .nan) .null

namespace Binary

theorem exists_ofRatio_double (negative : Bool) {r : Ratio} (hden : 0 < r.den)
    (h : r.val ≤ 2 ^ (128 : Int)) : ∃ y : Magnitude .double, y.Covers r.val ∧
      ofRatio .double negative r = .finite negative y := by
  have hlt : r.val < 2 ^ (971 + (53 - 1) : Int) :=
    h.trans_lt (zpow_lt_zpow_right₀ one_lt_two (by decide))
  obtain ⟨y, hy⟩ := Magnitude.exists_round? (f := .double) (by decide) (by decide) hden hlt
  exact ⟨y, Magnitude.covers_of_round? (by decide) hden hy, by rw [ofRatio, hy]⟩

theorem exists_convertText_double (negative : Bool) (m : Magnitude .single) :
    ∃ (d : Decimal) (y : Magnitude .double), m.Covers d.val ∧ y.Covers d.val ∧
      (Binary.finite negative m).convertText .double = .finite negative y := by
  by_cases hs : m.significand = 0
  · have hzero : (⟨0, 0⟩ : Decimal).val = 0 := by simp [Decimal.val]
    have hm : m.Covers 0 := by
      have hval : m.val = 0 := by simp [Magnitude.val, hs]
      exact hval ▸ Magnitude.covers_val
    have hratio : (Ratio.ofNat 0).val = 0 := by rw [Ratio.val_ofNat, Nat.cast_zero]
    obtain ⟨y, hy, hround⟩ := exists_ofRatio_double negative (r := .ofNat 0) Nat.one_pos
      (hratio.trans_le (two_zpow_pos 128).le)
    rw [hratio] at hy
    refine ⟨⟨0, 0⟩, y, hzero ▸ hm, hzero ▸ hy, ?_⟩
    rw [convertText, if_pos hs, hround]
  · have hpos := Nat.pos_of_ne_zero hs
    have hcovers := m.covers_shortest hpos .up
    have hle : (m.shortest .up).ratio.val ≤ 2 ^ (128 : Int) := by
      rw [Decimal.val_ratio]
      exact hcovers.2.1.trans m.high_le_single
    obtain ⟨y, hy, hround⟩ := exists_ofRatio_double negative (Decimal.den_ratio_pos _) hle
    rw [Decimal.val_ratio] at hy
    refine ⟨m.shortest .up, y, hcovers, hy, ?_⟩
    rw [convertText, if_neg hs, ofDecimal_eq_ofRatio .double hpos hcovers, hround]

end Binary

namespace Scalar

theorem numberJson_plainJson {s : Scalar} (h : s.kind = .number) : NumberJson s s.plainJson := by
  cases s with
  | string t | boolean b | expression t => cases h
  | integer n => exact .integer n
  | float x =>
    cases x with
    | nan => exact .nan
    | infinite negative => exact .infinite negative
    | finite negative m =>
      obtain ⟨d, y, hm, hy, hconvert⟩ := Binary.exists_convertText_double negative m
      have hplain : plainJson (.float (.finite negative m)) = .double (.finite negative y) := by
        rw [plainJson, hconvert]
        rfl
      rw [hplain]
      exact .finite negative d hm hy

def IsNotFinite (s : Scalar) : Prop := ∃ x : Single, s = .float x ∧ x.isFinite = false

theorem plainJson_eq_null_iff (s : Scalar) : s.plainJson = .null ↔ s.IsNotFinite := by
  cases s with
  | string t | boolean b | expression t | integer n => simp [plainJson, IsNotFinite]
  | float x =>
    cases x with
    | nan => exact iff_of_true rfl ⟨_, rfl, rfl⟩
    | infinite negative => exact iff_of_true rfl ⟨_, rfl, rfl⟩
    | finite negative m =>
      obtain ⟨d, y, -, -, hconvert⟩ := Binary.exists_convertText_double negative m
      refine iff_of_false ?_ ?_
      · rw [plainJson, hconvert]
        nofun
      · rintro ⟨x, hx, hfinite⟩
        cases hx
        cases hfinite

end Scalar

namespace Json

/-- A value is the whole or stands in it at any depth. -/
inductive Within (value : Json) : Json → Prop
  | whole : Within value value
  | item {items : List Json} {inner : Json} (h : inner ∈ items) (hinner : Within value inner) :
      Within value (.array items)
  | entry {entries : List (Text × Json)} {e : Text × Json} (h : e ∈ entries)
      (hinner : Within value e.2) : Within value (.object entries)

theorem within_null_array_iff {items : List Json} :
    Within .null (.array items) ↔ ∃ inner ∈ items, Within .null inner :=
  ⟨fun h => by cases h with | item h hinner => exact ⟨_, h, hinner⟩,
    fun ⟨_, h, hinner⟩ => .item h hinner⟩

theorem within_null_object_iff {entries : List (Text × Json)} :
    Within .null (.object entries) ↔ ∃ e ∈ entries, Within .null e.2 :=
  ⟨fun h => by cases h with | entry h hinner => exact ⟨_, h, hinner⟩,
    fun ⟨_, h, hinner⟩ => .entry h hinner⟩

end Json

open Json

theorem within_null_scalar_iff (s : Scalar) : Within .null s.plainJson ↔ s.IsNotFinite := by
  rw [← s.plainJson_eq_null_iff]
  refine ⟨fun h => ?_, fun h => h ▸ .whole⟩
  obtain ⟨hitems, hentries⟩ : (∀ items, s.plainJson ≠ .array items) ∧
      ∀ entries, s.plainJson ≠ .object entries := by
    cases s with
    | string t | boolean b | expression t | integer n => exact ⟨nofun, nofun⟩
    | float x =>
      rw [Scalar.plainJson, ofDouble]
      split <;> exact ⟨nofun, nofun⟩
  generalize s.plainJson = value at h hitems hentries
  cases h with
  | whole => rfl
  | item => exact absurd rfl (hitems _)
  | entry => exact absurd rfl (hentries _)

theorem within_null_value_iff (v : Value) :
    Within .null v.plainJson ↔ ∃ s ∈ v.scalars, s.IsNotFinite := by
  cases v with
  | scalar s => simp [Value.plainJson, Value.scalars, within_null_scalar_iff]
  | array items =>
    rw [Value.plainJson, within_null_array_iff, Value.scalars]
    simp [within_null_scalar_iff]

def Attribute.HoldsNotFinite (a : Attribute) : Prop := ∃ s ∈ a.value.scalars, s.IsNotFinite

theorem within_null_attributes_iff (t : Table Attribute) :
    Within .null (plainAttributes t) ↔ ∃ a ∈ t.map Prod.snd, a.HoldsNotFinite := by
  rw [plainAttributes, within_null_object_iff]
  constructor
  · rintro ⟨entry, hentry, hnull⟩
    obtain ⟨e, he, rfl⟩ := List.mem_map.1 hentry
    exact ⟨e.2, List.mem_map_of_mem he, (within_null_value_iff _).1 hnull⟩
  · rintro ⟨a, ha, hnull⟩
    obtain ⟨e, he, rfl⟩ := List.mem_map.1 ha
    exact ⟨_, List.mem_map_of_mem he, (within_null_value_iff _).2 hnull⟩

theorem within_null_level_iff {attributes : Table Attribute} {entries : List (Text × Json)} :
    Within .null (.object [("attributes", plainAttributes attributes),
        ("blocks", .object entries)]) ↔
      (∃ a ∈ attributes.map Prod.snd, a.HoldsNotFinite) ∨ ∃ e ∈ entries, Within .null e.2 := by
  rw [within_null_object_iff]
  simp only [List.mem_cons, List.not_mem_nil, or_false, exists_eq_or_imp, exists_eq_left]
  rw [within_null_attributes_iff, within_null_object_iff]

mutual

theorem within_null_block_iff (b : Block) :
    Within .null b.plainJson ↔ ∃ a ∈ b.allAttributes, a.HoldsNotFinite := by
  obtain ⟨name, attributes, blocks⟩ := b
  rw [Block.plainJson, within_null_level_iff, exists_within_null_blocks_iff blocks,
    Block.allAttributes]
  simp only [List.mem_append, or_and_right, exists_or]

theorem exists_within_null_blocks_iff (blocks : List (Text × Block)) :
    (∃ e ∈ plainBlocks blocks, Within .null e.2) ↔
      ∃ a ∈ attributesOfBlocks blocks, a.HoldsNotFinite := by
  match blocks with
  | [] => simp [plainBlocks, attributesOfBlocks]
  | (_, b) :: rest =>
    have hblock := within_null_block_iff b
    have hrest := exists_within_null_blocks_iff rest
    simp only [plainBlocks, attributesOfBlocks, List.mem_cons, List.mem_append, or_and_right,
      exists_or, exists_eq_left, hblock, hrest]

end

theorem within_null_document_iff (d : Document) :
    Within .null d.plainJson ↔ ∃ a ∈ d.allAttributes, a.HoldsNotFinite := by
  rw [Document.plainJson, within_null_level_iff, exists_within_null_blocks_iff,
    Document.allAttributes]
  simp only [List.mem_append, or_and_right, exists_or]

open ExportForm in
theorem at?_plainJson {d : Document} (h : d.WellFormed) {names : List Text} {inner : Document}
    (hinner : d.inside? names = some inner) {name : Text} {a : Attribute}
    (ha : Table.get? inner.attributes name = some a) :
    d.plainJson.at? (blockKeys names ++ [attributesKey, name]) = some a.value.plainJson := by
  have hat := at?_attributes .plain h hinner [name]
  rw [at?, get?_object_map, ha] at hat
  exact hat

open ExportForm in
/-- In the plain export of a document every number, at any depth, stands where it does in the
document: an integer as itself, a finite float as the double nearest to its numeral. Null stands for
the other floats, and is in the export only if the document holds one. -/
theorem plainJson_numbers {source : Text} {d : Document} (hd : Document.ofSource source = .ok d) :
    (∀ (names : List Text) (inner : Document) (name : Text) (a : Attribute),
      d.inside? names = some inner → Table.get? inner.attributes name = some a →
      (∀ s, a.value = .scalar s → s.kind = .number → ∃ value,
        d.plainJson.at? (blockKeys names ++ [attributesKey, name]) = some value ∧
          NumberJson s value) ∧
      ∀ items, a.value = .array items → ∃ values,
        d.plainJson.at? (blockKeys names ++ [attributesKey, name]) = some (.array values) ∧
          List.Forall₂ (fun s value => s.kind = .number → NumberJson s value) items values) ∧
    (Within .null d.plainJson ↔
      ∃ a ∈ d.allAttributes, ∃ s ∈ a.value.scalars, s.IsNotFinite) := by
  have hwell : d.WellFormed := wellFormed_of_ofLines hd
  refine ⟨fun names inner name a hinner ha => ⟨fun s hs hnumber => ?_, fun items hitems => ?_⟩,
    within_null_document_iff d⟩
  · refine ⟨s.plainJson, ?_, Scalar.numberJson_plainJson hnumber⟩
    rw [at?_plainJson hwell hinner ha, hs]
    rfl
  · refine ⟨items.map Scalar.plainJson, ?_, ?_⟩
    · rw [at?_plainJson hwell hinner ha, hitems]
      rfl
    · rw [List.forall₂_map_right_iff, List.forall₂_same]
      exact fun s _ => Scalar.numberJson_plainJson

open ExportForm in
theorem plainJson_numbers_infinite :
    let source : Text := "p \x7b\nn = 7\n\x7d\nxs = [0.5, 1e39, 2]"
    ∃ d, Document.ofSource source = .ok d ∧
      d.plainJson.at? ["blocks", "p", "attributes", "n"] = some (.integer 7) ∧
      ∃ half, d.plainJson.at? ["attributes", "xs"] = some (.array [half, .null, .integer 2]) ∧
        half ≠ .null ∧ Within .null d.plainJson := by
  intro source
  let inner : Attribute := ⟨"n", .number, .scalar (.integer 7)⟩
  let xs : Attribute := ⟨"xs", .array, .array [.float (.finite false ⟨8388608, -24, by decide⟩),
    .float (.infinite false), .integer 2]⟩
  let d : Document := ⟨[("xs", xs)], [("p", ⟨"p", [("n", inner)], []⟩)]⟩
  have hd : Document.ofSource source = .ok d := rfl
  obtain ⟨hvalues, hnull⟩ := plainJson_numbers hd
  obtain ⟨hscalar, -⟩ := hvalues ["p"] _ "n" inner rfl rfl
  obtain ⟨-, harray⟩ := hvalues [] _ "xs" xs rfl rfl
  obtain ⟨value, hvalue, hnumber⟩ := hscalar _ rfl rfl
  obtain ⟨values, hat, hitems⟩ := harray _ rfl
  refine ⟨d, hd, ?_, ?_⟩
  · cases hnumber
    exact hvalue
  · obtain ⟨half, others, hhalf, hothers, rfl⟩ := List.forall₂_cons_left_iff.1 hitems
    obtain ⟨huge, last, hhuge, hlast, rfl⟩ := List.forall₂_cons_left_iff.1 hothers
    obtain ⟨two, none, htwo, hnone, rfl⟩ := List.forall₂_cons_left_iff.1 hlast
    cases hnone
    cases hhuge rfl
    cases htwo rfl
    refine ⟨half, hat, ?_, hnull.2 ⟨xs, by simp [d, Document.allAttributes], .float (.infinite false),
      by simp [xs, Value.scalars], _, rfl, rfl⟩⟩
    cases hhalf rfl
    intro hnull
    cases hnull

/-- A numeral beyond all floats is read as an infinite one, which the export has null for. -/
theorem number_exported_as_null : ∃ d a, Document.ofSource "x = 1e39" = .ok d ∧
    Table.get? d.attributes "x" = some a ∧ a.kind = .number ∧
    d.plainJson.at? ["attributes", "x"] = some .null ∧ Within .null d.plainJson :=
  ⟨_, _, rfl, rfl, rfl, rfl, .entry List.mem_cons_self (.entry List.mem_cons_self .whole)⟩

end BlockConfig
