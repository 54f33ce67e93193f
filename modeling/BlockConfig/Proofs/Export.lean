import BlockConfig.CommandLine
import BlockConfig.Proofs.Config.Lookup

set_option autoImplicit false

/-!
The JSON of a part is a part of the JSON of the whole. Both forms of export list what a level holds
under `attributes` and `blocks`, and what the command selects by a path stands in the export of the
whole document under the names that the path leads through.
-/

namespace BlockConfig

def Json.at? : Json → List Text → Option Json
  | value, [] => some value
  | value, key :: rest => (value.get? key).bind fun inner => inner.at? rest

theorem Json.get?_object_map {α : Type} (t : Table α) (f : α → Json) (key : Text) :
    Json.get? key (.object (t.map fun e => (e.1, f e.2))) = (Table.get? t key).map f := by
  induction t with
  | nil => rfl
  | cons e rest ih =>
    obtain ⟨k, a⟩ := e
    by_cases hk : k = key
    · subst hk
      simp [Json.get?, Table.get?]
    · have hrest : Json.get? key (.object (((k, a) :: rest).map fun e => (e.1, f e.2))) =
          Json.get? key (.object (rest.map fun e => (e.1, f e.2))) := by simp [Json.get?, hk]
      rw [hrest, ih, Table.get?, if_neg hk]

theorem plainAttributes_eq {t : Table Attribute} (h : Table.Keyed Attribute.name t) :
    plainAttributes t = .object (t.map fun e => (e.1, e.2.value.plainJson)) := by
  unfold plainAttributes
  congr 1
  exact List.map_congr_left fun e he => congrArg (·, e.2.value.plainJson) (h.name_eq e he)

theorem plainBlocks_eq {t : Table Block} (h : ∀ e ∈ t, e.2.name = e.1) :
    plainBlocks t = t.map fun e => (e.1, e.2.plainJson) := by
  induction t with
  | nil => rfl
  | cons e rest ih =>
    have hname := h e (by simp)
    rw [plainBlocks, List.map_cons, ih fun other ho => h other (List.mem_cons_of_mem _ ho), hname]

theorem typedBlocks_eq (float : Single → Json) (t : Table Block) :
    typedBlocks float t = t.map fun e => (e.1, e.2.typedJson float) := by
  induction t with
  | nil => rfl
  | cons e rest ih => rw [typedBlocks, List.map_cons, ih]

/-- The two forms of export; the typed one for any JSON of floats. -/
inductive ExportForm where
  | plain
  | typed (float : Single → Json)

namespace ExportForm

def attributesKey : Text := "attributes"

def blocksKey : Text := "blocks"

def ofAttribute : ExportForm → Attribute → Json
  | plain, a => a.value.plainJson
  | typed float, a => a.typedJson float

def ofBlock : ExportForm → Block → Json
  | plain, b => b.plainJson
  | typed float, b => b.typedJson float

def ofDocument : ExportForm → Document → Json
  | plain, d => d.plainJson
  | typed float, d => d.typedJson float

def ofEntry (form : ExportForm) : Entry → Json
  | .attribute a => form.ofAttribute a
  | .block b => form.ofBlock b

variable (form : ExportForm) {d : Document}

theorem get?_attributes (h : d.WellFormed) :
    (form.ofDocument d).get? attributesKey =
      some (.object (d.attributes.map fun e => (e.1, form.ofAttribute e.2))) := by
  cases form with
  | plain =>
    have hplain := plainAttributes_eq h.attributes_keyed
    exact congrArg some hplain
  | typed float => rfl

theorem get?_blocks (h : d.WellFormed) :
    (form.ofDocument d).get? blocksKey =
      some (.object (d.blocks.map fun e => (e.1, form.ofBlock e.2))) := by
  cases form with
  | plain =>
    have hplain := plainBlocks_eq h.blocks_keyed.name_eq
    exact congrArg (fun entries => some (Json.object entries)) hplain
  | typed float =>
    have htyped := typedBlocks_eq float d.blocks
    exact congrArg (fun entries => some (Json.object entries)) htyped

def tableKeys : List Text := [attributesKey, blocksKey]

theorem get?_block (b : Block) {key : Text} (hkey : key ∈ tableKeys) :
    (form.ofBlock b).get? key = (form.ofDocument ⟨b.attributes, b.blocks⟩).get? key := by
  obtain ⟨name, attributes, blocks⟩ := b
  rcases List.mem_cons.1 hkey with rfl | hkey
  · cases form <;> rfl
  · obtain rfl := List.mem_singleton.1 hkey
    cases form <;> rfl

def blockKeys (names : List Text) : List Text := names.flatMap fun name => [blocksKey, name]

theorem at?_block (b : Block) {key : Text} (hkey : key ∈ tableKeys) (rest : List Text) :
    (form.ofBlock b).at? (key :: rest) =
      (form.ofDocument ⟨b.attributes, b.blocks⟩).at? (key :: rest) := by
  rw [Json.at?, Json.at?, get?_block form b hkey]

theorem exists_blockKeys_eq (names : List Text) {key : Text} (hkey : key ∈ tableKeys)
    (rest : List Text) :
    ∃ first others, blockKeys names ++ key :: rest = first :: others ∧ first ∈ tableKeys := by
  cases names with
  | nil => exact ⟨key, rest, rfl, hkey⟩
  | cons name more => exact ⟨blocksKey, _, rfl, by simp [tableKeys]⟩

theorem at?_blockKeys (h : d.WellFormed) {names : List Text} {inner : Document}
    (hinner : d.inside? names = some inner) {key : Text} (hkey : key ∈ tableKeys)
    (rest : List Text) :
    (form.ofDocument d).at? (blockKeys names ++ key :: rest) =
      (form.ofDocument inner).at? (key :: rest) := by
  induction names generalizing d with
  | nil =>
    cases hinner
    rfl
  | cons name more ih =>
    obtain ⟨b, hb, hmore⟩ := Option.bind_eq_some_iff.1 hinner
    obtain ⟨first, others, heq, hfirst⟩ := exists_blockKeys_eq more hkey rest
    calc (form.ofDocument d).at? (blockKeys (name :: more) ++ key :: rest)
      _ = (form.ofBlock b).at? (blockKeys more ++ key :: rest) := by
        change (form.ofDocument d).at? (blocksKey :: name :: (blockKeys more ++ key :: rest)) = _
        rw [Json.at?, get?_blocks form h, Option.bind_some, Json.at?, Json.get?_object_map, hb]
        rfl
      _ = (form.ofDocument ⟨b.attributes, b.blocks⟩).at? (blockKeys more ++ key :: rest) := by
        rw [heq, at?_block form b hfirst]
      _ = (form.ofDocument inner).at? (key :: rest) := ih (h.block hb) hmore

section Inside

variable (h : d.WellFormed) {names : List Text} {inner : Document}
  (hinner : d.inside? names = some inner)

include h hinner

theorem at?_attributes (rest : List Text) :
    (form.ofDocument d).at? (blockKeys names ++ attributesKey :: rest) =
      Json.at? (.object (inner.attributes.map fun e => (e.1, form.ofAttribute e.2))) rest := by
  rw [at?_blockKeys form h hinner (by simp [tableKeys]), Json.at?,
    get?_attributes form (h.inside? hinner), Option.bind_some]

theorem at?_blocks (rest : List Text) :
    (form.ofDocument d).at? (blockKeys names ++ blocksKey :: rest) =
      Json.at? (.object (inner.blocks.map fun e => (e.1, form.ofBlock e.2))) rest := by
  rw [at?_blockKeys form h hinner (by simp [tableKeys]), Json.at?,
    get?_blocks form (h.inside? hinner), Option.bind_some]

end Inside

def keysTo (names : List Text) : Entry → List Text
  | .attribute a => blockKeys names ++ [attributesKey, a.name]
  | .block b => blockKeys names ++ [blocksKey, b.name]

theorem at?_keysTo (h : d.WellFormed) {segments names : List Text} {entry : Entry}
    (hleads : d.Leads segments names entry) :
    (form.ofDocument d).at? (keysTo names entry) = some (form.ofEntry entry) := by
  obtain ⟨inner, hinner, hentry⟩ := hleads.found
  unfold entryOf? at hentry
  split at hentry
  · rename_i a ha
    cases hentry
    have ha : Table.get? inner.attributes a.name = some a := ha
    rw [keysTo, at?_attributes form h hinner, Json.at?, Json.get?_object_map, ha]
    rfl
  · obtain ⟨b, hb, rfl⟩ := Option.map_eq_some_iff.1 hentry
    have hb : Table.get? inner.blocks b.name = some b := hb
    rw [keysTo, at?_blocks form h hinner, Json.at?, Json.get?_object_map, hb]
    rfl

/-- The keys lead to an object with these names, each once and in this order. -/
def Lists (value : Json) (keys names : List Text) : Prop :=
  ∃ entries, value.at? keys = some (.object entries) ∧ entries.map Prod.fst = names ∧ names.Nodup

theorem lists_tables (h : d.WellFormed) {names : List Text} {inner : Document}
    (hinner : d.inside? names = some inner) :
    Lists (form.ofDocument d) (blockKeys names ++ [attributesKey])
        (Table.names inner.attributes) ∧
      Lists (form.ofDocument d) (blockKeys names ++ [blocksKey]) (Table.names inner.blocks) := by
  have hnames : ∀ {α : Type} (t : Table α) (f : α → Json),
      (t.map fun e => (e.1, f e.2)).map Prod.fst = Table.names t := fun t f => by
    rw [List.map_map]
    rfl
  have hwell := h.inside? hinner
  exact ⟨⟨_, at?_attributes form h hinner [], hnames _ _, hwell.attributes_keyed.nodup⟩,
    ⟨_, at?_blocks form h hinner [], hnames _ _, hwell.blocks_keyed.nodup⟩⟩

end ExportForm

namespace CommandOptions

def form (o : CommandOptions) : ExportForm := if o.typed then .typed widenedJson else .plain

theorem select?_of_none {o : CommandOptions} (h : o.path = none) (c : Config) :
    o.select? c = some (o.form.ofDocument c.document) := by
  unfold select? form
  rw [h]
  cases o.typed <;> rfl

theorem select?_of_some {o : CommandOptions} {path : Text} (h : o.path = some path) (c : Config) :
    o.select? c = (c.lookup path).map o.form.ofEntry := by
  unfold select? form
  rw [h]
  refine congrArg (fun f => (c.lookup path).map f) (funext fun entry => ?_)
  cases entry <;> unfold entryJson <;> cases o.typed <;> rfl

end CommandOptions

open ExportForm in
/-- Both forms of export list the attributes and the blocks of every level by their names, each once
and in the order of the document; and what the command selects by a path is the part of the whole
export that stands under the names of the blocks it leads through and of what it leads to. -/
theorem select?_eq_part {lines : List Text} {d : Document} (hd : Document.ofLines lines = .ok d) :
    (∀ (form : ExportForm) (names : List Text) (inner : Document), d.inside? names = some inner →
      Lists (form.ofDocument d) (blockKeys names ++ [attributesKey])
          (Table.names inner.attributes) ∧
        Lists (form.ofDocument d) (blockKeys names ++ [blocksKey]) (Table.names inner.blocks)) ∧
    ∀ (c : Config) (o : CommandOptions) (path : Text) (entry : Entry), c.document = d →
      o.path = some path → c.lookup path = some entry →
      (∃ segments names, segments? path = some segments ∧ d.Leads segments names entry) ∧
      ∀ segments names, segments? path = some segments → d.Leads segments names entry →
        ∃ value whole, o.select? c = some value ∧
          CommandOptions.select? { o with path := none } c = some whole ∧
          whole.at? (keysTo names entry) = some value := by
  have hwell := wellFormed_of_ofLines hd
  refine ⟨fun form names inner hinner => lists_tables form hwell hinner, ?_⟩
  rintro c o path entry rfl hpath hentry
  refine ⟨hwell.leads_of_lookup hentry, fun segments names _ hleads => ?_⟩
  refine ⟨o.form.ofEntry entry, o.form.ofDocument c.document, ?_,
    CommandOptions.select?_of_none rfl c, at?_keysTo o.form hwell hleads⟩
  rw [CommandOptions.select?_of_some hpath, hentry]
  rfl

open ExportForm in
theorem select?_eq_part_nested :
    let lines : List Text := ["z = 1", "p-q \x7b", "r \x7b", "b_c = 'd'", "\x7d", "\x7d", "a = 2"]
    let b : Attribute := ⟨"b_c", .string, .scalar (.string "d")⟩
    let d : Document := ⟨[("z", ⟨"z", .number, .scalar (.integer 1)⟩),
      ("a", ⟨"a", .number, .scalar (.integer 2)⟩)],
      [("p-q", ⟨"p-q", [], [("r", ⟨"r", [("b_c", b)], []⟩)]⟩)]⟩
    let o : CommandOptions := ⟨"f.necl", some "p_q. r .b-c", true, false⟩
    Document.ofLines lines = .ok d ∧
      Lists d.plainJson ["attributes"] ["z", "a"] ∧
      Lists (d.typedJson widenedJson) ["blocks", "p-q", "blocks"] ["r"] ∧
      (Config.mk d []).lookup "p_q. r .b-c" = some (.attribute b) ∧
      ∃ value whole, o.select? ⟨d, []⟩ = some value ∧
        CommandOptions.select? { o with path := none } ⟨d, []⟩ = some whole ∧
        whole.at? ["blocks", "p-q", "blocks", "r", "attributes", "b_c"] = some value := by
  intro lines b d o
  have hd : Document.ofLines lines = .ok d := rfl
  obtain ⟨hlists, hselect⟩ := select?_eq_part hd
  have hlookup : (Config.mk d []).lookup "p_q. r .b-c" = some (.attribute b) := rfl
  have hleads : d.Leads ["p_q", "r", "b-c"] ["p-q", "r"] (.attribute b) :=
    ⟨.cons (by decide) (.cons (by decide) (.cons (by decide) .nil)), _, rfl, rfl⟩
  exact ⟨hd, (hlists .plain [] d rfl).1, (hlists (.typed widenedJson) ["p-q"] _ rfl).2, hlookup,
    (hselect ⟨d, []⟩ o _ _ rfl rfl hlookup).2 _ _ rfl hleads⟩

end BlockConfig
