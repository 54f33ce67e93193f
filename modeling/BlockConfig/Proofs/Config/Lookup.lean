import BlockConfig.Config.Path
import BlockConfig.Proofs.Reader.WellFormed
import Mathlib.Data.List.Forall2

set_option autoImplicit false

/-!
Where paths lead in a well-formed document: through blocks that are found under their own names, to
an attribute or a block that is found under its own name.
-/

namespace BlockConfig

def Entry.name : Entry → Text
  | .attribute a => a.name
  | .block b => b.name

namespace Document

def inside? : Document → List Text → Option Document
  | d, [] => some d
  | d, name :: rest =>
    (Table.get? d.blocks name).bind fun b => inside? ⟨b.attributes, b.blocks⟩ rest

/-- The segments lead through the blocks `names` to the entry, each segment by one of its
spellings. -/
structure Leads (d : Document) (segments names : List Text) (entry : Entry) : Prop where
  spelled : List.Forall₂ (fun name segment => name ∈ spellings segment)
    (names ++ [entry.name]) segments
  found : ∃ inner, d.inside? names = some inner ∧
    entryOf? inner.attributes inner.blocks entry.name = some entry

variable {d : Document}

theorem WellFormed.attributes_keyed (h : d.WellFormed) :
    Table.Keyed Attribute.name d.attributes := by
  cases h with
  | intro attributes _ _ _ _ => exact attributes.keyed

theorem WellFormed.blocks_keyed (h : d.WellFormed) : Table.Keyed Block.name d.blocks := by
  cases h with
  | intro _ _ blocks _ _ => exact blocks

theorem WellFormed.block (h : d.WellFormed) {name : Text} {b : Block}
    (hb : Table.get? d.blocks name = some b) : WellFormed ⟨b.attributes, b.blocks⟩ := by
  cases h with
  | intro _ _ _ _ inner => exact inner (name, b) (Table.mem_of_get? hb)

theorem WellFormed.inside? (h : d.WellFormed) {names : List Text} {inner : Document}
    (hinner : d.inside? names = some inner) : inner.WellFormed := by
  induction names generalizing d with
  | nil => exact Option.some.inj hinner ▸ h
  | cons name rest ih =>
    obtain ⟨b, hb, hrest⟩ := Option.bind_eq_some_iff.1 hinner
    exact ih (h.block hb) hrest

theorem WellFormed.name_of_entryOf? (h : d.WellFormed) {name : Text} {entry : Entry}
    (hentry : entryOf? d.attributes d.blocks name = some entry) : entry.name = name := by
  unfold entryOf? at hentry
  split at hentry
  · rename_i a ha
    cases hentry
    exact h.attributes_keyed.name_eq (name, a) (Table.mem_of_get? ha)
  · obtain ⟨b, hb, rfl⟩ := Option.map_eq_some_iff.1 hentry
    exact h.blocks_keyed.name_eq (name, b) (Table.mem_of_get? hb)

theorem WellFormed.leads_of_lookupFrom (h : d.WellFormed) {segments : List Text} {entry : Entry}
    (hentry : lookupFrom d.attributes d.blocks segments = some entry) :
    ∃ names, d.Leads segments names entry := by
  induction segments generalizing d with
  | nil => cases hentry
  | cons segment rest ih =>
    cases rest with
    | nil =>
      rw [lookupFrom] at hentry
      obtain ⟨name, hname, hfound⟩ := List.exists_of_findSome?_eq_some hentry
      obtain rfl := h.name_of_entryOf? hfound
      exact ⟨[], .cons hname .nil, d, rfl, hfound⟩
    | cons next more =>
      rw [lookupFrom] at hentry
      obtain ⟨name, hname, hfound⟩ := List.exists_of_findSome?_eq_some hentry
      cases hb : Table.get? d.blocks name with
      | none => simp [hb] at hfound
      | some b =>
        simp only [hb] at hfound
        obtain ⟨names, hspelled, inner, hinner, hlast⟩ := ih (h.block hb) hfound
        refine ⟨name :: names, .cons hname hspelled, inner, ?_, hlast⟩
        rw [Document.inside?, hb]
        exact hinner

theorem WellFormed.leads_of_lookup (h : d.WellFormed) {path : Text} {entry : Entry}
    (hentry : d.lookup path = some entry) :
    ∃ segments names, segments? path = some segments ∧ d.Leads segments names entry := by
  obtain ⟨segments, hsegments, hfound⟩ := Option.bind_eq_some_iff.1 hentry
  obtain ⟨names, hleads⟩ := h.leads_of_lookupFrom hfound
  exact ⟨segments, names, hsegments, hleads⟩

end Document

end BlockConfig
