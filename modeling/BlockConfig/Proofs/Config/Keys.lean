import BlockConfig.Config.Access
import BlockConfig.Proofs.Config.Lookup
import BlockConfig.Proofs.Config.Spelling

set_option autoImplicit false

/-!
Listed keys as paths. A key with the path of its block in front leads to the child of that name,
however the path of the block is spelled, unless the key has a dot: a path is cut at every dot, so
no path leads to such a child.
-/

namespace BlockConfig

namespace Text

theorem parts_cons_self (mark : Char) (t : Text) :
    parts mark (mark :: t) = [] :: parts mark t := by
  simp only [parts, splitOn, if_true]

theorem parts_cons_of_ne {mark c : Char} (h : c ≠ mark) {t first : Text} {others : List Text}
    (ht : parts mark t = first :: others) : parts mark (c :: t) = (c :: first) :: others := by
  obtain ⟨hfirst, hothers⟩ := List.cons.inj ht
  simp only [parts, splitOn, if_neg h, hfirst, hothers]

theorem parts_append (mark : Char) (front back : Text) :
    parts mark (front ++ mark :: back) = parts mark front ++ parts mark back := by
  induction front with
  | nil => exact parts_cons_self mark back
  | cons c rest ih =>
    by_cases hc : c = mark
    · rw [hc, List.cons_append, parts_cons_self, parts_cons_self, ih, List.cons_append]
    · have hrest : parts mark rest = (splitOn mark rest).1 :: (splitOn mark rest).2 := rfl
      rw [List.cons_append, parts_cons_of_ne hc hrest,
        parts_cons_of_ne hc (ih.trans (congrArg (· ++ parts mark back) hrest))]
      rfl

theorem parts_of_not_mem {mark : Char} {t : Text} (h : mark ∉ t) : parts mark t = [t] := by
  induction t with
  | nil => rfl
  | cons c rest ih =>
    rw [List.mem_cons, not_or] at h
    exact parts_cons_of_ne (Ne.symm h.1) (ih h.2)

end Text

namespace Table

variable {α : Type}

theorem exists_get?_of_mem_names {t : Table α} {name : Text} (h : name ∈ names t) :
    ∃ a, get? t name = some a := by
  induction t with
  | nil => cases h
  | cons e rest ih =>
    obtain ⟨k, a⟩ := e
    by_cases hk : k = name
    · exact ⟨a, if_pos hk⟩
    · obtain ⟨b, hb⟩ := ih ((List.mem_cons.1 h).resolve_left fun he => hk he.symm)
      exact ⟨b, (if_neg hk).trans hb⟩

end Table

theorem exists_entryOf?_of_mem {attributes : Table Attribute} {blocks : Table Block} {name : Text}
    (h : name ∈ Table.names attributes ++ Table.names blocks) :
    ∃ entry, entryOf? attributes blocks name = some entry := by
  rw [entryOf?]
  cases ha : Table.get? attributes name with
  | some a => exact ⟨.attribute a, rfl⟩
  | none =>
    have hblocks : name ∈ Table.names blocks := by
      refine (List.mem_append.1 h).resolve_left fun hmem => ?_
      obtain ⟨a, hget⟩ := Table.exists_get?_of_mem_names hmem
      rw [ha] at hget
      cases hget
    obtain ⟨b, hb⟩ := Table.exists_get?_of_mem_names hblocks
    exact ⟨.block b, by rw [hb]; rfl⟩

theorem not_mem_of_mem_spellings {name segment : Text} (hname : name ∈ spellings segment)
    (h : '.' ∉ segment) : '.' ∉ name := by
  have hreplace : ∀ old new : Char, new ≠ '.' → '.' ∉ segment.replace old new := by
    intro old new hnew hmem
    obtain ⟨c, hc, heq⟩ := List.mem_map.1 hmem
    split at heq
    · exact hnew heq
    · exact h (heq ▸ hc)
  rw [spellings_eq_eraseDups, List.mem_eraseDups] at hname
  simp only [List.mem_cons, List.not_mem_nil, or_false] at hname
  obtain rfl | rfl | rfl := hname
  · exact h
  · exact hreplace _ _ (by decide)
  · exact hreplace _ _ (by decide)

theorem Spells.not_mem {names segments : List Text} (h : Spells names segments)
    (hsegments : ∀ segment ∈ segments, '.' ∉ segment) : ∀ name ∈ names, '.' ∉ name := by
  induction h with
  | nil => simp
  | cons hname _ ih =>
    rw [List.forall_mem_cons] at hsegments ⊢
    exact ⟨not_mem_of_mem_spellings hname hsegments.1, ih hsegments.2⟩

theorem spelledOut_append (segments : List Text) (last : Text) :
    spelledOut (segments ++ [last]) =
      (spelledOut segments).flatMap fun names => (spellings last).map fun name => names ++ [name] := by
  induction segments with
  | nil => simp [spelledOut, List.map_eq_flatMap]
  | cons segment rest ih =>
    rw [List.cons_append, spelledOut, ih, spelledOut, List.flatMap_assoc]
    refine congrArg (fun f => (spellings segment).flatMap f) (funext fun name => ?_)
    rw [List.map_flatMap, List.flatMap_map]
    refine congrArg (fun f => (spelledOut rest).flatMap f) (funext fun names => ?_)
    rw [List.map_map]
    rfl

namespace Document

theorem get?_blocks_of_entryOf? {d : Document} {name : Text} {b : Block}
    (h : entryOf? d.attributes d.blocks name = some (.block b)) :
    Table.get? d.blocks name = some b := by
  rw [entryOf?] at h
  cases ha : Table.get? d.attributes name with
  | some a =>
    rw [ha] at h
    cases h
  | none =>
    rw [ha] at h
    obtain ⟨found, hfound, heq⟩ := Option.map_eq_some_iff.1 h
    cases heq
    exact hfound

theorem get?_blocks_of_entryOf?_none {d : Document} {name : Text}
    (h : entryOf? d.attributes d.blocks name = none) : Table.get? d.blocks name = none := by
  rw [entryOf?] at h
  cases ha : Table.get? d.attributes name with
  | some a =>
    rw [ha] at h
    cases h
  | none =>
    rw [ha] at h
    exact Option.map_eq_none_iff.1 h

theorem entryAt?_append_of_block {d : Document} {names : List Text} {b : Block}
    (h : d.entryAt? names = some (.block b)) (name : Text) :
    d.entryAt? (names ++ [name]) = entryOf? b.attributes b.blocks name := by
  induction names generalizing d with
  | nil => cases h
  | cons first rest ih =>
    rw [List.cons_append, d.entryAt?_cons first (by simp)]
    cases rest with
    | nil =>
      rw [get?_blocks_of_entryOf? h]
      rfl
    | cons next more =>
      obtain ⟨inner, hinner, hmore⟩ := Option.bind_eq_some_iff.1 h
      rw [hinner]
      exact ih hmore

theorem entryAt?_append_of_none {d : Document} {names : List Text} (hnames : names ≠ [])
    (h : d.entryAt? names = none) (name : Text) : d.entryAt? (names ++ [name]) = none := by
  induction names generalizing d with
  | nil => exact absurd rfl hnames
  | cons first rest ih =>
    rw [List.cons_append, d.entryAt?_cons first (by simp)]
    cases rest with
    | nil =>
      rw [get?_blocks_of_entryOf?_none h]
      rfl
    | cons next more =>
      cases hinner : Table.get? d.blocks first with
      | none => rfl
      | some inner =>
        rw [entryAt?, hinner] at h
        exact ih (by simp) h

/-- The search comes to the block first that the path of the block leads to, and in it to the child
of that very name. -/
theorem findSome?_append_of_block {d : Document} {segments : List Text} {b : Block}
    (hsegments : segments ≠ []) (hblock : (spelledOut segments).findSome? d.entryAt? = some (.block b))
    {name : Text} {entry : Entry} (hentry : entryOf? b.attributes b.blocks name = some entry) :
    (spelledOut (segments ++ [name])).findSome? d.entryAt? = some entry := by
  obtain ⟨front, names, back, hsplit, hfound, hfront⟩ := List.findSome?_eq_some_iff.1 hblock
  have hspells : ∀ others ∈ front, others ≠ [] := by
    intro others hothers
    obtain ⟨segment, rest, rfl⟩ := List.exists_cons_of_ne_nil hsegments
    exact ne_nil_of_mem_spelledOut (hsplit ▸ List.mem_append_left _ hothers)
  -- the spellings in front lead nowhere, and the key itself is its own first spelling
  have hbefore : (front.findSome? fun others =>
      ((spellings name).map fun last => others ++ [last]).findSome? d.entryAt?) = none := by
    rw [List.findSome?_eq_none_iff]
    intro others hothers
    rw [List.findSome?_map, List.findSome?_eq_none_iff]
    exact fun last _ => entryAt?_append_of_none (hspells others hothers) (hfront others hothers) last
  have hhere : ((spellings name).map fun last => names ++ [last]).findSome? d.entryAt? =
      some entry := by
    rw [spellings, List.map_cons, List.findSome?_cons, entryAt?_append_of_block hfound, hentry]
  rw [spelledOut_append, findSome?_flatMap, hsplit, List.findSome?_append, hbefore,
    List.findSome?_cons, hhere]
  rfl

theorem WellFormed.isName_of_mem {d : Document} (h : d.WellFormed) {name : Text}
    (hname : name ∈ Table.names d.attributes ++ Table.names d.blocks) : name.IsName := by
  cases h with
  | intro _ attributeNames _ blockNames _ =>
    rcases List.mem_append.1 hname with hmem | hmem
    · obtain ⟨e, he, rfl⟩ := List.mem_map.1 hmem
      exact (attributeNames e he).toIsName
    · obtain ⟨e, he, rfl⟩ := List.mem_map.1 hmem
      exact blockNames e he

end Document

namespace Config

/-- What a path opens: the document if it is blank, else the block it leads to. -/
def opened? (c : Config) (path : Text) : Option Document :=
  if path.trim.isEmpty then some c.document
  else match c.lookup path with
    | some (.block b) => some ⟨b.attributes, b.blocks⟩
    | _ => none

def child (path key : Text) : Text := if path.trim.isEmpty then key else path ++ '.' :: key

variable {c : Config} {path key : Text}

theorem keys_eq_ok_iff {ks : List Text} :
    c.keys path = .ok ks ↔ ∃ d, c.opened? path = some d ∧
      ks = Table.names d.attributes ++ Table.names d.blocks := by
  rw [keys, opened?]
  split
  · simp [eq_comm]
  · rcases c.lookup path with _ | (a | b) <;> simp [eq_comm]

theorem wellFormed_of_opened? (h : c.document.WellFormed) {d : Document}
    (hd : c.opened? path = some d) : d.WellFormed := by
  rw [opened?] at hd
  split at hd
  · exact Option.some.inj hd ▸ h
  · split at hd
    · rename_i b hb
      obtain rfl := Option.some.inj hd
      obtain ⟨segments, names, -, -, inner, hinner, hfound⟩ := h.leads_of_lookup hb
      exact (h.inside? hinner).block (Document.get?_blocks_of_entryOf? hfound)
    · cases hd

theorem segments_child (h : ¬ path.trim.isEmpty = true) :
    ((child path key).parts '.').map Text.trim =
      (path.parts '.').map Text.trim ++ (key.parts '.').map Text.trim := by
  rw [child, if_neg h, Text.parts_append, List.map_append]

theorem lookup_child {d : Document} (hopened : c.opened? path = some d) (hname : key.IsName)
    (hdot : '.' ∉ key) {entry : Entry} (hentry : entryOf? d.attributes d.blocks key = some entry) :
    c.lookup (child path key) = some entry := by
  have hkey : (key.parts '.').map Text.trim = [key] := by
    rw [Text.parts_of_not_mem hdot, List.map_singleton, hname.trim_eq]
  rw [opened?] at hopened
  rw [lookup, Document.lookup_eq_findSome?]
  by_cases hblank : path.trim.isEmpty = true
  · rw [if_pos hblank] at hopened
    obtain rfl := Option.some.inj hopened
    rw [child, if_pos hblank, hkey, if_neg (by simpa using hname.ne_nil.symm), spelledOut,
      spellings, List.flatMap_cons]
    simp [spelledOut, Document.entryAt?, hentry]
  · rw [if_neg hblank] at hopened
    split at hopened
    · rename_i b hb
      obtain rfl := Option.some.inj hopened
      rw [lookup, Document.lookup_eq_findSome?] at hb
      split at hb
      · cases hb
      · rename_i hsegments
        have hne : (path.parts '.').map Text.trim ≠ [] := by simp [Text.parts]
        have hchild : [] ∉ (path.parts '.').map Text.trim ++ [key] := by
          simpa [hsegments] using hname.ne_nil.symm
        rw [segments_child hblank, hkey, if_neg hchild]
        exact Document.findSome?_append_of_block hne hb hentry
    · cases hopened

theorem not_mem_name_of_lookup (h : c.document.WellFormed) {entry : Entry}
    (hentry : c.lookup path = some entry) : '.' ∉ entry.name := by
  obtain ⟨segments, names, hsegments, hspelled, -⟩ := h.leads_of_lookup hentry
  have hspelled : Spells (names ++ [entry.name]) segments := hspelled
  refine hspelled.not_mem (fun segment hmem => ?_) entry.name (by simp)
  rw [segments?] at hsegments
  split at hsegments
  · cases hsegments
  · obtain rfl := Option.some.inj hsegments
    obtain ⟨part, hpart, rfl⟩ := List.mem_map.1 hmem
    exact fun hdot => Text.not_mem_of_mem_parts hpart ((Text.trim_infix part).subset hdot)

/-- Keys are the attributes and then the blocks of what a path opens, each kind without repeats, so
a key comes twice exactly if it names an attribute and a block. A key names a child of its own name,
the attribute if there are two; the key behind the path leads to that child if it has no dot, and to
no child of that name if it has one. -/
theorem keys_lead_to_children {source : Text} (h : Config.ofSource source = .ok c)
    {ks : List Text} (hks : c.keys path = .ok ks) :
    ∃ d, c.opened? path = some d ∧ ks = Table.names d.attributes ++ Table.names d.blocks ∧
      (Table.names d.attributes).Nodup ∧ (Table.names d.blocks).Nodup ∧
      (ks.Nodup ↔ ∀ name ∈ Table.names d.attributes, name ∉ Table.names d.blocks) ∧
      ∀ key ∈ ks, ∃ entry, entryOf? d.attributes d.blocks key = some entry ∧ entry.name = key ∧
        ('.' ∉ key → c.lookup (child path key) = some entry) ∧
        ('.' ∈ key → ∀ found, c.lookup (child path key) = some found → found.name ≠ key) := by
  obtain ⟨document, hdocument, rfl⟩ := exists_of_map_ok h
  have hwellFormed : document.WellFormed := wellFormed_of_ofLines hdocument
  obtain ⟨d, hopened, rfl⟩ := keys_eq_ok_iff.1 hks
  have hd : d.WellFormed := wellFormed_of_opened? hwellFormed hopened
  have hattributes := hd.attributes_keyed.nodup
  have hblocks := hd.blocks_keyed.nodup
  refine ⟨d, hopened, rfl, hattributes, hblocks, ?_, fun key hkey => ?_⟩
  · rw [List.nodup_append']
    simp [hattributes, hblocks, List.Disjoint]
  · obtain ⟨entry, hentry⟩ := exists_entryOf?_of_mem hkey
    refine ⟨entry, hentry, hd.name_of_entryOf? hentry,
      fun hdot => lookup_child hopened (hd.isName_of_mem hkey) hdot hentry, ?_⟩
    rintro hdot found hfound rfl
    exact not_mem_name_of_lookup hwellFormed hfound hdot

theorem keys_lead_to_children_dotted :
    let source : Text := "a_b \x7b\nk-1 = 1\np.q = 2\n\x7d\na-b \x7b\nk_1 = 3\n\x7d"
    ∃ c, Config.ofSource source = .ok c ∧ c.keys "a_b" = .ok ["k-1", "p.q"] ∧
      c.lookup "a_b.k-1" = some (.attribute ⟨"k-1", .number, .scalar (.integer 1)⟩) ∧
      ∀ found, c.lookup "a_b.p.q" = some found → found.name ≠ "p.q" := by
  intro source
  obtain ⟨c, hc⟩ : ∃ c, Config.ofSource source = .ok c := ⟨_, rfl⟩
  have hks : c.keys "a_b" = .ok ["k-1", "p.q"] := by
    cases hc
    rfl
  obtain ⟨d, hopened, -, -, -, -, hchildren⟩ := keys_lead_to_children hc hks
  obtain ⟨entry, hentry, -, hlookup, -⟩ := hchildren "k-1" (by decide)
  obtain ⟨-, -, -, -, hdotted⟩ := hchildren "p.q" (by decide)
  refine ⟨c, hc, hks, ?_, hdotted (by decide)⟩
  have hchild := hlookup (by decide)
  have hname : entryOf? d.attributes d.blocks "k-1" =
      some (.attribute ⟨"k-1", .number, .scalar (.integer 1)⟩) := by
    cases hc
    cases hopened
    rfl
  rw [hname] at hentry
  cases hentry
  exact hchild

/-- A key with a dot leads nowhere, and a key that an attribute and a block share comes twice. -/
theorem keys_not_usable :
    (∃ c, Config.ofSource "a.b = 1" = .ok c ∧ c.keys "" = .ok ["a.b"] ∧
      c.lookup "a.b" = none) ∧
    ∃ c, Config.ofSource "x = 1\nx \x7b\n\x7d" = .ok c ∧ c.keys "" = .ok ["x", "x"] :=
  ⟨⟨_, rfl, rfl, rfl⟩, ⟨_, rfl, rfl⟩⟩

end Config

end BlockConfig
