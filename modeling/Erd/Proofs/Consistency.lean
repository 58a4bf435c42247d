import Erd.Dbml.Reader
import Erd.JsonSchema.Reader
import Erd.Proofs.Canvas.RoundTrip
import Erd.Proofs.Json.Limits
import Erd.Proofs.Loading
import Erd.Sql.Reader

/-!
# What is read is consistent

A reader links tables by name and a diagram is looked up by id. Whatever the text, each reader only makes
links between places that are there; drawing turns these into ends that resolve, and gives ids that do not
repeat. Validation, loading and the canvas, each with a way of its own to look things up, then agree.

JSON is read within limits. A schema that runs into one gives nothing, no diagnostic either; all else that is
read gives a diagram.

**Results.**
* `Sql.linked_draft`, `Dbml.linked_draft`, `JsonSchema.linked_draft`: no reader links to what is not there.
* `Outline.consistent_draw`: what is drawn of linked places is consistent.
* `JsonSchema.read_of_overrun?`, `JsonSchema.exists_read`: a schema is read unless its text runs into a limit.
* `consistent_read`: whatever the text, what the readers give is consistent.
* `not_consistent_read_long`: a whole number of many digits is no schema that is read.
-/
namespace Erd

/-! ## Drawn outlines -/

/-- Nothing about the diagram contradicts itself: ids do not repeat, every relationship resolves, and
validation, loading and the canvas leave it as it is. -/
structure Consistent (d : Diagram) : Prop where
  distinctIds : d.DistinctIds
  intact : d.Intact
  valid : Diagram.firstViolation? d.toJson = none
  loads : Diagram.load d.toJson = .ok d
  canvas : (Canvas.Scene.ofDiagram d).diagram = d

namespace Outline

theorem columnAt?_isSome {tables : List Table} {p : Place} {t : Table} (ht : tables[p.table]? = some t)
    (hc : p.column < t.columns.length) : (columnAt? tables p).isSome := by
  rw [columnAt?_eq_some.mpr ⟨ht, List.getElem?_eq_getElem hc⟩]
  rfl

/-- A place that two names lead to is there. -/
theorem columnAt?_of_names {tables : List Table} {i j : Nat} {t : Table} {table column : String}
    (ht : tableNamed? tables table = some (i, t)) (hc : t.columnNamed? column = some j) :
    (columnAt? tables ⟨i, j⟩).isSome := by
  obtain ⟨c, hcj, -⟩ := columnNamed?_eq_some hc
  exact columnAt?_isSome (tableNamed?_eq_some ht).1 (List.getElem?_eq_some_iff.mp hcj).1

theorem intact_draw {o : Outline} (h : o.Linked) (s : Sheet) : (o.draw s).Intact := by
  intro r hr
  obtain ⟨k, hk, rfl⟩ := List.mem_mapIdx.mp hr
  obtain ⟨ha, hb⟩ := h _ (List.getElem_mem hk)
  obtain ⟨a, ha⟩ := Option.isSome_iff_exists.mp ha
  obtain ⟨b, hb⟩ := Option.isSome_iff_exists.mp hb
  rw [resolve_draw ha hb]
  rfl

theorem numeric_draw (o : Outline) (s : Sheet) : ∀ t ∈ (o.draw s).tables, Loading.Numeric t.position := by
  intro t ht
  obtain ⟨i, hi, rfl⟩ := List.mem_mapIdx.mp ht
  exact Loading.numeric_point _

/-- What is drawn of linked places is consistent. -/
theorem consistent_draw {o : Outline} (h : o.Linked) (s : Sheet) : Consistent (o.draw s) := by
  have hd : (o.draw s).DistinctIds := ⟨nodup_tableIds_draw, fun t ht => nodup_columnIds_draw ht⟩
  have hi := intact_draw h s
  have hl := Diagram.load_toJson hd hi (numeric_draw o s)
  exact ⟨hd, hi, by rw [Diagram.firstViolation?, hl], hl,
    Canvas.diagram_ofDiagram_of_settled (Diagram.settled_of_load hl)⟩

end Outline

/-- With a grid to place tables on a draft is always read, and what is read is drawn of its outline. -/
theorem Draft.reading_consistent {d : Draft} (h : d.outline.Linked) {s : Outline.Sheet}
    (hs : s.grid.columns ≠ 0) : ∃ r, d.reading s = .ok r ∧ Consistent r.diagram := by
  exact ⟨_, Draft.reading_eq hs, Outline.consistent_draw h s⟩

theorem linked_empty : Outline.Linked {} := by
  intro l hl
  cases hl

/-! ## The readers -/

namespace Sql

/-- A foreign key is linked only to what is there. -/
theorem linked_of_link {tables : List Outline.Table} {i : Nat} {owner : Outline.Table} {r : Reference}
    {l : Outline.Link} (hi : tables[i]? = some owner) (h : link tables i owner r = .ok l) :
    (Outline.columnAt? tables l.source).isSome ∧ (Outline.columnAt? tables l.target).isSome := by
  unfold link at h
  split at h
  · cases h
  · next k referenced hk =>
    split at h
    · next parent child hp hc =>
      cases h
      obtain ⟨c, hcj, -⟩ := Outline.columnNamed?_eq_some hc
      exact ⟨Outline.columnAt?_of_names hk hp,
        Outline.columnAt?_isSome hi (List.getElem?_eq_some_iff.mp hcj).1⟩
    · cases h

theorem linked_links {tables : List TableDefinition} {l : Outline.Link}
    (hl : l ∈ (links tables).filterMap linked?) :
    (Outline.columnAt? (tables.map TableDefinition.outline) l.source).isSome ∧
      (Outline.columnAt? (tables.map TableDefinition.outline) l.target).isSome := by
  obtain ⟨e, he, hel⟩ := List.mem_filterMap.mp hl
  obtain ⟨ls, hls, hels⟩ := List.mem_flatten.mp he
  obtain ⟨i, hi, rfl⟩ := List.mem_mapIdx.mp hls
  obtain ⟨r, -, rfl⟩ := List.mem_map.mp hels
  have ht : (tables.map TableDefinition.outline)[i]? = some tables[i].outline := by
    rw [List.getElem?_map, List.getElem?_eq_getElem hi, Option.map_some]
  cases h : link (tables.map TableDefinition.outline) i tables[i].outline r with
  | error e =>
    rw [h] at hel
    cases hel
  | ok k =>
    rw [h] at hel
    cases hel
    exact linked_of_link ht h

/-- Marking foreign keys moves no column and gives nothing another name. -/
theorem columnAt?_marked {tables : List Outline.Table} {p : Outline.Place} {t : Outline.Table}
    {c : Outline.Column} (h : Outline.columnAt? tables p = some (t, c)) (found : List Outline.Link) :
    ∃ u e, Outline.columnAt? (tables.mapIdx (markLinked found)) p = some (u, e) ∧ u.name = t.name ∧
      e.name = c.name := by
  obtain ⟨ht, hc⟩ := Outline.columnAt?_eq_some.mp h
  let e := if found.any fun l => l.target == ⟨p.table, p.column⟩ then markForeignKey c else c
  have he : (markLinked found p.table t).columns[p.column]? = some e := by
    rw [markLinked, List.getElem?_mapIdx, hc, Option.map_some]
  refine ⟨markLinked found p.table t, e, Outline.columnAt?_eq_some.mpr ⟨?_, he⟩, rfl, ?_⟩
  · rw [List.getElem?_mapIdx, ht, Option.map_some]
  · unfold e
    split <;> rfl

theorem columnAt?_marked_isSome {tables : List Outline.Table} {p : Outline.Place}
    (h : (Outline.columnAt? tables p).isSome) (found : List Outline.Link) :
    (Outline.columnAt? (tables.mapIdx (markLinked found)) p).isSome := by
  obtain ⟨⟨t, c⟩, h⟩ := Option.isSome_iff_exists.mp h
  obtain ⟨u, e, hue, -, -⟩ := columnAt?_marked h found
  rw [hue]
  rfl

theorem linked_outline (tables : List TableDefinition) : (outline tables).Linked := by
  intro l hl
  obtain ⟨hs, ht⟩ := linked_links hl
  exact ⟨columnAt?_marked_isSome hs _, columnAt?_marked_isSome ht _⟩

theorem linked_draft (dialect : Dialect) (script : String) : (draft dialect script).outline.Linked := by
  unfold draft
  split
  · exact linked_empty
  · exact linked_outline _

end Sql

namespace Dbml

theorem columnAt?_of_place? {tables : List Outline.Table} {c : ColumnName} {p : Outline.Place}
    (h : place? tables c = some p) : (Outline.columnAt? tables p).isSome := by
  obtain ⟨⟨i, t⟩, ht, h⟩ := Option.bind_eq_some_iff.mp h
  obtain ⟨j, hj, h⟩ := Option.map_eq_some_iff.mp h
  cases h
  exact Outline.columnAt?_of_names ht hj

theorem linked_of_refLink {tables : List Outline.Table} {r : Ref} {l : Outline.Link}
    (h : refLink tables r = .ok l) :
    (Outline.columnAt? tables l.source).isSome ∧ (Outline.columnAt? tables l.target).isSome := by
  unfold refLink at h
  split at h
  · split at h
    · next source target hs ht =>
      cases h
      exact ⟨columnAt?_of_place? hs, columnAt?_of_place? ht⟩
    · cases h
  · cases h

theorem linked_of_blockLinks {blocks : List Block} {i : Nat} {b : Block} {l : Outline.Link}
    (hi : blocks[i]? = some b) (h : .ok l ∈ blockLinks (blocks.map Block.outline) i b) :
    (Outline.columnAt? (blocks.map Block.outline) l.source).isSome ∧
      (Outline.columnAt? (blocks.map Block.outline) l.target).isSome := by
  obtain ⟨x, hx, hl⟩ := List.mem_filterMap.mp h
  obtain ⟨j, hj, rfl⟩ := List.mem_mapIdx.mp hx
  obtain ⟨c, -, hc⟩ := Option.map_eq_some_iff.mp hl
  split at hc
  · next source hs =>
    cases hc
    have ht : (blocks.map Block.outline)[i]? = some b.outline := by
      rw [List.getElem?_map, hi, Option.map_some]
    exact ⟨columnAt?_of_place? hs, Outline.columnAt?_isSome ht (by simpa [Block.outline] using hj)⟩
  · cases hc

theorem linked_draftOf (s : List Char) : (draftOf s).outline.Linked := by
  intro l hl
  rcases List.mem_append.mp hl with hl | hl
  · obtain ⟨x, hx, hl⟩ := List.mem_filterMap.mp hl
    obtain ⟨⟨line, r⟩, -, rfl⟩ := List.mem_map.mp hx
    cases h : refLink ((entries s).filterMap Entry.block? |>.map Block.outline) r with
    | error f => simp [h, Except.toOption] at hl
    | ok k =>
      simp only [h, Except.toOption, Option.some.injEq] at hl
      subst hl
      exact linked_of_refLink h
  · obtain ⟨x, hx, hl⟩ := List.mem_filterMap.mp hl
    obtain ⟨ls, hls, hxs⟩ := List.mem_flatten.mp hx
    obtain ⟨i, hi, rfl⟩ := List.mem_mapIdx.mp hls
    cases x with
    | error e => cases hl
    | ok k =>
      cases hl
      exact linked_of_blockLinks (List.getElem?_eq_getElem hi) hxs

theorem linked_draft (document : String) : (draft document).outline.Linked := by
  unfold draft
  split
  · exact linked_empty
  · exact linked_draftOf _

end Dbml

namespace JsonSchema

theorem keyColumn?_lt {t : Outline.Table} {j : Nat} (h : keyColumn? t = some j) : j < t.columns.length := by
  unfold keyColumn? at h
  split at h
  · cases h
  · next hne =>
    cases h
    cases hk : t.columns.findIdx? fun c => c.constraints.isPrimaryKey with
    | none => exact List.length_pos_iff.mpr hne
    | some k => exact (List.findIdx?_eq_some_iff_getElem.mp hk).1

theorem columnAt?_of_pointed? {tables : List Outline.Table} {pointer : String} {p : Outline.Place}
    (h : pointed? tables pointer = some p) : (Outline.columnAt? tables p).isSome := by
  unfold pointed? at h
  split at h
  · cases h
  · split at h
    · cases h
    · next i hi =>
      obtain ⟨j, hj, h⟩ := Option.map_eq_some_iff.mp h
      obtain ⟨t, ht, hk⟩ := Option.bind_eq_some_iff.mp hj
      cases h
      exact Outline.columnAt?_isSome ht (keyColumn?_lt hk)

theorem linked_of_tableLinks {definitions : List Definition} {i : Nat} {d : Definition} {l : Outline.Link}
    (hi : definitions[i]? = some d) (h : .ok l ∈ tableLinks (definitions.map Definition.outline) i d) :
    (Outline.columnAt? (definitions.map Definition.outline) l.source).isSome ∧
      (Outline.columnAt? (definitions.map Definition.outline) l.target).isSome := by
  obtain ⟨⟨property, pointer⟩, -, hl⟩ := List.mem_filterMap.mp h
  simp only at hl
  split at hl
  · cases hl
  · next source hs =>
    obtain ⟨j, hj, hl⟩ := Option.map_eq_some_iff.mp hl
    cases hl
    obtain ⟨c, hc, -⟩ := Outline.columnNamed?_eq_some hj
    have ht : (definitions.map Definition.outline)[i]? = some d.outline := by
      rw [List.getElem?_map, hi, Option.map_some]
    exact ⟨columnAt?_of_pointed? hs, Outline.columnAt?_isSome ht (List.getElem?_eq_some_iff.mp hc).1⟩

theorem linked_draftOfDefinitions (fields : List (String × Json)) :
    (draftOfDefinitions fields).outline.Linked := by
  intro l hl
  obtain ⟨x, hx, hl⟩ := List.mem_filterMap.mp hl
  obtain ⟨ls, hls, hxs⟩ := List.mem_flatten.mp hx
  obtain ⟨i, hi, rfl⟩ := List.mem_mapIdx.mp hls
  cases x with
  | error e => cases hl
  | ok k =>
    cases hl
    exact linked_of_tableLinks (List.getElem?_eq_getElem hi) hxs

theorem linked_draftOfJson (schema : Json) : (draftOfJson schema).outline.Linked := by
  unfold draftOfJson
  split
  · exact linked_draftOfDefinitions _
  · exact linked_empty

theorem linked_draft (text : String) : (draft text).outline.Linked := by
  unfold draft
  split
  · exact linked_empty
  · split
    · exact linked_draftOfJson _
    · exact linked_empty

section Limits

variable {l : Json.Limits} {s : Outline.Sheet} {text : String}

/-- A schema that runs into a limit gives nothing. -/
theorem read_of_overrun? {o : Json.Overrun} (h : overrun? l text = some o) : read l s text = .error (.overrun o) := by
  rw [read, h]

/-- Any other schema is read. -/
theorem exists_read (hs : s.grid.columns ≠ 0) (h : overrun? l text = none) :
    ∃ r, read l s text = .ok r ∧ Consistent r.diagram := by
  obtain ⟨r, hr, hconsistent⟩ := Draft.reading_consistent (linked_draft text) hs
  exact ⟨r, by rw [read, h, hr]; rfl, hconsistent⟩

theorem exceeds_of_overrun? {o : Json.Overrun} (h : overrun? l text = some o) : Json.Exceeds l text.toList o := by
  unfold overrun? at h
  split at h
  · cases h
  · exact Json.exceeds_of_overrun? h

end Limits

end JsonSchema

/-- Whatever the text, with a grid to place tables on: read as SQL or as DBML it gives a consistent diagram, and so
it does as JSON Schema, unless reading its JSON runs into a limit. Then the text has more than the limit allows, and
if that is digits or nesting it gives nothing at all; what becomes of half a pair of units that is not replaced is
not said. -/
theorem consistent_read {s : Outline.Sheet} (hs : s.grid.columns ≠ 0) (text : String) :
    (∀ dialect, ∃ r, Sql.read s dialect text = .ok r ∧ Consistent r.diagram) ∧
      (∃ r, Dbml.read s text = .ok r ∧ Consistent r.diagram) ∧
      ∀ l, (JsonSchema.overrun? l text = none → ∃ r, JsonSchema.read l s text = .ok r ∧ Consistent r.diagram) ∧
        ∀ o, JsonSchema.overrun? l text = some o → Json.Exceeds l text.toList o ∧
          (o ≠ .halfPair → JsonSchema.read l s text = .error (.overrun o)) :=
  ⟨fun dialect => Draft.reading_consistent (Sql.linked_draft dialect text) hs,
    Draft.reading_consistent (Dbml.linked_draft text) hs,
    fun _ => ⟨JsonSchema.exists_read hs, fun _ h =>
      ⟨JsonSchema.exceeds_of_overrun? h, fun _ => JsonSchema.read_of_overrun? h⟩⟩⟩

/-- Limits that allow neither a digit nor a bracket. -/
def noRoom : Json.Limits where
  digits := some 0
  nesting := some 0

/-- A text that is none of the three: a header without a name, and a body that stays open. -/
theorem consistent_read_unclosed :
    (1 : Int) ≠ 0 ∧
      (∀ dialect, ∃ r, Sql.read { grid := { columns := 1 } } dialect "Table \x7b a int" = .ok r ∧
        Consistent r.diagram) ∧
      (∃ r, Dbml.read { grid := { columns := 1 } } "Table \x7b a int" = .ok r ∧ Consistent r.diagram) ∧
      JsonSchema.overrun? noRoom "Table \x7b a int" = none ∧
      ∃ r, JsonSchema.read noRoom { grid := { columns := 1 } } "Table \x7b a int" = .ok r ∧
        Consistent r.diagram := by
  obtain ⟨hsql, hdbml, hschema⟩ :=
    consistent_read (s := { grid := { columns := 1 } }) (by decide) "Table \x7b a int"
  have hnone : JsonSchema.overrun? noRoom "Table \x7b a int" = none := by decide +kernel
  exact ⟨by decide, hsql, hdbml, hnone, (hschema _).1 hnone⟩

/-- A whole number of so many digits. -/
def longNumber (n : Nat) : String := String.ofList (List.replicate n '1')

theorem overrun?_longNumber {l : Json.Limits} {k n : Nat} (hk : l.digits = some k) (hlt : k < n) :
    Json.overrun? l (longNumber n) = some (.digits n) := by
  obtain ⟨n, rfl⟩ := Nat.exists_eq_succ_of_ne_zero (by omega : n ≠ 0)
  have hds : ∀ d ∈ List.replicate n '1', d.isDigit = true := fun d hd => by
    rw [List.eq_of_mem_replicate hd]
    rfl
  have hover := Json.overrun?_of_digits (c := '1') hk (by rwa [List.length_replicate]) rfl (by decide) hds
  rwa [List.length_replicate] at hover

theorem isBlankText_longNumber {n : Nat} (hn : n ≠ 0) : Text.isBlankText (longNumber n).toList = false := by
  obtain ⟨n, rfl⟩ := Nat.exists_eq_succ_of_ne_zero hn
  rw [longNumber, String.toList_ofList, List.replicate_succ]
  rfl

/-- Not every text is read as JSON Schema: a whole number that has more digits than the limit allows is not, though
it is JSON. -/
theorem not_consistent_read_long :
    ¬ ∀ text, ∃ r, JsonSchema.read { digits := some 4300 } {} text = .ok r ∧ Consistent r.diagram := by
  intro h
  obtain ⟨r, hr, -⟩ := h (longNumber 5000)
  have hover : JsonSchema.overrun? { digits := some 4300 } (longNumber 5000) = some (.digits 5000) := by
    rw [JsonSchema.overrun?, isBlankText_longNumber (by decide), if_neg (by decide),
      overrun?_longNumber rfl (by decide)]
  rw [JsonSchema.read_of_overrun? hover] at hr
  cases hr

end Erd
