import Erd.Proofs.JsonSchema.Import

/-!
# Where the relationships of a schema end

The properties of a definition are told apart by their names as they are, but the relationship of a property is
drawn to the first column that is called like it, case aside. It ends in the column of that very property exactly if
no earlier property of the definition has the name in other letters; otherwise in the column of the first of these,
whatever that is, and properties with such names share one end.

**Results.**
* `nodup_objects`: the properties of a definition that is read differ in their names.
* `exists_first`: a relationship ends in the column of the first property that is called like its own.
* `own_iff_not_hidden`: this is its own exactly if it is not hidden.
* `target_eq_iff`: two relationships share their end exactly if their properties share table and name, case aside.
* `pointers_settled`: all of this for a document.
* `not_own_posts`: a relationship that ends elsewhere.
-/
namespace Erd.JsonSchema

/-! ## Names of properties -/

theorem distinctKeys_schema? {document schema : Json} (hd : document.DistinctKeys)
    (h : schema? document = some schema) : schema.DistinctKeys := by
  unfold schema? at h
  split at h
  · next text =>
    cases hread : Json.read text with
    | error e =>
      rw [hread] at h
      cases h
    | ok v =>
      rw [hread] at h
      cases h
      exact Json.distinctKeys_of_read hread
  · cases h
    exact hd

theorem distinctKeys_definitionFields? {schema : Json} {fields : List (String × Json)} (hd : schema.DistinctKeys)
    (h : definitionFields? schema = some fields) : (Json.obj fields).DistinctKeys := by
  unfold definitionFields? at h
  split at h
  · next fs =>
    split at h
    · next definitions hget =>
      cases h
      rcases Option.or_eq_some_iff.mp hget with hget | ⟨-, hget⟩
      · exact Json.distinctKeys_of_get? hd hget
      · exact Json.distinctKeys_of_get? hd hget
    · cases h
  · cases h

/-- A definition that has no key twice has no two properties of one name. -/
theorem nodup_objects {d : Definition} {v : Json} (hv : v.DistinctKeys) (h : Defines v d.properties d.required) :
    (d.objects.map Prod.fst).Nodup := by
  obtain ⟨fs, rfl, hproperties, -⟩ := h
  have hd : (Json.obj d.properties).DistinctKeys := by
    rw [← hproperties, valueOr]
    cases hfilled : filled? "properties" fs with
    | none => exact .obj List.nodup_nil (List.forall_mem_nil _)
    | some w => exact Json.distinctKeys_of_get? hv (Option.filter_eq_some_iff.mp hfilled).1
  refine (Json.distinctKeys_obj.mp hd).1.sublist (map_filterMap_sublist ?_ d.properties)
  rintro ⟨name, w⟩ o ho
  cases w with
  | obj gs =>
    cases ho
    rfl
  | _ => cases ho

/-! ## Ends -/

/-- An earlier property of the same definition is called like a pointing property, case aside. -/
def Pointing.Hidden (ds : List Definition) (q : Pointing) : Prop :=
  ∃ d, ds[q.own.table]? = some d ∧ ∃ j < q.own.column, ∃ o, d.objects[j]? = some o ∧ nameKey o.1 = nameKey q.property

/-- A relationship ends in the column of the very property that points: it stands where that property stands, has its
name, and is a foreign key for a whole number. -/
structure Pointing.Own (q : Pointing) (p : Resolved) : Prop where
  column : p.targetTable.columns[q.own.column]? = some p.targetColumn
  name : p.targetColumn.name = q.property
  type : p.targetColumn.type = .int
  marked : p.targetColumn.constraints.isForeignKey

theorem pointing?_eq_some {ds : List Definition} {own : Outline.Place} {property : String} {fs : List (String × Json)}
    {q : Pointing} (h : pointing? ds own property fs = some q) :
    q.own = own ∧ q.property = property ∧ (Json.get? "$ref" fs).isSome := by
  unfold pointing? at h
  split at h
  · next href =>
    obtain ⟨k, -, rfl⟩ := Option.map_eq_some_iff.mp h
    exact ⟨rfl, rfl, by rw [href, Option.isSome_some]⟩
  · cases h

/-- A pointing property is a property of the definition at its place. -/
theorem mem_pointings {ds : List Definition} {q : Pointing} (h : q ∈ pointings ds) :
    ∃ d fs, ds[q.own.table]? = some d ∧ d.objects[q.own.column]? = some (q.property, fs) ∧
      (Json.get? "$ref" fs).isSome := by
  obtain ⟨⟨d, i⟩, hd, h⟩ := List.mem_flatMap.mp h
  obtain ⟨⟨⟨property, fs⟩, j⟩, ho, h⟩ := List.mem_filterMap.mp h
  obtain ⟨hown, rfl, href⟩ := pointing?_eq_some h
  rw [hown]
  exact ⟨d, fs, List.mem_zipIdx_iff_getElem?.mp hd, List.mem_zipIdx_iff_getElem?.mp ho, href⟩

/-- The columns of a table drawn of a definition are those of its properties. -/
theorem getElem?_columns {t : Table} {d : Definition} (h : t.outline = d.outline) (j : Nat) :
    t.columns[j]?.map Column.outline = d.objects[j]?.map fun o => column d.required o.1 o.2 := by
  have hcolumns : t.columns.map Column.outline = d.objects.map fun o => column d.required o.1 o.2 :=
    congrArg Outline.Table.columns h
  rw [← List.getElem?_map, hcolumns, List.getElem?_map]

section Ends

variable {ds : List Definition} {g : Diagram} {q : Pointing} {l : Relationship} {p : Resolved}

/-- The relationship of a pointing property ends in the column of the first property of its definition that is called
like it, case aside. -/
theorem exists_first (hg : g.tables.map Table.outline = ds.map Definition.outline) (h : q.Drawn g l p) {d : Definition}
    (hd : ds[q.own.table]? = some d) :
    ∃ (i : Nat) (name : String) (fs : List (String × Json)),
      p.targetTable.columns[i]? = some p.targetColumn ∧ d.objects[i]? = some (name, fs) ∧
      p.targetColumn.outline = column d.required name fs ∧ nameKey name = nameKey q.property ∧
      ∀ j < i, ∀ o ∈ d.objects[j]?, nameKey o.1 ≠ nameKey q.property := by
  have hcolumns := getElem?_columns (outline_of_getElem? hg hd h.targetTable)
  obtain ⟨-, i, hi, hget, hbefore⟩ := List.find?_eq_some_iff_getElem.mp h.targetColumn
  have hcolumn : p.targetTable.columns[i]? = some p.targetColumn := by rw [List.getElem?_eq_getElem hi, hget]
  have himage := hcolumns i
  rw [hcolumn, Option.map_some] at himage
  obtain ⟨⟨name, fs⟩, ho, houtline⟩ := Option.map_eq_some_iff.mp himage.symm
  have hname : name = p.targetColumn.name := congrArg Outline.Column.name houtline
  refine ⟨i, name, fs, hcolumn, ho, houtline.symm, hname ▸ h.named, fun j hj o ho hkey => ?_⟩
  have himage' := hcolumns j
  rw [Option.mem_def.mp ho, Option.map_some] at himage'
  obtain ⟨c, hc, he⟩ := Option.map_eq_some_iff.mp himage'
  have hcname : c.name = o.1 := congrArg Outline.Column.name he
  have hnot := hbefore j hj
  rw [(List.getElem?_eq_some_iff.mp hc).2, hcname, hkey] at hnot
  simp at hnot

/-- The relationship of a pointing property ends in its own column exactly if no earlier property hides it. -/
theorem own_iff_not_hidden (hg : g.tables.map Table.outline = ds.map Definition.outline)
    (hn : ∀ d ∈ ds, (d.objects.map Prod.fst).Nodup) (hq : q ∈ pointings ds) (h : q.Drawn g l p) :
    q.Own p ↔ ¬q.Hidden ds := by
  obtain ⟨d, fs, hd, ho, href⟩ := mem_pointings hq
  obtain ⟨i, name, fs', hcolumn, hoi, houtline, hkey, hfirst⟩ := exists_first hg h hd
  have hname : p.targetColumn.name = name := congrArg Outline.Column.name houtline
  constructor
  · rintro hown ⟨d', hd', j, hj, o, ho', hkey'⟩
    -- a column has its name from one property only
    have hi : i = q.own.column :=
      Outline.index_eq_of_nodup (hn d (List.mem_of_getElem? hd)) hoi ho (hname.symm.trans hown.name)
    rw [hd] at hd'
    cases hd'
    exact hfirst j (hi ▸ hj) o ho' hkey'
  · intro hhidden
    have hi : i = q.own.column := by
      rcases Nat.lt_trichotomy i q.own.column with hlt | heq | hgt
      · exact (hhidden ⟨d, hd, i, hlt, _, hoi, hkey⟩).elim
      · exact heq
      · exact (hfirst _ hgt _ ho rfl).elim
    subst hi
    rw [hoi] at ho
    cases ho
    refine ⟨hcolumn, hname, ?_, ?_⟩
    · have htype : p.targetColumn.type = columnType fs := congrArg Outline.Column.type houtline
      rw [htype, columnType, if_pos href]
    · have hconstraints := congrArg (fun c => c.constraints.isForeignKey) houtline
      exact hconstraints.trans href

/-- What tells the ends of the relationships of pointing properties apart: the table, and the name case aside. -/
def Pointing.key (q : Pointing) : Nat × String := (q.own.table, nameKey q.property)

theorem endpoint?_target (h : g.resolve l = some p) :
    g.endpoint? l.target = some (p.targetTable, p.targetColumn) := by
  obtain ⟨a, -, h⟩ := Option.bind_eq_some_iff.mp h
  obtain ⟨b, hb, h⟩ := Option.map_eq_some_iff.mp h
  cases h
  exact hb

/-- Two relationships share their end exactly if their properties stand in one table and are called alike, case
aside. -/
theorem target_eq_iff (hids : (g.tables.map Table.id).Nodup) {q' : Pointing} {l' : Relationship} {p' : Resolved}
    (h : q.Drawn g l p) (h' : q'.Drawn g l' p') : l.target = l'.target ↔ q.key = q'.key := by
  have hends := endpoint?_target h.resolves
  have hends' := endpoint?_target h'.resolves
  constructor
  · intro he
    rw [he, hends'] at hends
    obtain ⟨htable, hcolumn⟩ := Prod.mk.inj (Option.some.inj hends)
    have hown : q'.own.table = q.own.table :=
      Outline.index_eq_of_nodup hids h'.targetTable h.targetTable (congrArg Table.id htable)
    have hname : nameKey q'.property = nameKey q.property := by rw [← h'.named, ← h.named, hcolumn]
    exact (Prod.ext hown hname).symm
  · intro he
    obtain ⟨hown, hname⟩ := Prod.mk.inj he
    have htable : p.targetTable = p'.targetTable := by
      have := h.targetTable
      rw [hown, h'.targetTable] at this
      exact (Option.some.inj this).symm
    have hcolumn : p.targetColumn = p'.targetColumn := by
      have := h.targetColumn
      rw [htable, Table.columnNamed?, hname] at this
      exact Option.some.inj (this.symm.trans h'.targetColumn)
    obtain ⟨-, -, -, ht, hc⟩ := Diagram.resolve_ends h.resolves
    obtain ⟨-, -, -, ht', hc'⟩ := Diagram.resolve_ends h'.resolves
    calc l.target = ⟨p.targetTable.id, p.targetColumn.id⟩ := by rw [ht, hc]
      _ = ⟨p'.targetTable.id, p'.targetColumn.id⟩ := by rw [htable, hcolumn]
      _ = l'.target := by rw [ht', hc']

/-- The relationships of pointing properties have as many different ends as these have different keys. -/
theorem nodup_targets_iff (hids : (g.tables.map Table.id).Nodup) {qs : List Pointing}
    (h : List.Forall₂ (fun q l => ∃ p, q.Drawn g l p) qs g.relationships) :
    (g.relationships.map Relationship.target).Nodup ↔ (qs.map Pointing.key).Nodup :=
  (nodup_map_iff_of_forall₂ (fun ⟨_, h⟩ ⟨_, h'⟩ => (target_eq_iff hids h h').symm) h).symm

end Ends

/-- Where the properties of each definition differ in their names, case aside, none hides another. -/
theorem not_hidden {ds : List Definition} (hn : ∀ d ∈ ds, (d.objects.map fun o => nameKey o.1).Nodup) {q : Pointing}
    (hq : q ∈ pointings ds) : ¬q.Hidden ds := by
  rintro ⟨d', hd', j, hj, o', ho', hkey⟩
  obtain ⟨d, fs, hd, ho, -⟩ := mem_pointings hq
  rw [hd] at hd'
  cases hd'
  have := Outline.index_eq_of_nodup (hn d' (List.mem_of_getElem? hd)) ho' ho hkey
  omega

/-- Nor do two of them share a key. -/
theorem nodup_keys {ds : List Definition} (hn : ∀ d ∈ ds, (d.objects.map fun o => nameKey o.1).Nodup) :
    ((pointings ds).map Pointing.key).Nodup := by
  rw [pointings, List.map_flatMap, List.nodup_flatMap]
  constructor
  · rintro ⟨d, i⟩ hd
    have hobjects : (d.objects.zipIdx.map fun q => (i, nameKey q.1.1)).Nodup := by
      have hkeys := (hn d (List.fst_mem_of_mem_zipIdx hd)).map (f := Prod.mk i) fun _ _ he => (Prod.mk.inj he).2
      rw [← List.zipIdx_map_fst 0 d.objects, List.map_map, List.map_map] at hkeys
      exact hkeys
    refine hobjects.sublist (map_filterMap_sublist (fun o q h => ?_) _)
    obtain ⟨hown, hproperty, -⟩ := pointing?_eq_some h
    rw [Pointing.key, hown, hproperty]
  · have hindices : (ds.zipIdx.map Prod.snd).Nodup := by
      rw [List.zipIdx_map_snd]
      exact List.nodup_range'
    have htable (x : Definition × Nat) (k : Nat × String) (hk : k ∈ (x.1.pointings ds x.2).map Pointing.key) :
        k.1 = x.2 := by
      obtain ⟨q, hq, rfl⟩ := List.mem_map.mp hk
      obtain ⟨o, -, h⟩ := List.mem_filterMap.mp hq
      rw [Pointing.key, (pointing?_eq_some h).1]
    exact (List.pairwise_map.mp hindices).imp fun {x y} hne k hx hy => hne ((htable x k hx).symm.trans (htable y k hy))

/-! ## The whole -/

/-- What is known about the ends of the relationships of definitions. Each is in the column of its own property exactly
if that is not hidden, and they differ exactly if the properties do, by their tables and their names case aside. So
nothing ends elsewhere and no two share their end where the properties of each definition differ in their names, case
aside. -/
structure Settled (ds : List Definition) (g : Diagram) : Prop where
  ends : List.Forall₂ (fun q l => ∃ p, q.Drawn g l p ∧ (q.Own p ↔ ¬q.Hidden ds)) (pointings ds) g.relationships
  shared : (g.relationships.map Relationship.target).Nodup ↔ ((pointings ds).map Pointing.key).Nodup
  apart : (∀ d ∈ ds, (d.objects.map fun o => nameKey o.1).Nodup) →
    List.Forall₂ (fun q l => ∃ p, q.Drawn g l p ∧ q.Own p) (pointings ds) g.relationships ∧
      (g.relationships.map Relationship.target).Nodup

theorem settled_of_drawn {ds : List Definition} {g : Diagram} (hids : (g.tables.map Table.id).Nodup)
    (hg : g.tables.map Table.outline = ds.map Definition.outline) (hn : ∀ d ∈ ds, (d.objects.map Prod.fst).Nodup)
    (h : List.Forall₂ (fun q l => ∃ p, q.Drawn g l p) (pointings ds) g.relationships) : Settled ds g := by
  have hends : List.Forall₂ (fun q l => q ∈ pointings ds ∧ ∃ p, q.Drawn g l p) (pointings ds) g.relationships :=
    (List.forall₂_and_left _ _).mpr ⟨fun q hq => hq, h⟩
  have hshared := nodup_targets_iff hids h
  refine ⟨hends.imp fun q l ⟨hq, p, hp⟩ => ⟨p, hp, own_iff_not_hidden hg hn hq hp⟩, hshared, fun hapart => ⟨?_, ?_⟩⟩
  · exact hends.imp fun q l ⟨hq, p, hp⟩ => ⟨p, hp, (own_iff_not_hidden hg hn hq hp).mpr (not_hidden hapart hq)⟩
  · exact hshared.mpr (nodup_keys hapart)

theorem nodup_objects_understood {fields : List (String × Json)} (hd : (Json.obj fields).DistinctKeys)
    {parts : List (Definition ⊕ Diagnostic)} (h : List.Forall₂ Becomes fields parts) :
    ∀ d ∈ understood parts, (d.objects.map Prod.fst).Nodup := by
  have hfields := (Json.distinctKeys_obj.mp hd).2
  have hparts : ∀ x ∈ parts, ∀ d, x = .inl d → (d.objects.map Prod.fst).Nodup := by
    refine forall_of_forall₂ ?_ ((List.forall₂_and_left _ _).mpr ⟨hfields, h⟩)
    rintro f x ⟨hf, hx⟩ d rfl
    exact nodup_objects hf hx.2
  intro d hmem
  obtain ⟨x, hx, hleft⟩ := List.mem_filterMap.mp hmem
  exact hparts x hx d (Sum.getLeft?_eq_some_iff.mp hleft)

/-- Whatever the document, the ends of its relationships are settled. -/
theorem pointers_settled {document : Json} (hd : document.DistinctKeys) {s : Outline.Sheet}
    (hs : s.grid.columns ≠ 0) :
    ∃ parts r, (draftOfValue document).reading s = .ok r ∧
      List.Forall₂ Becomes ((definitions? document).getD []) parts ∧ Settled (understood parts) r.diagram := by
  cases hfields : definitions? document with
  | none =>
    refine ⟨[], _, Draft.reading_eq hs, .nil, ?_⟩
    dsimp only
    rw [outline_of_definitions?_none hfields]
    exact settled_of_drawn List.nodup_nil rfl (List.forall_mem_nil _) .nil
  | some fields =>
    obtain ⟨schema, hschema, hschemaFields⟩ := Option.bind_eq_some_iff.mp hfields
    have hdistinct := distinctKeys_definitionFields? (distinctKeys_schema? hd hschema) hschemaFields
    have haccount := imported_draw fields s
    refine ⟨fields.map part, _, Draft.reading_eq hs, haccount.become, ?_⟩
    rw [draftOfValue_of_definitions? hfields]
    exact settled_of_drawn Outline.nodup_tableIds_draw haccount.tables
      (nodup_objects_understood hdistinct haccount.become) haccount.relationships

/-- The schema of a user and of a post by one, with a property called like another in other letters. -/
def posts : Json :=
  .obj [("definitions", .obj [
    ("User", .obj [("properties", .obj [("id", .obj [("type", .str "integer")])])]),
    ("Post", .obj [("properties", .obj [("Owner", .obj [("type", .str "string")]),
      ("owner", .obj [("$ref", .str "#/definitions/User")])])])])]

theorem pointers_settled_posts :
    posts.DistinctKeys ∧ (3 : Int) ≠ 0 ∧
      ∃ parts r, (draftOfValue posts).reading { grid := { columns := 3 } } = .ok r ∧
        List.Forall₂ Becomes ((definitions? posts).getD []) parts ∧ Settled (understood parts) r.diagram := by
  have hd : posts.DistinctKeys := by simp [posts]
  exact ⟨hd, by decide, pointers_settled hd (by decide)⟩

/-- The relationship of the second property of the post ends in the column of the first, which is no foreign key. -/
theorem not_own_posts :
    posts.DistinctKeys ∧ ∃ r, (draftOfValue posts).reading { grid := { columns := 3 } } = .ok r ∧
      r.diagram.relationships.map (fun l => (r.diagram.resolve l).map fun p =>
        (p.targetTable.name, p.targetColumn.name, p.targetColumn.type, p.targetColumn.constraints.isForeignKey)) =
      [some ("Post", "Owner", .varchar, false)] :=
  ⟨by simp [posts], _, Draft.reading_eq (by decide), by decide +kernel⟩

end Erd.JsonSchema
