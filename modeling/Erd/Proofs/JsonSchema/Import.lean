import Erd.Proofs.Consistency
import Erd.Proofs.Json.DistinctKeys

/-!
# What becomes of a schema

Each definition of a schema gives its table or a complaint, in order. The relationships come afterwards, from a
second walk over the definitions that gave a table: each property that points at one of these gives one, whether
that definition comes before, after or is the property's own.

**Results.**
* `draftOfValue_eq`: a document given as a text is read as the schema in it.
* `becomes_iff`: what reading makes of a definition is what it is: one that is understood, or a reason why not.
* `forall₂_links`: the links of a draft are those of the properties that point at a definition.
* `exists_drawn`: what is drawn of such a link has the ends that the property calls for.
* `imported`: the account of a schema.
-/
namespace Erd

/-- The column that stands for a table where it is pointed at: the one named `id`, or else the first. -/
def Table.standing? (t : Table) : Option Column := (t.columns.find? fun c => c.name == "id").or t.columns.head?

namespace JsonSchema

/-! ## Documents -/

/-- The schema of a document, which may be given as a text. -/
def schema? : Json → Option Json
  | .str text => (Json.read text).toOption
  | v => some v

/-- The definitions in a document. -/
def definitions? (document : Json) : Option (List (String × Json)) := (schema? document).bind definitionFields?

theorem draftOfValue_eq {document schema : Json} (h : schema? document = some schema) :
    draftOfValue document = draftOfJson schema := by
  unfold schema? at h
  split at h
  · next text =>
    cases hread : Json.read text with
    | error e =>
      rw [hread] at h
      cases h
    | ok v =>
      rw [hread] at h
      cases h
      have hblank : Text.isBlankText text.toList = false := by
        cases hb : Text.isBlankText text.toList with
        | false => rfl
        | true =>
          obtain ⟨e, he⟩ := Json.exists_read_eq_error hb
          rw [hread] at he
          cases he
      rw [draftOfValue, draft, hblank, if_neg Bool.false_ne_true, hread]
  · next hne =>
    cases h
    rw [draftOfValue]
    exact hne

theorem draftOfValue_of_definitions? {document : Json} {fields : List (String × Json)}
    (h : definitions? document = some fields) : draftOfValue document = draftOfDefinitions fields := by
  obtain ⟨schema, hschema, hfields⟩ := Option.bind_eq_some_iff.mp h
  rw [draftOfValue_eq hschema, draftOfJson, hfields]

/-- A document without definitions, whatever the reason, gives nothing. -/
theorem outline_of_definitions?_none {document : Json} (h : definitions? document = none) :
    (draftOfValue document).outline = {} := by
  cases hschema : schema? document with
  | some schema =>
    have hfields : definitionFields? schema = none := by
      rw [definitions?, hschema] at h
      exact h
    rw [draftOfValue_eq hschema, draftOfJson, hfields]
  | none =>
    unfold schema? at hschema
    split at hschema
    · next text =>
      rw [draftOfValue, draft]
      split
      · rfl
      · cases hread : Json.read text with
        | error e => rfl
        | ok v =>
          rw [hread] at hschema
          cases hschema
    · cases hschema

/-! ## Definitions -/

/-- The value under a key, where one that is missing or empty is replaced by another. -/
def valueOr (key : String) (default : Json) (fs : List (String × Json)) : Json := (filled? key fs).getD default

/-- A value is a definition with these properties, of which these are required. -/
def Defines (v : Json) (properties : List (String × Json)) (required : List String) : Prop :=
  ∃ fs, v = .obj fs ∧ valueOr "properties" (.obj []) fs = .obj properties ∧
    valueOr "required" (.arr []) fs = .arr (required.map Json.str)

/-- The reason why a value is no definition. -/
def DefinitionFault.Of (v : Json) : DefinitionFault → Prop
  | .notAnObject => ∀ fs, v ≠ .obj fs
  | .badProperties => ∃ fs, v = .obj fs ∧ ∀ properties, valueOr "properties" (.obj []) fs ≠ .obj properties
  | .badRequired => ∃ fs, v = .obj fs ∧ (∃ properties, valueOr "properties" (.obj []) fs = .obj properties) ∧
      ∀ required : List String, valueOr "required" (.arr []) fs ≠ .arr (required.map Json.str)

theorem names?_eq_some {vs : List Json} {required : List String} :
    names? vs = some required ↔ vs = required.map Json.str := by
  induction vs generalizing required with
  | nil => cases required <;> simp [names?]
  | cons v vs ih =>
    cases required with
    | nil => cases v <;> simp [names?]
    | cons r required => cases v <;> simp [names?, ih, and_comm]

theorem read_of_defines {name : String} {v : Json} {properties : List (String × Json)} {required : List String}
    (h : Defines v properties required) : Definition.read name v = .ok ⟨name, properties, required⟩ := by
  obtain ⟨fs, rfl, hproperties, hrequired⟩ := h
  rw [valueOr] at hproperties hrequired
  rw [Definition.read, hproperties]
  dsimp only
  rw [hrequired]
  dsimp only
  rw [names?_eq_some.mpr rfl]

theorem read_of_fault {name : String} {v : Json} {fault : DefinitionFault} (h : fault.Of v) :
    Definition.read name v = .error fault := by
  cases fault with
  | notAnObject =>
    cases v with
    | obj fs => exact absurd rfl (h fs)
    | _ => rfl
  | badProperties =>
    obtain ⟨fs, rfl, hproperties⟩ := h
    rw [Definition.read]
    split
    · next he => exact absurd he (hproperties _)
    · rfl
  | badRequired =>
    obtain ⟨fs, rfl, ⟨properties, hproperties⟩, hrequired⟩ := h
    rw [valueOr] at hproperties
    rw [Definition.read, hproperties]
    dsimp only
    split
    · next vs he =>
      cases hnames : names? vs with
      | none => rfl
      | some required =>
        rw [names?_eq_some.mp hnames] at he
        exact absurd he (hrequired required)
    · rfl

/-- A value is a definition or there is a reason why not. -/
theorem defines_or_fault (v : Json) :
    (∃ properties required, Defines v properties required) ∨ ∃ fault : DefinitionFault, fault.Of v := by
  by_cases hobject : ∃ fs, v = .obj fs
  · obtain ⟨fs, rfl⟩ := hobject
    by_cases hproperties : ∃ properties, valueOr "properties" (.obj []) fs = .obj properties
    · by_cases hrequired : ∃ required : List String, valueOr "required" (.arr []) fs = .arr (required.map Json.str)
      · obtain ⟨properties, hproperties⟩ := hproperties
        obtain ⟨required, hrequired⟩ := hrequired
        exact .inl ⟨properties, required, fs, rfl, hproperties, hrequired⟩
      · exact .inr ⟨.badRequired, fs, rfl, hproperties, fun required he => hrequired ⟨required, he⟩⟩
    · exact .inr ⟨.badProperties, fs, rfl, fun properties he => hproperties ⟨properties, he⟩⟩
  · exact .inr ⟨.notAnObject, fun fs he => hobject ⟨fs, he⟩⟩

/-- What a definition comes to: itself where it is understood, or else a complaint about the schema as a whole that
names it and says why. -/
def Becomes (f : String × Json) : Definition ⊕ Diagnostic → Prop
  | .inl d => d.name = f.1 ∧ Defines f.2 d.properties d.required
  | .inr e => ∃ fault : DefinitionFault, fault.Of f.2 ∧ e = ⟨0, fault.message f.1⟩

/-- What reading makes of a definition. -/
def part (f : String × Json) : Definition ⊕ Diagnostic :=
  match Definition.read f.1 f.2 with
  | .ok d => .inl d
  | .error fault => .inr ⟨0, fault.message f.1⟩

/-- A definition comes to what reading makes of it and to nothing else. -/
theorem becomes_iff {f : String × Json} {x : Definition ⊕ Diagnostic} : Becomes f x ↔ x = part f := by
  constructor
  · intro h
    cases x with
    | inl d =>
      obtain ⟨hname, hdefines⟩ := h
      rw [part, read_of_defines hdefines, ← hname]
    | inr e =>
      obtain ⟨fault, hfault, rfl⟩ := h
      rw [part, read_of_fault hfault]
  · rintro rfl
    rcases defines_or_fault f.2 with ⟨properties, required, hdefines⟩ | ⟨fault, hfault⟩
    · rw [part, read_of_defines hdefines]
      exact ⟨rfl, hdefines⟩
    · rw [part, read_of_fault hfault]
      exact ⟨fault, hfault, rfl⟩

/-- So the definitions of a schema come to what is read of them. -/
theorem forall₂_becomes_iff {fields : List (String × Json)} {parts : List (Definition ⊕ Diagnostic)} :
    List.Forall₂ Becomes fields parts ↔ parts = fields.map part := by
  have hrel : Becomes = fun f x => part f = x := by
    funext f x
    exact propext (becomes_iff.trans eq_comm)
  rw [hrel, ← List.forall₂_map_left_iff (R := fun x y => x = y), List.forall₂_eq_eq_eq]
  exact eq_comm

/-! ## Pointers -/

/-- A property that points at a definition: the place of its column, its name, and the index of the table of that
definition. -/
structure Pointing where
  own : Outline.Place
  property : String
  referenced : Nat

/-- The index of the definition that a pointer names, if there is one and it has a column. -/
def target? (ds : List Definition) (pointer : String) : Option Nat :=
  (definitionName? pointer.toList).bind fun name =>
    (ds.findIdx? fun d => d.name == String.ofList name).filter fun k => ds[k]?.any fun d => !d.objects.isEmpty

/-- What a property that is an object points at. -/
def pointing? (ds : List Definition) (own : Outline.Place) (property : String) (fs : List (String × Json)) :
    Option Pointing :=
  match Json.get? "$ref" fs with
  | some (.str pointer) => (target? ds pointer).map fun k => ⟨own, property, k⟩
  | _ => none

/-- The pointing properties of the definition with an index. -/
def Definition.pointings (ds : List Definition) (d : Definition) (i : Nat) : List Pointing :=
  d.objects.zipIdx.filterMap fun q => pointing? ds ⟨i, q.2⟩ q.1.1 q.1.2

/-- The pointing properties of definitions, in the order of the definitions and of the properties in each. -/
def pointings (ds : List Definition) : List Pointing := ds.zipIdx.flatMap fun q => q.1.pointings ds q.2

/-- A link is that of a pointing property: one to many, from the column that stands for the table pointed at to a
column of the property's own table that is called like it. -/
structure Pointing.Linked (tables : List Outline.Table) (q : Pointing) (l : Outline.Link) : Prop where
  cardinality : l.cardinality = .oneToMany
  referenced : l.source.table = q.referenced
  standing : tables[q.referenced]?.bind keyColumn? = some l.source.column
  owner : l.target.table = q.own.table
  named : tables[q.own.table]?.bind (·.columnNamed? q.property) = some l.target.column

/-- A definition with a column has one that stands for it. -/
theorem isSome_keyColumn? (d : Definition) : (keyColumn? d.outline).isSome = !d.objects.isEmpty := by
  have hempty : d.outline.columns.isEmpty = d.objects.isEmpty := List.isEmpty_map
  rw [← hempty]
  unfold keyColumn?
  split
  · next h =>
    rw [h]
    rfl
  · next h =>
    cases hc : d.outline.columns with
    | nil => exact (h hc).elim
    | cons c cs => rfl

/-- A pointer leads to the key column of the definition it names; one without columns has none. -/
theorem pointed?_eq (ds : List Definition) (pointer : String) :
    pointed? (ds.map Definition.outline) pointer =
      (target? ds pointer).bind fun k => ((ds[k]?.map Definition.outline).bind keyColumn?).map fun j => ⟨k, j⟩ := by
  unfold pointed? target?
  cases definitionName? pointer.toList with
  | none => rfl
  | some name =>
    dsimp only
    rw [Option.bind_some, List.findIdx?_map]
    have hname : ((fun t : Outline.Table => t.name == String.ofList name) ∘ Definition.outline) =
      fun d => d.name == String.ofList name := rfl
    rw [hname]
    cases hk : ds.findIdx? fun d => d.name == String.ofList name with
    | none => rfl
    | some k =>
      obtain ⟨hlt, -⟩ := List.findIdx?_eq_some_iff_getElem.mp hk
      dsimp only
      rw [List.getElem?_map, List.getElem?_eq_getElem hlt, Option.map_some, Option.bind_some, Option.filter_some,
        List.getElem?_eq_getElem hlt, Option.any_some, ← isSome_keyColumn?]
      cases hkey : keyColumn? ds[k].outline with
      | none => rfl
      | some j => simp [hlt, hkey]

theorem keyColumn?_of_target? {ds : List Definition} {pointer : String} {k : Nat} (h : target? ds pointer = some k) :
    ∃ d j, ds[k]? = some d ∧ keyColumn? d.outline = some j := by
  obtain ⟨name, -, h⟩ := Option.bind_eq_some_iff.mp h
  obtain ⟨-, hany⟩ := Option.filter_eq_some_iff.mp h
  cases hd : ds[k]? with
  | none =>
    rw [hd] at hany
    cases hany
  | some d =>
    rw [hd, Option.any_some, ← isSome_keyColumn?] at hany
    obtain ⟨j, hj⟩ := Option.isSome_iff_exists.mp hany
    exact ⟨d, j, rfl, hj⟩

/-- A property of a table finds a column by its name. -/
theorem isSome_columnNamed?_outline {d : Definition} {property : String} {fs : List (String × Json)}
    (h : (property, fs) ∈ d.objects) : (d.outline.columnNamed? property).isSome := by
  rw [Outline.Table.columnNamed?, List.findIdx?_isSome, List.any_eq_true]
  exact ⟨column d.required property fs, List.mem_map_of_mem h, by simp [column]⟩

/-- The links of a table are those of its pointing properties. -/
theorem forall₂_tableLinks {ds : List Definition} {i : Nat} {d : Definition} (hd : ds[i]? = some d) :
    List.Forall₂ (Pointing.Linked (ds.map Definition.outline)) (d.pointings ds i)
      ((tableLinks (ds.map Definition.outline) i d).filterMap Except.toOption) := by
  have hown : (ds.map Definition.outline)[i]? = some d.outline := by rw [List.getElem?_map, hd, Option.map_some]
  have hobjects : List.Forall₂ (fun (q : (String × List (String × Json)) × Nat) o => q.1 = o ∧ o ∈ d.objects)
      d.objects.zipIdx d.objects := by
    conv => rhs; rw [← List.zipIdx_map_fst 0 d.objects]
    rw [List.forall₂_map_right_iff, List.forall₂_same]
    exact fun q hq => ⟨rfl, List.fst_mem_of_mem_zipIdx hq⟩
  rw [tableLinks, Definition.pointers, List.filterMap_filterMap, List.filterMap_filterMap]
  refine List.rel_filterMap ?_ hobjects
  rintro ⟨o, j⟩ ⟨property, fs⟩ ⟨rfl, ho⟩
  dsimp only [pointing?]
  cases Json.get? "$ref" fs with
  | none => exact .none
  | some v =>
    cases v with
    | str pointer =>
      dsimp only
      rw [Option.bind_some, pointed?_eq]
      cases hk : target? ds pointer with
      | none => exact .none
      | some k =>
        obtain ⟨referenced, j', hreferenced, hkey⟩ := keyColumn?_of_target? hk
        obtain ⟨c, hc⟩ := Option.isSome_iff_exists.mp (isSome_columnNamed?_outline ho)
        simp only [hreferenced, hkey, hc, Option.map_some, Option.bind_some]
        refine .some ⟨rfl, rfl, ?_, rfl, ?_⟩
        · rw [List.getElem?_map, hreferenced, Option.map_some, Option.bind_some, hkey]
        · rw [hown, Option.bind_some, hc]
    | _ => exact .none

/-- The links of a draft are those of the pointing properties of its definitions. -/
theorem forall₂_links (ds : List Definition) :
    List.Forall₂ (Pointing.Linked (ds.map Definition.outline)) (pointings ds)
      (((ds.mapIdx (tableLinks (ds.map Definition.outline))).flatten).filterMap Except.toOption) := by
  rw [pointings, List.flatMap_def, List.filterMap_flatten, List.mapIdx_eq_zipIdx_map, List.map_map]
  refine List.rel_flatten ?_
  rw [List.forall₂_map_left_iff, List.forall₂_map_right_iff, List.forall₂_same]
  exact fun q hq => forall₂_tableLinks (List.mem_zipIdx_iff_getElem?.mp hq)

/-! ## The diagram -/

section Drawing

variable {s : Outline.Sheet}

/-- The primary key of the table of a definition is the column named `id`. -/
theorem findIdx?_isPrimaryKey (d : Definition) :
    (d.outline.columns.findIdx? fun c => c.constraints.isPrimaryKey) =
      d.outline.columns.findIdx? fun c => c.name == "id" := by
  rw [Definition.outline, List.findIdx?_map, List.findIdx?_map]
  rfl

/-- A column is found by its name in what is drawn where it is found in the outline. -/
theorem find?_columns_table (p : String → Bool) (k : Nat) (t : Outline.Table) :
    ((s.table k t).columns.find? fun c => p c.name) =
      (t.columns.findIdx? fun c => p c.name).bind fun j => t.columns[j]?.map (s.column k j) :=
  find?_mapIdx (f := s.column k) (p := fun c => p c.name) (q := fun c => p c.name) (fun _ _ => rfl) t.columns

theorem standing?_table {d : Definition} {k j : Nat} {c : Outline.Column} (hj : keyColumn? d.outline = some j)
    (hc : d.outline.columns[j]? = some c) : (s.table k d.outline).standing? = some (s.column k j c) := by
  have hkey : (d.outline.columns.findIdx? fun c => c.name == "id").getD 0 = j := by
    rw [← findIdx?_isPrimaryKey]
    unfold keyColumn? at hj
    split at hj
    · cases hj
    · exact Option.some.inj hj
  rw [Table.standing?, find?_columns_table (· == "id")]
  cases hid : d.outline.columns.findIdx? fun c => c.name == "id" with
  | none =>
    rw [hid, Option.getD_none] at hkey
    subst hkey
    rw [Option.bind_none, Option.none_or, List.head?_eq_getElem?, Outline.Sheet.table, List.getElem?_mapIdx, hc,
      Option.map_some]
  | some j' =>
    rw [hid, Option.getD_some] at hkey
    subst hkey
    rw [Option.bind_some, hc, Option.map_some, Option.some_or]

theorem columnNamed?_table {t : Outline.Table} {k j : Nat} {c : Outline.Column} {name : String}
    (hj : t.columnNamed? name = some j) (hc : t.columns[j]? = some c) :
    (s.table k t).columnNamed? name = some (s.column k j c) := by
  rw [Outline.Table.columnNamed?] at hj
  rw [Table.columnNamed?, find?_columns_table (fun n => nameKey n == nameKey name), hj, Option.bind_some, hc,
    Option.map_some]

end Drawing

/-- A relationship of a diagram is that of a pointing property: one to many, from the column that stands for the
table pointed at to the first column of the property's own table that is called like it, case aside. -/
structure Pointing.Drawn (d : Diagram) (q : Pointing) (r : Relationship) (p : Resolved) : Prop where
  resolves : d.resolve r = some p
  cardinality : r.cardinality = .oneToMany
  sourceTable : d.tables[q.referenced]? = some p.sourceTable
  sourceColumn : p.sourceTable.standing? = some p.sourceColumn
  targetTable : d.tables[q.own.table]? = some p.targetTable
  targetColumn : p.targetTable.columnNamed? q.property = some p.targetColumn
  named : nameKey p.targetColumn.name = nameKey q.property

/-- What is drawn of the link of a pointing property is its relationship. -/
theorem exists_drawn {o : Outline} {ds : List Definition} (ho : o.tables = ds.map Definition.outline)
    {q : Pointing} {l : Outline.Link} (h : q.Linked o.tables l) {s : Outline.Sheet} (i : Nat) :
    ∃ p, q.Drawn (o.draw s) (s.relationship i l) p := by
  obtain ⟨cardinality, ⟨k, j⟩, ⟨i', j'⟩⟩ := l
  obtain ⟨hcardinality, hreferenced, hstanding, howner, hnamed⟩ := h
  dsimp only at hcardinality hreferenced hstanding howner hnamed
  obtain ⟨t, ht, hj⟩ := Option.bind_eq_some_iff.mp hstanding
  obtain ⟨u, hu, hj'⟩ := Option.bind_eq_some_iff.mp hnamed
  obtain ⟨d, -, rfl⟩ : ∃ d, ds[q.referenced]? = some d ∧ d.outline = t := by
    rw [ho, List.getElem?_map] at ht
    exact Option.map_eq_some_iff.mp ht
  subst hcardinality hreferenced howner
  have hc := List.getElem?_eq_getElem (keyColumn?_lt hj)
  obtain ⟨c', hc', hname⟩ := Outline.columnNamed?_eq_some hj'
  refine ⟨_, Outline.resolve_draw (Outline.columnAt?_eq_some.mpr ⟨ht, hc⟩) (Outline.columnAt?_eq_some.mpr ⟨hu, hc'⟩),
    rfl, Outline.getElem?_tables_draw ht, standing?_table hj hc, Outline.getElem?_tables_draw hu,
    columnNamed?_table hj' hc', hname⟩

/-! ## The whole -/

/-- The definitions that are understood. -/
def understood (parts : List (Definition ⊕ Diagnostic)) : List Definition := parts.filterMap Sum.getLeft?

/-- The account of a schema. Each of its definitions comes to a part and could come to no other; the parts that are
definitions are the tables, and the others the complaints. The relationships are those of the pointing properties, and
no property of a table is without a column. -/
structure Imported (fields : List (String × Json)) (parts : List (Definition ⊕ Diagnostic)) (r : Reading) : Prop where
  become : List.Forall₂ Becomes fields parts
  only : ∀ parts', List.Forall₂ Becomes fields parts' → parts' = parts
  tables : r.diagram.tables.map Table.outline = (understood parts).map Definition.outline
  diagnostics : r.diagnostics = parts.filterMap Sum.getRight?
  relationships : List.Forall₂ (fun q l => ∃ p, q.Drawn r.diagram l p) (pointings (understood parts))
    r.diagram.relationships
  named : ∀ (i : Nat) (d : Definition) (t : Table), (understood parts)[i]? = some d → r.diagram.tables[i]? = some t →
    ∀ q ∈ d.objects, (t.columnNamed? q.1).isSome

theorem understood_map_part (fields : List (String × Json)) :
    understood (fields.map part) = (fields.map fun f => (f.1, Definition.read f.1 f.2)).filterMap (·.2.toOption) := by
  rw [understood, List.filterMap_map, List.filterMap_map]
  congr 1
  funext f
  rw [Function.comp_apply, Function.comp_apply, part]
  cases Definition.read f.1 f.2 with
  | ok d => rfl
  | error fault => rfl

theorem tables_draft (fields : List (String × Json)) :
    (draftOfDefinitions fields).outline.tables = (understood (fields.map part)).map Definition.outline := by
  rw [understood_map_part]
  rfl

theorem diagnostics_draft (fields : List (String × Json)) :
    (draftOfDefinitions fields).diagnostics = (fields.map part).filterMap Sum.getRight? := by
  change (fields.map _).filterMap _ = (fields.map part).filterMap Sum.getRight?
  rw [List.filterMap_map, List.filterMap_map]
  congr 1
  funext f
  dsimp only [Function.comp_apply, part]
  cases Definition.read f.1 f.2 with
  | ok d => rfl
  | error fault => rfl

theorem forall₂_links_draft (fields : List (String × Json)) :
    List.Forall₂ (Pointing.Linked (draftOfDefinitions fields).outline.tables)
      (pointings (understood (fields.map part))) (draftOfDefinitions fields).outline.links := by
  rw [tables_draft]
  have hlinks := forall₂_links (understood (fields.map part))
  rw [understood_map_part] at hlinks ⊢
  exact hlinks

/-- A table drawn of a definition is, without ids and position, the one that it defines. -/
theorem outline_of_getElem? {tables : List Table} {ds : List Definition}
    (h : tables.map Table.outline = ds.map Definition.outline) {i : Nat} {d : Definition} {t : Table}
    (hd : ds[i]? = some d) (ht : tables[i]? = some t) : t.outline = d.outline := by
  have hi := congrArg (·[i]?) h
  simpa [hd, ht] using hi

/-- Each property of the definition that a table is drawn of finds a column. -/
theorem isSome_columnNamed? {t : Table} {d : Definition} (h : t.outline = d.outline)
    {q : String × List (String × Json)} (hq : q ∈ d.objects) : (t.columnNamed? q.1).isSome := by
  have hcolumns : t.columns.map Column.outline = d.objects.map fun q => column d.required q.1 q.2 :=
    congrArg Outline.Table.columns h
  obtain ⟨c, hc, he⟩ := List.mem_map.mp (hcolumns ▸ List.mem_map_of_mem hq)
  rw [Table.columnNamed?, List.find?_isSome]
  have hname : c.name = q.1 := congrArg Outline.Column.name he
  exact ⟨c, hc, by rw [hname, BEq.rfl]⟩

/-- What is drawn of definitions accounts for them. -/
theorem imported_draw (fields : List (String × Json)) (s : Outline.Sheet) :
    Imported fields (fields.map part)
      ⟨(draftOfDefinitions fields).outline.draw s, (draftOfDefinitions fields).diagnostics⟩ := by
  have htables : ((draftOfDefinitions fields).outline.draw s).tables.map Table.outline =
      (understood (fields.map part)).map Definition.outline := by
    rw [Outline.outlines_draw, tables_draft]
  refine ⟨forall₂_becomes_iff.mpr rfl, fun parts' => forall₂_becomes_iff.mp, htables, diagnostics_draft fields, ?_, ?_⟩
  · exact forall₂_mapIdx (fun k q l h => exists_drawn (tables_draft fields) h k) (forall₂_links_draft fields)
  · exact fun i d t hd ht q hq => isSome_columnNamed? (outline_of_getElem? htables hd ht) hq

/-- Whatever the document, as a value or a text, its definitions are accounted for. -/
theorem imported {document : Json} {fields : List (String × Json)} (h : definitions? document = some fields)
    {s : Outline.Sheet} (hs : s.grid.columns ≠ 0) :
    ∃ parts r, (draftOfValue document).reading s = .ok r ∧ Imported fields parts r :=
  ⟨fields.map part, _, by rw [draftOfValue_of_definitions? h, Draft.reading_eq hs], imported_draw fields s⟩

/-- Definitions of a library: one that points ahead, at itself, at one that is none and at nothing, one that is
pointed at by its first column, and three that are not understood. -/
def library : List (String × Json) :=
  [("Book", .obj [("properties", .obj [("id", .obj [("type", .str "integer")]), ("note", .null),
      ("author", .obj [("$ref", .str "#/definitions/Author")]), ("sequel", .obj [("$ref", .str "#/definitions/Book")]),
      ("shelf", .obj [("$ref", .str "#/definitions/Shelf")]), ("cover", .obj [("$ref", .str "cover.json")])]),
      ("required", .arr [.str "author"])]),
    ("Shelf", .str "shelf"),
    ("Author", .obj [("properties", .obj [("name", .obj [("type", .str "string")])])]),
    ("Reader", .obj [("properties", .arr [.str "name"])]),
    ("Loan", .obj [("required", .bool true)])]

theorem imported_library :
    definitions? (.obj [("definitions", .obj library)]) = some library ∧ (4 : Int) ≠ 0 ∧
      ∃ parts r, (draftOfValue (.obj [("definitions", .obj library)])).reading { grid := { columns := 4 } } = .ok r ∧
        Imported library parts r :=
  ⟨rfl, by decide, imported rfl (by decide)⟩

end JsonSchema

end Erd
