import Erd.Proofs.Validation

/-!
# What is checked can be built

An untrusted document is read strictly, to check it, and then trustingly, to build the diagram. The trusting
readers stop at a missing key, at an unknown name and at a part of the wrong kind. After a check they stop
nowhere, and they build what the strict readers read: each trusting reader follows a strict one, part by part.

**Results.**
* `Loading.Follows`: a trusting reader takes what a strict one takes.
* `Diagram.ofJson_of_load`: a document that is loaded is built, as the same diagram.
-/
namespace Erd

theorem Except.bind_eq_ok {ε α β : Type} {x : Except ε α} {f : α → Except ε β} {b : β} :
    x >>= f = .ok b ↔ ∃ a, x = .ok a ∧ f a = .ok b := by
  cases x with
  | error e => simp [bind, Except.bind]
  | ok a => simp [bind, Except.bind]

theorem Except.map_eq_ok {ε α β : Type} {x : Except ε α} {f : α → β} {b : β} :
    x.map f = .ok b ↔ ∃ a, x = .ok a ∧ f a = b := by
  cases x with
  | error e => simp [Except.map]
  | ok a => simp [Except.map]

namespace Loading

variable {α : Type} {r : Reader α} {f : Json → Except DocumentError α}

/-- What the strict reader takes, the trusting one takes for the same. -/
def Follows (f : Json → Except DocumentError α) (r : Reader α) : Prop :=
  ∀ path v a, r path v = .ok a → f v = .ok a

theorem exists_of_field {key : String} {path : List PathPart} {fs : List (String × Json)} {a : α}
    (h : field r key path fs = .ok a) :
    ∃ v, Json.get? key fs = some v ∧ r (path ++ [.key key]) v = .ok a := by
  unfold field at h
  cases hv : Json.get? key fs with
  | none => simp [hv] at h
  | some v => exact ⟨v, rfl, by simpa [hv] using h⟩

/-! ## Values -/

theorem follows_text : Follows Document.text text := by
  intro path v a h
  cases v with
  | str s => simpa [text, Document.text] using h
  | _ => cases h

theorem follows_object : Follows Document.fields object := by
  intro path v a h
  cases v with
  | obj fs => simpa [object, Document.fields] using h
  | _ => cases h

theorem follows_partFields (p : DocumentPart) : Follows Document.fields (partFields p) := by
  intro path v a h
  cases v with
  | obj fs => simpa [partFields, Document.fields] using h
  | _ => cases h

theorem number_eq_ok {path : List PathPart} {v n : Json} (h : number path v = .ok n) : n = v := by
  cases v with
  | int n => cases h; rfl
  | float x => cases h; rfl
  | _ => cases h

theorem named_of_columnType {path : List PathPart} {v : Json} {t : ColumnType} (h : columnType path v = .ok t) :
    ∃ s, v = .str s ∧ ColumnType.named s = .ok t := by
  cases v with
  | str s =>
    refine ⟨s, rfl, ?_⟩
    unfold columnType at h
    unfold ColumnType.named
    cases hs : ColumnType.ofName? s with
    | none => simp [hs] at h
    | some u => simpa [hs] using h
  | _ => cases h

theorem tagged_of_cardinality {path : List PathPart} {v : Json} {c : Cardinality}
    (h : cardinality path v = .ok c) : ∃ s, v = .str s ∧ Cardinality.tagged s = .ok c := by
  cases v with
  | str s =>
    refine ⟨s, rfl, ?_⟩
    unfold cardinality at h
    unfold Cardinality.tagged
    cases hs : Cardinality.ofTag? s with
    | none => simp [hs] at h
    | some u => simpa [hs] using h
  | _ => cases h

/-! ## Fields -/

section Fields

variable {key : String} {path : List PathPart} {fs : List (String × Json)}

theorem requiredText_of_field {s : String} (h : field text key path fs = .ok s) :
    Document.requiredText key fs = .ok s := by
  obtain ⟨v, hv, h⟩ := exists_of_field h
  rw [Document.requiredText, Document.required, hv]
  exact follows_text _ _ _ h

theorem optionalFields_of_field {flags : List (String × Json)} (h : field object key path fs = .ok flags) :
    Document.optionalFields key fs = .ok flags := by
  obtain ⟨v, hv, h⟩ := exists_of_field h
  rw [Document.optionalFields, hv]
  exact follows_object _ _ _ h

theorem typeName_of_field {t : ColumnType} (h : field columnType key path fs = .ok t) :
    (Document.requiredText key fs).bind ColumnType.named = .ok t := by
  obtain ⟨v, hv, h⟩ := exists_of_field h
  obtain ⟨s, rfl, hs⟩ := named_of_columnType h
  rw [Document.requiredText, Document.required, hv]
  exact hs

theorem tag_of_field {c : Cardinality} (h : field cardinality key path fs = .ok c) :
    (Document.requiredText key fs).bind Cardinality.tagged = .ok c := by
  obtain ⟨v, hv, h⟩ := exists_of_field h
  obtain ⟨s, rfl, hs⟩ := tagged_of_cardinality h
  rw [Document.requiredText, Document.required, hv]
  exact hs

theorem mapM_of_itemsFrom (hf : Follows f r) {i : Nat} {vs : List Json} {as : List α}
    (h : itemsFrom r path i vs = .ok as) : vs.mapM f = .ok as := by
  induction vs generalizing i as with
  | nil =>
    cases h
    rfl
  | cons v vs ih =>
    unfold itemsFrom at h
    cases hv : r (path ++ [.index i]) v with
    | error e => simp [hv] at h
    | ok a =>
      cases hvs : itemsFrom r path (i + 1) vs with
      | error e => simp [hv, hvs] at h
      | ok bs =>
        rw [hv, hvs] at h
        cases h
        rw [List.mapM_cons, hf _ _ _ hv, ih hvs]
        rfl

/-- The items under a key, read strictly one by one, are there and are read trustingly. -/
theorem optionalItems_of_field (hf : Follows f r) {as : List α} (h : field (list r) key path fs = .ok as) :
    (Document.optionalItems key fs).bind (List.mapM f) = .ok as := by
  obtain ⟨v, hv, h⟩ := exists_of_field h
  rw [Document.optionalItems, hv]
  cases v with
  | arr vs => exact mapM_of_itemsFrom hf h
  | _ => cases h

end Fields

/-! ## Parts -/

theorem follows_column : Follows Column.ofJson column := by
  intro path v c h
  obtain ⟨fs, hfs, h⟩ := Except.bind_eq_ok.mp h
  obtain ⟨id, hid, h⟩ := Except.bind_eq_ok.mp h
  obtain ⟨name, hname, h⟩ := Except.bind_eq_ok.mp h
  obtain ⟨type, htype, h⟩ := Except.bind_eq_ok.mp h
  obtain ⟨flags, hflags, h⟩ := Except.bind_eq_ok.mp h
  cases h
  obtain ⟨t, ht, htype⟩ := Except.bind_eq_ok.mp (typeName_of_field htype)
  simp only [Column.ofJson, follows_partFields _ _ _ _ hfs, requiredText_of_field hid, requiredText_of_field hname, ht,
    htype, optionalFields_of_field hflags, bind, Except.bind]
  rfl

/-- The fields of a position that was read strictly. -/
theorem fields_of_position {path : List PathPart} {v : Json} {p : Position} (h : position path v = .ok p) :
    ∃ fs, Document.fields v = .ok fs ∧ Position.ofFields fs = p := by
  obtain ⟨fs, hfs, h⟩ := Except.bind_eq_ok.mp h
  obtain ⟨x, hx, h⟩ := Except.bind_eq_ok.mp h
  obtain ⟨y, hy, h⟩ := Except.bind_eq_ok.mp h
  cases h
  obtain ⟨vx, hvx, hx⟩ := exists_of_field hx
  obtain ⟨vy, hvy, hy⟩ := exists_of_field hy
  refine ⟨fs, follows_partFields _ _ _ _ hfs, ?_⟩
  rw [number_eq_ok hx, number_eq_ok hy, Position.ofFields, hvx, hvy]
  rfl

theorem follows_table : Follows Table.ofJson table := by
  intro path v t h
  obtain ⟨fs, hfs, h⟩ := Except.bind_eq_ok.mp h
  obtain ⟨id, hid, h⟩ := Except.bind_eq_ok.mp h
  obtain ⟨name, hname, h⟩ := Except.bind_eq_ok.mp h
  obtain ⟨place, hplace, h⟩ := Except.bind_eq_ok.mp h
  obtain ⟨columns, hcolumns, h⟩ := Except.bind_eq_ok.mp h
  cases h
  obtain ⟨w, hw, hplace⟩ := exists_of_field hplace
  obtain ⟨coordinates, hcoordinates, rfl⟩ := fields_of_position hplace
  obtain ⟨vs, hvs, hcolumns⟩ := Except.bind_eq_ok.mp (optionalItems_of_field follows_column hcolumns)
  simp only [Table.ofJson, follows_partFields _ _ _ _ hfs, Document.optionalFields, hw, hcoordinates,
    requiredText_of_field hid, requiredText_of_field hname, hvs, hcolumns, bind, Except.bind]
  rfl

theorem follows_relationship : Follows Relationship.ofJson relationship := by
  intro path v r h
  obtain ⟨fs, hfs, h⟩ := Except.bind_eq_ok.mp h
  obtain ⟨id, hid, h⟩ := Except.bind_eq_ok.mp h
  obtain ⟨cardinality, hcardinality, h⟩ := Except.bind_eq_ok.mp h
  obtain ⟨sourceTable, hst, h⟩ := Except.bind_eq_ok.mp h
  obtain ⟨sourceColumn, hsc, h⟩ := Except.bind_eq_ok.mp h
  obtain ⟨targetTable, htt, h⟩ := Except.bind_eq_ok.mp h
  obtain ⟨targetColumn, htc, h⟩ := Except.bind_eq_ok.mp h
  cases h
  obtain ⟨tag, htag, hcardinality⟩ := Except.bind_eq_ok.mp (tag_of_field hcardinality)
  simp only [Relationship.ofJson, follows_partFields _ _ _ _ hfs, requiredText_of_field hid, htag, hcardinality,
    requiredText_of_field hst, requiredText_of_field hsc, requiredText_of_field htt, requiredText_of_field htc,
    bind, Except.bind]
  rfl

/-- A document of the right shape is built. -/
theorem ofJson_of_diagram {v : Json} {d : Diagram} (h : diagram v = .ok d) : Diagram.ofJson v = .ok d := by
  cases v with
  | obj fs =>
    obtain ⟨tables, htables, h⟩ := Except.bind_eq_ok.mp h
    obtain ⟨relationships, hrelationships, h⟩ := Except.bind_eq_ok.mp h
    cases h
    obtain ⟨ts, hts, htables⟩ := Except.bind_eq_ok.mp (optionalItems_of_field follows_table htables)
    obtain ⟨rs, hrs, hrelationships⟩ :=
      Except.bind_eq_ok.mp (optionalItems_of_field follows_relationship hrelationships)
    simp only [Diagram.ofJson, Document.fields, hts, htables, hrs, hrelationships, bind, Except.bind]
    rfl
  | _ => cases h

end Loading

/-- A document that is loaded is built, as the same diagram. -/
theorem Diagram.ofJson_of_load {v : Json} {d : Diagram} (h : load v = .ok d) : ofJson v = .ok d :=
  Loading.ofJson_of_diagram (load_eq_ok_iff.mp h).1

end Erd
