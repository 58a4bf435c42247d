import Erd.Diagram.Loading
import Mathlib.Data.List.Forall2

/-!
# The declared shape of a document

The parts of a document have declared shapes: a shape says what kind of value stands at a place, and of an object
which fields it must have, in order. All faults of a document against its shape can be listed, depth first and in
the order of the fields. The strict readers stop at the first fault of that list.

**Results.**
* `faults_eq_nil_iff`, `fieldFaults_eq_nil_iff`: a value has no faults exactly if it fits.
* `Loading.reports_column`, `Loading.reports_table` and the like: each strict reader fails for the first fault of
  the shape that it reads.
* `Loading.fault?_diagram`: so does the reader of a whole document.
-/
namespace Erd

/-! ## Shapes -/

/-- A value that is looked at as a whole. -/
inductive Leaf where
  | text
  | number
  | columnType
  | cardinality
  | object
  deriving DecidableEq, Repr

namespace Leaf

/-- The values of a kind. Truth values are no numbers. -/
def accepts : Leaf → Json → Bool
  | .text, .str _ => true
  | .number, .int _ => true
  | .number, .float _ => true
  | .columnType, .str s => (ColumnType.all.map ColumnType.name).contains s
  | .cardinality, .str s => (Cardinality.all.map Cardinality.tag).contains s
  | .object, .obj _ => true
  | _, _ => false

/-- What is wrong with a value of another kind. A number may be whole or not, and the first is asked for. -/
def fault (path : List PathPart) : Leaf → Violation
  | .text => .shape path .string
  | .number => .shape (path ++ [.key "int"]) .number
  | .columnType => .shape path .columnType
  | .cardinality => .shape path .cardinality
  | .object => .shape path .object

end Leaf

/-- What a value has to be. -/
inductive Shape where
  | leaf (k : Leaf)
  | list (item : Shape)
  | part (p : DocumentPart) (fields : List (String × Shape))

mutual

/-- The value has the shape. -/
def Shape.Fits : Shape → Json → Prop
  | .leaf k, v => k.accepts v = true
  | .list item, v => ∃ vs, v = .arr vs ∧ ∀ w ∈ vs, item.Fits w
  | .part _ fields, v => ∃ fs, v = .obj fs ∧ FieldsFit fields fs

/-- All fields that must be there are, and each has its shape. -/
def FieldsFit : List (String × Shape) → List (String × Json) → Prop
  | [], _ => True
  | (key, shape) :: fields, fs => (∃ v, Json.get? key fs = some v ∧ shape.Fits v) ∧ FieldsFit fields fs

end

mutual

/-- All that is wrong with the value at a path. -/
def Shape.faults : Shape → List PathPart → Json → List Violation
  | .leaf k, path, v => if k.accepts v then [] else [k.fault path]
  | .list item, path, v =>
    match v with
    | .arr vs => (vs.mapIdx fun i w => item.faults (path ++ [.index i]) w).flatten
    | _ => [.shape path .list]
  | .part p fields, path, v =>
    match v with
    | .obj fs => fieldFaults fields path fs
    | _ => [.shape path (.part p)]

/-- All that is wrong with the fields of the object at a path, in the order in which they are declared. -/
def fieldFaults : List (String × Shape) → List PathPart → List (String × Json) → List Violation
  | [], _, _ => []
  | (key, shape) :: fields, path, fs =>
    (match Json.get? key fs with
      | some v => shape.faults (path ++ [.key key]) v
      | none => [.shape (path ++ [.key key]) .present]) ++ fieldFaults fields path fs

end

/-- The fields of a position. -/
def positionShape : Shape := .part .position [("x", .leaf .number), ("y", .leaf .number)]

/-- The fields of a column. -/
def columnShape : Shape :=
  .part .column [("id", .leaf .text), ("name", .leaf .text), ("type", .leaf .columnType),
    ("constraints", .leaf .object)]

/-- The fields of a table. -/
def tableShape : Shape :=
  .part .table [("id", .leaf .text), ("name", .leaf .text), ("position", positionShape),
    ("columns", .list columnShape)]

/-- The fields of a relationship. -/
def relationshipShape : Shape :=
  .part .relationship [("id", .leaf .text), ("relationType", .leaf .cardinality), ("sourceTableId", .leaf .text),
    ("sourceColumnId", .leaf .text), ("targetTableId", .leaf .text), ("targetColumnId", .leaf .text)]

/-- The fields of a document. -/
def documentFields : List (String × Shape) :=
  [("tables", .list tableShape), ("relationships", .list relationshipShape)]

/-- Lists that are told place by place are all empty if each is. -/
theorem flatten_mapIdx_eq_nil_iff {α β : Type} {f : Nat → α → List β} {P : α → Prop} {as : List α}
    (hf : ∀ i a, f i a = [] ↔ P a) : (as.mapIdx f).flatten = [] ↔ ∀ a ∈ as, P a := by
  simp only [List.flatten_eq_nil_iff, List.mem_mapIdx]
  constructor
  · intro h a ha
    obtain ⟨i, hi, rfl⟩ := List.mem_iff_getElem.mp ha
    exact (hf i _).mp (h _ ⟨i, hi, rfl⟩)
  · rintro h _ ⟨i, hi, rfl⟩
    exact (hf i _).mpr (h _ (List.getElem_mem hi))

mutual

theorem faults_eq_nil_iff (path : List PathPart) (v : Json) : ∀ s : Shape, s.faults path v = [] ↔ s.Fits v
  | .leaf k => by
    rw [Shape.faults, Shape.Fits]
    split_ifs with h <;> simp [h]
  | .list item => by
    rw [Shape.faults.eq_def, Shape.Fits]
    cases v with
    | arr vs =>
      simpa using flatten_mapIdx_eq_nil_iff fun i w => faults_eq_nil_iff (path ++ [.index i]) w item
    | _ => simp
  | .part p fields => by
    rw [Shape.faults.eq_def, Shape.Fits]
    cases v with
    | obj fs => simpa using fieldFaults_eq_nil_iff path fs fields
    | _ => simp

theorem fieldFaults_eq_nil_iff (path : List PathPart) (fs : List (String × Json)) :
    ∀ fields : List (String × Shape), fieldFaults fields path fs = [] ↔ FieldsFit fields fs
  | [] => by simp [fieldFaults, FieldsFit]
  | (key, shape) :: fields => by
    rw [fieldFaults, FieldsFit, List.append_eq_nil_iff, fieldFaults_eq_nil_iff path fs fields]
    refine and_congr_left fun _ => ?_
    cases Json.get? key fs with
    | none => simp
    | some v => simpa using faults_eq_nil_iff (path ++ [.key key]) v shape

end

/-- A name is one of those listed if it is found among them. -/
theorem contains_map_eq {α : Type} (name : α → String) (as : List α) (s : String) :
    (as.map name).contains s = (as.find? fun a => name a == s).isSome := by
  rw [Bool.eq_iff_iff, List.find?_isSome, List.contains_iff_mem, List.mem_map]
  simp

/-! ## The strict readers report the first fault -/

/-- What reading has failed for. -/
def fault? {α : Type} : Except Violation α → Option Violation
  | .error f => some f
  | .ok _ => none

theorem fault?_eq_some_iff {α : Type} {x : Except Violation α} {f : Violation} :
    fault? x = some f ↔ x = .error f := by
  cases x <;> simp [fault?]

namespace Loading

section Reports

variable {α β : Type} {r : Reader α} {s : Shape}

/-- The reader fails for the first fault of a shape, and does not fail where there is none. -/
def Reports (r : Reader α) (s : Shape) : Prop := ∀ path v, fault? (r path v) = (s.faults path v).head?

/-- Reading in two steps fails for the first fault of the first step, or else of the second. -/
theorem fault?_bind {x : Except Violation α} {f : α → Except Violation β} {as bs : List Violation}
    (hx : fault? x = as.head?) (hf : ∀ a, fault? (f a) = bs.head?) : fault? (x >>= f) = (as ++ bs).head? := by
  rw [List.head?_append, ← hx]
  cases x with
  | error e => rfl
  | ok a => exact hf a

/-- The last step of reading a part. -/
theorem fault?_pure (a : α) : fault? (pure a : Except Violation α) = ([] : List Violation).head? := rfl

/-- The faults of the field under a key. -/
theorem fault?_field (hr : Reports r s) (key : String) (path : List PathPart) (fs : List (String × Json)) :
    fault? (field r key path fs) =
      (match Json.get? key fs with
        | some v => s.faults (path ++ [PathPart.key key]) v
        | none => [Violation.shape (path ++ [PathPart.key key]) .present]).head? := by
  rw [field]
  cases Json.get? key fs with
  | none => rfl
  | some v => exact hr _ v

theorem fault?_itemsFrom (hr : Reports r s) (path : List PathPart) (i : Nat) (vs : List Json) :
    fault? (itemsFrom r path i vs) =
      ((vs.mapIdx fun j w => s.faults (path ++ [.index (i + j)]) w).flatten).head? := by
  induction vs generalizing i with
  | nil => rfl
  | cons v vs ih =>
    have hrest : (vs.mapIdx fun j w => s.faults (path ++ [.index (i + (j + 1))]) w) =
        vs.mapIdx fun j w => s.faults (path ++ [.index (i + 1 + j)]) w := by
      simp only [Nat.add_assoc, Nat.add_comm 1]
    have hv := hr (path ++ [.index i]) v
    simp only [itemsFrom, List.mapIdx_cons, List.flatten_cons, List.head?_append, Nat.add_zero, ← hv, hrest, ← ih]
    cases r (path ++ [.index i]) v with
    | error e => rfl
    | ok a => cases itemsFrom r path (i + 1) vs <;> rfl

theorem reports_list (hr : Reports r s) : Reports (list r) (.list s) := by
  intro path v
  rw [Shape.faults.eq_def]
  cases v with
  | arr vs => simpa [list] using fault?_itemsFrom hr path 0 vs
  | _ => rfl

/-- A part of a document is looked at field by field, if it is an object. -/
theorem fault?_part {p : DocumentPart} {fields : List (String × Shape)} {path : List PathPart} {v : Json}
    {f : List (String × Json) → Except Violation α} (hf : ∀ fs, fault? (f fs) = (fieldFaults fields path fs).head?) :
    fault? (partFields p path v >>= f) = ((Shape.part p fields).faults path v).head? := by
  rw [Shape.faults.eq_def]
  cases v with
  | obj fs => exact hf fs
  | _ => rfl

end Reports

theorem reports_text : Reports text (.leaf .text) := by
  intro path v
  cases v <;> rfl

theorem reports_number : Reports number (.leaf .number) := by
  intro path v
  cases v <;> rfl

theorem reports_object : Reports object (.leaf .object) := by
  intro path v
  cases v <;> rfl

theorem reports_columnType : Reports columnType (.leaf .columnType) := by
  intro path v
  cases v with
  | str s =>
    have haccepts : Leaf.columnType.accepts (.str s) = (ColumnType.ofName? s).isSome := contains_map_eq _ _ s
    rw [Shape.faults, haccepts, columnType]
    cases ColumnType.ofName? s <;> rfl
  | _ => rfl

theorem reports_cardinality : Reports cardinality (.leaf .cardinality) := by
  intro path v
  cases v with
  | str s =>
    have haccepts : Leaf.cardinality.accepts (.str s) = (Cardinality.ofTag? s).isSome := contains_map_eq _ _ s
    rw [Shape.faults, haccepts, cardinality]
    cases Cardinality.ofTag? s <;> rfl
  | _ => rfl

theorem reports_position : Reports position positionShape := by
  intro path v
  refine fault?_part fun fs => ?_
  refine fault?_bind (fault?_field reports_number "x" path fs) fun x => ?_
  refine fault?_bind (fault?_field reports_number "y" path fs) fun y => ?_
  exact fault?_pure _

theorem reports_column : Reports column columnShape := by
  intro path v
  refine fault?_part fun fs => ?_
  refine fault?_bind (fault?_field reports_text "id" path fs) fun id => ?_
  refine fault?_bind (fault?_field reports_text "name" path fs) fun name => ?_
  refine fault?_bind (fault?_field reports_columnType "type" path fs) fun type => ?_
  refine fault?_bind (fault?_field reports_object "constraints" path fs) fun flags => ?_
  exact fault?_pure _

theorem reports_table : Reports table tableShape := by
  intro path v
  refine fault?_part fun fs => ?_
  refine fault?_bind (fault?_field reports_text "id" path fs) fun id => ?_
  refine fault?_bind (fault?_field reports_text "name" path fs) fun name => ?_
  refine fault?_bind (fault?_field reports_position "position" path fs) fun position => ?_
  refine fault?_bind (fault?_field (reports_list reports_column) "columns" path fs) fun columns => ?_
  exact fault?_pure _

theorem reports_relationship : Reports relationship relationshipShape := by
  intro path v
  refine fault?_part fun fs => ?_
  refine fault?_bind (fault?_field reports_text "id" path fs) fun id => ?_
  refine fault?_bind (fault?_field reports_cardinality "relationType" path fs) fun cardinality => ?_
  refine fault?_bind (fault?_field reports_text "sourceTableId" path fs) fun sourceTable => ?_
  refine fault?_bind (fault?_field reports_text "sourceColumnId" path fs) fun sourceColumn => ?_
  refine fault?_bind (fault?_field reports_text "targetTableId" path fs) fun targetTable => ?_
  refine fault?_bind (fault?_field reports_text "targetColumnId" path fs) fun targetColumn => ?_
  exact fault?_pure _

/-- An object is looked at as a document: first its tables, then its relationships. -/
theorem fault?_diagram (fs : List (String × Json)) :
    fault? (diagram (.obj fs)) = (fieldFaults documentFields [] fs).head? := by
  refine fault?_bind (fault?_field (reports_list reports_table) "tables" [] fs) fun tables => ?_
  refine fault?_bind (fault?_field (reports_list reports_relationship) "relationships" [] fs) fun relationships => ?_
  exact fault?_pure _

end Loading

end Erd
