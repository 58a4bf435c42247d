import Erd.Proofs.LetterCase
import Erd.Sql.Body
import Erd.Sql.Definition
import Mathlib.Data.List.Find

/-!
# Definitions in capitals

A body in capitals has the same definitions in capitals, and each of them is the same kind of definition:
keywords and types are found in any case, and the signs between them are no letters. What a definition
names is named in capitals.

**Results.**
* `definitions_capitals`: a body is cut at the same commas.
* `columnType_capitals`: a spelling means the same type.
* `target?_capitals`, `index?_capitals`, `columnName?_capitals`, `spelling?_capitals`: the parts of a
  definition are found in the same places.
* `read_definition_capitals`: a definition in capitals is read with its names in capitals.
-/
namespace Erd.Sql

open Text

/-! ## Bodies -/

theorem upToClose_capitals (depth : Nat) (s : List Char) :
    upToClose depth (capitals s) = (upToClose depth s).map capitals := by
  induction s generalizing depth with
  | nil => rfl
  | cons c s ih =>
    have hopen : c.toUpper = '(' ↔ c = '(' := toUpper_eq_iff rfl
    have hclose : c.toUpper = ')' ↔ c = ')' := toUpper_eq_iff rfl
    have hcons (o : Option (List Char)) :
        (o.map capitals).map (c.toUpper :: ·) = (o.map (c :: ·)).map capitals := by cases o <;> rfl
    simp only [capitals_cons, upToClose, hopen, hclose, ih, hcons]
    split
    · rfl
    · split
      · cases depth <;> rfl
      · rfl

@[simp] theorem body?_capitals (s : List Char) : body? (capitals s) = (body? s).map capitals := by
  cases s with
  | nil => rfl
  | cons c s =>
    by_cases hc : c = '('
    · subst hc
      exact upToClose_capitals 0 s
    · simp [body?, hc]

theorem after_toUpper (n : Nesting) (c : Char) : n.after c.toUpper = n.after c := by
  simp [Nesting.after]

theorem piecesFrom_capitals (n : Nesting) (s : List Char) :
    piecesFrom n (capitals s) = (piecesFrom n s).map capitals := by
  induction s generalizing n with
  | nil => rfl
  | cons c s ih =>
    have hcomma : c.toUpper = ',' ↔ c = ',' := toUpper_eq_iff rfl
    simp only [capitals_cons, piecesFrom, hcomma, after_toUpper, ih]
    split
    · rfl
    · cases piecesFrom (n.after c) s <;> rfl

@[simp] theorem definitions_capitals (s : List Char) :
    Sql.definitions (capitals s) = (Sql.definitions s).map capitals := by
  have htrim : trim ∘ capitals = capitals ∘ trim := funext trim_capitals
  have hempty : (fun d : List Char => !d.isEmpty) ∘ capitals = fun d => !d.isEmpty :=
    funext fun d => congrArg not (isEmpty_capitals d)
  rw [Sql.definitions, piecesFrom_capitals, List.map_map, htrim, ← List.map_map, List.filter_map, hempty,
    Sql.definitions]

/-! ## Types -/

theorem beq_some_nil_capitals (o : Option (List Char)) : (o.map capitals == some []) = (o == some []) := by
  cases o with
  | none => rfl
  | some s => cases s <;> rfl

theorem isExactly_capitals (word : String) (s : List Char) :
    isExactly word (capitals s) = isExactly word s := by
  rw [isExactly, keyword_capitals, beq_some_nil_capitals, isExactly]

theorem startsWith_capitals (word : String) (s : List Char) :
    startsWith word (capitals s) = startsWith word s := by
  rw [startsWith, keyword_capitals, Option.isSome_map, startsWith]

theorem sized_capitals (digits : String) (s : List Char) :
    sized digits (capitals s) = (sized digits s).map capitals := by
  rw [sized, sized, trimStart_capitals]
  cases trimStart s with
  | nil => rfl
  | cons c t =>
    by_cases hc : c = '('
    · subst hc
      have hopen : '('.toUpper = '(' := rfl
      simp only [capitals_cons, hopen, trimStart_capitals, dropKeyword_capitals]
      cases dropKeyword digits.toList (trimStart t) with
      | none => rfl
      | some rest =>
        simp
        cases trimStart rest with
        | nil => rfl
        | cons d u => by_cases hd : d = ')' <;> simp [hd]
    · simp [hc]

theorem isOptionalSize_capitals (s : List Char) : isOptionalSize (capitals s) = isOptionalSize s := by
  rw [isOptionalSize, isOptionalSize, trimStart_capitals]
  cases trimStart s with
  | nil => rfl
  | cons c t =>
    by_cases hc : c = '('
    · subst hc
      have hparen (c : Char) : (decide (c.toUpper ≠ '(') && decide (c.toUpper ≠ ')')) =
        (decide (c ≠ '(') && decide (c ≠ ')')) := by simp
      have hopen : '('.toUpper = '(' := rfl
      simp only [capitals_cons, hopen,
        dropWhile_capitals (p := fun c => decide (c ≠ '(') && decide (c ≠ ')')) hparen]
      rw [Bool.eq_iff_iff, beq_iff_eq, beq_iff_eq, capitals_eq_cons_iff rfl]
      simp
    · simp [hc]

theorem typeRules_capitals (s : List Char) : ∀ rule ∈ typeRules, rule.1 (capitals s) = rule.1 s := by
  have hor (o o' : Option (List Char)) : (o.map capitals).or (o'.map capitals) = (o.or o').map capitals := by
    cases o <;> rfl
  have hany (o : Option (List Char)) : (o.map capitals).any isOptionalSize = o.any isOptionalSize := by
    cases o with
    | none => rfl
    | some s => exact isOptionalSize_capitals s
  simp only [typeRules, List.forall_mem_cons, isExactly_capitals, startsWith_capitals, keyword_capitals,
    bind_capitals (sized_capitals _), Option.isSome_map, hor, hany, beq_some_nil_capitals, true_and]
  exact List.forall_mem_nil _

@[simp] theorem columnType_capitals (s : List Char) : columnType (capitals s) = columnType s := by
  rw [columnType, columnType, trim_capitals, List.find?_congr (typeRules_capitals (trim s))]

@[simp] theorem isTypeWord_capitals (s : List Char) : isTypeWord (capitals s) = isTypeWord s := by
  rw [isTypeWord, trim_capitals, upper_capitals, isTypeWord]

/-! ## Constraints of tables -/

@[simp] theorem nameText_capitals (s : List Char) : nameText (capitals s) = (nameText s).toUpper := by
  rw [nameText, unquote_capitals, ofList_capitals, nameText]

@[simp] theorem nameList_capitals (s : List Char) :
    nameList (capitals s) = (nameList s).map String.toUpper := by
  rw [nameList, splitOn_capitals rfl, List.map_map, nameList, List.map_map]
  exact List.map_congr_left fun t _ => nameText_capitals t

@[simp] theorem tableText_capitals (s : List Char) : tableText (capitals s) = (tableText s).toUpper := by
  rw [tableText, splitOn_capitals rfl, List.getLast?_map, tableText, ← nameText_capitals]
  cases (splitOn '.' s).getLast? <;> rfl

theorem isNamePart_toUpper (c : Char) : isNamePart c.toUpper = isNamePart c := by
  simp [isNamePart]

/-- What stands after `REFERENCES`, in capitals. -/
def capitalTarget (p : String × String) : String × String := (p.1.toUpper, p.2.toUpper)

@[simp] theorem target?_capitals (s : List Char) :
    target? (capitals s) = (target? s).map (Prod.map capitalTarget capitals) := by
  rw [target?, target?, skipBlanks?_capitals]
  cases skipBlanks? s with
  | none => rfl
  | some t =>
    simp only [Option.map_some, takeWhile_capitals isNamePart_toUpper, dropWhile_capitals isNamePart_toUpper,
      isEmpty_capitals, parenthesized?_capitals, tableText_capitals]
    split
    · rfl
    · cases parenthesized? (t.dropWhile isNamePart) with
      | none => rfl
      | some p => simp [capitalTarget]

@[simp] theorem primaryKey?_capitals (s : List Char) :
    primaryKey? (capitals s) = (primaryKey? s).map (List.map String.toUpper) := by
  rw [primaryKey?, phrase_capitals, bind_capitals parenthesized?_capitals, primaryKey?]
  cases (phrase ["primary", "key"] s).bind parenthesized? with
  | none => rfl
  | some p => simp

/-- The foreign key with its names in capitals. -/
def Reference.capitals (r : Reference) : Reference :=
  ⟨r.column.toUpper, r.table.toUpper, r.referenced.toUpper⟩

@[simp] theorem foreignKey?_capitals (s : List Char) :
    foreignKey? (capitals s) = (foreignKey? s).map Reference.capitals := by
  rw [foreignKey?, phrase_capitals, bind_capitals parenthesized?_capitals, foreignKey?]
  cases (phrase ["foreign", "key"] s).bind parenthesized? with
  | none => rfl
  | some p =>
    obtain ⟨column, rest⟩ := p
    simp only [Option.map_some, Prod.map_apply, trimStart_capitals, keyword_capitals,
      bind_capitals target?_capitals]
    cases (keyword "references" (trimStart rest)).bind target? with
    | none => rfl
    | some q => simp [capitalTarget, Reference.capitals]

/-- One word or another is found in capitals just as well. -/
theorem or_capitals (o o' : Option (List Char)) :
    (o.map capitals).or (o'.map capitals) = (o.or o').map capitals := by cases o <;> rfl

@[simp] theorem indexWord?_capitals (s : List Char) :
    indexWord? (capitals s) = (indexWord? s).map capitals := by
  rw [indexWord?, keyword_capitals, keyword_capitals, or_capitals, indexWord?]

@[simp] theorem indexName_capitals (s : List Char) :
    indexName (capitals s) = Prod.map (Option.map capitals) capitals (indexName s) := by
  rw [indexName, indexName, skipBlanks?_capitals]
  cases skipBlanks? s with
  | none => rfl
  | some t =>
    simp only [Option.map_some, takeWhile_capitals isNamePart_toUpper, dropWhile_capitals isNamePart_toUpper,
      isEmpty_capitals]
    split <;> rfl

@[simp] theorem unique?_capitals (s : List Char) :
    unique? (capitals s) = (unique? s).map (List.map String.toUpper) := by
  rw [unique?, unique?, keyword_capitals]
  cases keyword "unique" s with
  | none => rfl
  | some rest =>
    have hcolumns (t : List Char) : ((parenthesized? (capitals t)).map fun p => nameList p.1) =
        ((parenthesized? t).map fun p => nameList p.1).map (List.map String.toUpper) := by
      rw [parenthesized?_capitals]
      cases parenthesized? t <;> simp
    simp only [Option.map_some, skipBlanks?_capitals, bind_capitals indexWord?_capitals]
    cases (skipBlanks? rest).bind indexWord? with
    | none => exact hcolumns rest
    | some named =>
      simp only [Option.map_some, indexName_capitals]
      exact hcolumns _

@[simp] theorem isCheck_capitals (s : List Char) : isCheck (capitals s) = isCheck s := by
  rw [isCheck, isCheck, keyword_capitals]
  cases keyword "check" s with
  | none => rfl
  | some t =>
    simp only [Option.map_some, trimStart_capitals]
    cases trimStart t with
    | nil => rfl
    | cons c u => by_cases hc : c = '(' <;> simp [hc]

/-! ## Indexes -/

@[simp] theorem afterIndexColumns_capitals (inner : Bool) (s : List Char) :
    afterIndexColumns inner (capitals s) = (afterIndexColumns inner s).map capitals := by
  induction s generalizing inner with
  | nil => rfl
  | cons c s ih =>
    have hopen : c.toUpper = '(' ↔ c = '(' := toUpper_eq_iff rfl
    have hclose : c.toUpper = ')' ↔ c = ')' := toUpper_eq_iff rfl
    simp only [capitals_cons, afterIndexColumns, hopen, hclose, ih]
    split
    · cases inner <;> rfl
    · split
      · cases inner <;> rfl
      · rfl

@[simp] theorem endsIndex_capitals (s : List Char) : endsIndex (capitals s) = endsIndex s := by
  rw [endsIndex, endsIndex, trimStart_capitals]
  cases trimStart s with
  | nil => rfl
  | cons c t =>
    have hcons : capitals (c :: t) = c.toUpper :: capitals t := rfl
    simp only [hcons]
    rw [← hcons, keyword_capitals, bind_capitals skipBlanks?_capitals]
    cases (keyword "using" (c :: t)).bind skipBlanks? <;> simp

@[simp] theorem indexRest?_capitals (s : List Char) :
    indexRest? (capitals s) = (indexRest? s).map (Option.map capitals) := by
  simp only [indexRest?, indexName_capitals, Prod.map_fst, Prod.map_snd, trimStart_capitals]
  cases trimStart (indexName s).2 with
  | nil => rfl
  | cons c t =>
    by_cases hc : c = '('
    · subst hc
      have hopen : '('.toUpper = '(' := rfl
      simp only [capitals_cons, hopen, afterIndexColumns_capitals]
      cases afterIndexColumns false t with
      | none => rfl
      | some rest =>
        simp only [Option.map_some, endsIndex_capitals]
        split <;> rfl
    · simp [hc]

@[simp] theorem index?_capitals (s : List Char) :
    index? (capitals s) = (index? s).map (Option.map capitals) := by
  rw [index?, index?, keyword_capitals, keyword_capitals, or_capitals]
  cases (keyword "fulltext" s).or (keyword "spatial" s) with
  | none => simp only [Option.map_none, indexWord?_capitals, bind_capitals indexRest?_capitals]
  | some rest =>
    simp only [Option.map_some, skipBlanks?_capitals, bind_capitals indexWord?_capitals,
      bind_capitals indexRest?_capitals, indexRest?_capitals]
    cases ((skipBlanks? rest).bind indexWord?).bind indexRest? <;> rfl

@[simp] theorem isIndex_capitals (s : List Char) : isIndex (capitals s) = isIndex s := by
  rw [isIndex, isIndex, index?_capitals]
  cases index? s with
  | none => rfl
  | some name => cases name <;> simp

/-! ## Columns -/

@[simp] theorem columnName?_capitals (s : List Char) :
    columnName? (capitals s) = (columnName? s).map (Prod.map capitals capitals) := by
  cases s with
  | nil => rfl
  | cons q inside =>
    rw [capitals_cons, columnName?, columnName?, isQuote_toUpper, ← capitals_cons]
    cases hq : isQuote q with
    | true =>
      have ha := isAlpha_of_isQuote hq
      simp only [if_true, (toUpper_eq_iff ha).mpr rfl, takeWhile_ne_capitals ha, dropWhile_ne_capitals ha]
      cases inside.takeWhile (· ≠ q) with
      | nil => rfl
      | cons c name => cases inside.dropWhile (· ≠ q) <;> rfl
    | false =>
      have hp (c : Char) : (!isBlank c.toUpper && !isQuote c.toUpper) = (!isBlank c && !isQuote c) := by simp
      simp only [Bool.false_eq_true, if_false,
        takeWhile_capitals (p := fun c => !isBlank c && !isQuote c) hp,
        dropWhile_capitals (p := fun c => !isBlank c && !isQuote c) hp]
      cases (q :: inside).takeWhile fun c => !isBlank c && !isQuote c <;> rfl

@[simp] theorem spelling?_capitals (s : List Char) :
    spelling? (capitals s) = (spelling? s).map (Prod.map capitals capitals) := by
  cases s with
  | nil => rfl
  | cons c s =>
    rw [capitals_cons, spelling?, spelling?, isAlpha_toUpper, ← capitals_cons, leadingWord_capitals,
      afterWord_capitals]
    have hscore : c.toUpper = '_' ↔ c = '_' := toUpper_eq_iff rfl
    simp only [hscore, trimStart_capitals]
    split
    · cases trimStart (afterWord (c :: s)) with
      | nil => rfl
      | cons d inside =>
        by_cases hd : d = '('
        · subst hd
          have hopen : '('.toUpper = '(' := rfl
          have hclose : ')'.isAlpha = false := rfl
          simp only [capitals_cons, hopen, takeWhile_ne_capitals hclose, dropWhile_ne_capitals hclose,
            takeWhile_capitals isBlank_toUpper]
          cases inside.dropWhile (· ≠ ')') with
          | nil => rfl
          | cons e after => by_cases he : e = ')' <;> simp [he]
        · simp [hd]
    · rfl

@[simp] theorem inlineTarget?_capitals (s : List Char) :
    inlineTarget? (capitals s) = (inlineTarget? s).map capitalTarget := by
  have hf (t : List Char) : (keyword "references" (capitals t)).bind target? =
      ((keyword "references" t).bind target?).map (Prod.map capitalTarget capitals) := by
    rw [keyword_capitals, bind_capitals target?_capitals]
  rw [inlineTarget?, search_capitals hf, inlineTarget?, Option.map_map, Option.map_map]
  rfl

/-- The column with its names in capitals. -/
def ColumnDefinition.capitals (c : ColumnDefinition) : ColumnDefinition :=
  { c with
    name := c.name.toUpper
    spelling := c.spelling.toUpper
    reference := c.reference.map Reference.capitals }

@[simp] theorem columnDefinition_capitals (name spelling settings : List Char) :
    columnDefinition (capitals name) (capitals spelling) (capitals settings) =
      (columnDefinition name spelling settings).capitals := by
  simp only [columnDefinition, ofList_capitals, columnType_capitals, hasPhrase_capitals,
    inlineTarget?_capitals, ColumnDefinition.capitals, Option.map_map]
  rfl

/-- The definition with its names in capitals. -/
def Definition.capitals : Definition → Definition
  | .column c => .column c.capitals
  | .primaryKey columns => .primaryKey (columns.map String.toUpper)
  | .foreignKey r => .foreignKey r.capitals
  | .unique columns => .unique (columns.map String.toUpper)
  | .check => .check
  | .index => .index
  | .tableOption => .tableOption
  | .unreadable => .unreadable

@[simp] theorem columnOf_capitals (s : List Char) : columnOf (capitals s) = (columnOf s).capitals := by
  rw [columnOf, columnOf, columnName?_capitals]
  cases columnName? s with
  | none => rfl
  | some p =>
    obtain ⟨name, rest⟩ := p
    simp only [Option.map_some, Prod.map_apply, skipBlanks?_capitals, bind_capitals spelling?_capitals]
    cases (skipBlanks? rest).bind spelling? with
    | none => rfl
    | some q =>
      obtain ⟨spelling, settings⟩ := q
      simp only [Option.map_some, Prod.map_apply, upper_capitals, columnDefinition_capitals]
      split <;> rfl

/-! ## Definitions -/

@[simp] theorem dropConstraintName?_capitals (s : List Char) :
    dropConstraintName? (capitals s) = (dropConstraintName? s).map capitals := by
  rw [dropConstraintName?, dropConstraintName?, keyword_capitals, bind_capitals skipBlanks?_capitals]
  cases (keyword "constraint" s).bind skipBlanks? with
  | none => rfl
  | some t =>
    cases t with
    | nil => rfl
    | cons c rest =>
      have hp (c : Char) : (!isBlank c.toUpper) = !isBlank c := by rw [isBlank_toUpper]
      simp only [Option.map_some, capitals_cons, dropWhile_capitals (p := fun c => !isBlank c) hp,
        skipBlanks?_capitals]

@[simp] theorem dropConstraintNames_capitals (s : List Char) :
    dropConstraintNames (capitals s) = capitals (dropConstraintNames s) := by
  fun_induction dropConstraintNames s with
  | case1 s rest h _ ih =>
    rw [dropConstraintNames]
    split
    · next t ht =>
      rw [dropConstraintName?_capitals, h] at ht
      cases ht
      exact ih
    · next ht =>
      rw [dropConstraintName?_capitals, h] at ht
      cases ht
  | case2 s h =>
    rw [dropConstraintNames]
    split
    · next t ht =>
      rw [dropConstraintName?_capitals, h] at ht
      cases ht
    · rfl

@[simp] theorem classify_capitals (s : List Char) : classify (capitals s) = (classify s).capitals := by
  rw [classify, classify, primaryKey?_capitals]
  cases primaryKey? s with
  | some columns => rfl
  | none =>
    simp only [Option.map_none, foreignKey?_capitals]
    cases foreignKey? s with
    | some r => rfl
    | none =>
      simp only [Option.map_none, unique?_capitals]
      cases unique? s with
      | some columns => rfl
      | none =>
        simp only [Option.map_none, isCheck_capitals, isIndex_capitals, columnOf_capitals]
        split
        · rfl
        · split <;> rfl

@[simp] theorem read_definition_capitals (s : List Char) :
    Definition.read (capitals s) = (Definition.read s).capitals := by
  rw [Definition.read, dropConstraintNames_capitals, classify_capitals, Definition.read]

end Erd.Sql
