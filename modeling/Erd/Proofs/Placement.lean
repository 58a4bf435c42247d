import Erd.Proofs.Dbml.Accounting
import Erd.Proofs.JsonSchema.Import
import Erd.Proofs.Sql.Isolation
import Mathlib.Algebra.Divisibility.Units
import Mathlib.Algebra.Group.Int.Units

/-!
# Tables that are read do not overlap

The places of a grid are counted along its rows, to the right or, with a negative number of columns, to the left. Two
of them are at one position only if rows or columns lie on each other. Readers place the tables that they keep and
count nothing else: a part of a text that gives no table has no place, and the next table takes the place it would
have had.

**Results.**
* `Grid.position?_of_row`: where a place is, by its row and its place in the row.
* `Grid.separates_iff`: which grids have all their places apart.
* `Draft.placed_reading`: the tables of a draft take the places from the first on.
* `placed_on_grid`: both, for every reader and every text.
-/
namespace Erd

namespace Grid

variable {g : Grid}

/-! ## Rows and places -/

/-- The position of the place with an index, if the grid has columns. -/
def position? (g : Grid) (index : Int) : Option Position := (g.place? index).map GridPoint.position

/-- A place of a row. Rows start at zero and go on towards the number of columns, which may be negative. -/
def InRow (g : Grid) (place : Int) : Prop := (0 ≤ place ∧ place < g.columns) ∨ (g.columns < place ∧ place ≤ 0)

/-- No two of the places, counted from zero, are at one position. -/
def Separates (g : Grid) : Prop := ∀ n : Nat, ((List.range n).map fun k : Nat => g.position? k).Nodup

theorem inRow_zero (hg : g.columns ≠ 0) : g.InRow 0 := by
  unfold InRow
  omega

/-- Division that rounds down finds the row and the place in it. -/
theorem fdiv_fmod_of_row (row : Int) {place : Int} (h : g.InRow place) :
    (g.columns * row + place).fdiv g.columns = row ∧ (g.columns * row + place).fmod g.columns = place := by
  rcases h with ⟨hlow, hhigh⟩ | ⟨hlow, hhigh⟩
  · exact (Int.fdiv_fmod_unique (by omega)).mpr ⟨Int.add_comm _ _, hlow, hhigh⟩
  · exact (Int.fdiv_fmod_unique' (by omega)).mpr ⟨Int.add_comm _ _, hlow, hhigh⟩

theorem position?_eq (hg : g.columns ≠ 0) (index : Int) : g.position? index = some (g.point index).position := by
  rw [position?, place?, if_neg hg, Option.map_some]

/-- The position of a place, by its row and its place in the row. -/
theorem position?_of_row (hg : g.columns ≠ 0) (row : Int) {place : Int} (h : g.InRow place) :
    g.position? (g.columns * row + place) = some ⟨.int (place * g.horizontal), .int (row * g.vertical)⟩ := by
  obtain ⟨hrow, hplace⟩ := fdiv_fmod_of_row row h
  rw [position?_eq hg, point, hrow, hplace, GridPoint.position]

/-! ## Places apart -/

theorem separates_iff_injective : g.Separates ↔ ∀ i j : Nat, g.position? i = g.position? j → i = j := by
  constructor
  · intro h i j hij
    have hinj := (List.nodup_map_iff_inj_on List.nodup_range).mp (h (max i j + 1))
    exact hinj i (List.mem_range.mpr (by omega)) j (List.mem_range.mpr (by omega)) hij
  · exact fun h n => (List.nodup_map_iff_inj_on List.nodup_range).mpr fun i _ j _ => h i j

/-- Equal positions are in rows and columns at equal distances. -/
theorem distances_of_position? (hg : g.columns ≠ 0) {i j : Int} (h : g.position? i = g.position? j) :
    i.fmod g.columns * g.horizontal = j.fmod g.columns * g.horizontal ∧
      i.fdiv g.columns * g.vertical = j.fdiv g.columns * g.vertical := by
  rw [position?_eq hg, position?_eq hg, Option.some_inj, GridPoint.position, GridPoint.position] at h
  obtain ⟨hx, hy⟩ := Position.mk.inj h
  exact ⟨Json.int.inj hx, Json.int.inj hy⟩

/-- Unless rows have but one place, some row has two neighbours. -/
theorem exists_neighbours (hg : g.columns ≠ 0) (h : g.columns ≠ 1 ∧ g.columns ≠ -1) :
    ∃ (i : Nat) (row place : Int), g.columns * row + place = i ∧ g.InRow place ∧ g.InRow (place + 1) := by
  unfold InRow
  rcases Int.lt_or_gt_of_ne hg with hneg | hpos
  · -- rows end with their place zero: index zero stands alone, and the next two share a row
    exact ⟨1, -1, 1 + g.columns, by omega, by omega, by omega⟩
  · exact ⟨0, 0, 0, by omega, by omega, by omega⟩

/-- A grid has its places apart if and only if its rows are apart and, unless they have but one place, its columns
are, too. -/
theorem separates_iff (hg : g.columns ≠ 0) :
    g.Separates ↔ g.vertical ≠ 0 ∧ (g.horizontal ≠ 0 ∨ g.columns = 1 ∨ g.columns = -1) := by
  rw [separates_iff_injective]
  constructor
  · refine fun h => ⟨fun hv => ?_, ?_⟩
    · -- the first places of the first two rows
      have hfirst := position?_of_row hg 0 (inRow_zero hg)
      have hnext := position?_of_row hg g.columns.sign (inRow_zero hg)
      simp only [hv, Int.mul_zero, Int.add_zero] at hfirst hnext
      rw [← hfirst, Int.mul_sign_self] at hnext
      have hzero : g.columns.natAbs = 0 := h _ 0 hnext
      exact hg (Int.natAbs_eq_zero.mp hzero)
    · by_contra hne
      rw [not_or, not_or, not_not] at hne
      obtain ⟨i, row, place, hi, hplace, hnext⟩ := exists_neighbours hg hne.2
      have hthis := position?_of_row hg row hplace
      have hthat := position?_of_row hg row hnext
      rw [hne.1, Int.mul_zero] at hthis hthat
      rw [← hthis, ← Int.add_assoc, hi] at hthat
      exact absurd (h (i + 1) i hthat) (Nat.succ_ne_self i)
  · rintro ⟨hv, hh⟩ i j hij
    obtain ⟨hx, hy⟩ := distances_of_position? hg hij
    have hrow : (i : Int).fdiv g.columns = (j : Int).fdiv g.columns := Int.eq_of_mul_eq_mul_right hv hy
    have hplace : (i : Int).fmod g.columns = (j : Int).fmod g.columns := by
      rcases hh with hh | hone
      · exact Int.eq_of_mul_eq_mul_right hh hx
      · have hdvd (k : Int) : g.columns ∣ k := (Int.isUnit_iff.mpr hone).dvd
        rw [Int.fmod_eq_zero_of_dvd (hdvd i), Int.fmod_eq_zero_of_dvd (hdvd j)]
    have hi := Int.mul_fdiv_add_fmod i g.columns
    have hj := Int.mul_fdiv_add_fmod j g.columns
    rw [hrow, hplace, hj] at hi
    exact (Int.ofNat_inj.mp hi).symm

end Grid

/-! ## Tables on the grid -/

/-- The tables of a diagram are those of the parts of a text, of which each gives the name of a table or none. They
stand on a grid one after the other: the table of a part has the place after those of the tables of the parts before
it, whatever else stands between them, and on a grid that has its places apart no table lies on another. -/
structure Placed (g : Grid) (parts : List (Option String)) (d : Diagram) : Prop where
  names : d.tables.map Table.name = parts.filterMap id
  positions : ∀ (k : Nat) (t : Table), d.tables[k]? = some t → g.position? k = some t.position
  gapless : ∀ i name, parts[i]? = some (some name) → ∃ t,
    d.tables[(parts.take i).countP Option.isSome]? = some t ∧ t.name = name ∧
      g.position? ((parts.take i).countP Option.isSome) = some t.position
  apart : g.Separates → (d.tables.map Table.position).Nodup

/-- What is kept stands where as many as are kept before it. -/
theorem getElem?_filterMap_id {α : Type} {parts : List (Option α)} {i : Nat} {a : α}
    (h : parts[i]? = some (some a)) : (parts.filterMap id)[(parts.take i).countP Option.isSome]? = some a := by
  obtain ⟨hi, ha⟩ := List.getElem?_eq_some_iff.mp h
  have hlength : ((parts.take i).filterMap id).length = (parts.take i).countP Option.isSome :=
    List.length_filterMap_eq_countP
  have hparts : parts = parts.take i ++ some a :: parts.drop (i + 1) := by
    rw [← ha, List.getElem_cons_drop, List.take_append_drop]
  conv => lhs; lhs; rw [hparts]
  rw [List.filterMap_append, ← hlength, List.getElem?_append_right (Nat.le_refl _), Nat.sub_self]
  rfl

namespace Outline

variable {o : Outline} {s : Sheet}

theorem position?_of_draw (hs : s.grid.columns ≠ 0) {k : Nat} {t : Erd.Table} (h : (o.draw s).tables[k]? = some t) :
    s.grid.position? k = some t.position := by
  rw [draw, List.getElem?_mapIdx] at h
  obtain ⟨u, -, rfl⟩ := Option.map_eq_some_iff.mp h
  exact Grid.position?_eq hs k

/-- The positions drawn are those of the first places. -/
theorem positions_draw (hs : s.grid.columns ≠ 0) : (o.draw s).tables.map (fun t => some t.position) =
    (List.range (o.draw s).tables.length).map fun k : Nat => s.grid.position? k := by
  refine List.ext_getElem (by simp) fun k hk hk' => ?_
  rw [List.length_map] at hk
  rw [List.getElem_map, List.getElem_map, List.getElem_range, position?_of_draw hs (List.getElem?_eq_getElem hk)]

theorem placed_draw (hs : s.grid.columns ≠ 0) {parts : List (Option String)}
    (h : o.tables.map Table.name = parts.filterMap id) : Placed s.grid parts (o.draw s) where
  names := by rw [names_draw, h]
  positions _ _ := position?_of_draw hs
  gapless i name hi := by
    have hname := getElem?_filterMap_id hi
    rw [← h, ← names_draw o s, List.getElem?_map] at hname
    obtain ⟨t, ht, hname⟩ := Option.map_eq_some_iff.mp hname
    exact ⟨t, ht, hname, position?_of_draw hs ht⟩
  apart hg := by
    have hn := hg (o.draw s).tables.length
    rw [← positions_draw hs, ← Function.comp_def, ← List.map_map] at hn
    exact hn.of_map

end Outline

/-- The tables of a draft take the places from the first on. -/
theorem Draft.placed_reading {d : Draft} {s : Outline.Sheet} (hs : s.grid.columns ≠ 0) {parts : List (Option String)}
    (h : d.outline.tables.map Outline.Table.name = parts.filterMap id) :
    ∃ r, d.reading s = .ok r ∧ Placed s.grid parts r.diagram :=
  ⟨_, Draft.reading_eq hs, Outline.placed_draw hs h⟩

/-! ## The parts of texts -/

/-- What is kept of the names is the names of what is kept. -/
theorem filterMap_id_map {α β : Type} {f : α → String} {keep : β → Option α} (l : List β) :
    (l.map fun b => (keep b).map f).filterMap id = (l.filterMap keep).map f := by
  rw [List.filterMap_map, List.map_filterMap]
  rfl

namespace Sql

/-- For each statement of a script the name of the table that it defines, if it does. -/
def partNames (script : String) : List (Option String) :=
  (chunks script.toList).map fun p => (TableDefinition.read (Text.trim p)).toOption.map TableDefinition.name

theorem names_draft (dialect : Dialect) (script : String) :
    (draft dialect script).outline.tables.map Outline.Table.name = (partNames script).filterMap id := by
  rw [partNames, filterMap_id_map, ← tablesOf_eq, outline_draft, names_outline]

end Sql

namespace Dbml

/-- For each line of a document that counts the name of the table that it announces, if it is a header. -/
def partNames (document : String) : List (Option String) :=
  (significantLines document.toList).map fun l => (header? l.text).map Header.name

theorem names_draft (document : String) :
    (draft document).outline.tables.map Outline.Table.name = (partNames document).filterMap id := by
  rw [partNames, List.filterMap_map, tables_draft, tablesOf_eq, List.map_map]
  exact names_sections _

end Dbml

namespace JsonSchema

/-- For each definition in a document, which is a value or a text, its name if it is understood. -/
def partNames (document : Json) : List (Option String) :=
  ((definitions? document).getD []).map fun f => (Definition.read f.1 f.2).toOption.map Definition.name

theorem names_draftOfValue (document : Json) :
    (draftOfValue document).outline.tables.map Outline.Table.name = (partNames document).filterMap id := by
  rw [partNames, filterMap_id_map]
  cases h : definitions? document with
  | none =>
    rw [outline_of_definitions?_none h]
    rfl
  | some fields =>
    rw [draftOfValue_of_definitions? h, tables_draft, understood_map_part, List.filterMap_map, List.map_map]
    rfl

end JsonSchema

/-! ## The whole -/

/-- On a grid with columns the position of a place tells its row and its place in the row. All places are apart if and
only if the rows are and, unless they have but one place, the columns are, too. Whatever the text, every reader puts
the tables that it keeps, in their order, on the places from the first on. -/
theorem placed_on_grid {s : Outline.Sheet} (hs : s.grid.columns ≠ 0) :
    (∀ row place : Int, s.grid.InRow place → s.grid.position? (s.grid.columns * row + place) =
      some ⟨.int (place * s.grid.horizontal), .int (row * s.grid.vertical)⟩) ∧
    (s.grid.Separates ↔
      s.grid.vertical ≠ 0 ∧ (s.grid.horizontal ≠ 0 ∨ s.grid.columns = 1 ∨ s.grid.columns = -1)) ∧
    (∀ dialect script, ∃ r, Sql.read s dialect script = .ok r ∧ Placed s.grid (Sql.partNames script) r.diagram) ∧
    (∀ document, ∃ r, Dbml.read s document = .ok r ∧ Placed s.grid (Dbml.partNames document) r.diagram) ∧
    ∀ document, ∃ r, (JsonSchema.draftOfValue document).reading s = .ok r ∧
      Placed s.grid (JsonSchema.partNames document) r.diagram :=
  ⟨fun row _ h => Grid.position?_of_row hs row h, Grid.separates_iff hs,
    fun dialect script => Draft.placed_reading hs (Sql.names_draft dialect script),
    fun document => Draft.placed_reading hs (Dbml.names_draft document),
    fun document => Draft.placed_reading hs (JsonSchema.names_draftOfValue document)⟩

/-- Rows of two that go to the left, the next ones below. -/
def leftward : Outline.Sheet := { grid := ⟨-2, 300, -250⟩ }

/-- Three tables with a statement of another kind and a torn one between them. -/
def gappedScript : String :=
  "CREATE TABLE a (id INT); SELECT 1; CREATE TABLE b (id INT); CREATE TABLE c (; CREATE TABLE d (id INT)"

/-- The last of five statements gives the third table, which is the first one of its row. -/
theorem placed_on_grid_leftward : leftward.grid.columns ≠ 0 ∧ leftward.grid.InRow (-1) ∧
    leftward.grid.position? (-2 * -1 + -1) = some ⟨.int (-300), .int 250⟩ ∧ leftward.grid.Separates ∧
    ∃ r t, Sql.read leftward .sqlite gappedScript = .ok r ∧ r.diagram.tables.map Table.name = ["a", "b", "d"] ∧
      (Sql.partNames gappedScript)[4]? = some (some "d") ∧ r.diagram.tables[2]? = some t ∧ t.name = "d" ∧
        t.position = ⟨.int 0, .int 250⟩ ∧ (r.diagram.tables.map Table.position).Nodup := by
  have hs : leftward.grid.columns ≠ 0 := by decide
  have hrow : leftward.grid.InRow (-1) := .inr (by decide)
  have hd : (Sql.partNames gappedScript)[4]? = some (some "d") := by decide +kernel
  have hbefore : ((Sql.partNames gappedScript).take 4).countP Option.isSome = 2 := by decide +kernel
  obtain ⟨hrows, hseparates, hsql, -, -⟩ := placed_on_grid hs
  obtain ⟨r, hr, hplaced⟩ := hsql .sqlite gappedScript
  obtain ⟨t, ht, hname, hposition⟩ := hplaced.gapless 4 "d" hd
  rw [hbefore] at ht hposition
  have hapart := hseparates.mpr (by decide)
  exact ⟨hs, hrow, hrows (-1) (-1) hrow, hapart, r, t, hr, hplaced.names.trans (by decide +kernel), hd, ht, hname,
    (Option.some.inj hposition).symm, hplaced.apart hapart⟩

end Erd
