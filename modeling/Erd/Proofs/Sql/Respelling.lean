import Erd.Proofs.Sql.KeyDefinitions
import Erd.Proofs.Sql.KeyFlags

/-!
# Keys among settings and keys as items

A key of one column can be declared among the settings of the column, or as an item anywhere in the body of its table.
The one sets the flags of the column as it is read, the other when the whole body has been read or when foreign keys
are linked. For a primary key and a unique constraint both come to the same diagram. For a foreign key that leads
somewhere they come to the same tables and relationships, unless one of the names it refers to is spelled like the word
for unique: among settings that makes the column unique.

**Results.**
* `Site.bears`: what a body comes to that declares a key, told by the table without it.
* `outline_of_bears`: tables with the same foreign key more come to the same if it leads somewhere.
* `key_spellings`: the spellings of a key come to the same.
* `not_same_fish`: those of a foreign key to a column called like the word for unique do not.
-/
namespace Erd.Sql

open Text

/-! ## Bodies -/

/-- A text with blanks around it. -/
def Padded (u s : List Char) : Prop := ∃ a b, Blanks a ∧ Blanks b ∧ s = a ++ (u ++ b)

theorem Padded.settled {u s : List Char} (h : Padded u s) (hu : IsBodyLine u) : Settled s := by
  obtain ⟨a, b, ha, hb, rfl⟩ := h
  exact (ha.flat.append (hu.flat.append hb.flat)).settled

theorem Padded.definitions_join {u s : List Char} (h : Padded u s) (hu : IsBodyLine u) (xs : List (List Char)) :
    definitions (join ',' (s :: xs)) = u :: definitions (join ',' xs) := by
  rw [definitions_join_cons (h.settled hu)]
  obtain ⟨a, b, ha, hb, rfl⟩ := h
  rw [trim_pad ha hu.tight hb, List.filter_cons_of_pos (by simpa using hu.ne_nil), List.filter_nil,
    List.singleton_append]

/-- A column in the body of a table: the texts in front of it and behind it, and its name, type and clauses. -/
structure Site where
  before : List (List Char)
  name : String
  type : List Char
  clauses : List Clause
  after : List (List Char)

namespace Site

/-- The definitions in front of the column. -/
def front (p : Site) : List Definition := (definitions (join ',' p.before)).map Definition.read

/-- The definitions behind it. -/
def back (p : Site) : List Definition := (definitions (join ',' p.after)).map Definition.read

/-- The column has a name that can be declared, a known type, and settled texts in front, and no other column has its
name. -/
structure Sound (p : Site) : Prop where
  plain : Plain p.name
  declarable : Declarable p.name
  type : IsType p.type
  settled : ∀ y ∈ p.before, Settled y
  alone : ∀ c ∈ (p.front ++ p.back).filterMap Definition.column?, nameKey c.name ≠ nameKey p.name

/-- A body that declares a key more of the column: among its settings, or as an item behind settled texts. -/
inductive Declares (p : Site) (k : Key) : List Char → Prop where
  | setting {ks ls : List Clause} {u y : List Char} (hks : p.clauses = ks ++ ls)
    (hu : IsColumn p.name p.type (ks ++ .key k :: ls) u) (hy : Padded u y) :
    Declares p k (join ',' (p.before ++ y :: p.after))
  | item {u y v z : List Char} {l r : List (List Char)} (hu : IsColumn p.name p.type p.clauses u) (hy : Padded u y)
    (hlr : l ++ r = p.before ++ y :: p.after) (hl : ∀ x ∈ l, Settled x) (hv : k.Item p.name v) (hz : Padded v z) :
    Declares p k (join ',' (l ++ z :: r))

/-- The column as it stands. -/
def definition (p : Site) : Definition :=
  if StartsType p.type then .column (given p.name p.type p.clauses) else .unreadable

/-- The table without the key. -/
def table (p : Site) (n : String) : TableDefinition := ⟨n, p.front ++ p.definition :: p.back⟩

variable {p : Site} {k : Key} {b : List Char}

theorem reads_definition (p : Site) : Reads p.name p.type p.clauses p.definition := by
  unfold definition
  split
  · next h => exact .column false h
  · next h => exact .lost h

/-- The definitions of a body that declares a key more. -/
theorem Declares.definitions (h : p.Declares k b) (hp : p.Sound) :
    (∃ ks ls e, p.clauses = ks ++ ls ∧ Reads p.name p.type (ks ++ .key k :: ls) e ∧
        (definitions b).map Definition.read = p.front ++ e :: p.back) ∨
      ∃ ds es d, Reads p.name p.type p.clauses d ∧ ds ++ es = p.front ++ d :: p.back ∧
        (Sql.definitions b).map Definition.read = ds ++ k.definition p.name :: es := by
  have hbody {u y : List Char} {ks : List Clause} (hu : IsColumn p.name p.type ks u) (hy : Padded u y) :
      (Sql.definitions (join ',' (p.before ++ y :: p.after))).map Definition.read =
        p.front ++ Definition.read u :: p.back := by
    rw [definitions_join_append hp.settled, hy.definitions_join (hu.isBodyLine hp.plain hp.type), List.map_append,
      List.map_cons]
    rfl
  cases h with
  | setting hks hu hy => exact .inl ⟨_, _, _, hks, reads_column hp.plain hp.declarable hp.type hu, hbody hu hy⟩
  | @item u y v z l r hu hy hlr hl hv hz =>
    refine .inr ⟨(Sql.definitions (join ',' l)).map Definition.read, (Sql.definitions (join ',' r)).map Definition.read,
      _, reads_column hp.plain hp.declarable hp.type hu, ?_, ?_⟩
    · rw [← hbody hu hy, ← hlr, definitions_join_append hl, List.map_append]
    · rw [definitions_join_append hl, hz.definitions_join (hv.isBodyLine hp.plain), List.map_append, List.map_cons,
        read_item hp.plain hv]

/-- Columns of that name stand neither in front of the column nor behind it. -/
theorem Sound.alone_front_back (hp : p.Sound) (n : String) :
    (∀ c ∈ (⟨n, p.front⟩ : TableDefinition).ownColumns, nameKey c.name ≠ nameKey p.name) ∧
      ∀ c ∈ (⟨n, p.back⟩ : TableDefinition).ownColumns, nameKey c.name ≠ nameKey p.name := by
  have halone := hp.alone
  rw [List.filterMap_append, List.forall_mem_append] at halone
  exact ⟨List.forall_mem_map.mpr halone.1, List.forall_mem_map.mpr halone.2⟩

/-- What a body that declares a key more comes to, told by the table without the key. -/
theorem bears (hp : p.Sound) (h : p.Declares k b) (n : List Char) (hk : (Clause.key k).namesUnique = false)
    (hforeign : (k.reference? p.name).isSome → StartsType p.type ∧ p.clauses.findSome? Clause.target? = none) :
    Bears p.name k (p.table (String.ofList n)) (tableOf (n, b)) := by
  obtain ⟨ks, ls, e, hks, he, hdefinitions⟩ | ⟨ds, es, d, hd, hsplit, hdefinitions⟩ := h.definitions hp
  · obtain ⟨hfront, hback⟩ := hp.alone_front_back (String.ofList n)
    rw [hks] at hforeign
    rw [tableOf, hdefinitions]
    exact bears_settings _ _ _ (hks ▸ p.reads_definition) he hfront hback hk hforeign
  · obtain ⟨hcolumns, hreferences⟩ := table_middle_congr (String.ofList n) p.front p.back p.reads_definition hd
    obtain ⟨hname, hcs, as, bs, has, hbs⟩ := bears_item p.name k (String.ofList n) ds es
    rw [hsplit, ← hcolumns] at hcs
    rw [hsplit, ← hreferences] at has
    rw [tableOf, hdefinitions]
    exact ⟨hname, hcs, as, bs, has, hbs⟩

/-- A column of that name is only there if its type starts as a type may. -/
theorem Declares.startsType (h : p.Declares k b) (hp : p.Sound) {n : List Char} {j : Nat}
    (hj : (tableOf (n, b)).outline.columnNamed? p.name = some j) : StartsType p.type := by
  by_contra hstart
  obtain ⟨hfront, hback⟩ := hp.alone_front_back (String.ofList n)
  have hnone {d : Definition} {cs : List Clause} (hd : Reads p.name p.type cs d) :
      d.column?.map ColumnDefinition.outline = none := by rw [hd.facts.2.2.1, if_neg hstart]
  have hown : (tableOf (n, b)).ownColumns =
      (⟨String.ofList n, p.front⟩ : TableDefinition).ownColumns ++
        (⟨String.ofList n, p.back⟩ : TableDefinition).ownColumns := by
    obtain ⟨ks, ls, e, hks, he, hdefinitions⟩ | ⟨ds, es, d, hd, hsplit, hdefinitions⟩ := h.definitions hp
    · rw [tableOf, hdefinitions, (table_middle _ _ _ e).1, hnone he]
      rfl
    · have hkey : (k.definition p.name).column? = none := by cases k <;> rfl
      have happend (es : List Definition) : (⟨String.ofList n, ds ++ es⟩ : TableDefinition).ownColumns =
          (⟨String.ofList n, ds⟩ : TableDefinition).ownColumns ++
            (⟨String.ofList n, es⟩ : TableDefinition).ownColumns := by
        rw [TableDefinition.ownColumns, List.filterMap_append, List.map_append]
        rfl
      rw [tableOf, hdefinitions, (table_middle _ _ _ _).1, hkey, Option.map_none, Option.toList_none, List.nil_append,
        ← happend, hsplit, (table_middle _ _ _ d).1, hnone hd]
      rfl
  have hmissing : firstNamed? (tableOf (n, b)).ownColumns p.name = none := by
    rw [firstNamed?, hown, List.findIdx?_eq_none_iff]
    exact List.forall_mem_append.mpr ⟨fun c hc => by simpa using hfront c hc, fun c hc => by simpa using hback c hc⟩
  rw [TableDefinition.columnNamed?_outline, hmissing] at hj
  cases hj

end Site

/-! ## Links -/

theorem mark_of_reference? {x : String} {k : Key} {r : Reference} (h : k.reference? x = some r) :
    k.mark = markForeignKey := by
  cases k with
  | foreign t c => rfl
  | _ => cases h

theorem map_unmark_changeNamed (x : String) (cs : List Outline.Column) :
    (Outline.changeNamed x markForeignKey cs).map unmark = cs.map unmark := by
  induction cs with
  | nil => rfl
  | cons c cs ih =>
    rw [Outline.changeNamed]
    split
    · rfl
    · rw [List.map_cons, List.map_cons, ih]

section Links

variable {x : String} {k : Key} {u t t' : TableDefinition} (h : Bears x k u t) (h' : Bears x k u t')

include h h'

/-- Two tables with the same key more are the same if it is no foreign key. -/
theorem eq_of_bears (hk : k.reference? x = none) : t'.outline = t.outline ∧ t'.references = t.references := by
  have hcolumns {t : TableDefinition} (h : Bears x k u t) : t.columns = Outline.changeNamed x k.mark u.columns := by
    rcases h.columns with hcolumns | ⟨hsome, -⟩
    · exact hcolumns
    · rw [hk] at hsome
      cases hsome
  have hreferences {t : TableDefinition} (h : Bears x k u t) : t.references = u.references := by
    obtain ⟨as, bs, hu, ht⟩ := h.references
    rw [ht, hu, hk]
    rfl
  refine ⟨?_, by rw [hreferences h, hreferences h']⟩
  rw [TableDefinition.outline, TableDefinition.outline, h.name, h'.name, hcolumns h, hcolumns h']

/-- If it is one, they differ by marks and the order of foreign keys. -/
theorem remarked_of_bears {r : Reference} (hk : k.reference? x = some r) : Remarked t t' := by
  have hmark {t : TableDefinition} (h : Bears x k u t) : unmarked t.outline = unmarked u.outline := by
    have hcolumns : t.columns.map unmark = u.columns.map unmark := by
      rcases h.columns with hcolumns | ⟨-, hcolumns⟩
      · rw [hcolumns, mark_of_reference? hk, map_unmark_changeNamed]
      · rw [hcolumns]
    rw [TableDefinition.outline, TableDefinition.outline, unmarked, unmarked, h.name, hcolumns]
  have hperm {t : TableDefinition} (h : Bears x k u t) : t.references.Perm (r :: u.references) := by
    obtain ⟨as, bs, hu, ht⟩ := h.references
    rw [hu, ht, hk]
    exact List.perm_middle
  exact ⟨(hmark h').trans (hmark h).symm, (hperm h').trans (hperm h).symm⟩

omit h' in
/-- It is one of the foreign keys of the table. -/
theorem mem_references_of_bears {r : Reference} (hk : k.reference? x = some r) : r ∈ t.references := by
  obtain ⟨as, bs, -, ht⟩ := h.references
  rw [ht, hk]
  simp

end Links

section Marks

variable {x : String} {found : List Outline.Link} {i : Nat} {cs : List Outline.Column}

/-- Where a link leads from a column, it does not matter whether that is marked already. -/
theorem markLinked_changeNamed {n : String}
    (h : ∀ j, firstNamed? cs x = some j → (found.any fun l => l.target == ⟨i, j⟩) = true) :
    markLinked found i ⟨n, Outline.changeNamed x markForeignKey cs⟩ = markLinked found i ⟨n, cs⟩ := by
  refine congrArg (Outline.Table.mk n) (List.ext_getElem? fun j => ?_)
  rw [List.getElem?_mapIdx, List.getElem?_mapIdx, getElem?_changeNamed, Option.map_map]
  refine congrArg (Option.map · _) (funext fun c => ?_)
  by_cases hj : firstNamed? cs x = some j
  · simp [hj, h j hj, markForeignKey]
  · simp [hj]

variable {ts : List TableDefinition} {s : Outline.Sheet} {t : TableDefinition} {r : Reference} (ht : ts[i]? = some t)
  (hends : (((outline ts).draw s).keyEnds? i r).isSome)

include ht hends

/-- A foreign key with both its ends leads from its column. -/
theorem exists_tie_of_keyEnds? : ∃ y, tie? (ts.map TableDefinition.outline) t.outline r = some y ∧
    t.outline.columnNamed? r.column = some y.child := by
  have hchild := child_keyEnds? (s := s) ht r
  obtain ⟨e, he⟩ := Option.isSome_iff_exists.mp hends
  cases hy : tie? (ts.map TableDefinition.outline) t.outline r with
  | none =>
    rw [hy, he] at hchild
    cases hchild
  | some y =>
    refine ⟨y, rfl, ?_⟩
    obtain ⟨_, -, hy⟩ := Option.bind_eq_some_iff.mp hy
    obtain ⟨_, -, hy⟩ := Option.bind_eq_some_iff.mp hy
    obtain ⟨j, hj, rfl⟩ := Option.map_eq_some_iff.mp hy
    exact hj

/-- It is a link from there. -/
theorem any_target_of_keyEnds? (hr : r ∈ t.references) {j : Nat} (hj : t.outline.columnNamed? r.column = some j) :
    (((links ts).filterMap linked?).any fun l => l.target == ⟨i, j⟩) = true := by
  obtain ⟨y, hy, hchild⟩ := exists_tie_of_keyEnds? ht hends
  obtain rfl := Option.some.inj (hj.symm.trans hchild)
  rw [any_links ht, List.any_eq_true]
  exact ⟨r, hr, by simp [hy]⟩

end Marks

/-! ## Outlines -/

section Outlines

variable {x : String} {k : Key} {u t t' : TableDefinition} {ts us : List TableDefinition}

/-- Two tables with a foreign key more that leads somewhere come to the same. -/
theorem outline_of_bears (h : Bears x k u t) (h' : Bears x k u t') {r : Reference} (hk : k.reference? x = some r)
    {s : Outline.Sheet} (hends : (((outline (ts ++ t :: us)).draw s).keyEnds? ts.length r).isSome) :
    (outline (ts ++ t' :: us)).tables = (outline (ts ++ t :: us)).tables ∧
      (outline (ts ++ t' :: us)).links.Perm (outline (ts ++ t :: us)).links := by
  have hcolumn : r.column = x := by
    cases k with
    | foreign t c =>
      cases hk
      rfl
    | _ => cases hk
  have hremarked : List.Forall₂ Remarked (ts ++ t :: us) (ts ++ t' :: us) := by
    have hrefl (vs : List TableDefinition) : List.Forall₂ Remarked vs vs :=
      List.forall₂_same.mpr fun _ _ => ⟨rfl, List.Perm.refl _⟩
    exact List.rel_append (hrefl ts) (.cons (remarked_of_bears h h' hk) (hrefl us))
  have hfound := (links_remarked hremarked).filterMap linked?
  refine ⟨?_, hfound⟩
  have hget : (ts ++ t :: us)[ts.length]? = some t := by simp
  have hnamed {t : TableDefinition} (h : Bears x k u t) : t.outline.columnNamed? x = firstNamed? u.columns x := by
    have hnames : t.columns.map (·.name) = u.columns.map (·.name) := by
      rcases h.columns with hcolumns | ⟨-, hcolumns⟩
      · rw [hcolumns, names_changeNamed k.mark_facts.1]
      · rw [hcolumns]
    exact congrFun (firstNamed?_congr hnames) x
  have hmarked {t' : TableDefinition} (h' : Bears x k u t') :
      markLinked ((links (ts ++ t :: us)).filterMap linked?) ts.length t'.outline =
        markLinked ((links (ts ++ t :: us)).filterMap linked?) ts.length ⟨u.name, u.columns⟩ := by
    rw [TableDefinition.outline, h'.name]
    rcases h'.columns with hcolumns | ⟨-, hcolumns⟩
    · rw [hcolumns, mark_of_reference? hk]
      refine markLinked_changeNamed fun j hj => ?_
      refine any_target_of_keyEnds? hget hends (mem_references_of_bears h hk) ?_
      rw [hcolumn, hnamed h, hj]
    · rw [hcolumns]
  simp only [outline, markLinked_perm hfound, List.map_append, List.map_cons, List.mapIdx_append, List.mapIdx_cons,
    List.length_map, Nat.zero_add, hmarked h, hmarked h']

end Outlines

/-! ## Scripts -/

/-- The relationship without its id. -/
def unnumbered (x : Relationship) : Cardinality × Endpoint × Endpoint := (x.cardinality, x.source, x.target)

/-- The same tables, and between them the same relationships in any order. -/
structure SameDrawing (d e : Diagram) : Prop where
  tables : e.tables = d.tables
  relationships : (e.relationships.map unnumbered).Perm (d.relationships.map unnumbered)

theorem sameDrawing_draw {o o' : Outline} (ht : o'.tables = o.tables) (hl : o'.links.Perm o.links) (s : Outline.Sheet) :
    SameDrawing (o.draw s) (o'.draw s) := by
  have hlinks (o : Outline) : (o.draw s).relationships.map unnumbered =
      o.links.map fun l => (l.cardinality, s.endpoint l.source, s.endpoint l.target) := by
    refine List.ext_getElem? fun k => ?_
    have hk : (o.draw s).relationships[k]? = o.links[k]?.map (s.relationship k) := List.getElem?_mapIdx
    rw [List.getElem?_map, List.getElem?_map, hk, Option.map_map]
    rfl
  refine ⟨congrArg (List.mapIdx s.table) ht, ?_⟩
  rw [hlinks, hlinks]
  exact hl.map _

/-- A key of a column among the settings of the column and as an item come to the same, wherever the item stands and
whatever names are in front of it. A primary key and a unique constraint come to the same diagram, and a foreign key
that leads somewhere to the same tables and relationships, if neither of the names that it refers to is spelled like
the word for unique and nothing else is referred to among the settings. -/
theorem key_spellings {s : Outline.Sheet} (hs : s.grid.columns ≠ 0) (d : Dialect) {p : Site} (hp : p.Sound) {k : Key}
    {b b' : List Char} (hb : p.Declares k b) (hb' : p.Declares k b') {q q' : String} {n : List Char}
    {before after : List (List Char × List Char)} (hq : bodies q.toList = before ++ (n, b) :: after)
    (hq' : bodies q'.toList = before ++ (n, b') :: after) :
    ∃ r r', read s d q = .ok r ∧ read s d q' = .ok r' ∧ (k = .primary ∨ k = .unique → r'.diagram = r.diagram) ∧
      ∀ t c, k = .foreign t c → ¬ IsKeyword "unique" t.toList → ¬ IsKeyword "unique" c.toList →
        (∀ k ∈ p.clauses, k.target? = none) → (r.diagram.keyEnds? before.length ⟨p.name, t, c⟩).isSome →
          SameDrawing r.diagram r'.diagram := by
  have htables {q : String} {b : List Char} (hq : bodies q.toList = before ++ (n, b) :: after) :
      tablesOf q.toList = before.map tableOf ++ tableOf (n, b) :: after.map tableOf := by
    rw [tablesOf_eq_bodies, hq, List.map_append, List.map_cons]
  refine ⟨_, _, read_eq d q hs, read_eq d q' hs, fun hk => ?_, fun t c hk ht hc hclauses hends => ?_⟩
  · have hnone : k.reference? p.name = none := by
      rcases hk with rfl | rfl <;> rfl
    have hsilent : (Clause.key k).namesUnique = false := by
      rcases hk with rfl | rfl <;> rfl
    have hbears {b : List Char} (hb : p.Declares k b) : Bears p.name k (p.table (String.ofList n)) (tableOf (n, b)) :=
      p.bears hp hb n hsilent fun hsome => by simp [hnone] at hsome
    obtain ⟨ho, hr⟩ := eq_of_bears (hbears hb) (hbears hb') hnone
    rw [htables hq, htables hq', outline_congr ho hr]
  · subst hk
    have hsilent : (Clause.key (.foreign t c)).namesUnique = false := by simp [Clause.namesUnique, ht, hc]
    rw [htables hq] at hends ⊢
    rw [htables hq']
    have hlength : before.length = (before.map tableOf).length := (List.length_map _).symm
    rw [hlength] at hends
    have hstart : StartsType p.type := by
      obtain ⟨y, -, hchild⟩ := exists_tie_of_keyEnds? (t := tableOf (n, b)) (by simp) hends
      exact hb.startsType hp hchild
    have hbears {b : List Char} (hb : p.Declares (.foreign t c) b) :
        Bears p.name (.foreign t c) (p.table (String.ofList n)) (tableOf (n, b)) :=
      p.bears hp hb n hsilent fun _ => ⟨hstart, List.findSome?_eq_none_iff.mpr hclauses⟩
    obtain ⟨htables, hlinks⟩ := outline_of_bears (hbears hb) (hbears hb') rfl hends
    exact sameDrawing_draw htables hlinks s

/-! ## Examples -/

/-- A column of fish with these settings. -/
def seaColumn (settings : List Char) : List Char := "sea".toList ++ ([' '] ++ ("INT".toList ++ settings))

/-- A name in parentheses without blanks. -/
def parens (name : String) : List Char := [] ++ '(' :: ([] ++ (name.toList ++ []) ++ [')'])

/-- The words for a primary key. -/
def primaryWords : List Char := "PRIMARY".toList ++ ([' '] ++ "KEY".toList)

/-- A reference to a column of the table of seas. -/
def seasReference (column : String) : List Char :=
  "REFERENCES".toList ++ ([' '] ++ ("seas".toList ++ parens column))

/-- A name in front of a constraint. -/
def namedItem (item : List Char) : List Char :=
  "CONSTRAINT".toList ++ ([' '] ++ ("k".toList ++ ([' '] ++ item)))

/-- The item of a foreign key to a column of the table of seas. -/
def seasItem (column : String) : List Char :=
  "FOREIGN".toList ++ ([' '] ++ "KEY".toList) ++ (parens "sea" ++ ([' '] ++ seasReference column))

theorem inParens_parens (name : String) : InParens name (parens name) := .mk (by decide) (by decide) (by decide)

theorem refers_seas (column : String) : Refers "seas" column (seasReference column) :=
  .mk (by decide) (by decide) (inParens_parens column)

theorem item_seas {column : String} (h : Plain column) : (Key.foreign "seas" column).Item "sea" (seasItem column) :=
  .foreign (g := [' ']) (by decide) h (.cons (by decide) (by decide) (.one (by decide))) (inParens_parens "sea")
    (by decide) (refers_seas column)

theorem padded_self (u : List Char) : Padded u u := ⟨[], [], by decide, by decide, by simp⟩

/-- The column of fish without settings, and another one behind it. -/
def seaSite : Site := ⟨[], "sea", "INT".toList, [], [" size INT".toList]⟩

theorem sound_seaSite : seaSite.Sound :=
  ⟨by decide, by decide, .word (by decide) (by decide), by decide, by decide +kernel⟩

/-- The column with a clause among its settings. -/
theorem declares_setting {k : Key} {u : List Char} (hu : (Clause.key k).Spells u) :
    seaSite.Declares k (join ',' [seaColumn ([' '] ++ (u ++ [])), " size INT".toList]) :=
  .setting (show seaSite.clauses = [] ++ [] from rfl) (.mk (by decide) (.cons (by decide) hu .nil)) (padded_self _)

/-- The columns with an item behind them that has a name. -/
theorem declares_item {k : Key} {v : List Char} (hv : k.Item "sea" v) :
    seaSite.Declares k (join ',' [seaColumn [], " size INT".toList, namedItem v]) :=
  .item (l := [seaColumn [], " size INT".toList]) (r := []) (.mk (by decide) .nil) (padded_self _) rfl (by decide)
    (.named (by decide) (by decide) (by decide) (by decide) hv) (padded_self _)

/-- Fish with a primary key among the settings. -/
def primaryScript : String := "CREATE TABLE fish (sea INT PRIMARY KEY, size INT)"

/-- The same with the primary key as an item. -/
def primaryItemScript : String := "CREATE TABLE fish (sea INT, size INT,CONSTRAINT k PRIMARY KEY(sea))"

/-- Fish that refer to a column of the table of seas among the settings. -/
def seasScript (column : String) : String :=
  "CREATE TABLE seas (" ++ column ++ " INT);CREATE TABLE fish (sea INT REFERENCES seas(" ++ column ++ "), size INT)"

/-- The same with the foreign key as an item. -/
def seasItemScript (column : String) : String :=
  "CREATE TABLE seas (" ++ column ++ " INT);CREATE TABLE fish (sea INT, size INT,CONSTRAINT k FOREIGN KEY(sea) " ++
    "REFERENCES seas(" ++ column ++ "))"

theorem key_spellings_fish : ({} : Outline.Sheet).grid.columns ≠ 0 ∧ seaSite.Sound ∧
    (∃ r r', read {} .mysql primaryScript = .ok r ∧ read {} .mysql primaryItemScript = .ok r' ∧
      r'.diagram = r.diagram) ∧
    ∃ r r', read {} .mysql (seasScript "id") = .ok r ∧ read {} .mysql (seasItemScript "id") = .ok r' ∧
      (r.diagram.keyEnds? 1 ⟨"sea", "seas", "id"⟩).isSome ∧ SameDrawing r.diagram r'.diagram := by
  have hs : ({} : Outline.Sheet).grid.columns ≠ 0 := by decide
  have hwords : Words ["primary", "key"] primaryWords := .cons (by decide) (by decide) (.one (by decide))
  refine ⟨hs, sound_seaSite, ?_, ?_⟩
  · obtain ⟨r, r', hr, hr', hsame, -⟩ := @key_spellings _ hs .mysql _ sound_seaSite _ _ _
      (declares_setting (.primary hwords)) (declares_item (.primary hwords (inParens_parens "sea"))) primaryScript
      primaryItemScript "fish".toList [] [] (by decide +kernel) (by decide +kernel)
    exact ⟨r, r', hr, hr', hsame (.inl rfl)⟩
  · obtain ⟨r, r', hr, hr', -, hsame⟩ := @key_spellings _ hs .mysql _ sound_seaSite _ _ _
      (declares_setting (.foreign (by decide) (by decide) (refers_seas "id")))
      (declares_item (item_seas (by decide))) (seasScript "id") (seasItemScript "id") "fish".toList
      [("seas".toList, "id INT".toList)] [] (by decide +kernel) (by decide +kernel)
    have hends : (r.diagram.keyEnds? 1 ⟨"sea", "seas", "id"⟩).isSome := by
      obtain rfl := Except.ok.inj ((read_eq .mysql (seasScript "id") hs).symm.trans hr)
      decide +kernel
    exact ⟨r, r', hr, hr', hends, hsame "seas" "id" rfl (by decide) (by decide) (by decide) hends⟩

/-- Which columns of a diagram are unique. -/
def uniqueFlags (d : Diagram) : List (List Bool) := d.tables.map fun t => t.columns.map fun c => c.constraints.isUnique

/-- Fish that refer to a column called like the word for unique are unique if they do so among the settings. -/
theorem not_same_fish : seaSite.Sound ∧ ∃ b b', seaSite.Declares (.foreign "seas" "unique") b ∧
    seaSite.Declares (.foreign "seas" "unique") b' ∧
    bodies (seasScript "unique").toList = [("seas".toList, "unique INT".toList), ("fish".toList, b)] ∧
    bodies (seasItemScript "unique").toList = [("seas".toList, "unique INT".toList), ("fish".toList, b')] ∧
    ∃ r r', read {} .mysql (seasScript "unique") = .ok r ∧ read {} .mysql (seasItemScript "unique") = .ok r' ∧
      (r.diagram.keyEnds? 1 ⟨"sea", "seas", "unique"⟩).isSome ∧ ¬ SameDrawing r.diagram r'.diagram := by
  have hs : ({} : Outline.Sheet).grid.columns ≠ 0 := by decide
  have hends : (((outline (tablesOf (seasScript "unique").toList)).draw {}).keyEnds? 1
      ⟨"sea", "seas", "unique"⟩).isSome = true := by decide +kernel
  have hsetting : uniqueFlags ((outline (tablesOf (seasScript "unique").toList)).draw {}) =
      [[false], [true, false]] := by decide +kernel
  have hitem : uniqueFlags ((outline (tablesOf (seasItemScript "unique").toList)).draw {}) =
      [[false], [false, false]] := by decide +kernel
  refine ⟨sound_seaSite, _, _, declares_setting (.foreign (by decide) (by decide) (refers_seas "unique")),
    declares_item (item_seas (by decide)), by decide +kernel, by decide +kernel, _, _, read_eq _ _ hs, read_eq _ _ hs,
    hends, fun h => ?_⟩
  have hflags := congrArg (List.map fun t : Table => t.columns.map fun c => c.constraints.isUnique) h.tables
  exact absurd (hitem.symm.trans (hflags.trans hsetting)) (by decide)

end Erd.Sql
