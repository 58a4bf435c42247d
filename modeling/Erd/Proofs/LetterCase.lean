import Erd.Proofs.Outline
import Erd.Proofs.Text

/-!
# Capitals

The letters of ASCII may be written in capitals without changing where a reader cuts a text: blanks, words,
quotes and signs stay where they are, and keywords are compared without regard to case. So each scanner of
`Erd.Text` finds in the capitals what it finds in the text, in capitals. Names are compared without regard to
case too, so that in an outline a name in capitals still finds its part.

**Results.**
* `toUpper_congr`: what does not tell small letters from capitals does not tell characters from theirs.
* `takeWhile_capitals`, `splitOn_capitals`, `search_capitals`: scanning commutes with capitals.
* `keyword_capitals`, `phrase_capitals`: keywords are found in capitals just as well.
* `lower_capitals`, `upper_capitals`: the small and the capital form of a text do not change.
* `tableNamed?_capitals`, `columnNamed?_capitals`: names find what they found.
* `draw_capitals`: what is drawn of an outline changes by its names only.
-/
namespace Erd.Text

/-! ## Characters -/

/-- The small letters of ASCII. -/
def smallLetters : List Char := (List.range' 97 26).map Char.ofNat

/-- Only a small letter has a capital other than itself. -/
theorem toUpper_eq_self {c : Char} (h : c ∉ smallLetters) : c.toUpper = c := by
  refine dif_neg fun hc => h ?_
  have h1 : 97 ≤ c.toNat := UInt32.le_iff_toNat_le.mp hc.1
  have h2 : c.toNat ≤ 122 := UInt32.le_iff_toNat_le.mp hc.2
  exact List.mem_map.mpr ⟨c.toNat, List.mem_range'_1.mpr (by omega), Char.ofNat_toNat c⟩

/-- What is the same for the small letters and their capitals is the same for all characters and theirs. -/
theorem toUpper_congr {β : Type} {f : Char → β} (h : ∀ c ∈ smallLetters, f c.toUpper = f c) (c : Char) :
    f c.toUpper = f c := by
  by_cases hc : c ∈ smallLetters
  · exact h c hc
  · rw [toUpper_eq_self hc]

@[simp] theorem isBlank_toUpper (c : Char) : isBlank c.toUpper = isBlank c := toUpper_congr (by decide) c

@[simp] theorem isWord_toUpper (c : Char) : isWord c.toUpper = isWord c := toUpper_congr (by decide) c

@[simp] theorem isQuote_toUpper (c : Char) : isQuote c.toUpper = isQuote c := toUpper_congr (by decide) c

@[simp] theorem isAlpha_toUpper (c : Char) : c.toUpper.isAlpha = c.isAlpha := toUpper_congr (by decide) c

@[simp] theorem isCased_toUpper (c : Char) : isCased c.toUpper = isCased c := toUpper_congr (by decide) c

@[simp] theorem isCaseIgnorable_toUpper (c : Char) : isCaseIgnorable c.toUpper = isCaseIgnorable c :=
  toUpper_congr (by decide +kernel) c

@[simp] theorem foldLatin_toUpper (c : Char) :
    foldLatin c.toUpper = foldLatin c := toUpper_congr (by decide) c

@[simp] theorem lowerChar_toUpper (c : Char) :
    lowerChar c.toUpper = lowerChar c := toUpper_congr (by decide) c

@[simp] theorem upperChar_toUpper (c : Char) :
    upperChar c.toUpper = upperChar c := toUpper_congr (by decide) c

/-- A character that is no letter has no other small or capital form. -/
@[simp] theorem toUpper_eq_iff {c x : Char} (hx : x.isAlpha = false) : c.toUpper = x ↔ c = x := by
  by_cases hc : c ∈ smallLetters
  · have halpha : ∀ c ∈ smallLetters, c.isAlpha = true := by decide
    have ha : c.isAlpha = true := halpha c hc
    have hne {d : Char} (hd : d.isAlpha = true) : d ≠ x := by
      rintro rfl
      rw [hx] at hd
      cases hd
    exact iff_of_false (hne (by rw [isAlpha_toUpper, ha])) (hne ha)
  · rw [toUpper_eq_self hc]

/-! ## Texts -/

/-- The text with the letters of ASCII in capitals. -/
def capitals (s : List Char) : List Char := s.map Char.toUpper

example : capitals "größe ς".toList = "GRößE ς".toList := by decide

@[simp] theorem capitals_nil : capitals [] = [] := rfl

@[simp] theorem capitals_cons (c : Char) (s : List Char) : capitals (c :: s) = c.toUpper :: capitals s := rfl

@[simp] theorem capitals_append (s t : List Char) : capitals (s ++ t) = capitals s ++ capitals t :=
  List.map_append

@[simp] theorem capitals_eq_nil {s : List Char} : capitals s = [] ↔ s = [] := List.map_eq_nil_iff

theorem capitals_eq_cons_iff {x : Char} (hx : x.isAlpha = false) {s t : List Char} :
    capitals s = x :: t ↔ ∃ u, s = x :: u ∧ capitals u = t := by
  cases s with
  | nil => simp
  | cons c s => simp [toUpper_eq_iff hx, and_assoc]

@[simp] theorem isEmpty_capitals (s : List Char) : (capitals s).isEmpty = s.isEmpty := List.isEmpty_map

@[simp] theorem toList_toUpper (s : String) : s.toUpper.toList = capitals s.toList := String.toList_map

@[simp] theorem ofList_capitals (s : List Char) : String.ofList (capitals s) = (String.ofList s).toUpper :=
  String.toList_inj.mp (by simp)

section Span

variable {p : Char → Bool} (hp : ∀ c : Char, p c.toUpper = p c) (s : List Char)

include hp

theorem takeWhile_capitals : (capitals s).takeWhile p = capitals (s.takeWhile p) := by
  have hpu : p ∘ Char.toUpper = p := funext hp
  rw [capitals, List.takeWhile_map, hpu, capitals]

theorem dropWhile_capitals : (capitals s).dropWhile p = capitals (s.dropWhile p) := by
  have hpu : p ∘ Char.toUpper = p := funext hp
  rw [capitals, List.dropWhile_map, hpu, capitals]

theorem all_capitals : (capitals s).all p = s.all p := by
  have hpu : p ∘ Char.toUpper = p := funext hp
  rw [capitals, List.all_map, hpu]

end Span

theorem takeWhile_ne_capitals {x : Char} (hx : x.isAlpha = false) (s : List Char) :
    (capitals s).takeWhile (fun c => decide (c ≠ x)) = capitals (s.takeWhile fun c => decide (c ≠ x)) :=
  takeWhile_capitals (fun c => by rw [decide_eq_decide, ne_eq, toUpper_eq_iff hx]) s

theorem dropWhile_ne_capitals {x : Char} (hx : x.isAlpha = false) (s : List Char) :
    (capitals s).dropWhile (fun c => decide (c ≠ x)) = capitals (s.dropWhile fun c => decide (c ≠ x)) :=
  dropWhile_capitals (fun c => by rw [decide_eq_decide, ne_eq, toUpper_eq_iff hx]) s

@[simp] theorem capitals_reverse (s : List Char) :
    capitals s.reverse = (capitals s).reverse := List.map_reverse

@[simp] theorem getLast?_capitals (s : List Char) : (capitals s).getLast? = s.getLast?.map Char.toUpper :=
  List.getLast?_map

@[simp] theorem capitals_dropLast (s : List Char) : capitals s.dropLast = (capitals s).dropLast :=
  List.map_dropLast

/-! ## Blanks and cuts -/

@[simp] theorem trimStart_capitals (s : List Char) : trimStart (capitals s) = capitals (trimStart s) :=
  dropWhile_capitals isBlank_toUpper s

@[simp] theorem trimEnd_capitals (s : List Char) : trimEnd (capitals s) = capitals (trimEnd s) := by
  rw [trimEnd, ← capitals_reverse, dropWhile_capitals isBlank_toUpper, ← capitals_reverse, trimEnd]

@[simp] theorem trim_capitals (s : List Char) : trim (capitals s) = capitals (trim s) := by
  rw [trim, trimStart_capitals, trimEnd_capitals, trim]

@[simp] theorem skipBlanks?_capitals (s : List Char) :
    skipBlanks? (capitals s) = (skipBlanks? s).map capitals := by
  cases s with
  | nil => rfl
  | cons c s =>
    rw [capitals_cons, skipBlanks?, skipBlanks?, isBlank_toUpper, trimStart_capitals]
    split <;> rfl

@[simp] theorem isBlankText_capitals (s : List Char) : isBlankText (capitals s) = isBlankText s :=
  all_capitals isBlank_toUpper s

@[simp] theorem newlines_capitals (s : List Char) : newlines (capitals s) = newlines s := by
  induction s with
  | nil => rfl
  | cons c s ih =>
    rw [newlines, newlines] at ih
    simp [newlines, List.count_cons, ih]

theorem splitOn_capitals {sep : Char} (h : sep.isAlpha = false) (s : List Char) :
    splitOn sep (capitals s) = (splitOn sep s).map capitals := by
  induction s with
  | nil => rfl
  | cons c s ih =>
    simp only [capitals_cons, splitOn, toUpper_eq_iff h, ih]
    split
    · rfl
    · cases splitOn sep s <;> rfl

/-! ## Words and keywords -/

@[simp] theorem leadingWord_capitals (s : List Char) : leadingWord (capitals s) = capitals (leadingWord s) :=
  takeWhile_capitals isWord_toUpper s

@[simp] theorem afterWord_capitals (s : List Char) : afterWord (capitals s) = capitals (afterWord s) :=
  dropWhile_capitals isWord_toUpper s

@[simp] theorem atWordEnd_capitals (s : List Char) : atWordEnd (capitals s) = atWordEnd s := by
  cases s with
  | nil => rfl
  | cons c s => rw [capitals_cons, atWordEnd, atWordEnd, isWord_toUpper]

/-- What is found at the same places is found at the same first place. -/
theorem search_capitals {α : Type} {f : List Char → Option α} {g : α → α}
    (hf : ∀ s, f (capitals s) = (f s).map g) (s : List Char) : search f (capitals s) = (search f s).map g := by
  have hfirst (inside : Bool) : firstAtWord f inside (capitals s) = (firstAtWord f inside s).map g := by
    induction s generalizing inside with
    | nil => rfl
    | cons c s ih =>
      rw [capitals_cons, firstAtWord, firstAtWord, isWord_toUpper, ← capitals_cons, hf, ih]
      cases inside with
      | true => rfl
      | false => cases f (c :: s) <;> rfl
  exact hfirst false

@[simp] theorem dropKeyword_capitals (ks s : List Char) :
    dropKeyword ks (capitals s) = (dropKeyword ks s).map capitals := by
  induction ks generalizing s with
  | nil => rfl
  | cons k ks ih =>
    cases s with
    | nil => rfl
    | cons c s =>
      rw [capitals_cons, dropKeyword, dropKeyword, foldLatin_toUpper, ih]
      split <;> rfl

@[simp] theorem keyword_capitals (word : String) (s : List Char) :
    keyword word (capitals s) = (keyword word s).map capitals := dropKeyword_capitals _ s

/-- A step that commutes with capitals commutes after another one. -/
theorem bind_capitals {α : Type} {f : List Char → Option α} {g : α → α} (hf : ∀ s, f (capitals s) = (f s).map g)
    (o : Option (List Char)) : (o.map capitals).bind f = (o.bind f).map g := by
  cases o with
  | none => rfl
  | some s => exact hf s

@[simp] theorem phrase_capitals (words : List String) (s : List Char) :
    phrase words (capitals s) = (phrase words s).map capitals := by
  induction words generalizing s with
  | nil => rfl
  | cons word words ih =>
    cases words with
    | nil => exact keyword_capitals word s
    | cons next words =>
      have hstep (t : List Char) : phrase (word :: next :: words) t =
        ((keyword word t).bind skipBlanks?).bind (phrase (next :: words)) := rfl
      rw [hstep, hstep, keyword_capitals, bind_capitals skipBlanks?_capitals, bind_capitals ih]

@[simp] theorem hasPhrase_capitals (words : List String) (s : List Char) :
    hasPhrase words (capitals s) = hasPhrase words s := by
  rw [hasPhrase, search_capitals (g := capitals), Option.isSome_map, hasPhrase]
  intro t
  rw [phrase_capitals]
  cases phrase words t <;> simp [Option.filter]

/-! ## Names and parentheses -/

theorem isAlpha_of_isQuote {c : Char} (h : isQuote c = true) : c.isAlpha = false := by
  simp only [isQuote, Bool.or_eq_true, beq_iff_eq] at h
  rcases h with (rfl | rfl) | rfl <;> decide

@[simp] theorem unquote_capitals (s : List Char) : unquote (capitals s) = capitals (unquote s) := by
  rw [unquote, unquote, trim_capitals]
  cases trim s with
  | nil => rfl
  | cons q t =>
    cases t with
    | nil => rfl
    | cons c rest =>
      simp only [capitals_cons, isQuote_toUpper]
      cases hq : isQuote q with
      | false => simp
      | true =>
        have hlast : (capitals (c :: rest)).getLast? = some q.toUpper ↔ (c :: rest).getLast? = some q := by
          have ha := isAlpha_of_isQuote hq
          rw [(toUpper_eq_iff ha).mpr rfl, getLast?_capitals]
          simp [Option.map_eq_some_iff, toUpper_eq_iff ha]
        simp only [capitals_cons, Bool.true_and, beq_iff_eq] at hlast ⊢
        rw [if_congr hlast rfl rfl]
        split <;> simp

@[simp] theorem dropQuote_capitals (s : List Char) : dropQuote (capitals s) = capitals (dropQuote s) := by
  cases s with
  | nil => rfl
  | cons c s =>
    rw [capitals_cons, dropQuote, dropQuote, isQuote_toUpper]
    split <;> rfl

@[simp] theorem looseWord?_capitals (s : List Char) :
    looseWord? (capitals s) = (looseWord? s).map (Prod.map capitals capitals) := by
  simp only [looseWord?, dropQuote_capitals, leadingWord_capitals, afterWord_capitals, isEmpty_capitals]
  split <;> rfl

@[simp] theorem parenthesized?_capitals (s : List Char) :
    parenthesized? (capitals s) = (parenthesized? s).map (Prod.map capitals capitals) := by
  rw [parenthesized?, parenthesized?, trimStart_capitals]
  cases trimStart s with
  | nil => rfl
  | cons c t =>
    by_cases hc : c = '('
    · subst hc
      have hopen : '('.toUpper = '(' := rfl
      have hclose : ')'.isAlpha = false := rfl
      simp only [capitals_cons, hopen, takeWhile_ne_capitals hclose, dropWhile_ne_capitals hclose]
      cases t.takeWhile (· ≠ ')') with
      | nil => rfl
      | cons d body =>
        cases t.dropWhile (· ≠ ')') with
        | nil => rfl
        | cons e rest => by_cases he : e = ')' <;> simp [he]
    · simp [hc]

/-! ## Letter case -/

@[simp] theorem startsCased_capitals (s : List Char) : startsCased (capitals s) = startsCased s := by
  rw [startsCased, startsCased, dropWhile_capitals isCaseIgnorable_toUpper]
  cases s.dropWhile isCaseIgnorable with
  | nil => rfl
  | cons c t => exact isCased_toUpper c

@[simp] theorem lower_capitals (s : List Char) : lower (capitals s) = lower s := by
  have hfrom (after : Bool) : lowerFrom after (capitals s) = lowerFrom after s := by
    induction s generalizing after with
    | nil => rfl
    | cons c s ih => simp [lowerFrom, ih]
  exact hfrom false

@[simp] theorem upper_capitals (s : List Char) : upper (capitals s) = upper s := by
  rw [upper, capitals, List.flatMap_map, upper]
  exact congrArg (List.flatMap · s) (funext upperChar_toUpper)

end Erd.Text

namespace Erd

/-! ## Names in capitals -/

@[simp] theorem nameKey_toUpper (name : String) : nameKey name.toUpper = nameKey name := by
  rw [nameKey, Text.toList_toUpper, Text.lower_capitals, nameKey]

namespace Outline

/-- The column with its name in capitals. -/
def Column.capitals (c : Column) : Column := { c with name := c.name.toUpper }

/-- The table with its names in capitals. -/
def Table.capitals (t : Table) : Table := ⟨t.name.toUpper, t.columns.map Column.capitals⟩

/-- The outline with its names in capitals. -/
def capitals (o : Outline) : Outline := { o with tables := o.tables.map Table.capitals }

/-- A name finds a table in capitals where it finds it. -/
theorem tableNamed?_capitals (tables : List Table) (name : String) :
    tableNamed? (tables.map Table.capitals) name.toUpper =
      (tableNamed? tables name).map (Prod.map id Table.capitals) :=
  tableNamed?_map (fun t => by simp [Table.capitals]) tables

theorem columnNamed?_capitals (t : Table) (name : String) :
    t.capitals.columnNamed? name.toUpper = t.columnNamed? name := by
  have hkey : (fun c : Column => nameKey c.name == nameKey name.toUpper) ∘ Column.capitals =
      fun c => nameKey c.name == nameKey name := by
    funext c
    simp [Column.capitals]
  rw [Table.columnNamed?, Table.capitals, List.findIdx?_map, hkey, Table.columnNamed?]

/-- A change that leaves names alone changes the same column in capitals. -/
theorem changeNamed_capitals {f : Column → Column} (hf : ∀ c, f c.capitals = (f c).capitals) (name : String)
    (cs : List Column) :
    changeNamed name.toUpper f (cs.map Column.capitals) = (changeNamed name f cs).map Column.capitals := by
  induction cs with
  | nil => rfl
  | cons c cs ih =>
    have hkey : nameKey c.capitals.name = nameKey c.name := nameKey_toUpper c.name
    rw [List.map_cons, changeNamed, changeNamed, hkey, nameKey_toUpper, ih, hf]
    split <;> rfl

end Outline

/-! ## Diagrams in capitals -/

/-- The column with its name in capitals. -/
def Column.capitals (c : Column) : Column := { c with name := c.name.toUpper }

/-- The table with its names in capitals. -/
def Table.capitals (t : Table) : Table :=
  { t with name := t.name.toUpper, columns := t.columns.map Column.capitals }

/-- The diagram with its names in capitals. -/
def Diagram.capitals (d : Diagram) : Diagram := { d with tables := d.tables.map Table.capitals }

/-- The reading with the names of its diagram in capitals. -/
def Reading.capitals (r : Reading) : Reading := { r with diagram := r.diagram.capitals }

theorem Outline.draw_capitals (o : Outline) (s : Outline.Sheet) :
    o.capitals.draw s = (o.draw s).capitals := by
  have htable (i : Nat) (t : Outline.Table) : s.table i t.capitals = (s.table i t).capitals := by
    have hcolumn (j : Nat) (c : Outline.Column) : s.column i j c.capitals = (s.column i j c).capitals := rfl
    have hcolumns := mapIdx_map_of_comm hcolumn t.columns
    rw [Outline.Sheet.table, Outline.Table.capitals, hcolumns]
    rfl
  rw [draw, capitals, mapIdx_map_of_comm htable]
  rfl

/-- What is read does not depend on case but for the names, if what is drafted does not. -/
theorem Draft.reading_capitals {d d' : Draft} (ho : d'.outline = d.outline.capitals)
    (hd : d'.diagnostics = d.diagnostics) (s : Outline.Sheet) :
    d'.reading s = (d.reading s).map Reading.capitals := by
  have hempty : d.outline.capitals.tables ≠ [] ↔ d.outline.tables ≠ [] := by simp [Outline.capitals]
  rw [reading, reading, ho, hd, Outline.place, Outline.place, Outline.draw_capitals]
  by_cases hc : s.grid.columns = 0 ∧ d.outline.tables ≠ []
  · rw [if_pos hc, if_pos (hc.imp_right hempty.mpr)]
    rfl
  · rw [if_neg hc, if_neg (mt (And.imp_right hempty.mp) hc)]
    rfl

end Erd
