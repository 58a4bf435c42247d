import Erd.Proofs.Dbml.Line

/-!
# References among settings

A reference may stand among the settings of a column, between the commas and in small letters like every
setting. A name of ASCII loses nothing by that but its capitals: quotes, points and blanks stay where they are,
so the two names are read back in small letters, and in small letters they still find what they found.

**Results.**
* `lower_endLine`: the small form of a column's names is the same two names written in small letters.
* `settingRead_refSetting`: a reference in small letters is read as a setting.
* `Extended.settingTexts_eq`: a reference that is put between settings is a setting of its own.
* `read_given`: a column line that is given a reference is read as before, with the reference.
-/
namespace Erd.Dbml

open Text

/-! ## Small letters -/

/-- What holds of the first 128 characters holds of every character of ASCII. -/
theorem forall_ascii {P : Char → Prop} (h : ∀ n < 128, P (Char.ofNat n)) {c : Char} (hc : c.toNat < 128) : P c := by
  have := h c.toNat hc
  rwa [Char.ofNat_toNat] at this

section Ascii

variable {c : Char} (hc : c.toNat < 128)

include hc

theorem ascii_toLower : c.toLower.toNat < 128 := forall_ascii (P := fun c => c.toLower.toNat < 128) (by decide) hc

theorem toLower_toLower : c.toLower.toLower = c.toLower :=
  forall_ascii (P := fun c => c.toLower.toLower = c.toLower) (by decide) hc

theorem isWord_toLower : isWord c.toLower = isWord c :=
  forall_ascii (P := fun c => isWord c.toLower = isWord c) (by decide) hc

theorem isLineEnd_toLower : isLineEnd c.toLower = isLineEnd c :=
  forall_ascii (P := fun c => isLineEnd c.toLower = isLineEnd c) (by decide) hc

end Ascii

/-- The small form of a text of ASCII is that of each character. -/
theorem lower_ascii {s : List Char} (h : ∀ c ∈ s, c.toNat < 128) : lower s = s.map Char.toLower := by
  have hfrom (after : Bool) : lowerFrom after s = s.map Char.toLower := by
    induction s generalizing after with
    | nil => rfl
    | cons c s ih =>
      obtain ⟨hc, hs⟩ := List.forall_mem_cons.mp h
      have hsigma : c ≠ '\u03A3' := by
        rintro rfl
        exact absurd hc (by decide)
      rw [lowerFrom, if_neg hsigma, lowerChar, if_pos hc, ih hs]
      rfl
  exact hfrom false

theorem lower_append_ascii {s t : List Char} (hs : ∀ c ∈ s, c.toNat < 128) (ht : ∀ c ∈ t, c.toNat < 128) :
    lower (s ++ t) = lower s ++ lower t := by
  rw [lower_ascii hs, lower_ascii ht, ← List.map_append, lower_ascii]
  exact List.forall_mem_append.mpr ⟨hs, ht⟩

/-- The signs that end a name between quotes, a setting, or the settings of a column. -/
def signs : List Char := ['"', ',', '[', ']']

theorem mem_signs_of_toLower {c : Char} (hc : c.toNat < 128) (h : c.toLower ∈ signs) : c ∈ signs :=
  forall_ascii (P := fun c => c.toLower ∈ signs → c ∈ signs) (by decide) hc h

/-- A name that a setting can hold: not empty, of ASCII and on one line, and without the signs that would end
it. -/
structure Portable (name : String) : Prop where
  ne_nil : name.toList ≠ []
  ascii : ∀ c ∈ name.toList, c.toNat < 128
  noSign : ∀ c ∈ name.toList, c ∉ signs
  oneLine : OneLine name.toList

namespace Portable

variable {name : String} (h : Portable name)

include h

theorem writable : Writable name :=
  ⟨h.ne_nil, fun hq => h.noSign _ hq (by decide), h.oneLine⟩

theorem toList_nameKey : (nameKey name).toList = name.toList.map Char.toLower := by
  rw [nameKey, String.toList_ofList, lower_ascii h.ascii]

/-- A name in small letters can stand where the name can. -/
theorem nameKey : Portable (nameKey name) := by
  refine ⟨?_, ?_, ?_, ?_⟩
  · simpa [h.toList_nameKey] using h.ne_nil
  · rw [h.toList_nameKey, List.forall_mem_map]
    exact fun c hc => ascii_toLower (h.ascii c hc)
  · rw [h.toList_nameKey, List.forall_mem_map]
    exact fun c hc hm => h.noSign c hc (mem_signs_of_toLower (h.ascii c hc) hm)
  · rw [OneLine, h.toList_nameKey, List.forall_mem_map]
    exact fun c hc => (isLineEnd_toLower (h.ascii c hc)).trans (h.oneLine c hc)

/-- In small letters a name finds what it found. -/
theorem nameKey_nameKey : Erd.nameKey (Erd.nameKey name) = Erd.nameKey name := by
  refine String.toList_inj.mp ?_
  rw [h.nameKey.toList_nameKey, h.toList_nameKey, List.map_map]
  exact List.map_congr_left fun c hc => toLower_toLower (h.ascii c hc)

theorem ascii_writtenName : ∀ c ∈ (writtenName name).toList, c.toNat < 128 := by
  rcases toList_writtenName name with ⟨-, he⟩ | he
  · rw [he]
    exact h.ascii
  · rw [he, List.forall_mem_cons, List.forall_mem_append]
    exact ⟨by decide, h.ascii, by decide⟩

theorem noSign_writtenName : ∀ c ∈ (writtenName name).toList, c ∉ [',', '[', ']'] := by
  have hname : ∀ c ∈ name.toList, c ∉ [',', '[', ']'] := fun c hc hm => h.noSign c hc (List.mem_cons_of_mem _ hm)
  rcases toList_writtenName name with ⟨-, he⟩ | he
  · rw [he]
    exact hname
  · rw [he, List.forall_mem_cons, List.forall_mem_append]
    exact ⟨by decide, hname, by decide⟩

/-- A name is one word in small letters if and only if it is one. -/
theorem isPlainWord_nameKey : isPlainWord (Erd.nameKey name).toList = isPlainWord name.toList := by
  rw [h.toList_nameKey, Bool.eq_iff_iff, isPlainWord_iff, isPlainWord_iff, List.forall_mem_map, ne_eq,
    List.map_eq_nil_iff]
  refine and_congr_right fun _ => forall₂_congr fun c hc => ?_
  rw [isWord_toLower (h.ascii c hc)]

/-- The small form of a written name is the name written in small letters. -/
theorem lower_writtenName : lower (writtenName name).toList = (writtenName (Erd.nameKey name)).toList := by
  rw [writtenName, writtenName, h.isPlainWord_nameKey]
  split
  · rw [lower_ascii h.ascii, h.toList_nameKey]
  · rw [String.toList_append, String.toList_append, String.toList_append, String.toList_append, h.toList_nameKey,
      lower_ascii]
    · simp
    · simp only [List.forall_mem_append]
      exact ⟨⟨by decide, h.ascii⟩, by decide⟩

end Portable

/-! ## Ends -/

/-- Both names of a column can stand in a setting. -/
structure PortableEnd (e : ColumnName) : Prop where
  table : Portable e.table
  column : Portable e.column

/-- A column by its names in small letters. -/
def ColumnName.small (e : ColumnName) : ColumnName := ⟨nameKey e.table, nameKey e.column⟩

namespace PortableEnd

variable {e : ColumnName} (h : PortableEnd e)

include h

theorem writable : WritableEnd e := ⟨h.table.writable, h.column.writable⟩

theorem small : PortableEnd e.small := ⟨h.table.nameKey, h.column.nameKey⟩

theorem ascii_endLine : ∀ c ∈ endLine e, c.toNat < 128 := by
  rw [endLine, List.forall_mem_append, List.forall_mem_cons]
  exact ⟨h.table.ascii_writtenName, by decide, h.column.ascii_writtenName⟩

theorem noSign_endLine : ∀ c ∈ endLine e, c ∉ [',', '[', ']'] := by
  rw [endLine, List.forall_mem_append, List.forall_mem_cons]
  exact ⟨h.table.noSign_writtenName, by decide, h.column.noSign_writtenName⟩

/-- The small form of a column's names is the same two names written in small letters. -/
theorem lower_endLine : lower (endLine e) = endLine e.small := by
  have hpoint : ∀ c ∈ ['.'], c.toNat < 128 := by decide
  have hcolumn : ∀ c ∈ '.' :: (writtenName e.column).toList, c.toNat < 128 :=
    List.forall_mem_cons.mpr ⟨by decide, h.column.ascii_writtenName⟩
  rw [endLine, lower_append_ascii h.table.ascii_writtenName hcolumn, ← List.singleton_append,
    lower_append_ascii hpoint h.column.ascii_writtenName, h.table.lower_writtenName, h.column.lower_writtenName]
  rfl

end PortableEnd

theorem getLast?_endLine {e : ColumnName} (h : WritableEnd e) :
    ∃ z, (endLine e).getLast? = some z ∧ (z = '"' ∨ isWord z = true) := by
  obtain ⟨z, hz, hzc⟩ := getLast?_writtenName h.2.ne_nil
  refine ⟨z, ?_, hzc⟩
  rw [endLine, List.getLast?_append, List.getLast?_cons, hz]
  rfl

/-! ## The setting -/

/-- The setting of a column that refers to another. -/
def refSetting (e : ColumnName) : List Char := ['r', 'e', 'f', ':', ' ', '>', ' '] ++ endLine e

theorem lower_refSetting {e : ColumnName} (h : PortableEnd e) : lower (refSetting e) = refSetting e.small := by
  have hword : ∀ c ∈ ['r', 'e', 'f', ':', ' ', '>', ' '], c.toNat < 128 := by decide
  rw [refSetting, lower_append_ascii hword h.ascii_endLine, h.lower_endLine]
  rfl

/-- A reference in small letters is read as a setting. -/
theorem settingRead_refSetting {e : ColumnName} (h : WritableEnd e) :
    Setting.read (refSetting e) = .refersTo e := by
  obtain ⟨z, hz, hzc⟩ := getLast?_endLine h
  have htight : Tight ('>' :: ' ' :: endLine e) :=
    tight_of_ends rfl (by simp [List.getLast?_cons, hz]) (by decide) (isBlank_of_head hzc)
  have htrim : trim (' ' :: '>' :: ' ' :: endLine e) = '>' :: ' ' :: endLine e := by
    have := trim_pad (a := [' ']) (b := []) (by decide) htight (by simp)
    rwa [List.append_nil] at this
  have hstart := trimStart_endLine h []
  have hcolumn : columnName? (endLine e ++ []) = some (e, []) := columnName?_written h (by simp)
  rw [List.append_nil] at hstart hcolumn
  have hkeyword : dropKeyword "ref:".toList (refSetting e) = some (' ' :: '>' :: ' ' :: endLine e) := rfl
  have hne {word : String} (hw : word.toList.head? ≠ some 'r') : refSetting e ≠ word.toList := by
    intro he
    rw [← he] at hw
    exact hw rfl
  rw [Setting.read, if_neg, if_neg (hne (by decide)), if_neg (hne (by decide)), if_neg (hne (by decide)), hkeyword]
  · simp only [htrim]
    rw [settingRef?]
    simp [hstart, hcolumn]
  · rw [Bool.or_eq_true, decide_eq_true_eq, decide_eq_true_eq, not_or]
    exact ⟨hne (by decide), hne (by decide)⟩

/-! ## Settings -/

/-- The column that a setting refers to. -/
def Setting.target? : Setting → Option ColumnName
  | .refersTo e => some e
  | _ => none

/-- Of several references among settings the last one counts. -/
theorem refersTo_foldl (xs : List Setting) (s : Settings) :
    (xs.foldl Settings.add s).refersTo = (xs.reverse.findSome? Setting.target?).or s.refersTo := by
  induction xs generalizing s with
  | nil => rfl
  | cons x xs ih =>
    have hadd : (s.add x).refersTo = x.target?.or s.refersTo := by cases x <;> rfl
    have hlast : [x].findSome? Setting.target? = x.target? := by cases x <;> rfl
    rw [List.foldl_cons, ih, hadd, List.reverse_cons, List.findSome?_append, hlast, Option.or_assoc]

/-- The settings that stand between brackets, without the blanks around them. -/
def settingTexts (inside : List Char) : List (List Char) :=
  if isBlankText inside then [] else (splitOn ',' inside).map trim

theorem refersTo_settingsOf (inside : List Char) :
    (settingsOf (some (trim inside))).refersTo =
      ((settingTexts inside).map fun t => Setting.read (lower t)).reverse.findSome? Setting.target? := by
  rw [settingTexts, ← isEmpty_trim]
  cases ht : trim inside with
  | nil => rfl
  | cons c s =>
    have hcut : (splitOn ',' (c :: s)).map trim = (splitOn ',' inside).map trim := by
      rw [← ht, map_trim_splitOn_trim (by decide)]
    have hread (ps : List (List Char)) : ps.map (fun part => Setting.read (lower (trim part))) =
        (ps.map trim).map fun t => Setting.read (lower t) := by
      rw [List.map_map]
      rfl
    rw [settingsOf, Settings.read, refersTo_foldl, hread, hcut]
    exact Option.or_none

/-- One more reference among settings without one is the one that counts. -/
theorem refersTo_of_settingTexts {inside inside' : List Char} {left right : List (List Char)} {e : ColumnName}
    (he : PortableEnd e) (hnone : (settingsOf (some (trim inside))).refersTo = none)
    (hi : settingTexts inside = left ++ right) (hi' : settingTexts inside' = left ++ refSetting e :: right) :
    (settingsOf (some (trim inside'))).refersTo = some e.small := by
  rw [refersTo_settingsOf, hi, List.map_append, List.reverse_append, List.findSome?_append,
    Option.or_eq_none_iff] at hnone
  have hread : Setting.read (lower (refSetting e)) = .refersTo e.small := by
    rw [lower_refSetting he, settingRead_refSetting he.small.writable]
  rw [refersTo_settingsOf, hi', List.map_append, List.map_cons, List.reverse_append, List.reverse_cons,
    List.append_assoc, List.findSome?_append, hnone.1, Option.none_or, hread]
  rfl

/-- The text between brackets with one setting more, whatever blanks stand around settings: the only one, or one in
front of, between or behind those that are there. -/
inductive Extended (setting : List Char) (inside : List Char) : List Char → Prop
  | only {piece : List Char} : isBlankText inside = true → trim piece = setting → Extended setting inside piece
  | among {pieces left right : List (List Char)} : isBlankText inside = false →
    (splitOn ',' inside).map trim = left ++ right → pieces.map trim = left ++ setting :: right →
    Extended setting inside (join ',' pieces)

/-- A reference with blanks around it holds no sign that would end it. -/
theorem noSign_piece {e : ColumnName} (he : PortableEnd e) {piece : List Char} (hp : trim piece = refSetting e) :
    ∀ c ∈ [',', '[', ']'], c ∉ piece := by
  have hblank : ∀ c ∈ [',', '[', ']'], isBlank c = false := by decide
  have hword : ∀ c ∈ [',', '[', ']'], c ∉ ['r', 'e', 'f', ':', ' ', '>', ' '] := by decide
  intro c hc hm
  have hmem := mem_trim (hblank c hc) hm
  rw [hp, refSetting, List.mem_append] at hmem
  rcases hmem with hmem | hmem
  · exact hword c hc hmem
  · exact he.noSign_endLine c hmem hc

/-- A reference is no blank text. -/
theorem isBlankText_piece {e : ColumnName} {piece : List Char} (hp : trim piece = refSetting e) :
    isBlankText piece = false := by
  rw [← isEmpty_trim, hp]
  rfl

namespace Extended

/-- A sign that is in no setting so far is in none of the settings with a reference. -/
theorem noSign_pieces {e : ColumnName} (he : PortableEnd e) {inside : List Char} {pieces left right : List (List Char)}
    (hcut : (splitOn ',' inside).map trim = left ++ right) (hp : pieces.map trim = left ++ refSetting e :: right)
    {c : Char} (hc : c ∈ [',', '[', ']']) (hnone : ∀ p ∈ splitOn ',' inside, c ∉ p) : ∀ q ∈ pieces, c ∉ q := by
  intro q hq hm
  have hmem : trim q ∈ left ++ refSetting e :: right := hp ▸ List.mem_map_of_mem hq
  by_cases hnew : trim q = refSetting e
  · exact noSign_piece he hnew c hc hm
  · have hold : trim q ∈ left ++ right := by
      rw [List.mem_append, List.mem_cons] at hmem
      exact List.mem_append.mpr (hmem.imp_right fun h => h.resolve_left hnew)
    obtain ⟨p, hpm, hpq⟩ := List.mem_map.mp (hcut ▸ hold)
    have hblank : ∀ c ∈ [',', '[', ']'], isBlank c = false := by decide
    have := mem_trim (hblank c hc) hm
    rw [← hpq] at this
    exact hnone p hpm (mem_of_mem_trim this)

variable {e : ColumnName} (he : PortableEnd e) {inside inside' : List Char}
  (h : Extended (refSetting e) inside inside')

include he h

theorem settingTexts_eq : ∃ left right, settingTexts inside = left ++ right ∧
    settingTexts inside' = left ++ refSetting e :: right := by
  cases h with
  | only hb hp =>
    refine ⟨[], [], if_pos hb, ?_⟩
    rw [settingTexts, isBlankText_piece hp, splitOn_eq_self (noSign_piece he hp ',' (by decide))]
    simp [hp]
  | @among pieces left right hb hcut hp =>
    refine ⟨left, right, ?_, ?_⟩
    · rw [settingTexts, hb, ← hcut]
      rfl
    · have hne : pieces ≠ [] := by
        rintro rfl
        simp at hp
      have hfilled : isBlankText (join ',' pieces) = false := by
        obtain ⟨q, hq, hqe⟩ := List.mem_map.mp (hp ▸ List.mem_append_right left List.mem_cons_self)
        obtain ⟨c, hc, hcb⟩ := List.all_eq_false.mp (isBlankText_piece hqe)
        exact List.all_eq_false.mpr ⟨c, (infix_join_of_mem ',' hq).subset hc, hcb⟩
      have hcomma := noSign_pieces he hcut hp (c := ',') (by decide) fun p hq => sep_notMem_splitOn hq
      rw [settingTexts, hfilled, splitOn_join hne hcomma, ← hp]
      rfl

/-- The bracket of the settings stays the last one. -/
theorem notMem (hi : ']' ∉ inside) : ']' ∉ inside' := by
  cases h with
  | only hb hp => exact noSign_piece he hp ']' (by decide)
  | among hb hcut hp =>
    intro hm
    have hnone : ∀ p ∈ splitOn ',' inside, ']' ∉ p := by
      intro p hq hmp
      have := (infix_join_of_mem ',' hq).subset hmp
      rw [join_splitOn] at this
      exact hi this
    obtain ⟨q, hq, hmq⟩ := exists_mem_of_mem_join (by decide) hm
    exact noSign_pieces he hcut hp (by decide) hnone q hq hmq

end Extended

/-! ## Column lines -/

/-- One line of a column gives it a setting that the other does not: in brackets of its own behind a line without
settings, where no bracket is open, or among the settings that the line has. -/
inductive Given (setting : List Char) : List Char → List Char → Prop
  | alone {c : Char} {rest blanks inside : List Char} : (splitSettings (c :: rest)).2 = none →
    bracketsClosed rest = true → (∀ b ∈ blanks, isBlank b = true) → Extended setting [] inside →
    Given setting (c :: rest) (c :: (rest ++ blanks ++ '[' :: (inside ++ [']'])))
  | among {c : Char} {before inside inside' : List Char} : bracketsClosed before = true → ']' ∉ inside →
    Extended setting inside inside' →
    Given setting (c :: (before ++ '[' :: (inside ++ [']']))) (c :: (before ++ '[' :: (inside' ++ [']'])))

theorem splitSettings_bracket {c : Char} {before inside : List Char} (hb : bracketsClosed before = true)
    (hi : ']' ∉ inside) : splitSettings (c :: (before ++ '[' :: (inside ++ [']']))) =
      (trimEnd (c :: before), some (trim inside)) := by
  rw [splitSettings, bracketAfter?_append hb hi]

/-- A line without settings is its own main part. -/
theorem splitSettings_of_none {s : List Char} (h : (splitSettings s).2 = none) : splitSettings s = (s, none) := by
  cases s with
  | nil => rfl
  | cons c rest =>
    rw [splitSettings] at h ⊢
    split at h
    · cases h
    · rfl

namespace Given

variable {setting text text' : List Char} (h : Given setting text text')

include h

theorem getLast? : text'.getLast? = some ']' := by
  cases h with
  | alone => simp [List.getLast?_cons, List.getLast?_append]
  | among => simp [List.getLast?_cons, List.getLast?_append]

theorem header? : header? text' = none := by
  cases hh : Dbml.header? text' with
  | none => rfl
  | some hd => exact absurd h.getLast? (getLast?_of_header? hh)

theorem ne_close : text' ≠ ['\x7d'] := by
  intro he
  have := h.getLast?
  rw [he] at this
  cases this

/-- The first two characters tell that a line is a comment, and the setting comes behind them. -/
theorem isIdle {n : Nat} (hi : (⟨n, text⟩ : Line).isIdle = false) : (⟨n, text'⟩ : Line).isIdle = false := by
  have hsecond {c d : Char} {s : List Char} (hd : d ≠ '/') (hd' : d ≠ '-') :
      (⟨n, c :: d :: s⟩ : Line).isIdle = false := by
    unfold Line.isIdle
    split <;> simp_all
  have hfront {c d : Char} {s t : List Char} (hs : (⟨n, c :: d :: s⟩ : Line).isIdle = false) :
      (⟨n, c :: d :: t⟩ : Line).isIdle = false := by
    unfold Line.isIdle at hs ⊢
    split at hs <;> simp_all
  cases h with
  | @alone c rest blanks inside hnone hc hb =>
    cases rest with
    | cons d rest => exact hfront hi
    | nil =>
      cases blanks with
      | nil => exact hsecond (by decide) (by decide)
      | cons b blanks =>
        refine hsecond ?_ ?_
        · rintro rfl
          exact absurd (hb _ List.mem_cons_self) (by decide)
        · rintro rfl
          exact absurd (hb _ List.mem_cons_self) (by decide)
  | @among c before =>
    cases before with
    | cons d before => exact hfront hi
    | nil => exact hsecond (by decide) (by decide)

end Given

theorem bracketsClosed_of_blanks {s : List Char} (hs : ∀ c ∈ s, isBlank c = true) : bracketsClosed s = true :=
  bracketsClosed_of_not_mem fun hm => absurd (hs _ hm) (by decide)

section Reference

variable {e : ColumnName} (he : PortableEnd e) {text text' : List Char} (h : Given (refSetting e) text text')

include he h

/-- The main part of a column line stays as it is. -/
theorem main_of_given (ht : ∀ z ∈ text.getLast?, isBlank z = false) :
    (splitSettings text').1 = (splitSettings text).1 := by
  cases h with
  | alone hnone hc hb hx =>
    rw [splitSettings_of_none hnone,
      splitSettings_bracket (bracketsClosed_append hc (bracketsClosed_of_blanks hb)) (hx.notMem he List.not_mem_nil)]
    exact trimEnd_append hb ht
  | among hb hi hx => rw [splitSettings_bracket hb hi, splitSettings_bracket hb (hx.notMem he hi)]

/-- The reference is the one that the column then has. -/
theorem refersTo_of_given (hnone : (settingsOf (splitSettings text).2).refersTo = none) :
    (settingsOf (splitSettings text').2).refersTo = some e.small := by
  cases h with
  | alone hn hc hb hx =>
    obtain ⟨left, right, hi, hi'⟩ := hx.settingTexts_eq he
    rw [splitSettings_bracket (bracketsClosed_append hc (bracketsClosed_of_blanks hb)) (hx.notMem he List.not_mem_nil)]
    exact refersTo_of_settingTexts he rfl hi hi'
  | among hb hi hx =>
    obtain ⟨left, right, hs, hs'⟩ := hx.settingTexts_eq he
    rw [splitSettings_bracket hb hi] at hnone
    rw [splitSettings_bracket hb (hx.notMem he hi)]
    exact refersTo_of_settingTexts he hnone hs hs'

/-- A column line that is given a reference is read as before, but for its flags, with the reference. -/
theorem read_given (ht : ∀ z ∈ text.getLast?, isBlank z = false) {x : Outline.Column}
    (hx : ColumnLine.read text = .ok ⟨x, none⟩) :
    ∃ x', ColumnLine.read text' = .ok ⟨x', some e.small⟩ ∧ x'.name = x.name ∧ x'.type = x.type := by
  simp only [ColumnLine.read] at hx
  split at hx
  · cases hx
  · next name spelling hn =>
    split at hx
    · cases hx
    · next type htype =>
      simp only [Except.ok.injEq, ColumnLine.mk.injEq] at hx
      obtain ⟨rfl, hnone⟩ := hx
      refine ⟨⟨String.ofList name, type, (settingsOf (splitSettings text').2).constraints⟩, ?_, rfl, rfl⟩
      rw [ColumnLine.read]
      simp only [main_of_given he h ht, hn, htype, refersTo_of_given he h hnone]

end Reference

end Erd.Dbml
