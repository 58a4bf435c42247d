import Erd.Proofs.Search
import Erd.Proofs.Sql.Definition

/-!
# How constraints are spelled

The keywords of a constraint may be written in any letters and with any blanks between them, and so may a name between
parentheses and a reference to a column. These spellings are told here as texts, and what the scanners make of each of
them: what is read where a text starts with it, and which keywords a search finds in it. A search goes through the
names in a reference as well.

**Results.**
* `Words.phrase`, `InParens.parenthesized`, `Refers.read`: what is spelled is read.
* `Words.hasPhrase_one`, `Words.hasPhrase_two`: the keywords that are found among keywords.
* `Refers.hasPhrase_one`, `Refers.hasPhrase_two`: those that are found in a reference.
-/
namespace Erd.Sql

open Text

/-! ## Blanks and words -/

/-- Nothing but blanks. -/
def Blanks (g : List Char) : Prop := ∀ c ∈ g, isBlank c = true

/-- Blanks between two words. -/
def Gap (g : List Char) : Prop := g ≠ [] ∧ Blanks g

instance (g : List Char) : Decidable (Blanks g) := inferInstanceAs (Decidable (∀ c ∈ g, isBlank c = true))

instance (g : List Char) : Decidable (Gap g) := inferInstanceAs (Decidable (g ≠ [] ∧ Blanks g))

/-- What stands next continues no word. -/
def Stops (s : List Char) : Prop := ∀ c ∈ s.head?, isWord c = false

section Blanks

variable {g s : List Char}

theorem Blanks.isWord (hg : Blanks g) : ∀ c ∈ g, isWord c = false := fun c hc => isWord_of_isBlank (hg c hc)

theorem Blanks.neutral (hg : Blanks g) : ∀ c ∈ g, isNeutral c = true := by
  intro c hc
  have hne {d : Char} (hd : isBlank d = false) : c ≠ d := by
    rintro rfl
    rw [hg c hc] at hd
    cases hd
  simp only [isNeutral, Bool.and_eq_true, bne_iff_ne]
  exact ⟨⟨⟨hne rfl, hne rfl⟩, hne rfl⟩, hne rfl⟩

theorem Blanks.flat (hg : Blanks g) : Flat g := flat_of_neutral hg.neutral

theorem Gap.stops (hg : Gap g) (s : List Char) : Stops (g ++ s) := by
  obtain ⟨b, g', rfl⟩ := List.exists_cons_of_ne_nil hg.1
  intro c hc
  cases hc
  exact hg.2.isWord _ List.mem_cons_self

theorem Gap.skip (hg : Gap g) (hs : ∀ c ∈ s.head?, isBlank c = false) : skipBlanks? (g ++ s) = some s := by
  obtain ⟨b, g', rfl⟩ := List.exists_cons_of_ne_nil hg.1
  obtain ⟨hb, hg'⟩ := List.forall_mem_cons.mp hg.2
  rw [List.cons_append, skipBlanks?, if_pos hb, trimStart_append hg' hs]

theorem stops_nil : Stops [] := by simp [Stops]

theorem StartsWord.append {w : List Char} (h : StartsWord w) (s : List Char) : StartsWord (w ++ s) := by
  obtain ⟨c, u, rfl, hc⟩ := h
  exact ⟨c, u ++ s, rfl, hc⟩

theorem StartsWord.not_blank {w : List Char} (h : StartsWord w) : ∀ c ∈ w.head?, isBlank c = false := by
  obtain ⟨c, u, rfl, hc⟩ := h
  intro d hd
  cases hd
  exact isBlank_of_isWord hc

theorem startsWord_of_word {w : List Char} (hne : w ≠ []) (hw : ∀ c ∈ w, isWord c = true) : StartsWord w := by
  obtain ⟨c, u, rfl⟩ := List.exists_cons_of_ne_nil hne
  exact ⟨c, u, rfl, hw c List.mem_cons_self⟩

/-- The text does not end with a blank. -/
def Ends (s : List Char) : Prop := ∃ u c, s = u ++ [c] ∧ isBlank c = false

theorem Ends.append {v : List Char} (h : Ends v) (u : List Char) : Ends (u ++ v) := by
  obtain ⟨w, c, rfl, hc⟩ := h
  exact ⟨u ++ w, c, (List.append_assoc u w [c]).symm, hc⟩

theorem ends_of_word {w : List Char} (hne : w ≠ []) (hw : ∀ c ∈ w, isWord c = true) : Ends w :=
  ⟨w.dropLast, w.getLast hne, (List.dropLast_concat_getLast hne).symm,
    isBlank_of_isWord (hw _ (List.getLast_mem hne))⟩

theorem tight_of_starts_ends {v : List Char} (hs : StartsWord v) (he : Ends v) : Tight v := by
  refine ⟨hs.not_blank, ?_⟩
  obtain ⟨u, c, rfl, hc⟩ := he
  rw [List.getLast?_concat]
  intro d hd
  cases hd
  exact hc

end Blanks

/-- Keywords, in any letters, with blanks between them. -/
inductive Words : List String → List Char → Prop where
  | one {k : String} {w : List Char} (hw : IsKeyword k w) : Words [k] w
  | cons {k : String} {ks : List String} {w g u : List Char} (hw : IsKeyword k w) (hg : Gap g) (hu : Words ks u) :
    Words (k :: ks) (w ++ (g ++ u))

section Words

variable {k l : String} {ks : List String} {u s : List Char}

theorem Words.startsWord (h : Words ks u) (hks : ∀ k ∈ ks, IsLetters k) : StartsWord u := by
  cases h with
  | one hw => exact startsWord_of_word (hw.ne_nil (hks _ (by simp))) (hw.isWord (hks _ (by simp)))
  | cons hw _ _ => exact (startsWord_of_word (hw.ne_nil (hks _ (by simp))) (hw.isWord (hks _ (by simp)))).append _

theorem Words.flat (h : Words ks u) (hks : ∀ k ∈ ks, IsLetters k) : Flat u := by
  have hword {k : String} {w : List Char} (hw : IsKeyword k w) (hk : IsLetters k) : Flat w :=
    flat_of_neutral fun c hc => isNeutral_of_isWord (hw.isWord hk c hc)
  induction h with
  | one hw => exact hword hw (hks _ (by simp))
  | cons hw hg _ ih =>
    obtain ⟨hk, hks⟩ := List.forall_mem_cons.mp hks
    exact (hword hw hk).append (hg.2.flat.append (ih hks))

theorem Words.ends (h : Words ks u) (hks : ∀ k ∈ ks, IsLetters k) : Ends u := by
  induction h with
  | one hw => exact ends_of_word (hw.ne_nil (hks _ (by simp))) (hw.isWord (hks _ (by simp)))
  | cons _ _ _ ih => exact ((ih (List.forall_mem_cons.mp hks).2).append _).append _

/-- A text that starts with keywords as words is taken apart after them. -/
theorem Words.phrase (h : Words ks u) (hks : ∀ k ∈ ks, IsLetters k) (hs : Stops s) :
    phrase ks (u ++ s) = some s := by
  have hkeyword {k : String} {w : List Char} (hw : IsKeyword k w) (hk : IsLetters k) {t : List Char} (ht : Stops t) :
      keyword k (w ++ t) = some t := by
    rw [keyword_append_stop hk ht, hw]
    rfl
  induction h with
  | one hw => exact hkeyword hw (hks _ (by simp)) hs
  | @cons k ks w g u hw hg hu ih =>
    obtain ⟨hk, hks⟩ := List.forall_mem_cons.mp hks
    have hstep : Text.phrase (k :: ks) (w ++ (g ++ (u ++ s))) =
        ((keyword k (w ++ (g ++ (u ++ s)))).bind skipBlanks?).bind (Text.phrase ks) := by
      cases hu <;> rfl
    rw [List.append_assoc, List.append_assoc, hstep, hkeyword hw hk (hg.stops _), Option.bind_some,
      hg.skip ((hu.startsWord hks).append s).not_blank, Option.bind_some, ih hks]

/-- It starts with no keyword but the first. -/
theorem Words.keyword_none (h : Words (l :: ks) u) (hl : IsLetters l) (hk : IsLetters k) (hne : k ≠ l)
    (hs : Stops s) : (keyword k (u ++ s)).bind skipBlanks? = none := by
  have hword {w : List Char} (hw : IsKeyword l w) {t : List Char} (ht : Stops t) :
      (keyword k (w ++ t)).bind skipBlanks? = none := by
    rw [keyword_bind_skipBlanks?_stop hk (hw.isWord hl) ht, if_neg fun hkw => hne (hkw.unique hw)]
  cases h with
  | one hw => exact hword hw hs
  | cons hw hg _ =>
    rw [List.append_assoc, List.append_assoc]
    exact hword hw (hg.stops _)

theorem decide_isKeyword {w : List Char} (hw : IsKeyword l w) : decide (IsKeyword k w) = decide (k = l) :=
  decide_eq_decide.mpr ⟨fun h => h.unique hw, fun h => h ▸ hw⟩

/-- One keyword is found among several if it is one of them. -/
theorem Words.hasPhrase_one (h : Words ks u) (hks : ∀ k ∈ ks, IsLetters k) (hk : IsLetters k) (hs : Stops s) :
    hasPhrase [k] (u ++ s) = (ks.contains k || hasPhrase [k] s) := by
  induction h with
  | one hw =>
    have hl := hks _ (List.mem_singleton_self _)
    rw [hasPhrase_word hk (hw.ne_nil hl) (hw.isWord hl) hs, decide_isKeyword hw]
    simp
  | cons hw hg _ ih =>
    obtain ⟨hl, hks⟩ := List.forall_mem_cons.mp hks
    rw [List.append_assoc, List.append_assoc, hasPhrase_word hk (hw.ne_nil hl) (hw.isWord hl) (hg.stops _),
      hasPhrase_signs hk hg.2.isWord, ih hks, decide_isKeyword hw, List.contains_cons, beq_eq_decide, Bool.or_assoc]

theorem hasPhrase_pair_other {w : List Char} (hk : IsLetters k) (hne : w ≠ []) (hw : ∀ c ∈ w, isWord c = true)
    (hs : Stops s) (h : ¬ IsKeyword k w) : hasPhrase [k, l] (w ++ s) = hasPhrase [k, l] s := by
  simp [hasPhrase_pair hk hne hw hs, h]

/-- Two keywords are found in a text of two if they are these. -/
theorem Words.hasPhrase_two {a b : String} (h : Words [a, b] u) (ha : IsLetters a) (hb : IsLetters b)
    (hk : IsLetters k) (hl : IsLetters l) (hkb : k ≠ b) (hs : Stops s) :
    hasPhrase [k, l] (u ++ s) = (decide (k = a ∧ l = b) || hasPhrase [k, l] s) := by
  cases h with
  | @cons _ _ w g v hw hg hv =>
  cases hv with
  | cons _ _ hv => cases hv
  | one hv =>
    have hnext : ((skipBlanks? (g ++ (v ++ s))).bind fun t => (keyword l t).filter atWordEnd).isSome =
        decide (l = b) := by
      rw [hg.skip ((startsWord_of_word (hv.ne_nil hb) (hv.isWord hb)).append s).not_blank, Option.bind_some,
        keyword_atWordEnd hl (hv.isWord hb) hs, ← decide_isKeyword hv]
      by_cases h : IsKeyword l v <;> simp [h]
    rw [List.append_assoc, List.append_assoc, hasPhrase_pair hk (hw.ne_nil ha) (hw.isWord ha) (hg.stops _), hnext,
      decide_isKeyword hw, hasPhrase_signs hk hg.2.isWord,
      hasPhrase_pair_other hk (hv.ne_nil hb) (hv.isWord hb) hs fun h => hkb (h.unique hv), Bool.decide_and]

/-- A phrase does not start at a word before a sign. -/
theorem hasPhrase_pair_sign {w g : List Char} (hk : IsLetters k) (hl : IsLetters l) (hne : w ≠ [])
    (hw : ∀ c ∈ w, isWord c = true) (hg : Blanks g) {d : Char} (hd : isWord d = false) (hb : isBlank d = false)
    (s : List Char) : hasPhrase [k, l] (w ++ (g ++ d :: s)) = hasPhrase [k, l] s := by
  have hsigns : ∀ c ∈ g ++ [d], isWord c = false :=
    List.forall_mem_append.mpr ⟨hg.isWord, List.forall_mem_singleton.mpr hd⟩
  have hnext : ((skipBlanks? (g ++ d :: s)).bind fun t => (keyword l t).filter atWordEnd) = none := by
    by_cases hgap : g = []
    · rw [hgap, List.nil_append, skipBlanks?_of_head hb]
      rfl
    · rw [Gap.skip ⟨hgap, hg⟩ (by intro c hc; cases hc; exact hb), Option.bind_some, keyword_sign hl hd]
      rfl
  have hsplit : g ++ d :: s = (g ++ [d]) ++ s := by simp
  rw [hasPhrase_pair hk hne hw (head?_gap_sign hg hd s), hnext, hsplit, hasPhrase_signs hk hsigns]
  simp

end Words

/-! ## References -/

/-- A name between parentheses, with or without blanks. -/
inductive InParens (name : String) : List Char → Prop where
  | mk {o a b : List Char} (ho : Blanks o) (ha : Blanks a) (hb : Blanks b) :
    InParens name (o ++ '(' :: (a ++ (name.toList ++ b) ++ [')']))

namespace InParens

variable {name k l : String} {u : List Char} (h : InParens name u) (hn : Plain name) (s : List Char)

include h

theorem stops : Stops (u ++ s) := by
  obtain ⟨ho, -, -⟩ := h
  rw [List.append_assoc, List.cons_append]
  exact head?_gap_sign ho rfl _

omit s in
theorem ends : Ends u := by
  cases h with
  | @mk o a b => exact ⟨o ++ '(' :: (a ++ (name.toList ++ b)), ')', by simp, rfl⟩

include hn

theorem flat : Flat u := by
  cases h with
  | @mk o a b ho ha hb =>
  have hname : ∀ c ∈ name.toList, isNeutral c = true := fun c hc => isNeutral_of_isWord (hn.2 c hc)
  have hinside : ∀ c ∈ a ++ (name.toList ++ b), isNeutral c = true :=
    List.forall_mem_append.mpr ⟨ha.neutral, List.forall_mem_append.mpr ⟨hname, hb.neutral⟩⟩
  exact ho.flat.append (.group (fun c hc => .inl (hinside c hc)) .nil)

/-- What is in the parentheses is found, and it is one name. -/
theorem parenthesized : ∃ inside, parenthesized? (u ++ s) = some (inside, s) ∧ nameText inside = name ∧
    nameList inside = [name] := by
  cases h with
  | @mk o a b ho ha hb =>
  have hnot {d : Char} (hd : isWord d = false) (hblank : isBlank d = false) : d ∉ a ++ (name.toList ++ b) := by
    simp only [List.mem_append, not_or]
    refine ⟨fun hm => ?_, not_mem_of_plain hn hd, fun hm => ?_⟩
    · simp [ha d hm] at hblank
    · simp [hb d hm] at hblank
  have hname : nameText (a ++ (name.toList ++ b)) = name := nameText_pad hn ha hb
  refine ⟨a ++ (name.toList ++ b), ?_, hname, ?_⟩
  · have hwritten : parenthesized? (o ++ '(' :: (a ++ (name.toList ++ b) ++ ')' :: s)) =
        some (a ++ (name.toList ++ b), s) :=
      parenthesized?_written ho (by simp [hn.1]) (hnot (d := ')') rfl rfl)
    simpa using hwritten
  · rw [nameList, splitOn_eq_self (hnot rfl rfl), List.map_singleton, hname]

theorem hasPhrase_one (hk : IsLetters k) :
    hasPhrase [k] (u ++ s) = (decide (IsKeyword k name.toList) || hasPhrase [k] s) := by
  cases h with
  | @mk o a b ho ha hb =>
  have hopen : ∀ c ∈ o ++ '(' :: a, isWord c = false :=
    List.forall_mem_append.mpr ⟨ho.isWord, List.forall_mem_cons.mpr ⟨rfl, ha.isWord⟩⟩
  have hclose : ∀ c ∈ b ++ [')'], isWord c = false :=
    List.forall_mem_append.mpr ⟨hb.isWord, List.forall_mem_singleton.mpr rfl⟩
  have hstops : Stops (b ++ [')'] ++ s) := by
    rw [List.append_assoc]
    exact head?_gap_sign hb rfl s
  have hsplit : o ++ '(' :: (a ++ (name.toList ++ b) ++ [')']) ++ s =
      (o ++ '(' :: a) ++ (name.toList ++ (b ++ [')'] ++ s)) := by simp
  rw [hsplit, hasPhrase_signs hk hopen, hasPhrase_word hk hn.1 hn.2 hstops, hasPhrase_signs hk hclose]

theorem hasPhrase_two (hk : IsLetters k) (hl : IsLetters l) : hasPhrase [k, l] (u ++ s) = hasPhrase [k, l] s := by
  cases h with
  | @mk o a b ho ha hb =>
  have hopen : ∀ c ∈ o ++ '(' :: a, isWord c = false :=
    List.forall_mem_append.mpr ⟨ho.isWord, List.forall_mem_cons.mpr ⟨rfl, ha.isWord⟩⟩
  have hsplit : o ++ '(' :: (a ++ (name.toList ++ b) ++ [')']) ++ s =
      (o ++ '(' :: a) ++ (name.toList ++ (b ++ ')' :: s)) := by simp
  rw [hsplit, hasPhrase_signs hk hopen, hasPhrase_pair_sign hk hl hn.1 hn.2 hb rfl rfl]

omit hn in
/-- A phrase does not start at a word before the parentheses. -/
theorem hasPhrase_after {w : List Char} (hne : w ≠ []) (hw : ∀ c ∈ w, isWord c = true) (hk : IsLetters k)
    (hl : IsLetters l) : hasPhrase [k, l] (w ++ (u ++ s)) = hasPhrase [k, l] (u ++ s) := by
  cases h with
  | @mk o a b ho ha hb =>
  have hopen : ∀ c ∈ o ++ ['('], isWord c = false :=
    List.forall_mem_append.mpr ⟨ho.isWord, List.forall_mem_singleton.mpr rfl⟩
  have hsplit : o ++ '(' :: (a ++ (name.toList ++ b) ++ [')']) ++ s =
      (o ++ ['(']) ++ (a ++ (name.toList ++ b) ++ [')'] ++ s) := by simp
  rw [hsplit, hasPhrase_signs hk hopen, List.append_assoc, List.singleton_append,
    hasPhrase_pair_sign hk hl hne hw ho rfl rfl]

end InParens

/-- A reference to a column of a table. -/
inductive Refers (table column : String) : List Char → Prop where
  | mk {w g u : List Char} (hw : IsKeyword "references" w) (hg : Gap g) (hu : InParens column u) :
    Refers table column (w ++ (g ++ (table.toList ++ u)))

/-- What a text that starts with a reference refers to. -/
def reference? (s : List Char) : Option ((String × String) × List Char) := (keyword "references" s).bind target?

theorem inlineTarget?_eq (s : List Char) : inlineTarget? s = (search reference? s).map Prod.fst := rfl

theorem isLetters_references : IsLetters "references" := by decide

theorem reference?_none {s : List Char} (h : (keyword "references" s).bind skipBlanks? = none) :
    reference? s = none := by
  rw [reference?]
  cases hk : keyword "references" s with
  | none => rfl
  | some t =>
    rw [hk, Option.bind_some] at h
    rw [Option.bind_some, target?, h]

theorem atWords_reference? : AtWords reference? := by
  intro c s hc
  rw [reference?, keyword_sign isLetters_references hc]
  rfl

/-- No reference starts at another keyword. -/
theorem Words.search_reference? {ks : List String} {u s : List Char} (h : Words ks u)
    (hks : ∀ k ∈ ks, IsLetters k ∧ "references" ≠ k) (hs : Stops s) :
    search reference? (u ++ s) = search reference? s := by
  have hword {k : String} {w : List Char} (hw : IsKeyword k w) (hk : IsLetters k ∧ "references" ≠ k) {t : List Char}
      (ht : Stops t) : search reference? (w ++ t) = search reference? t := by
    have hnone : reference? (w ++ t) = none :=
      reference?_none (Words.keyword_none (.one hw) hk.1 isLetters_references hk.2 ht)
    rw [search_word atWords_reference? (hw.ne_nil hk.1) (hw.isWord hk.1) ht, hnone, Option.none_or]
  induction h with
  | one hw => exact hword hw (hks _ (List.mem_singleton_self _)) hs
  | cons hw hg _ ih =>
    obtain ⟨hk, hks⟩ := List.forall_mem_cons.mp hks
    rw [List.append_assoc, List.append_assoc, hword hw hk (hg.stops _), search_signs atWords_reference? hg.2.isWord,
      ih hks]

namespace Refers

variable {t c k l : String} {u : List Char} (h : Refers t c u) (ht : Plain t) (hc : Plain c) (s : List Char)

include h

theorem startsWord : StartsWord u := by
  obtain ⟨hw, -, -⟩ := h
  exact (startsWord_of_word (hw.ne_nil isLetters_references) (hw.isWord isLetters_references)).append _

theorem ends : Ends u := by
  obtain ⟨-, -, hu⟩ := h
  exact ((hu.ends.append _).append _).append _

include ht hc

theorem flat : Flat u := by
  cases h with
  | mk hw hg hu =>
  have hword : Flat t.toList := flat_of_neutral fun x hx => isNeutral_of_isWord (ht.2 x hx)
  exact (Words.flat (.one hw) (by decide)).append (hg.2.flat.append (hword.append (hu.flat hc)))

/-- It is read with both its names. -/
theorem read : reference? (u ++ s) = some ((t, c), s) := by
  cases h with
  | @mk w g v hw hg hv =>
  obtain ⟨b, g, rfl⟩ := List.exists_cons_of_ne_nil hg.1
  obtain ⟨hb, hblanks⟩ := List.forall_mem_cons.mp hg.2
  cases hv with
  | @mk o a e ho ha he =>
  have hkeyword : keyword "references"
      (w ++ (b :: g ++ (t.toList ++ (o ++ '(' :: (a ++ (c.toList ++ e) ++ [')'])))) ++ s) =
      some (b :: (g ++ (t.toList ++ (o ++ '(' :: (a ++ (c.toList ++ e) ++ ')' :: s))))) := by
    rw [List.append_assoc, keyword_append_stop isLetters_references (by rw [List.append_assoc]; exact hg.stops _), hw]
    simp
  have hclose : ')' ∉ a ++ (c.toList ++ e) := by
    simp only [List.mem_append, not_or]
    exact ⟨fun hm => absurd (ha _ hm) (by decide), not_mem_of_plain hc rfl, fun hm => absurd (he _ hm) (by decide)⟩
  rw [reference?, hkeyword, Option.bind_some]
  exact target?_spelled ht hb hblanks ho (by simp [hc.1]) hclose (nameText_pad hc ha he) s

theorem hasPhrase_one (hk : IsLetters k) (hne : k ≠ "references") : hasPhrase [k] (u ++ s) =
    (decide (IsKeyword k t.toList) || decide (IsKeyword k c.toList) || hasPhrase [k] s) := by
  cases h with
  | mk hw hg hu =>
  rw [List.append_assoc, List.append_assoc, List.append_assoc,
    hasPhrase_word hk (hw.ne_nil isLetters_references) (hw.isWord isLetters_references) (hg.stops _),
    decide_isKeyword hw, hasPhrase_signs hk hg.2.isWord, hasPhrase_word hk ht.1 ht.2 (hu.stops s),
    hu.hasPhrase_one hc s hk]
  simp [hne, Bool.or_assoc]

theorem hasPhrase_two (hk : IsLetters k) (hl : IsLetters l) (hne : k ≠ "references") :
    hasPhrase [k, l] (u ++ s) = hasPhrase [k, l] s := by
  cases h with
  | mk hw hg hu =>
  rw [List.append_assoc, List.append_assoc, List.append_assoc,
    hasPhrase_pair_other hk (hw.ne_nil isLetters_references) (hw.isWord isLetters_references) (hg.stops _)
      (fun h => hne (h.unique hw)),
    hasPhrase_signs hk hg.2.isWord, hu.hasPhrase_after s ht.1 ht.2 hk hl, hu.hasPhrase_two hc s hk hl]

end Refers

end Erd.Sql
