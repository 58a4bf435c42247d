import Erd.Proofs.Text

/-!
# Keywords in running text

Keywords are looked for wherever a word starts, and a keyword is only found if it is a whole word. So a search goes
word by word and passes over blanks and signs. A phrase of several keywords has nothing but blanks between them, and so
none is found across a sign.

**Results.**
* `search_word`, `search_signs`: a search looks at the start of each word and nowhere else.
* `search_append_sign`: behind a sign a search goes on as if the text started there.
* `hasPhrase_word`, `hasPhrase_pair`: what one word adds to what is found.
* `hasPhrase_append_sign`: on the two sides of a sign phrases are found apart.
-/
namespace Erd.Text

/-! ## Letters of keywords -/

/-- The small letters of which keywords are made. -/
def IsLetters (k : String) : Prop := k.toList ≠ [] ∧ ∀ c ∈ k.toList, c.isLower = true

instance (k : String) : Decidable (IsLetters k) :=
  inferInstanceAs (Decidable (k.toList ≠ [] ∧ ∀ c ∈ k.toList, c.isLower = true))

theorem isWord_of_isLower_foldLatin_ascii : ∀ n < 128, (foldLatin (Char.ofNat n)).isLower = true →
    isWord (Char.ofNat n) = true := by
  decide +kernel

/-- Every form of a letter is part of words. -/
theorem isWord_of_isLower_foldLatin {c : Char} (h : (foldLatin c).isLower = true) : isWord c = true := by
  by_cases hc : c.toNat < 128
  · have hword := isWord_of_isLower_foldLatin_ascii c.toNat hc
    rw [Char.ofNat_toNat] at hword
    exact hword h
  · unfold foldLatin at h
    rw [if_neg hc] at h
    split at h
    · next hi =>
      rcases (by simpa using hi : c = '\u0130' ∨ c = '\u0131') with rfl | rfl <;> decide +kernel
    · split at h
      · next hs =>
        subst hs
        decide +kernel
      · split at h
        · next hk =>
          subst hk
          decide +kernel
        · have hlower : c.val ≤ 'z'.val := of_decide_eq_true (Bool.and_eq_true_iff.mp h).2
          exact absurd (lt_of_le_of_lt (UInt32.le_iff_toNat_le.mp hlower) (by decide)) hc

theorem IsLetters.foldLatin_not_mem {k : String} (hk : IsLetters k) {c : Char} (hc : isWord c = false) :
    foldLatin c ∉ k.toList := fun hm => by
  rw [isWord_of_isLower_foldLatin (hk.2 _ hm)] at hc
  cases hc

/-! ## Keywords as words -/

/-- The text is a keyword, in any case. -/
def IsKeyword (k : String) (w : List Char) : Prop := keyword k w = some []

instance (k : String) (w : List Char) : Decidable (IsKeyword k w) :=
  inferInstanceAs (Decidable (keyword k w = some []))

namespace IsKeyword

variable {k l : String} {w : List Char}

theorem map_foldLatin (h : IsKeyword k w) : w.map foldLatin = k.toList := by
  obtain ⟨taken, rfl, hk⟩ := dropKeyword_eq_some h
  simpa using hk

/-- A text is at most one keyword. -/
theorem unique (hk : IsKeyword k w) (hl : IsKeyword l w) : k = l :=
  String.toList_inj.mp (hk.map_foldLatin.symm.trans hl.map_foldLatin)

theorem isWord (h : IsKeyword k w) (hk : IsLetters k) : ∀ c ∈ w, isWord c = true := fun _ hc =>
  isWord_of_isLower_foldLatin (hk.2 _ (h.map_foldLatin ▸ List.mem_map_of_mem hc))

theorem ne_nil (h : IsKeyword k w) (hk : IsLetters k) : w ≠ [] := by
  rintro rfl
  exact hk.1 h.map_foldLatin.symm

end IsKeyword

section Word

variable {k : String} (hk : IsLetters k) {w : List Char} (hw : ∀ c ∈ w, isWord c = true) {s : List Char}
  (hs : ∀ c ∈ s.head?, isWord c = false)

include hk

theorem keyword_sign {c : Char} (hc : isWord c = false) (s : List Char) : keyword k (c :: s) = none := by
  obtain ⟨a, ks, hks⟩ := List.exists_cons_of_ne_nil hk.1
  have hne : foldLatin c ≠ a := fun h => hk.foldLatin_not_mem hc (by rw [hks, h]; exact List.mem_cons_self)
  rw [keyword, hks, dropKeyword, if_neg hne]

include hs in
/-- Before what continues no word a keyword takes from a text what it takes from the text alone. -/
theorem keyword_append_stop (w : List Char) : keyword k (w ++ s) = (keyword k w).map (· ++ s) := by
  cases s with
  | nil => simp
  | cons c s => exact dropKeyword_append (hk.foldLatin_not_mem (hs c rfl)) w s

include hw hs

/-- A keyword is found at a word if it is the word. -/
theorem keyword_atWordEnd : (keyword k (w ++ s)).filter atWordEnd = if IsKeyword k w then some s else none := by
  rw [keyword_append_stop hk hs]
  cases hl : keyword k w with
  | none => simp [IsKeyword, hl]
  | some left =>
    cases left with
    | nil =>
      have hend : atWordEnd s = true := by
        cases s with
        | nil => rfl
        | cons c s => simp [atWordEnd, hs c rfl]
      simp [IsKeyword, hl, Option.filter, hend]
    | cons c left =>
      have hc := isWord_of_dropKeyword hw hl c List.mem_cons_self
      simp [IsKeyword, hl, Option.filter, atWordEnd, hc]

/-- Blanks follow a keyword at a word if it is the word. -/
theorem keyword_bind_skipBlanks?_stop :
    (keyword k (w ++ s)).bind skipBlanks? = if IsKeyword k w then skipBlanks? s else none := by
  rw [keyword_append_stop hk hs]
  cases hl : keyword k w with
  | none => simp [IsKeyword, hl]
  | some left =>
    cases left with
    | nil => simp [IsKeyword, hl]
    | cons c left =>
      have hc := isBlank_of_isWord (isWord_of_dropKeyword hw hl c List.mem_cons_self)
      simp [IsKeyword, hl, skipBlanks?_of_head hc]

end Word

/-! ## Searching -/

section Search

variable {α : Type} {f : List Char → Option α}

/-- Nothing is found where no word starts. -/
def AtWords (f : List Char → Option α) : Prop := ∀ c s, isWord c = false → f (c :: s) = none

variable (hf : AtWords f)

include hf

theorem search_sign {c : Char} (hc : isWord c = false) (s : List Char) : search f (c :: s) = search f s := by
  simp [search, firstAtWord, hf c s hc, hc]

/-- Blanks and signs are passed over. -/
theorem search_signs {g : List Char} (hg : ∀ c ∈ g, isWord c = false) (s : List Char) :
    search f (g ++ s) = search f s := by
  induction g with
  | nil => rfl
  | cons c g ih =>
    obtain ⟨hc, hg⟩ := List.forall_mem_cons.mp hg
    rw [List.cons_append, search_sign hf hc, ih hg]

theorem search_inside {w s : List Char} (hw : ∀ c ∈ w, isWord c = true) (hs : ∀ c ∈ s.head?, isWord c = false) :
    firstAtWord f true (w ++ s) = search f s := by
  induction w with
  | nil =>
    cases s with
    | nil => rfl
    | cons c s => simp [search, firstAtWord, hf c s (hs c rfl)]
  | cons c w ih =>
    obtain ⟨hc, hw⟩ := List.forall_mem_cons.mp hw
    simp [firstAtWord, hc, ih hw]

/-- A word is looked at where it starts. -/
theorem search_word {w s : List Char} (hne : w ≠ []) (hw : ∀ c ∈ w, isWord c = true)
    (hs : ∀ c ∈ s.head?, isWord c = false) : search f (w ++ s) = (f (w ++ s)).or (search f s) := by
  obtain ⟨c, w, rfl⟩ := List.exists_cons_of_ne_nil hne
  obtain ⟨hc, hw⟩ := List.forall_mem_cons.mp hw
  have hrest := search_inside hf hw hs
  rw [List.cons_append, search, firstAtWord, hc, hrest]
  cases f (c :: (w ++ s)) <;> simp

/-- Behind a sign a search goes on as if the text started there. -/
theorem search_append_sign {d : Char} (hd : isWord d = false) (u v : List Char) :
    search f (u ++ d :: v) = (search (fun t => f (t ++ d :: v)) u).or (search f v) := by
  have hall (inside : Bool) : firstAtWord f inside (u ++ d :: v) =
      (firstAtWord (fun t => f (t ++ d :: v)) inside u).or (search f v) := by
    induction u generalizing inside with
    | nil => cases inside <;> simp [firstAtWord, hf d v hd, hd, search]
    | cons c u ih =>
      rw [List.cons_append, firstAtWord, firstAtWord, ih, List.cons_append]
      split <;> simp_all
  exact hall false

omit hf

/-- Nothing is found where another search finds nothing, if it finds all that there is. -/
theorem search_eq_none {β : Type} {g : List Char → Option β} (h : ∀ t, g t = none → f t = none) {s : List Char}
    (hs : search g s = none) : search f s = none := by
  unfold search at hs ⊢
  generalize false = inside at hs ⊢
  induction s generalizing inside with
  | nil => rfl
  | cons c s ih =>
    rw [firstAtWord] at hs ⊢
    cases inside with
    | true => exact ih _ hs
    | false =>
      cases hg : g (c :: s) with
      | some b => simp [hg] at hs
      | none =>
        simp only [hg, h _ hg, Bool.false_eq_true, if_false] at hs ⊢
        exact ih _ hs

theorem isSome_search_congr {β : Type} {g : List Char → Option β} (h : ∀ t, (f t).isSome = (g t).isSome)
    (s : List Char) : (search f s).isSome = (search g s).isSome := by
  have hnone (t : List Char) : f t = none ↔ g t = none := by
    rw [← Option.isNone_iff_eq_none, ← Option.isNone_iff_eq_none, ← Option.not_isSome, ← Option.not_isSome, h]
  rw [Bool.eq_iff_iff, ← not_iff_not, Bool.not_eq_true, Bool.not_eq_true, Option.isSome_eq_false_iff,
    Option.isSome_eq_false_iff, Option.isNone_iff_eq_none, Option.isNone_iff_eq_none]
  exact ⟨search_eq_none fun t => (hnone t).mp, search_eq_none fun t => (hnone t).mpr⟩

/-- A search only looks at what the text ends with. -/
theorem search_congr {g : List Char → Option α} {s : List Char} (h : ∀ t, t <:+ s → f t = g t) :
    search f s = search g s := by
  have hall (inside : Bool) : firstAtWord f inside s = firstAtWord g inside s := by
    induction s generalizing inside with
    | nil => rfl
    | cons c s ih =>
      rw [firstAtWord, firstAtWord, h _ (List.suffix_refl _), ih fun t ht => h t (ht.trans (List.suffix_cons c s))]
  exact hall false

theorem map_search {β : Type} (p : α → β) (f : List Char → Option α) (s : List Char) :
    (search f s).map p = search (fun t => (f t).map p) s := by
  have hall (inside : Bool) : (firstAtWord f inside s).map p = firstAtWord (fun t => (f t).map p) inside s := by
    induction s generalizing inside with
    | nil => rfl
    | cons c s ih =>
      rw [firstAtWord, firstAtWord, ← ih]
      cases inside with
      | true => rfl
      | false => cases f (c :: s) <;> rfl
  exact hall false

end Search

/-! ## Phrases -/

/-- What stands after keywords that a text starts with, as whole words. -/
def phraseAt (ks : List String) (s : List Char) : Option (List Char) := (phrase ks s).filter atWordEnd

theorem hasPhrase_eq (ks : List String) (s : List Char) : hasPhrase ks s = (search (phraseAt ks) s).isSome := rfl

theorem atWords_phraseAt {k : String} (hk : IsLetters k) (ks : List String) : AtWords (phraseAt (k :: ks)) := by
  intro c s hc
  have hnone := keyword_sign hk hc s
  cases ks with
  | nil => simp [phraseAt, phrase, hnone]
  | cons l ks => simp [phraseAt, phrase, hnone]

section Phrase

variable {k l : String} (hk : IsLetters k)

include hk

theorem hasPhrase_signs {g : List Char} (hg : ∀ c ∈ g, isWord c = false) (ks : List String) (s : List Char) :
    hasPhrase (k :: ks) (g ++ s) = hasPhrase (k :: ks) s := by
  rw [hasPhrase_eq, search_signs (atWords_phraseAt hk ks) hg, hasPhrase_eq]

variable {w s : List Char} (hne : w ≠ []) (hw : ∀ c ∈ w, isWord c = true) (hs : ∀ c ∈ s.head?, isWord c = false)

include hne hw hs

/-- A keyword is found in a text if it is a word of the text. -/
theorem hasPhrase_word : hasPhrase [k] (w ++ s) = (decide (IsKeyword k w) || hasPhrase [k] s) := by
  rw [hasPhrase_eq, search_word (atWords_phraseAt hk []) hne hw hs, Option.isSome_or, ← hasPhrase_eq, phraseAt,
    phrase, keyword_atWordEnd hk hw hs]
  by_cases h : IsKeyword k w <;> simp [h]

/-- Two keywords are found in a text if the one is a word of the text and the other comes next, after blanks. -/
theorem hasPhrase_pair : hasPhrase [k, l] (w ++ s) =
    (decide (IsKeyword k w) && ((skipBlanks? s).bind fun t => (keyword l t).filter atWordEnd).isSome ||
      hasPhrase [k, l] s) := by
  have hpair : phraseAt [k, l] (w ++ s) =
      if IsKeyword k w then (skipBlanks? s).bind fun t => (keyword l t).filter atWordEnd else none := by
    rw [phraseAt, phrase, keyword_bind_skipBlanks?_stop hk hw hs]
    · split
      · cases skipBlanks? s <;> rfl
      · rfl
    · simp
  rw [hasPhrase_eq, search_word (atWords_phraseAt hk [l]) hne hw hs, Option.isSome_or, ← hasPhrase_eq, hpair]
  by_cases h : IsKeyword k w <;> simp [h]

end Phrase

/-! ## Signs between phrases -/

section Sign

variable {d : Char} (hb : isBlank d = false) (hd : isWord d = false)

include hb

theorem trimStart_append_sign (u v : List Char) : trimStart (u ++ d :: v) = trimStart u ++ d :: v :=
  dropWhile_append_cons hb u _

theorem skipBlanks?_append_sign (u v : List Char) :
    skipBlanks? (u ++ d :: v) = (skipBlanks? u).map (· ++ d :: v) := by
  cases u with
  | nil => simp [skipBlanks?, hb]
  | cons c u =>
    rw [List.cons_append, skipBlanks?, skipBlanks?, trimStart_append_sign hb]
    split <;> rfl

include hd

/-- A phrase that starts before a sign is found as if the text ended there. -/
theorem phrase_append_sign {ks : List String} (hks : ∀ k ∈ ks, IsLetters k) (u v : List Char) :
    phrase ks (u ++ d :: v) = (phrase ks u).map (· ++ d :: v) := by
  have hkeyword {k : String} (hk : k ∈ ks) (u : List Char) :
      keyword k (u ++ d :: v) = (keyword k u).map (· ++ d :: v) :=
    dropKeyword_append ((hks k hk).foldLatin_not_mem hd) u v
  induction ks generalizing u with
  | nil => rfl
  | cons k ks ih =>
    cases ks with
    | nil => exact hkeyword List.mem_cons_self u
    | cons l ks =>
      have hstep (t : List Char) : phrase (k :: l :: ks) t =
        ((keyword k t).bind skipBlanks?).bind (phrase (l :: ks)) := rfl
      rw [hstep, hstep, hkeyword List.mem_cons_self]
      cases keyword k u with
      | none => rfl
      | some left =>
        rw [Option.map_some, Option.bind_some, Option.bind_some, skipBlanks?_append_sign hb]
        cases skipBlanks? left with
        | none => rfl
        | some t =>
          exact ih (fun m hm => hks m (List.mem_cons_of_mem k hm)) t fun hm => hkeyword (List.mem_cons_of_mem k hm)

theorem isSome_phraseAt_append_sign {ks : List String} (hks : ∀ k ∈ ks, IsLetters k) (u v : List Char) :
    (phraseAt ks (u ++ d :: v)).isSome = (phraseAt ks u).isSome := by
  have hend (t : List Char) : atWordEnd (t ++ d :: v) = atWordEnd t := by
    cases t with
    | nil => simp [atWordEnd, hd]
    | cons c t => rfl
  rw [phraseAt, phraseAt, phrase_append_sign hb hd hks]
  cases phrase ks u with
  | none => rfl
  | some t =>
    simp only [Option.map_some, Option.filter, hend]
    split <;> rfl

/-- On the two sides of a sign phrases are found apart. -/
theorem hasPhrase_append_sign {k : String} {ks : List String} (hks : ∀ l ∈ k :: ks, IsLetters l) (u v : List Char) :
    hasPhrase (k :: ks) (u ++ d :: v) = (hasPhrase (k :: ks) u || hasPhrase (k :: ks) v) := by
  have hleft : (search (fun t => phraseAt (k :: ks) (t ++ d :: v)) u).isSome = hasPhrase (k :: ks) u :=
    isSome_search_congr (fun t => isSome_phraseAt_append_sign hb hd hks t v) u
  rw [hasPhrase_eq, search_append_sign (atWords_phraseAt (hks k List.mem_cons_self) ks) hd, Option.isSome_or, hleft,
    ← hasPhrase_eq]

end Sign

end Erd.Text
