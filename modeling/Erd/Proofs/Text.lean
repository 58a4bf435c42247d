import Erd.Text.Name
import Mathlib.Data.List.TakeWhile

/-!
# Scanning what was written

A reader takes from the left what fits and leaves the rest. The lemmas here say what the scanners of
`Erd.Text` make of a text that is put together from pieces: a word before something that cannot continue
it, a line before a line feed, a keyword before any rest, blanks around a text.

**Results.**
* `isBlank_of_isWord`: no character is both blank and part of a word.
* `trim_pad`: blanks around a text that neither starts nor ends with one are all that trimming takes.
* `lines_append`, `splitOn_append`: a piece before a line feed or a separator is the first one.
* `splitOn_join`: texts that were joined are found again.
* `map_trim_splitOn_trim`: blanks around a text do not matter for its pieces without theirs.
* `keyword_bind_skipBlanks?`: blanks follow a keyword at a word only if it takes the whole word.
-/
namespace Erd.Text

/-! ## Deciding

What holds of every character of a text is decided along the text. It could also be decided along all the
characters there are, which is never meant.
-/

instance decidableForallText (p : Char → Prop) [DecidablePred p] (s : List Char) :
    Decidable (∀ c ∈ s, p c) :=
  List.decidableBAll p s

instance decidableForallEnd (p : Char → Prop) [DecidablePred p] (o : Option Char) :
    Decidable (∀ c ∈ o, p c) :=
  Option.decidableForallMem o

/-! ## Spans -/

section Span

variable {α : Type} {p : α → Bool} {body rest : List α}

theorem takeWhile_append_stop (hb : ∀ a ∈ body, p a = true) (hr : ∀ a ∈ rest.head?, p a = false) :
    (body ++ rest).takeWhile p = body := by
  rw [List.takeWhile_append_of_pos hb]
  cases rest with
  | nil => simp
  | cons a rest => simp [hr a rfl]

theorem dropWhile_append_stop (hb : ∀ a ∈ body, p a = true) (hr : ∀ a ∈ rest.head?, p a = false) :
    (body ++ rest).dropWhile p = rest := by
  rw [List.dropWhile_append_of_pos hb]
  cases rest with
  | nil => rfl
  | cons a rest => simp [hr a rfl]

/-- A span does not go past an element that is not of it, whether it gets there or not. -/
theorem takeWhile_append_cons {a : α} (ha : p a = false) (s t : List α) :
    (s ++ a :: t).takeWhile p = s.takeWhile p := by
  induction s with
  | nil => simp [ha]
  | cons b s ih => rw [List.cons_append, List.takeWhile_cons, List.takeWhile_cons, ih]

theorem dropWhile_append_cons {a : α} (ha : p a = false) (s t : List α) :
    (s ++ a :: t).dropWhile p = s.dropWhile p ++ a :: t := by
  induction s with
  | nil => simp [ha]
  | cons b s ih =>
    rw [List.cons_append, List.dropWhile_cons, List.dropWhile_cons, ih]
    split <;> rfl

/-- A span that ends in a text does not go past it. -/
theorem takeWhile_append_of_mem {s : List α} (h : ∃ a ∈ s, p a = false) (t : List α) :
    (s ++ t).takeWhile p = s.takeWhile p := by
  obtain ⟨a, ha, hp⟩ := h
  obtain ⟨u, v, rfl⟩ := List.append_of_mem ha
  rw [List.append_assoc, List.cons_append, takeWhile_append_cons hp, takeWhile_append_cons hp]

theorem dropWhile_append_of_mem {s : List α} (h : ∃ a ∈ s, p a = false) (t : List α) :
    (s ++ t).dropWhile p = s.dropWhile p ++ t := by
  obtain ⟨a, ha, hp⟩ := h
  obtain ⟨u, v, rfl⟩ := List.append_of_mem ha
  rw [List.append_assoc, List.cons_append, dropWhile_append_cons hp, dropWhile_append_cons hp, List.append_assoc,
    List.cons_append]

end Span

/-! ## Classes of characters -/

/-- The code points of the blanks. -/
def blankCodes : List Nat :=
  [9, 10, 11, 12, 13, 28, 29, 30, 31, 32, 0x85, 0xA0, 0x1680, 0x2000, 0x2001, 0x2002, 0x2003, 0x2004,
    0x2005, 0x2006, 0x2007, 0x2008, 0x2009, 0x200A, 0x2028, 0x2029, 0x202F, 0x205F, 0x3000]

theorem toNat_mem_blankCodes {c : Char} (h : isBlank c = true) : c.toNat ∈ blankCodes := by
  simp only [isBlank, Bool.or_eq_true, Bool.and_eq_true, decide_eq_true_eq, beq_iff_eq] at h
  simp only [blankCodes, List.mem_cons, List.not_mem_nil, or_false]
  omega

theorem isWord_of_mem_blankCodes : ∀ n ∈ blankCodes, isWord (Char.ofNat n) = false := by
  decide +kernel

/-- No blank is part of a word. -/
theorem isBlank_of_isWord {c : Char} (h : isWord c = true) : isBlank c = false := by
  cases hb : isBlank c with
  | false => rfl
  | true =>
    have := isWord_of_mem_blankCodes _ (toNat_mem_blankCodes hb)
    rw [Char.ofNat_toNat, h] at this
    cases this

/-- No character of a word is blank. -/
theorem isWord_of_isBlank {c : Char} (h : isBlank c = true) : isWord c = false := by
  cases hw : isWord c with
  | false => rfl
  | true => exact absurd (isBlank_of_isWord hw) (by simp [h])

theorem ne_of_isWord {c x : Char} (h : isWord c = true) (hx : isWord x = false) : c ≠ x := by
  rintro rfl
  rw [h] at hx
  cases hx

theorem isQuote_of_isWord {c : Char} (h : isWord c = true) : isQuote c = false := by
  simp only [isQuote, Bool.or_eq_false_iff, beq_eq_false_iff_ne]
  exact ⟨⟨ne_of_isWord h (by decide), ne_of_isWord h (by decide)⟩, ne_of_isWord h (by decide)⟩

theorem isBlank_of_isLineEnd {c : Char} (h : isLineEnd c = true) : isBlank c = true := by
  simp only [isLineEnd, Bool.or_eq_true, Bool.and_eq_true, decide_eq_true_eq, beq_iff_eq] at h
  simp only [isBlank, Bool.or_eq_true, Bool.and_eq_true, decide_eq_true_eq, beq_iff_eq]
  omega

theorem isLineEnd_of_isBlank {c : Char} (h : isBlank c = false) : isLineEnd c = false := by
  cases hl : isLineEnd c with
  | false => rfl
  | true => rw [isBlank_of_isLineEnd hl] at h; cases h

/-! ## Words -/

/-- A text that is one word. -/
theorem isPlainWord_iff {s : List Char} : isPlainWord s = true ↔ s ≠ [] ∧ ∀ c ∈ s, isWord c = true := by
  simp [isPlainWord]

theorem leadingWord_append {w s : List Char} (hw : ∀ c ∈ w, isWord c = true)
    (hs : ∀ c ∈ s.head?, isWord c = false) : leadingWord (w ++ s) = w :=
  takeWhile_append_stop hw hs

theorem afterWord_append {w s : List Char} (hw : ∀ c ∈ w, isWord c = true)
    (hs : ∀ c ∈ s.head?, isWord c = false) : afterWord (w ++ s) = s :=
  dropWhile_append_stop hw hs

/-! ## Trimming -/

/-- The text neither starts nor ends with a blank. -/
def Tight (s : List Char) : Prop :=
  (∀ c ∈ s.head?, isBlank c = false) ∧ ∀ c ∈ s.getLast?, isBlank c = false

theorem tight_of_ends {s : List Char} {a z : Char} (hs : s.head? = some a) (hz : s.getLast? = some z)
    (ha : isBlank a = false) (hb : isBlank z = false) : Tight s := by
  refine ⟨fun c hc => ?_, fun c hc => ?_⟩
  · rw [hs] at hc; cases hc; exact ha
  · rw [hz] at hc; cases hc; exact hb

theorem tight_of_word {w : List Char} (hw : ∀ c ∈ w, isWord c = true) : Tight w :=
  ⟨fun c hc => isBlank_of_isWord (hw c (List.mem_of_mem_head? hc)),
    fun c hc => isBlank_of_isWord (hw c (List.mem_of_mem_getLast? hc))⟩

theorem trimStart_eq_self {s : List Char} (h : ∀ c ∈ s.head?, isBlank c = false) : trimStart s = s := by
  have ht : trimStart ([] ++ s) = s := dropWhile_append_stop (by simp) h
  exact ht

theorem trimStart_append {a s : List Char} (ha : ∀ c ∈ a, isBlank c = true)
    (hs : ∀ c ∈ s.head?, isBlank c = false) : trimStart (a ++ s) = s :=
  dropWhile_append_stop ha hs

theorem trimEnd_append {s b : List Char} (hb : ∀ c ∈ b, isBlank c = true)
    (hs : ∀ c ∈ s.getLast?, isBlank c = false) : trimEnd (s ++ b) = s := by
  rw [trimEnd, List.reverse_append, dropWhile_append_stop (by simpa using hb) (by simpa using hs),
    List.reverse_reverse]

theorem trimEnd_append_cons {c : Char} (hc : isBlank c = false) (s t : List Char) :
    trimEnd (s ++ c :: t) = s ++ c :: trimEnd t := by
  rw [trimEnd, trimEnd, List.reverse_append, List.reverse_cons, List.append_assoc, List.singleton_append,
    dropWhile_append_cons hc, List.reverse_append, List.reverse_cons, List.reverse_reverse, List.append_assoc,
    List.singleton_append]

theorem trim_pad {a s b : List Char} (ha : ∀ c ∈ a, isBlank c = true) (hs : Tight s)
    (hb : ∀ c ∈ b, isBlank c = true) : trim (a ++ (s ++ b)) = s := by
  cases s with
  | nil =>
    have hab : ∀ c ∈ a ++ ([] ++ b), isBlank c = true := by
      intro c hc
      rcases List.mem_append.mp hc with h | h
      · exact ha c h
      · exact hb c (by simpa using h)
    have hd : trimStart (a ++ ([] ++ b)) = [] := by
      exact List.dropWhile_eq_nil_iff.mpr hab
    rw [trim, hd]
    rfl
  | cons c s =>
    rw [trim, trimStart_append ha (by simpa using hs.1), trimEnd_append hb hs.2]

theorem trim_eq_self {s : List Char} (h : Tight s) : trim s = s := by
  simpa using trim_pad (a := []) (b := []) (by simp) h (by simp)

theorem skipBlanks?_blank {c : Char} {s : List Char} (hc : isBlank c = true)
    (hs : ∀ c ∈ s.head?, isBlank c = false) : skipBlanks? (c :: s) = some s := by
  simp [skipBlanks?, hc, trimStart_eq_self hs]

theorem skipBlanks?_of_head {c : Char} {s : List Char} (hc : isBlank c = false) :
    skipBlanks? (c :: s) = none := by
  simp [skipBlanks?, hc]

/-- Skipping takes blanks off the front. -/
theorem skipBlanks?_eq_some {s rest : List Char} (h : skipBlanks? s = some rest) :
    ∃ blanks, s = blanks ++ rest := by
  cases s with
  | nil => simp [skipBlanks?] at h
  | cons c s =>
    simp only [skipBlanks?] at h
    split at h
    · cases h
      exact ⟨c :: s.takeWhile isBlank, by simp [trimStart]⟩
    · cases h

/-- A text is the blanks it starts with and what trimming leaves of it. -/
theorem trimStart_eq (s : List Char) : s = s.takeWhile isBlank ++ trimStart s :=
  List.takeWhile_append_dropWhile.symm

/-- Trimming leaves nothing exactly of blanks. -/
theorem isEmpty_trim (s : List Char) : (trim s).isEmpty = isBlankText s := by
  have hend (t : List Char) : trimEnd t = [] ↔ ∀ c ∈ t, isBlank c = true := by
    simp [trimEnd, List.dropWhile_eq_nil_iff]
  rw [Bool.eq_iff_iff, List.isEmpty_iff, trim, hend, isBlankText, List.all_eq_true]
  constructor
  · intro h
    rw [trimStart_eq s]
    exact List.forall_mem_append.mpr ⟨fun c hc => List.mem_takeWhile_imp hc, h⟩
  · exact fun h c hc => h c ((List.dropWhile_suffix _).subset hc)

/-- What trimming leaves does not end with a blank. -/
theorem isBlank_getLast?_trim (s : List Char) : ∀ z ∈ (trim s).getLast?, isBlank z = false := by
  intro z hz
  rw [trim, trimEnd, List.getLast?_reverse] at hz
  have := List.head?_dropWhile_not isBlank (trimStart s).reverse
  rwa [hz] at this

/-- A text is what trimming leaves of it with blanks at both ends. -/
theorem exists_trim (s : List Char) :
    ∃ a b, (∀ c ∈ a, isBlank c = true) ∧ (∀ c ∈ b, isBlank c = true) ∧ s = a ++ (trim s ++ b) := by
  have hend (t : List Char) : t = trimEnd t ++ (t.reverse.takeWhile isBlank).reverse := by
    rw [trimEnd, ← List.reverse_append, List.takeWhile_append_dropWhile, List.reverse_reverse]
  refine ⟨s.takeWhile isBlank, ((trimStart s).reverse.takeWhile isBlank).reverse,
    fun c hc => List.mem_takeWhile_imp hc, fun c hc => List.mem_takeWhile_imp (List.mem_reverse.mp hc), ?_⟩
  rw [trim, ← hend, ← trimStart_eq]

theorem mem_of_mem_trim {s : List Char} {c : Char} (h : c ∈ trim s) : c ∈ s := by
  obtain ⟨a, b, -, -, hs⟩ := exists_trim s
  rw [hs]
  exact List.mem_append_right a (List.mem_append_left b h)

/-- Trimming keeps what is no blank. -/
theorem mem_trim {s : List Char} {c : Char} (hc : isBlank c = false) (h : c ∈ s) : c ∈ trim s := by
  obtain ⟨a, b, ha, hb, hs⟩ := exists_trim s
  rw [hs, List.mem_append, List.mem_append] at h
  rcases h with h | h | h
  · exact absurd (ha c h) (by simp [hc])
  · exact h
  · exact absurd (hb c h) (by simp [hc])

section Blanks

variable {b : List Char} (hb : ∀ c ∈ b, isBlank c = true)

include hb

theorem trim_blanks_append (s : List Char) : trim (b ++ s) = trim s := by
  rw [trim, trimStart, List.dropWhile_append_of_pos hb]
  rfl

theorem trim_append_blanks (s : List Char) : trim (s ++ b) = trim s := by
  have hend (t : List Char) : trimEnd (t ++ b) = trimEnd t := by
    rw [trimEnd, List.reverse_append, List.dropWhile_append_of_pos (by simpa using hb)]
    rfl
  by_cases hs : ∀ c ∈ s, isBlank c = true
  · have hnil : trim s = [] := List.isEmpty_iff.mp ((isEmpty_trim s).trans (List.all_eq_true.mpr hs))
    have hall := List.all_eq_true.mpr (List.forall_mem_append.mpr ⟨hs, hb⟩)
    rw [hnil, List.isEmpty_iff.mp ((isEmpty_trim (s ++ b)).trans hall)]
  · simp only [not_forall] at hs
    obtain ⟨c, hc, hcb⟩ := hs
    rw [trim, trimStart, dropWhile_append_of_mem ⟨c, hc, Bool.not_eq_true _ ▸ hcb⟩, hend]
    rfl

end Blanks

/-! ## Cuts -/

theorem splitOn_eq_self {sep : Char} {piece : List Char} (h : sep ∉ piece) :
    splitOn sep piece = [piece] := by
  induction piece with
  | nil => rfl
  | cons c piece ih =>
    obtain ⟨hc, hp⟩ := not_or.mp (mt List.mem_cons.mpr h)
    rw [splitOn, if_neg (Ne.symm hc), ih hp]

/-- Cutting a text at one of its separators cuts the two sides. -/
theorem splitOn_append_sep (sep : Char) (s t : List Char) :
    splitOn sep (s ++ sep :: t) = splitOn sep s ++ splitOn sep t := by
  induction s with
  | nil => simp [splitOn]
  | cons c s ih =>
    rw [List.cons_append, splitOn, splitOn, ih]
    split
    · rfl
    · cases hs : splitOn sep s with
      | nil => exact absurd hs (splitOn_ne_nil sep s)
      | cons piece pieces => rfl

theorem splitOn_append {sep : Char} {piece : List Char} (h : sep ∉ piece) (s : List Char) :
    splitOn sep (piece ++ sep :: s) = piece :: splitOn sep s := by
  rw [splitOn_append_sep, splitOn_eq_self h]
  rfl

theorem splitOn_cons_self (sep : Char) (s : List Char) : splitOn sep (sep :: s) = [] :: splitOn sep s := by
  rw [splitOn, if_pos rfl]

theorem splitOn_cons_of_ne {sep c : Char} (hc : c ≠ sep) {s p : List Char} {ps : List (List Char)}
    (hs : splitOn sep s = p :: ps) : splitOn sep (c :: s) = (c :: p) :: ps := by
  rw [splitOn, if_neg hc, hs]

/-- No piece holds the separator. -/
theorem sep_notMem_splitOn {sep : Char} {s p : List Char} (h : p ∈ splitOn sep s) : sep ∉ p := by
  induction s generalizing p with
  | nil =>
    rw [List.mem_singleton.mp h]
    exact List.not_mem_nil
  | cons c s ih =>
    by_cases hc : c = sep
    · rw [hc, splitOn_cons_self] at h
      rcases List.mem_cons.mp h with rfl | h
      · exact List.not_mem_nil
      · exact ih h
    · obtain ⟨q, qs, hq⟩ := List.exists_cons_of_ne_nil (splitOn_ne_nil sep s)
      rw [splitOn_cons_of_ne hc hq] at h
      rw [hq] at ih
      rcases List.mem_cons.mp h with rfl | h
      · exact List.not_mem_cons_of_ne_of_not_mem (Ne.symm hc) (ih List.mem_cons_self)
      · exact ih (List.mem_cons_of_mem q h)

section Join

variable {sep : Char} {xs : List (List Char)}

theorem join_cons (hne : xs ≠ []) (x : List Char) : join sep (x :: xs) = x ++ sep :: join sep xs := by
  cases xs with
  | nil => exact absurd rfl hne
  | cons y ys => rfl

/-- Texts without the separator are found again. -/
theorem splitOn_join (hne : xs ≠ []) (h : ∀ x ∈ xs, sep ∉ x) : splitOn sep (join sep xs) = xs := by
  induction xs with
  | nil => exact absurd rfl hne
  | cons x xs ih =>
    obtain ⟨hx, hxs⟩ := List.forall_mem_cons.mp h
    cases xs with
    | nil => exact splitOn_eq_self hx
    | cons y ys => rw [join_cons (by simp), splitOn_append hx, ih (by simp) hxs]

theorem infix_join_of_mem (sep : Char) {x : List Char} (h : x ∈ xs) : x <:+: join sep xs := by
  induction xs with
  | nil => cases h
  | cons y xs ih =>
    cases xs with
    | nil =>
      obtain rfl := List.mem_singleton.mp h
      exact List.infix_refl _
    | cons z zs =>
      rw [join_cons (by simp)]
      rcases List.mem_cons.mp h with rfl | h
      · exact (List.prefix_append _ _).isInfix
      · exact (ih h).trans ((List.suffix_cons _ _).trans (List.suffix_append _ _)).isInfix

/-- A character that is not the separator is of one of the texts. -/
theorem exists_mem_of_mem_join {c : Char} (hc : c ≠ sep) (h : c ∈ join sep xs) : ∃ x ∈ xs, c ∈ x := by
  induction xs with
  | nil => cases h
  | cons x xs ih =>
    cases xs with
    | nil => exact ⟨x, List.mem_cons_self, h⟩
    | cons y ys =>
      rw [join_cons (by simp), List.mem_append, List.mem_cons] at h
      rcases h with h | h | h
      · exact ⟨x, List.mem_cons_self, h⟩
      · exact absurd h hc
      · obtain ⟨z, hz, hcz⟩ := ih h
        exact ⟨z, List.mem_cons_of_mem x hz, hcz⟩

end Join

section Blanks

variable {b : List Char} (hb : ∀ c ∈ b, isBlank c = true) {sep : Char} (hsep : isBlank sep = false)

include hb hsep

/-- Blanks in front of a text go to its first piece, and trimming takes them. -/
theorem map_trim_splitOn_blanks_append (s : List Char) :
    (splitOn sep (b ++ s)).map trim = (splitOn sep s).map trim := by
  obtain ⟨p, ps, hp⟩ := List.exists_cons_of_ne_nil (splitOn_ne_nil sep s)
  have hcut : splitOn sep (b ++ s) = (b ++ p) :: ps := by
    induction b with
    | nil => exact hp
    | cons c b ih =>
      obtain ⟨hc, hb⟩ := List.forall_mem_cons.mp hb
      have hne : c ≠ sep := by
        rintro rfl
        exact absurd hc (by simp [hsep])
      exact splitOn_cons_of_ne hne (ih hb)
  rw [hcut, hp, List.map_cons, List.map_cons, trim_blanks_append hb]

/-- Blanks behind a text go to its last piece. -/
theorem map_trim_splitOn_append_blanks (s : List Char) :
    (splitOn sep (s ++ b)).map trim = (splitOn sep s).map trim := by
  have hcut : ∃ ps p, splitOn sep s = ps ++ [p] ∧ splitOn sep (s ++ b) = ps ++ [p ++ b] := by
    induction s with
    | nil =>
      refine ⟨[], [], rfl, splitOn_eq_self fun hm => ?_⟩
      exact absurd (hb sep hm) (by simp [hsep])
    | cons c s ih =>
      obtain ⟨ps, p, hp, hpb⟩ := ih
      rw [List.cons_append]
      by_cases hc : c = sep
      · refine ⟨[] :: ps, p, ?_, ?_⟩
        · rw [hc, splitOn_cons_self, hp]
          rfl
        · rw [hc, splitOn_cons_self, hpb]
          rfl
      · cases ps with
        | nil => exact ⟨[], c :: p, splitOn_cons_of_ne hc hp, splitOn_cons_of_ne hc hpb⟩
        | cons q ps => exact ⟨(c :: q) :: ps, p, splitOn_cons_of_ne hc hp, splitOn_cons_of_ne hc hpb⟩
  obtain ⟨ps, p, hp, hpb⟩ := hcut
  rw [hp, hpb, List.map_append, List.map_append, List.map_singleton, List.map_singleton, trim_append_blanks hb]

end Blanks

/-- It does not matter for the pieces, trimmed, whether the text is trimmed before it is cut. -/
theorem map_trim_splitOn_trim {sep : Char} (hsep : isBlank sep = false) (s : List Char) :
    (splitOn sep (trim s)).map trim = (splitOn sep s).map trim := by
  obtain ⟨a, b, ha, hb, hs⟩ := exists_trim s
  rw [← map_trim_splitOn_append_blanks hb hsep (trim s), ← map_trim_splitOn_blanks_append ha hsep, ← hs]

/-- No character of the text ends a line. -/
def OneLine (s : List Char) : Prop := ∀ c ∈ s, isLineEnd c = false

instance (s : List Char) : Decidable (OneLine s) := inferInstanceAs (Decidable (∀ c ∈ s, isLineEnd c = false))

theorem oneLine_nil : OneLine [] := by simp [OneLine]

theorem oneLine_cons {c : Char} {s : List Char} : OneLine (c :: s) ↔ isLineEnd c = false ∧ OneLine s :=
  List.forall_mem_cons

theorem oneLine_append {s t : List Char} : OneLine (s ++ t) ↔ OneLine s ∧ OneLine t := by
  simp only [OneLine, List.mem_append, or_imp, forall_and]

theorem oneLine_of_word {w : List Char} (hw : ∀ c ∈ w, isWord c = true) : OneLine w := fun c hc =>
  isLineEnd_of_isBlank (isBlank_of_isWord (hw c hc))

theorem lines_cons {c : Char} (h : isLineEnd c = false) (s : List Char) :
    lines (c :: s) = match lines s with
      | line :: rest => (c :: line) :: rest
      | [] => [[c]] := by
  have hr : c ≠ '\r' := by rintro rfl; cases h
  exact (lines.eq_3 c s fun t hc => absurd hc hr).trans (if_neg (by simp [h]))

theorem lines_append {line : List Char} (h : OneLine line) (s : List Char) :
    lines (line ++ '\n' :: s) = line :: lines s := by
  induction line with
  | nil => rw [List.nil_append, lines.eq_3 '\n' s (fun t hc => by cases hc), if_pos (by decide)]
  | cons c line ih =>
    obtain ⟨hc, hl⟩ := List.forall_mem_cons.mp h
    rw [List.cons_append, lines_cons hc, ih hl]

theorem lines_eq_self {line : List Char} (h : OneLine line) (hne : line ≠ []) : lines line = [line] := by
  induction line with
  | nil => exact absurd rfl hne
  | cons c line ih =>
    obtain ⟨hc, hl⟩ := List.forall_mem_cons.mp h
    rw [lines_cons hc]
    cases line with
    | nil => rfl
    | cons d line => rw [ih hl (by simp)]

/-! ## Keywords -/

theorem dropKeyword_eq_some {ks s rest : List Char} (h : dropKeyword ks s = some rest) :
    ∃ taken, s = taken ++ rest ∧ taken.map foldLatin = ks := by
  induction ks generalizing s with
  | nil => exact ⟨[], by simpa [dropKeyword] using h, rfl⟩
  | cons k ks ih =>
    cases s with
    | nil => simp [dropKeyword] at h
    | cons c s =>
      simp only [dropKeyword] at h
      split at h
      · next hc =>
        obtain ⟨taken, rfl, hks⟩ := ih h
        exact ⟨c :: taken, rfl, by simp [hc, hks]⟩
      · cases h

/-- Before a character that is not in it a keyword takes from a text what it takes from the text alone. -/
theorem dropKeyword_append {c : Char} {ks : List Char} (hks : foldLatin c ∉ ks) (w s : List Char) :
    dropKeyword ks (w ++ c :: s) = (dropKeyword ks w).map (· ++ c :: s) := by
  induction ks generalizing w with
  | nil => rfl
  | cons k ks ih =>
    obtain ⟨hk, hks⟩ := not_or.mp (mt List.mem_cons.mpr hks)
    cases w with
    | nil => simp only [List.nil_append, dropKeyword, if_neg hk, Option.map_none]
    | cons d w =>
      rw [List.cons_append, dropKeyword, dropKeyword, ih hks]
      split <;> rfl

/-- What a keyword leaves of a word is of the word. -/
theorem isWord_of_dropKeyword {ks w left : List Char} (hw : ∀ c ∈ w, isWord c = true)
    (h : dropKeyword ks w = some left) : ∀ c ∈ left, isWord c = true := by
  obtain ⟨taken, rfl, -⟩ := dropKeyword_eq_some h
  exact fun c hc => hw c (List.mem_append_right taken hc)

theorem foldLatin_of_mem_blankCodes : ∀ n ∈ blankCodes, foldLatin (Char.ofNat n) = Char.ofNat n := by
  decide +kernel

theorem foldLatin_of_isBlank {c : Char} (h : isBlank c = true) : foldLatin c = c := by
  have hc := foldLatin_of_mem_blankCodes _ (toNat_mem_blankCodes h)
  rwa [Char.ofNat_toNat] at hc

/-- Before a blank a keyword takes from a text what it takes from the text alone. -/
theorem keyword_append_blank {k : String} (hk : ∀ x ∈ k.toList, isBlank x = false) {b : Char}
    (hb : isBlank b = true) (w s : List Char) : keyword k (w ++ b :: s) = (keyword k w).map (· ++ b :: s) := by
  refine dropKeyword_append (fun hmem => ?_) w s
  rw [foldLatin_of_isBlank hb] at hmem
  exact absurd (hk b hmem) (by simp [hb])

/-- Blanks follow a keyword at a word only if it takes the whole word. -/
theorem keyword_bind_skipBlanks? {k : String} (hk : ∀ x ∈ k.toList, isBlank x = false) {b : Char}
    (hb : isBlank b = true) {w : List Char} (hw : ∀ c ∈ w, isWord c = true) (s : List Char) :
    (keyword k (w ++ b :: s)).bind skipBlanks? = if keyword k w = some [] then some (trimStart s) else none := by
  rw [keyword_append_blank hk hb]
  cases h : keyword k w with
  | none => rfl
  | some left =>
    cases left with
    | nil => simp [skipBlanks?, hb]
    | cons c left =>
      have hc := isBlank_of_isWord (isWord_of_dropKeyword hw h c List.mem_cons_self)
      rw [if_neg (by simp)]
      exact skipBlanks?_of_head hc

end Erd.Text
