import Erd.Proofs.Sql.Layout
import Erd.Proofs.Sql.Spelling

/-!
# Scanners in front of a quote

What is read of a definition up to the literal of a default value does not depend on the literal. Whoever scans that
part stops at the quote: parentheses are closed there, names and words end there, and the word for a default value is
none of the words after which a name is looked for. What stands behind the quote is only looked at where the settings
of a column are searched.

**Results.**
* `Fence.classify_quote`: before the quote it is settled what a definition is.
* `Fence.inlineTarget?_quote`: what is referred to in front of the quote and behind it.
-/
namespace Erd.Sql

open Text

/-! ## Parentheses that are closed -/

/-- After the text no parenthesis is open, of those before it and those in it. -/
def Closed (t : List Char) : Prop := ∃ depth, openAfter? depth t = some 0

theorem Enclosed.closed {t : List Char} (h : Enclosed t) : Closed t := ⟨0, enclosed_iff.mp h⟩

theorem Closed.suffix {t u : List Char} (h : Closed u) (ht : t <:+ u) : Closed t := by
  obtain ⟨s, rfl⟩ := ht
  obtain ⟨depth, hdepth⟩ := h
  rw [openAfter?_append] at hdepth
  obtain ⟨d, -, hd⟩ := Option.bind_eq_some_iff.mp hdepth
  exact ⟨d, hd⟩

/-- Without a closing parenthesis no fewer are open. -/
theorem le_of_openAfter? {depth d : Nat} {s : List Char} (h : openAfter? depth s = some d) (hs : ')' ∉ s) :
    depth ≤ d := by
  induction s generalizing depth with
  | nil => exact (Option.some.inj h).le
  | cons c s ih =>
    obtain ⟨hc, hs⟩ := not_or.mp (List.mem_cons.not.mp hs)
    rw [openAfter?_cons] at h
    obtain ⟨e, he, h⟩ := Option.bind_eq_some_iff.mp h
    refine le_trans ?_ (ih h hs)
    unfold openAfterChar? at he
    rw [if_neg (Ne.symm hc)] at he
    split at he <;> cases he <;> omega

theorem openAfter?_open {depth d : Nat} {s : List Char} (h : openAfter? depth ('(' :: s) = some d) :
    openAfter? (depth + 1) s = some d := by
  rwa [openAfter?_cons] at h

/-- What is opened is closed. -/
theorem Closed.mem_close {s : List Char} (h : Closed ('(' :: s)) : ∃ c ∈ s, decide (c ≠ ')') = false := by
  obtain ⟨depth, hdepth⟩ := h
  have hmem : ')' ∈ s := by
    by_contra hs
    exact absurd (le_of_openAfter? (openAfter?_open hdepth) hs) (by omega)
  exact ⟨')', hmem, by decide⟩

theorem Closed.dropWhile_close {s : List Char} (h : Closed ('(' :: s)) : ∃ v, s.dropWhile (· ≠ ')') = ')' :: v := by
  cases hd : s.dropWhile (· ≠ ')') with
  | nil =>
    obtain ⟨c, hc, hclose⟩ := h.mem_close
    rw [List.dropWhile_eq_nil_iff.mp hd c hc] at hclose
    cases hclose
  | cons c v =>
    have hhead := List.head?_dropWhile_not (fun c => decide (c ≠ ')')) s
    rw [hd] at hhead
    exact ⟨v, by simpa using hhead⟩

/-- The columns of an index end where all parentheses are closed. -/
theorem afterIndexColumns_append {inner : Bool} {depth : Nat} {s : List Char}
    (h : openAfter? (depth + 1 + inner.toNat) s = some 0) (z : List Char) :
    afterIndexColumns inner (s ++ z) = (afterIndexColumns inner s).map (· ++ z) := by
  induction s generalizing inner with
  | nil => exact absurd (Option.some.inj h) (by omega)
  | cons c s ih =>
    rw [List.cons_append, afterIndexColumns, afterIndexColumns]
    rw [openAfter?_cons] at h
    by_cases ho : c = '('
    · subst ho
      cases inner with
      | true => rfl
      | false => exact @ih true h
    · by_cases hc : c = ')'
      · subst hc
        cases inner with
        | true => exact @ih false h
        | false => rfl
      · have hstay : openAfterChar? (depth + 1 + inner.toNat) c = some (depth + 1 + inner.toNat) := by
          simp [openAfterChar?, ho, hc]
        rw [hstay] at h
        rw [if_neg ho, if_neg hc, if_neg ho, if_neg hc]
        exact ih h

/-! ## Scanners at a quote -/

section Quote

variable {t : List Char} (x : List Char)

theorem trimStart_append_quote (t : List Char) : trimStart (t ++ '\'' :: x) = trimStart t ++ '\'' :: x :=
  trimStart_append_sign rfl t x

theorem keyword_append_quote {k : String} (hk : IsLetters k) (t : List Char) :
    keyword k (t ++ '\'' :: x) = (keyword k t).map (· ++ '\'' :: x) :=
  keyword_append_stop hk (by simp [isWord]) t

theorem parenthesized?_append_quote (h : Closed t) :
    parenthesized? (t ++ '\'' :: x) = (parenthesized? t).map (Prod.map id (· ++ '\'' :: x)) := by
  rw [parenthesized?, parenthesized?, trimStart_append_quote]
  have hclosed : Closed (trimStart t) := h.suffix (List.dropWhile_suffix _)
  cases ht : trimStart t with
  | nil => rfl
  | cons c inside =>
    by_cases hc : c = '('
    · subst hc
      rw [ht] at hclosed
      obtain ⟨v, hv⟩ := hclosed.dropWhile_close
      simp only [List.cons_append, takeWhile_append_of_mem hclosed.mem_close,
        dropWhile_append_of_mem hclosed.mem_close, hv]
      cases inside.takeWhile (· ≠ ')') <;> rfl
    · simp [hc]

theorem spelling?_append_quote (h : Closed t) :
    spelling? (t ++ '\'' :: x) = (spelling? t).map (Prod.map id (· ++ '\'' :: x)) := by
  cases t with
  | nil => rfl
  | cons c t =>
    have hleading : leadingWord (c :: (t ++ '\'' :: x)) = leadingWord (c :: t) := takeWhile_append_cons rfl (c :: t) _
    have hafter : afterWord (c :: (t ++ '\'' :: x)) = afterWord (c :: t) ++ '\'' :: x :=
      dropWhile_append_cons rfl (c :: t) _
    have hblanks (s : List Char) : (s ++ '\'' :: x).takeWhile isBlank = s.takeWhile isBlank :=
      takeWhile_append_cons rfl s _
    have hclosed : Closed (trimStart (afterWord (c :: t))) :=
      h.suffix ((List.dropWhile_suffix _).trans (List.dropWhile_suffix _))
    rw [List.cons_append, spelling?, spelling?]
    split
    · simp only [hleading, hafter, trimStart_append_quote, hblanks]
      cases ht : trimStart (afterWord (c :: t)) with
      | nil => rfl
      | cons a inside =>
        by_cases ha : a = '('
        · subst ha
          rw [ht] at hclosed
          obtain ⟨v, hv⟩ := hclosed.dropWhile_close
          simp only [List.cons_append, takeWhile_append_of_mem hclosed.mem_close,
            dropWhile_append_of_mem hclosed.mem_close, hv]
          rfl
        · simp [ha]
    · rfl

/-- A name without quotes ends in front of a quote. -/
theorem columnName?_append_quote (hne : t ≠ []) (hq : ∀ q ∈ t.head?, isQuote q = false) :
    columnName? (t ++ '\'' :: x) = (columnName? t).map (Prod.map id (· ++ '\'' :: x)) := by
  obtain ⟨c, t, rfl⟩ := List.exists_cons_of_ne_nil hne
  have hc : isQuote c = false := hq c rfl
  have htake := takeWhile_append_cons (p := fun c => !isBlank c && !isQuote c) (a := '\'') rfl (c :: t) x
  have hdrop := dropWhile_append_cons (p := fun c => !isBlank c && !isQuote c) (a := '\'') rfl (c :: t) x
  rw [List.cons_append] at htake hdrop
  rw [List.cons_append, columnName?, columnName?, if_neg (by simp [hc]), if_neg (by simp [hc]), htake, hdrop]
  cases (c :: t).takeWhile fun c => !isBlank c && !isQuote c <;> rfl

theorem indexWord?_append_quote (t : List Char) :
    indexWord? (t ++ '\'' :: x) = (indexWord? t).map (· ++ '\'' :: x) := by
  rw [indexWord?, indexWord?, keyword_append_quote x (by decide), keyword_append_quote x (by decide), Option.map_or]

/-- An index does not end in a quote. -/
theorem endsIndex_quote (t : List Char) : endsIndex (t ++ '\'' :: x) = false := by
  have hblank (s : List Char) : isBlankText (s ++ '\'' :: x) = false := by
    simp [isBlankText, isBlank]
  have hafter (s : List Char) : afterWord (s ++ '\'' :: x) = afterWord s ++ '\'' :: x := dropWhile_append_cons rfl s _
  unfold endsIndex
  split
  · next h =>
    rw [trimStart_append_quote] at h
    exact absurd h (by simp)
  · rw [trimStart_append_quote, keyword_append_quote x (by decide)]
    cases keyword "using" (trimStart t) with
    | none => rfl
    | some r =>
      rw [Option.map_some, Option.bind_some, skipBlanks?_append_sign rfl]
      cases skipBlanks? r with
      | none => rfl
      | some m => simp [hafter, hblank]

end Quote

/-! ## The text in front of a literal -/

theorem parenthesized?_suffix {s : List Char} {p : List Char × List Char} (h : parenthesized? s = some p) :
    p.2 <:+ s := by
  unfold parenthesized? at h
  split at h
  · next inside hs =>
    split at h
    · next hrest =>
      cases h
      have hdrop := (List.suffix_cons ')' _).trans (hrest ▸ List.dropWhile_suffix _)
      exact hdrop.trans ((List.suffix_cons '(' inside).trans (hs ▸ List.dropWhile_suffix _))
    · cases h
  · cases h

theorem indexName_suffix (s : List Char) : (indexName s).2 <:+ s := by
  rw [indexName]
  split
  · exact List.suffix_refl _
  · next t ht =>
    dsimp only
    split
    · exact List.suffix_refl _
    · exact (List.dropWhile_suffix _).trans (skipBlanks?_suffix ht)

theorem spelling?_suffix {s : List Char} {p : List Char × List Char} (h : spelling? s = some p) : p.2 <:+ s := by
  unfold spelling? at h
  split at h
  · cases h
  · next c s =>
    split at h
    · have hafter : afterWord (c :: s) <:+ c :: s := List.dropWhile_suffix _
      dsimp only at h
      split at h
      · next inside hs =>
        have hopen : trimStart (afterWord (c :: s)) <:+ afterWord (c :: s) := List.dropWhile_suffix _
        have hinside : inside <:+ c :: s := (List.suffix_cons '(' inside).trans ((hs ▸ hopen).trans hafter)
        split at h
        · next rest hrest =>
          cases h
          exact (List.suffix_cons ')' rest).trans ((hrest ▸ List.dropWhile_suffix _).trans hinside)
        · cases h
          exact hafter
      · cases h
        exact hafter
    · cases h

/-- A text that scanners do not leave if a quote follows: its parentheses are closed, and it ends with the word for a
default value and blanks. -/
structure Fence (u : List Char) : Prop where
  closed : Closed u
  ending : ∃ w d g, u = w ++ (d ++ g) ∧ IsKeyword "default" d ∧ Gap g

/-- The words after which a name is looked for are not the one for a default value. -/
theorem fence_words : ∀ k ∈ "references" :: itemWords,
    IsLetters k ∧ ¬ k.toList <:+ "default".toList ∧ ¬ "default".toList <:+ k.toList := by
  decide

theorem Ends.trimEnd {v g : List Char} (hv : Ends v) (hg : Blanks g) : trimEnd (v ++ g) = v := by
  refine trimEnd_append hg ?_
  obtain ⟨u, c, rfl, hc⟩ := hv
  rw [List.getLast?_concat]
  intro d hd
  cases hd
  exact hc

theorem blanks_of_skipBlanks? {r : List Char} (h : skipBlanks? r = some []) : Blanks r := by
  obtain ⟨b, left, rfl, hb, hleft⟩ := skipBlanks?_eq_some_iff.mp h
  exact List.forall_mem_cons.mpr ⟨hb, List.dropWhile_eq_nil_iff.mp hleft⟩

namespace Fence

variable {u t r : List Char} (hu : Fence u) (x : List Char)

include hu

theorem exists_blank (ht : t <:+ u) (hne : t ≠ []) : ∃ b ∈ t, isBlank b = true := by
  obtain ⟨w, d, g, rfl, -, hg⟩ := hu.ending
  have hlast : w ++ (d ++ g) = (w ++ (d ++ g.dropLast)) ++ [g.getLast hg.1] := by
    rw [List.append_assoc, List.append_assoc, List.dropLast_concat_getLast]
  rw [hlast, List.suffix_concat_iff] at ht
  obtain ⟨s, rfl, -⟩ := ht.resolve_left hne
  exact ⟨_, by simp, hg.2 _ (List.getLast_mem hg.1)⟩

theorem exists_namePart (ht : t <:+ u) (hne : t ≠ []) : ∃ c ∈ t, isNamePart c = false := by
  obtain ⟨b, hb, hblank⟩ := hu.exists_blank ht hne
  exact ⟨b, hb, by simp [isNamePart, hblank]⟩

/-- The word for a default value stands between any other keyword and the quote. -/
theorem skipBlanks?_keyword (ht : t <:+ u) {k : String} (hk : k ∈ "references" :: itemWords)
    (hr : keyword k t = some r) : skipBlanks? r ≠ some [] := by
  intro hskip
  obtain ⟨hletters, hkd, hdk⟩ := fence_words k hk
  obtain ⟨w, d, g, rfl, hd, hg⟩ := hu.ending
  obtain ⟨taken, rfl, htaken⟩ := dropKeyword_eq_some hr
  obtain ⟨s, hs⟩ := ht
  have hword : ∀ c ∈ taken, isWord c = true := fun c hc =>
    isWord_of_isLower_foldLatin (hletters.2 _ (htaken ▸ List.mem_map_of_mem hc))
  have hne : taken ≠ [] := by
    rintro rfl
    exact hletters.1 htaken.symm
  have htrim : s ++ taken = w ++ d := by
    have hends := (ends_of_word hne hword).append s
    have hends' := (ends_of_word (hd.ne_nil (by decide)) (hd.isWord (by decide))).append w
    rw [← hends.trimEnd (blanks_of_skipBlanks? hskip), ← hends'.trimEnd hg.2, List.append_assoc, List.append_assoc, hs]
  have hfold := congrArg (List.map foldLatin) htrim
  rw [List.map_append, List.map_append, htaken, hd.map_foldLatin] at hfold
  rcases List.suffix_or_suffix_of_suffix ⟨_, hfold⟩ (List.suffix_append _ _) with h | h
  · exact hkd h
  · exact hdk h

theorem indexName_quote (hr : r <:+ u) (hskip : skipBlanks? r ≠ some []) :
    indexName (r ++ '\'' :: x) = Prod.map id (· ++ '\'' :: x) (indexName r) := by
  rw [indexName, indexName, skipBlanks?_append_sign rfl]
  cases ht : skipBlanks? r with
  | none => rfl
  | some t =>
    have hne : t ≠ [] := fun h => hskip (h ▸ ht)
    have hpart := hu.exists_namePart ((skipBlanks?_suffix ht).trans hr) hne
    simp only [Option.map_some, takeWhile_append_of_mem hpart, dropWhile_append_of_mem hpart]
    split <;> rfl

theorem target?_quote (hr : r <:+ u) (hskip : skipBlanks? r ≠ some []) :
    target? (r ++ '\'' :: x) = (target? r).map (Prod.map id (· ++ '\'' :: x)) := by
  rw [target?, target?, skipBlanks?_append_sign rfl]
  cases ht : skipBlanks? r with
  | none => rfl
  | some t =>
    have hne : t ≠ [] := fun h => hskip (h ▸ ht)
    have hsuffix := (skipBlanks?_suffix ht).trans hr
    have hpart := hu.exists_namePart hsuffix hne
    have hclosed := hu.closed.suffix ((List.dropWhile_suffix isNamePart).trans hsuffix)
    simp only [Option.map_some, takeWhile_append_of_mem hpart, dropWhile_append_of_mem hpart,
      parenthesized?_append_quote x hclosed]
    split
    · rfl
    · cases parenthesized? (t.dropWhile isNamePart) <;> rfl

theorem reference?_quote (ht : t <:+ u) :
    reference? (t ++ '\'' :: x) = (reference? t).map (Prod.map id (· ++ '\'' :: x)) := by
  rw [reference?, reference?, keyword_append_quote x isLetters_references]
  cases hr : keyword "references" t with
  | none => rfl
  | some r =>
    exact hu.target?_quote x ((keyword_suffix hr).trans ht) (hu.skipBlanks?_keyword ht (by decide) hr)

/-- What is referred to in front of a quote and behind it. -/
theorem inlineTarget?_quote (ht : t <:+ u) :
    inlineTarget? (t ++ '\'' :: x) = (inlineTarget? t).or (inlineTarget? x) := by
  have hcongr : search (fun s => (reference? (s ++ '\'' :: x)).map Prod.fst) t =
      search (fun s => (reference? s).map Prod.fst) t := search_congr fun s hs => by
    rw [hu.reference?_quote x (hs.trans ht), Option.map_map]
    rfl
  rw [inlineTarget?_eq, inlineTarget?_eq, inlineTarget?_eq, search_append_sign atWords_reference? (by decide),
    Option.map_or, map_search, hcongr, ← map_search]

/-! ### Items -/

theorem primaryKey?_quote : primaryKey? (u ++ '\'' :: x) = primaryKey? u := by
  rw [primaryKey?, primaryKey?, phrase_append_sign rfl (by decide) (by decide)]
  cases hr : phrase ["primary", "key"] u with
  | none => rfl
  | some r =>
    rw [Option.map_some, Option.bind_some, Option.bind_some,
      parenthesized?_append_quote x (hu.closed.suffix (phrase_suffix hr))]
    cases parenthesized? r <;> rfl

theorem foreignKey?_quote : foreignKey? (u ++ '\'' :: x) = foreignKey? u := by
  rw [foreignKey?, foreignKey?, phrase_append_sign rfl (by decide) (by decide)]
  cases hr : phrase ["foreign", "key"] u with
  | none => rfl
  | some r =>
    rw [Option.map_some, Option.bind_some, Option.bind_some,
      parenthesized?_append_quote x (hu.closed.suffix (phrase_suffix hr))]
    cases hp : parenthesized? r with
    | none => rfl
    | some p =>
      obtain ⟨column, rest⟩ := p
      have hrest : trimStart rest <:+ u :=
        (List.dropWhile_suffix _).trans ((parenthesized?_suffix hp).trans (phrase_suffix hr))
      have hreference := hu.reference?_quote x hrest
      rw [reference?, reference?] at hreference
      simp only [Option.map_some, Prod.map_apply, id_eq, trimStart_append_quote, hreference]
      cases (keyword "references" (trimStart rest)).bind target? <;> rfl

theorem indexWord?_left (ht : t <:+ u) (hr : indexWord? t = some r) : r <:+ u ∧ skipBlanks? r ≠ some [] := by
  rcases Option.or_eq_some_iff.mp hr with hr | ⟨-, hr⟩
  · exact ⟨(keyword_suffix hr).trans ht, hu.skipBlanks?_keyword ht (by decide) hr⟩
  · exact ⟨(keyword_suffix hr).trans ht, hu.skipBlanks?_keyword ht (by decide) hr⟩

theorem unique?_quote : unique? (u ++ '\'' :: x) = unique? u := by
  rw [unique?, unique?, keyword_append_quote x (by decide)]
  cases hr : keyword "unique" u with
  | none => rfl
  | some r =>
    have hsuffix := keyword_suffix hr
    have hparens {v : List Char} (hv : v <:+ u) : ((parenthesized? (v ++ '\'' :: x)).map fun p => nameList p.1) =
        (parenthesized? v).map fun p => nameList p.1 := by
      rw [parenthesized?_append_quote x (hu.closed.suffix hv)]
      cases parenthesized? v <;> rfl
    simp only [Option.map_some, skipBlanks?_append_sign (d := '\'') rfl]
    cases hs : skipBlanks? r with
    | none => exact hparens hsuffix
    | some v =>
      have hv := (skipBlanks?_suffix hs).trans hsuffix
      simp only [Option.map_some, Option.bind_some, indexWord?_append_quote]
      cases hw : indexWord? v with
      | none => exact hparens hsuffix
      | some named =>
        obtain ⟨hnamed, hskip⟩ := hu.indexWord?_left hv hw
        simp only [Option.map_some, hu.indexName_quote x hnamed hskip]
        exact hparens ((indexName_suffix named).trans hnamed)

omit hu in
theorem isCheck_quote (u : List Char) : isCheck (u ++ '\'' :: x) = isCheck u := by
  rw [isCheck, isCheck, keyword_append_quote x (by decide)]
  cases keyword "check" u with
  | none => rfl
  | some r =>
    simp only [Option.map_some, trimStart_append_quote]
    cases trimStart r with
    | nil => rfl
    | cons c s => by_cases hc : c = '(' <;> simp [hc]

theorem indexRest?_quote (hr : r <:+ u) (hskip : skipBlanks? r ≠ some []) : indexRest? (r ++ '\'' :: x) = none := by
  rw [indexRest?, hu.indexName_quote x hr hskip]
  simp only [Prod.map_snd, trimStart_append_quote]
  have hsuffix := (List.dropWhile_suffix isBlank).trans ((indexName_suffix r).trans hr)
  cases ht : trimStart (indexName r).2 with
  | nil => rfl
  | cons c columns =>
    by_cases hc : c = '('
    · subst hc
      rw [trimStart] at ht
      obtain ⟨depth, hdepth⟩ := hu.closed.suffix (ht ▸ hsuffix)
      have hcolumns := @afterIndexColumns_append false depth columns (openAfter?_open hdepth)
      simp only [List.cons_append, hcolumns]
      cases afterIndexColumns false columns with
      | none => rfl
      | some rest => simp [endsIndex_quote]
    · simp [hc]

/-- What goes on behind a quote is no index. -/
theorem isIndex_quote : isIndex (u ++ '\'' :: x) = false := by
  have hword {t : List Char} (ht : t <:+ u) : (indexWord? (t ++ '\'' :: x)).bind indexRest? = none := by
    rw [indexWord?_append_quote]
    cases hw : indexWord? t with
    | none => rfl
    | some named =>
      obtain ⟨hnamed, hskip⟩ := indexWord?_left hu ht hw
      exact hu.indexRest?_quote x hnamed hskip
  have hnone : index? (u ++ '\'' :: x) = none := by
    rw [index?, keyword_append_quote x (by decide), keyword_append_quote x (by decide), ← Option.map_or]
    cases hr : (keyword "fulltext" u).or (keyword "spatial" u) with
    | none => exact hword (List.suffix_refl u)
    | some r =>
      obtain ⟨k, hk, hkeyword⟩ : ∃ k ∈ "references" :: itemWords, keyword k u = some r := by
        rcases Option.or_eq_some_iff.mp hr with hr | ⟨-, hr⟩
        · exact ⟨_, by decide, hr⟩
        · exact ⟨_, by decide, hr⟩
      have hsuffix := keyword_suffix hkeyword
      have hskip := hu.skipBlanks?_keyword (List.suffix_refl u) hk hkeyword
      simp only [Option.map_some, hu.indexRest?_quote x hsuffix hskip, Option.or_none,
        skipBlanks?_append_sign (d := '\'') rfl]
      cases hs : skipBlanks? r with
      | none => rfl
      | some v => exact hword ((skipBlanks?_suffix hs).trans hsuffix)
  rw [isIndex, hnone]

/-! ### Definitions -/

/-- In front of the quote a name is found as if the text ended there. -/
def Named (u : List Char) : Prop :=
  ∀ x, columnName? (u ++ '\'' :: x) = (columnName? u).map (Prod.map id (· ++ '\'' :: x))

/-- What has the form of a column in front of the quote has what stands behind it among its settings. -/
theorem columnOf_quote (hn : Named u) : (∃ e, ∀ x, columnOf (u ++ '\'' :: x) = e) ∨
    ∃ name spelling settings, settings <:+ u ∧
      ∀ x, columnOf (u ++ '\'' :: x) = .column (columnDefinition name spelling (settings ++ '\'' :: x)) := by
  simp only [columnOf, hn _]
  cases hname : columnName? u with
  | none => exact .inl ⟨_, fun _ => rfl⟩
  | some p =>
    obtain ⟨name, rest⟩ := p
    obtain ⟨spelled, -, hsplit⟩ := spells_of_columnName? hname
    have hrest : rest <:+ u := ⟨spelled, hsplit.symm⟩
    simp only [Option.map_some, Prod.map_apply, id_eq, skipBlanks?_append_sign (d := '\'') rfl]
    cases ht : skipBlanks? rest with
    | none => exact .inl ⟨_, fun _ => rfl⟩
    | some t =>
      have htype := (skipBlanks?_suffix ht).trans hrest
      simp only [Option.map_some, Option.bind_some, spelling?_append_quote _ (hu.closed.suffix htype)]
      cases hs : spelling? t with
      | none => exact .inl ⟨_, fun _ => rfl⟩
      | some q =>
        obtain ⟨spelling, settings⟩ := q
        simp only [Option.map_some, Prod.map_apply, id_eq]
        split
        · exact .inl ⟨_, fun _ => rfl⟩
        · exact .inr ⟨name, spelling, settings, (spelling?_suffix hs).trans htype, fun _ => rfl⟩

/-- Before the quote it is settled what a definition is. If it is a column, what stands behind the quote belongs to its
settings. -/
theorem classify_quote (hn : Named u) : (∃ e, ∀ x, classify (u ++ '\'' :: x) = e) ∨
    ∃ name spelling settings, settings <:+ u ∧
      ∀ x, classify (u ++ '\'' :: x) = .column (columnDefinition name spelling (settings ++ '\'' :: x)) := by
  have hcolumn := hu.columnOf_quote hn
  simp only [classify, hu.primaryKey?_quote, hu.foreignKey?_quote, hu.unique?_quote, isCheck_quote, hu.isIndex_quote]
  cases primaryKey? u with
  | some columns => exact .inl ⟨_, fun _ => rfl⟩
  | none =>
    cases foreignKey? u with
    | some r => exact .inl ⟨_, fun _ => rfl⟩
    | none =>
      cases unique? u with
      | some columns => exact .inl ⟨_, fun _ => rfl⟩
      | none =>
        cases isCheck u with
        | true => exact .inl ⟨_, fun _ => rfl⟩
        | false => exact hcolumn

end Fence

end Erd.Sql
