import Erd.Proofs.Json.DistinctKeys
import Erd.Proofs.Json.Scalar

/-!
# Reading within limits

A reader with limits goes the same way as one without, up to where it runs into a limit; so that what it gives, a
value or a fault of the text, is what wider limits give. It runs into a limit only if the text has more than the
limit allows: that many digits, or that many brackets that open, or an escape that could be half of a pair.

**Results.**
* `value_refines`: a value off the front of a text is the same within wider limits.
* `readWithin_of_wider`, `readWithin_eq_read`: so is the value of a text.
* `value_follows`: what a reader leaves is the end of its text, and what it runs into is there.
* `exceeds_of_overrun?`: a text that runs into a limit has more than the limit allows.
* `overrun?_of_digits`: a text that is a whole number of too many digits runs into the limit to them.
-/
namespace Erd.Json

/-! ## Wider limits -/

/-- What the first limits let through the second ones do. -/
structure Limits.Wider (l m : Limits) : Prop where
  digits : ∀ k ∈ m.digits, ∃ j ∈ l.digits, j ≤ k
  nesting : ∀ n ∈ m.nesting, ∃ j ∈ l.nesting, j ≤ n
  pairsOnly : m.pairsOnly = true → l.pairsOnly = true

/-- Where one reader may open one more array or object, so may one with wider limits. -/
theorem Limits.Wider.enter {l m inner : Limits} (h : l.Wider m) (hl : l.enter? = some inner) :
    ∃ inner', m.enter? = some inner' ∧ inner.Wider inner' := by
  obtain ⟨hdigits, hnesting, hpairs⟩ := h
  unfold enter? at hl ⊢
  cases hm : m.nesting with
  | none =>
    refine ⟨m, rfl, ?_⟩
    split at hl
    · cases hl
      exact ⟨hdigits, hnesting, hpairs⟩
    · cases hl
    · cases hl
      exact ⟨hdigits, by simp [hm], hpairs⟩
  | some n =>
    obtain ⟨j, hj, hle⟩ := hnesting n hm
    rw [Option.mem_def] at hj
    cases j with
    | zero => simp [hj] at hl
    | succ j =>
      obtain ⟨n, rfl⟩ := Nat.exists_eq_succ_of_ne_zero (by omega : n ≠ 0)
      simp only [hj, Option.some.injEq] at hl
      subst hl
      refine ⟨_, rfl, hdigits, ?_, hpairs⟩
      rintro k hk
      cases hk
      exact ⟨j, rfl, by omega⟩

/-- A reader goes the same way as another one, or runs into a limit. -/
def Refines {α : Type} (x y : Step α) : Prop := x = y ∨ ∃ o left, x = .error ⟨.overrun o, left⟩

theorem Refines.refl {α : Type} (x : Step α) : Refines x x := .inl rfl

theorem Refines.overrun {α : Type} (o : Overrun) (left : Nat) (y : Step α) :
    Refines (.error ⟨.overrun o, left⟩) y := .inr ⟨o, left, rfl⟩

theorem Refines.map {α β : Type} {x y : Step α} (h : Refines x y) (f : α × List Char → β × List Char) :
    Refines (x.map f) (y.map f) := by
  rcases h with rfl | ⟨o, left, rfl⟩
  · exact .refl _
  · exact .overrun o left _

/-- With less room for telling a fault, a reader may run into the limit only then. -/
theorem Refines.tell {α : Type} {l m : Limits} {x y : Step α} (h : Refines x y) (hw : l.Wider m) :
    Refines (x.mapError l.tell) (y.mapError m.tell) := by
  rcases h with rfl | ⟨o, left, rfl⟩
  · cases x with
    | ok r => exact .refl _
    | error stop =>
      show Refines (.error (l.tell stop)) (.error (m.tell stop))
      by_cases hl : (stop.fault.takesCalls && l.nesting.any (· < faultCalls)) = true
      · rw [Limits.tell, if_pos hl]
        exact .overrun _ _ _
      · have hm : ¬ (stop.fault.takesCalls && m.nesting.any (· < faultCalls)) = true := by
          simp only [Bool.and_eq_true, Option.any_eq_true, not_and] at hl ⊢
          rintro hcalls ⟨n, hn, hlt⟩
          obtain ⟨j, hj, hle⟩ := hw.nesting n hn
          exact hl hcalls ⟨j, hj, by simp at hlt ⊢; omega⟩
        rw [Limits.tell, if_neg hl, Limits.tell, if_neg hm]
        exact .refl _
  · exact .overrun o left _

theorem string_unitEscape (l : Limits) (opening : Nat) (s : List Char) :
    string l opening ('\\' :: 'u' :: s) =
      match unit l s with
      | .error stop => .error stop
      | .ok (c, t) => (string l opening t).map fun (cs, left) => (c :: cs, left) := by
  rw [string]
  split
  · next hs => rw [hs]
  · next hs =>
    dsimp only
    rw [hs]

section Wider

variable {l m : Limits} (h : l.Wider m)

include h

theorem loneUnit_refines (n : Nat) (s : List Char) : Refines (loneUnit l n s) (loneUnit m n s) := by
  unfold loneUnit
  cases hl : l.pairsOnly with
  | false =>
    have hm : m.pairsOnly = false := by
      by_contra hm
      rw [h.pairsOnly (by simpa using hm)] at hl
      cases hl
    rw [hm]
    exact .refl _
  | true =>
    rw [Bool.true_and]
    split
    · exact .overrun _ _ _
    · next hn => simp [hn, Refines.refl]

theorem unit_refines (s : List Char) : Refines (unit l s) (unit m s) := by
  unfold unit
  repeat' split
  all_goals first
    | exact .refl _
    | exact loneUnit_refines h _ _

theorem string_refines (opening : Nat) (s : List Char) : Refines (string l opening s) (string m opening s) := by
  fun_induction string l opening s with
  | case1 => rw [string]; exact .refl _
  | case2 => rw [string]; exact .refl _
  | case3 s stop hs =>
    rw [string_unitEscape]
    rcases unit_refines h s with he | ⟨o, left, he⟩
    · rw [← he, hs]
      exact .refl _
    · rw [hs] at he
      cases he
      exact .overrun _ _ _
  | case4 s c t hs hlt ih =>
    rw [string_unitEscape]
    rcases unit_refines h s with he | ⟨o, left, he⟩
    · rw [← he, hs]
      exact ih.map _
    · rw [hs] at he
      cases he
  | case5 => rw [string]; exact .refl _
  | case6 e s hu c hc ih =>
    rw [string, hc]
    · exact ih.map _
    · exact hu
  | case7 e s hu hc =>
    rw [string, hc]
    · exact .refl _
    · exact hu
  | case8 c s hq hu hend he hc =>
    rw [string, if_pos hc]
    · exact .refl _
    all_goals assumption
  | case9 c s hq hu hend he hc ih =>
    rw [string, if_neg hc]
    · exact ih.map _
    all_goals assumption

theorem magnitude?_refines (negative : Bool) (s : List Char) :
    magnitude? l negative s = magnitude? m negative s ∨
      ∃ o left, magnitude? l negative s = some (.error ⟨.overrun o, left⟩) := by
  unfold magnitude?
  cases wholeDigits? s with
  | none => exact .inl rfl
  | some found =>
    obtain ⟨whole, rest⟩ := found
    simp only [Option.bind_eq_bind, Option.bind_some]
    split
    · split
      · exact .inr ⟨_, _, rfl⟩
      · next hl =>
        have hm : ¬ m.digits.any (· < whole.length) = true := by
          rw [Option.any_eq_true] at hl ⊢
          rintro ⟨k, hk, hlt⟩
          obtain ⟨j, hj, hle⟩ := h.digits k hk
          exact hl ⟨j, hj, by simp at hlt ⊢; omega⟩
        exact .inl (by rw [if_neg hm])
    · exact .inl rfl

theorem number?_refines (s : List Char) :
    number? l s = number? m s ∨ ∃ o left, number? l s = some (.error ⟨.overrun o, left⟩) := by
  unfold number?
  split
  · exact magnitude?_refines h true _
  · exact magnitude?_refines h false _

theorem scalar_refines (s : List Char) : Refines (scalar l s) (scalar m s) := by
  unfold scalar
  cases named? s with
  | some r => exact .refl _
  | none =>
    rcases number?_refines h s with he | ⟨o, left, he⟩
    · rw [he]
      exact .refl _
    · rw [he]
      exact .overrun o left _

end Wider

/-- Both readers go into the same parts, each with its own limits. -/
theorem value_refines (depth : Nat) :
    ∀ l m : Limits, l.Wider m →
      (∀ s, Refines (value l depth s) (value m depth s)) ∧ (∀ s, Refines (items l depth s) (items m depth s)) ∧
      ∀ s, Refines (members l depth s) (members m depth s) := by
  induction depth with
  | zero => exact fun l m h => ⟨fun s => .refl _, fun s => .refl _, fun s => .refl _⟩
  | succ depth ih =>
    intro l m h
    obtain ⟨hvalue, hitems, hmembers⟩ := ih l m h
    refine ⟨fun s => ?_, fun s => ?_, fun s => ?_⟩
    · rw [value.eq_def, value.eq_def m]
      dsimp only
      split
      · exact (string_refines h _ _).map _
      · cases hl : l.enter? with
        | none => exact .overrun _ _ _
        | some inner =>
          obtain ⟨inner', hm, hinner⟩ := h.enter hl
          rw [hm]
          dsimp only
          split
          · exact .refl _
          · exact (((ih inner inner' hinner).2.2 _).tell hinner).map _
      · cases hl : l.enter? with
        | none => exact .overrun _ _ _
        | some inner =>
          obtain ⟨inner', hm, hinner⟩ := h.enter hl
          rw [hm]
          dsimp only
          split
          · exact .refl _
          · exact (((ih inner inner' hinner).2.1 _).tell hinner).map _
      · exact scalar_refines h _
    · rw [items.eq_def, items.eq_def m]
      dsimp only
      rcases hvalue s with he | ⟨o, left, he⟩
      · rw [he]
        split
        · exact .refl _
        · split
          · exact .refl _
          · exact (hitems _).map _
          · exact .refl _
      · rw [he]
        exact .overrun o left _
    · rw [members.eq_def, members.eq_def m]
      dsimp only
      split
      · next rest =>
        rcases string_refines h (('"' :: rest).length) rest with he | ⟨o, left, he⟩
        · rw [he]
          split
          · exact .refl _
          · split
            · next s _ =>
              rcases hvalue (skip s) with he | ⟨o, left, he⟩
              · rw [he]
                split
                · exact .refl _
                · split
                  · exact .refl _
                  · exact (hmembers _).map _
                  · exact .refl _
              · rw [he]
                exact .overrun o left _
            · exact .refl _
        · rw [he]
          exact .overrun o left _
      · exact .refl _

/-! ## Whole texts -/

section Texts

variable {l m : Limits} {text : String}

theorem overrun?_eq_some_iff {o : Overrun} :
    overrun? l text = some o ↔ ∃ e, readWithin l text = .error e ∧ e.fault = .overrun o := by
  unfold overrun?
  split
  · next o' line column offset h => simp [h]
  · next hne =>
    simp only [reduceCtorEq, false_iff, not_exists, not_and]
    rintro ⟨fault, line, column, offset⟩ he rfl
    exact hne _ _ _ _ he

theorem wholeText_refines (h : l.Wider m) (s : List Char) :
    wholeText l s = wholeText m s ∨ ∃ o left, wholeText l s = .error ⟨.overrun o, left⟩ := by
  unfold wholeText
  split
  · exact .inl rfl
  · rcases ((value_refines (2 * s.length + 2) l m h).1 (skip s)).tell h with he | ⟨o, left, he⟩
    · exact .inl (by rw [he])
    · exact .inr ⟨o, left, by rw [he]⟩

/-- A text that runs into no limit is read within wider ones as it is within these. -/
theorem readWithin_of_wider (h : l.Wider m) (hnone : overrun? l text = none) :
    readWithin m text = readWithin l text := by
  unfold readWithin
  rcases wholeText_refines h text.toList with he | ⟨o, left, he⟩
  · rw [he]
  · have hover : overrun? l text = some o :=
      overrun?_eq_some_iff.mpr ⟨_, by rw [readWithin, he]; rfl, rfl⟩
    rw [hnone] at hover
    cases hover

theorem overrun?_of_wider (h : l.Wider m) (hnone : overrun? l text = none) : overrun? m text = none := by
  unfold overrun?
  rw [readWithin_of_wider h hnone]
  exact hnone

end Texts

/-! ## What a text has that runs into a limit -/

/-- The character opens an array or an object. -/
def isOpening (c : Char) : Bool := c == '[' || c == '\x7b'

/-- The text has more than the limits allow: digits for a number that is too long, brackets for the arrays and
objects and for the calls that telling a fault takes, and an escape that can name half a pair. -/
def Exceeds (l : Limits) (s : List Char) : Overrun → Prop
  | .digits count => (∃ k ∈ l.digits, k < count) ∧ count ≤ s.countP Char.isDigit
  | .nesting => ∃ n ∈ l.nesting, n < s.countP isOpening + faultCalls
  | .halfPair => l.pairsOnly = true ∧ ['\\', 'u'] <:+: s

theorem Exceeds.mono {l : Limits} {s t : List Char} {o : Overrun} (h : Exceeds l s o) (hs : s <:+ t) :
    Exceeds l t o := by
  cases o with
  | digits count => exact ⟨h.1, h.2.trans (hs.sublist.countP_le)⟩
  | nesting =>
    obtain ⟨n, hn, hlt⟩ := h
    exact ⟨n, hn, hlt.trans_le (Nat.add_le_add_right hs.sublist.countP_le _)⟩
  | halfPair => exact ⟨h.1, h.2.trans hs.isInfix⟩

/-- The bracket that opens counts as one of those that may be open. -/
theorem Exceeds.enter {l inner : Limits} {s : List Char} {o : Overrun} {c : Char} (h : Exceeds inner s o)
    (hinner : l.enter? = some inner) (hc : isOpening c = true) : Exceeds l (c :: s) o := by
  unfold Limits.enter? at hinner
  split at hinner
  · cases hinner
    exact h.mono (List.suffix_cons c s)
  · cases hinner
  · next n hn =>
    cases hinner
    cases o with
    | digits count => exact Exceeds.mono (o := .digits count) (l := l) h (List.suffix_cons c s)
    | nesting =>
      obtain ⟨k, hk, hlt⟩ := h
      cases hk
      exact ⟨n + 1, hn, by rw [List.countP_cons_of_pos hc]; omega⟩
    | halfPair => exact Exceeds.mono (o := .halfPair) (l := l) h (List.suffix_cons c s)

theorem exceeds_of_enter? {l : Limits} {c : Char} (h : l.enter? = none) (hc : isOpening c = true) (s : List Char) :
    Exceeds l (c :: s) .nesting := by
  unfold Limits.enter? at h
  split at h
  · cases h
  · next hn => exact ⟨0, hn, by rw [List.countP_cons_of_pos hc]; omega⟩
  · cases h

/-- What a reader leaves is the end of its text, and the text has what it runs into. -/
structure Follows {α : Type} (l : Limits) (s : List Char) (x : Step α) : Prop where
  suffix : ∀ a rest, x = .ok (a, rest) → rest <:+ s
  exceeds : ∀ o left, x = .error ⟨.overrun o, left⟩ → Exceeds l s o

namespace Follows

variable {α β : Type} {l : Limits} {s t : List Char} {x : Step α}

theorem ok {a : α} {rest : List Char} (h : rest <:+ s) : Follows l s (.ok (a, rest) : Step α) where
  suffix _ _ he := by
    cases he
    exact h
  exceeds _ _ he := by cases he

theorem fault {f : Fault} {left : Nat} (h : ∀ o, f ≠ .overrun o) : Follows l s (.error ⟨f, left⟩ : Step α) where
  suffix _ _ he := by cases he
  exceeds o _ he := by
    cases he
    exact absurd rfl (h o)

theorem overrun {o : Overrun} {left : Nat} (h : Exceeds l s o) : Follows l s (.error ⟨.overrun o, left⟩ : Step α) where
  suffix _ _ he := by cases he
  exceeds _ _ he := by
    cases he
    exact h

theorem error {stop : Stop} (h : Follows l s (.error stop : Step α)) : Follows l s (.error stop : Step β) where
  suffix _ _ he := by cases he
  exceeds o left he := by
    cases he
    exact h.exceeds o left rfl

theorem mono (h : Follows l s x) (hs : s <:+ t) : Follows l t x where
  suffix a rest he := (h.suffix a rest he).trans hs
  exceeds o left he := (h.exceeds o left he).mono hs

theorem map (h : Follows l s x) (f : α → β) : Follows l s (x.map fun p => (f p.1, p.2)) where
  suffix b rest he := by
    obtain ⟨⟨a, left⟩, ha, he⟩ := Except.map_eq_ok.mp he
    cases he
    exact h.suffix a _ ha
  exceeds o left he := by
    cases x with
    | ok r => cases he
    | error stop =>
      cases he
      exact h.exceeds o left rfl

theorem tell (h : Follows l s x) : Follows l s (x.mapError l.tell) where
  suffix a rest he := by
    cases x with
    | ok r => exact h.suffix a rest he
    | error stop => cases he
  exceeds o left he := by
    cases x with
    | ok r => cases he
    | error stop =>
      have he : l.tell stop = ⟨.overrun o, left⟩ := Except.error.inj he
      unfold Limits.tell at he
      split at he
      · next hshort =>
        cases he
        obtain ⟨n, hn, hlt⟩ := (Option.any_eq_true _ _).mp (Bool.and_eq_true_iff.mp hshort).2
        refine ⟨n, hn, ?_⟩
        simp only [decide_eq_true_eq] at hlt
        omega
      · subst he
        exact h.exceeds o left rfl

/-- The reader of the parts goes on inside the bracket. -/
theorem enter {inner : Limits} {c : Char} (h : Follows inner s x) (hinner : l.enter? = some inner)
    (hc : isOpening c = true) : Follows l (c :: s) x where
  suffix a rest he := (h.suffix a rest he).trans (List.suffix_cons c s)
  exceeds o left he := (h.exceeds o left he).enter hinner hc

end Follows

section Scanners

variable {l : Limits} {s t rest : List Char}

theorem skip_suffix (s : List Char) : skip s <:+ s := List.dropWhile_suffix _

theorem loneUnit_follows (n : Nat) (ht : s <:+ t) (hesc : ['\\', 'u'] <:+: t) : Follows l t (loneUnit l n s) := by
  unfold loneUnit
  split
  · next h => exact .overrun ⟨(Bool.and_eq_true_iff.mp h).1, hesc⟩
  · exact .ok ht

theorem unit_follows (s : List Char) : Follows l ('\\' :: 'u' :: s) (unit l s) := by
  have hesc : ['\\', 'u'] <:+: '\\' :: 'u' :: s := (List.prefix_append ['\\', 'u'] s).isInfix
  unfold unit
  split
  · next a b c d e rest =>
    have hrest : e :: rest <:+ '\\' :: 'u' :: a :: b :: c :: d :: e :: rest := ⟨['\\', 'u', a, b, c, d], rfl⟩
    split
    · exact .fault (by simp)
    · split
      · next a' b' c' d' e' rest' =>
        have hpair : e' :: rest' <:+ '\\' :: 'u' :: a :: b :: c :: d :: '\\' :: 'u' :: a' :: b' :: c' :: d' ::
            e' :: rest' :=
          ⟨['\\', 'u', a, b, c, d, '\\', 'u', a', b', c', d'], rfl⟩
        split
        · split
          · exact .fault (by simp)
          · split
            · exact .ok hpair
            · exact loneUnit_follows _ hrest hesc
        · exact loneUnit_follows _ hrest hesc
      · exact loneUnit_follows _ hrest hesc
  · exact .fault (by simp)

theorem string_follows (opening : Nat) (s : List Char) : Follows l s (string l opening s) := by
  fun_induction string l opening s with
  | case1 => exact .fault (by simp)
  | case2 rest => exact .ok (List.suffix_cons _ _)
  | case3 s stop hs =>
    have h := unit_follows (l := l) s
    rw [hs] at h
    exact h.error
  | case4 s c t hs hlt ih => exact (ih.mono ((unit_follows s).suffix c t hs)).map (c :: ·)
  | case5 => exact .fault (by simp)
  | case6 e s hu c hc ih => exact (ih.mono ⟨['\\', e], rfl⟩).map (c :: ·)
  | case7 => exact .fault (by simp)
  | case8 => exact .fault (by simp)
  | case9 c s hq hu hend he hc ih => exact (ih.mono (List.suffix_cons c s)).map (c :: ·)

theorem word?_suffix {w : List Char} (h : word? w s = some rest) : rest <:+ s := by
  induction w generalizing s with
  | nil =>
    cases h
    exact List.suffix_refl _
  | cons c w ih =>
    cases s with
    | nil => cases h
    | cons d s =>
      rw [word?] at h
      split at h
      · exact (ih h).trans (List.suffix_cons d s)
      · cases h

theorem named?_suffix {v : Json} (h : named? s = some (v, rest)) : rest <:+ s := by
  obtain ⟨⟨name, w⟩, -, h⟩ := List.exists_of_findSome?_eq_some h
  obtain ⟨left, hleft, he⟩ := Option.map_eq_some_iff.mp h
  cases he
  exact word?_suffix hleft

theorem fraction_suffix (s : List Char) : (fraction s).2 <:+ s := by
  unfold fraction
  split
  · next c s =>
    split
    · exact (List.dropWhile_suffix _).trans ⟨['.', c], rfl⟩
    · exact List.suffix_refl _
  · exact List.suffix_refl _

theorem exponentDigits?_suffix {negative : Bool} {e : Int} (h : exponentDigits? negative s = some (e, rest)) :
    rest <:+ s := by
  unfold exponentDigits? at h
  split at h
  · split at h
    · cases h
      exact List.dropWhile_suffix _
    · cases h
  · cases h

theorem exponent?_suffix {e : Int} (h : exponent? s = some (e, rest)) : rest <:+ s := by
  unfold exponent? at h
  split at h
  · next c s =>
    split at h
    · split at h
      · exact (exponentDigits?_suffix h).trans ⟨[c, '-'], rfl⟩
      · exact (exponentDigits?_suffix h).trans ⟨[c, '+'], rfl⟩
      · exact (exponentDigits?_suffix h).trans ⟨[c], rfl⟩
    · cases h
  · cases h

theorem magnitude?_follows {negative : Bool} {x : Step Json} (h : magnitude? l negative s = some x) :
    Follows l s x := by
  unfold magnitude? at h
  obtain ⟨⟨whole, left⟩, hwhole, hx⟩ := Option.bind_eq_some_iff.mp h
  obtain ⟨rfl, hdigits⟩ := wholeDigits?_eq hwhole
  have hleft : left <:+ whole ++ left := List.suffix_append whole left
  have hfraction := (fraction_suffix left).trans hleft
  clear h
  dsimp only at hx
  split at hx
  · split at hx
    · next hlong =>
      cases hx
      obtain ⟨k, hk, hlt⟩ := (Option.any_eq_true _ _).mp hlong
      refine .overrun ⟨⟨k, hk, by simpa using hlt⟩, ?_⟩
      rw [List.countP_append, List.countP_eq_length.mpr hdigits]
      omega
    · cases hx
      exact .ok hfraction
  · cases hx
    refine .ok ?_
    cases hpower : exponent? (fraction left).2 with
    | none => exact hfraction
    | some power => exact (exponent?_suffix hpower).trans hfraction

theorem number?_follows {x : Step Json} (h : number? l s = some x) : Follows l s x := by
  unfold number? at h
  split at h
  · exact (magnitude?_follows h).mono (List.suffix_cons _ _)
  · exact magnitude?_follows h

theorem scalar_follows (s : List Char) : Follows l s (scalar l s) := by
  unfold scalar
  split
  · next r hr => exact .ok (named?_suffix hr)
  · split
    · next r hr => exact number?_follows hr
    · exact .fault (by simp)

end Scanners

/-- A reader goes through its text from the front to the end, into the parts and on behind them. -/
theorem value_follows (depth : Nat) :
    ∀ l : Limits, (∀ s, Follows l s (value l depth s)) ∧ (∀ s, Follows l s (items l depth s)) ∧
      ∀ s, Follows l s (members l depth s) := by
  induction depth with
  | zero => exact fun l => ⟨fun s => .fault (by simp), fun s => .fault (by simp), fun s => .fault (by simp)⟩
  | succ depth ih =>
    intro l
    obtain ⟨hvalue, hitems, hmembers⟩ := ih l
    refine ⟨fun s => ?_, fun s => ?_, fun s => ?_⟩
    · rw [value.eq_def]
      dsimp only
      split
      · exact ((string_follows _ _).mono (List.suffix_cons _ _)).map fun cs => Json.str (.ofList cs)
      · next rest =>
        cases hinner : l.enter? with
        | none => exact .overrun (exceeds_of_enter? hinner rfl rest)
        | some inner =>
          refine Follows.enter ?_ hinner rfl
          dsimp only
          split
          · next left hleft => exact .ok ((List.suffix_cons _ _).trans (hleft ▸ skip_suffix rest))
          · exact (((ih inner).2.2 _).mono (skip_suffix rest)).tell.map fun ms => Json.obj (ofMembers ms)
      · next rest =>
        cases hinner : l.enter? with
        | none => exact .overrun (exceeds_of_enter? hinner rfl rest)
        | some inner =>
          refine Follows.enter ?_ hinner rfl
          dsimp only
          split
          · next left hleft => exact .ok ((List.suffix_cons _ _).trans (hleft ▸ skip_suffix rest))
          · exact (((ih inner).2.1 _).mono (skip_suffix rest)).tell.map Json.arr
      · exact scalar_follows s
    · rw [items.eq_def]
      dsimp only
      have hfirst := hvalue s
      split
      · next stop hv =>
        rw [hv] at hfirst
        exact hfirst.error
      · next v rest hv =>
        have hrest := (skip_suffix rest).trans (hfirst.suffix v rest hv)
        split
        · next left hleft => exact .ok ((List.suffix_cons _ _).trans (hleft ▸ hrest))
        · next more hmore =>
          have hmore := (skip_suffix more).trans ((List.suffix_cons _ _).trans (hmore ▸ hrest))
          exact ((hitems _).mono hmore).map (v :: ·)
        · exact .fault (by simp)
    · rw [members.eq_def]
      dsimp only
      split
      · next rest =>
        have hkey := string_follows (l := l) ('"' :: rest).length rest
        split
        · next stop hs =>
          rw [hs] at hkey
          exact hkey.error.mono (List.suffix_cons _ _)
        · next key left hs =>
          have hleft := (skip_suffix left).trans ((hkey.suffix key left hs).trans (List.suffix_cons '"' rest))
          split
          · next inside hinside =>
            have hinside := (skip_suffix inside).trans ((List.suffix_cons _ _).trans (hinside ▸ hleft))
            have hfirst := (hvalue (skip inside)).mono hinside
            split
            · next stop hv =>
              rw [hv] at hfirst
              exact hfirst.error
            · next v behind hv =>
              have hbehind := (skip_suffix behind).trans (hfirst.suffix v behind hv)
              split
              · next more hmore => exact .ok ((List.suffix_cons _ _).trans (hmore ▸ hbehind))
              · next more hmore =>
                have hmore := (skip_suffix more).trans ((List.suffix_cons _ _).trans (hmore ▸ hbehind))
                exact ((hmembers _).mono hmore).map ((String.ofList key, v) :: ·)
              · exact .fault (by simp)
          · exact .fault (by simp)
      · exact .fault (by simp)

/-- A text that runs into a limit has more than the limit allows. -/
theorem exceeds_of_overrun? {l : Limits} {text : String} {o : Overrun} (h : overrun? l text = some o) :
    Exceeds l text.toList o := by
  obtain ⟨e, he, ho⟩ := overrun?_eq_some_iff.mp h
  unfold readWithin at he
  cases hwhole : wholeText l text.toList with
  | ok v =>
    rw [hwhole] at he
    cases he
  | error stop =>
    rw [hwhole] at he
    cases he
    unfold wholeText at hwhole
    split at hwhole
    · cases hwhole
      cases ho
    · have hfollows := (((value_follows (2 * text.toList.length + 2) l).1 (skip text.toList)).mono
        (skip_suffix text.toList)).tell
      split at hwhole
      · next stop' hv =>
        cases hwhole
        obtain ⟨fault, left⟩ := stop
        obtain rfl : fault = .overrun o := ho
        exact hfollows.exceeds o left hv
      · split at hwhole
        · cases hwhole
        · cases hwhole
          cases ho

/-- A whole number on its own that has too many digits is told with all of them. -/
theorem overrun?_of_digits {l : Limits} {k : Nat} {c : Char} {ds : List Char} (hk : l.digits = some k)
    (hlt : k < ds.length + 1) (hc : c.isDigit = true) (hzero : c ≠ '0') (hds : ∀ d ∈ ds, d.isDigit = true) :
    overrun? l (String.ofList (c :: ds)) = some (.digits (ds.length + 1)) := by
  have hne {x : Char} (hx : x.isDigit = false) : c ≠ x := ne_of_isDigit hc hx
  have hskip : skip (c :: ds) = c :: ds := by
    rw [skip, List.dropWhile_cons_of_neg]
    simp [isSpace, hne (x := ' ') rfl, hne (x := '\t') rfl, hne (x := '\n') rfl, hne (x := '\r') rfl]
  have hwhole : wholeDigits? (c :: ds) = some (c :: ds, []) := by
    rw [wholeDigits?, if_pos hc, List.takeWhile_eq_self_iff.mpr hds, List.dropWhile_eq_nil_iff.mpr hds]
    exact hzero
  have hscalar : scalar l (c :: ds) = .error ⟨.overrun (.digits (ds.length + 1)), 0⟩ := by
    have hmagnitude : magnitude? l false (c :: ds) = some (.error ⟨.overrun (.digits (ds.length + 1)), 0⟩) := by
      simp [magnitude?, hwhole, fraction, exponent?, hk, hlt]
    rw [scalar, (named?_of_isDigit hc ds).1, number?_of_ne (hne rfl), hmagnitude]
  have hvalue (depth : Nat) : value l (depth + 1) (c :: ds) = .error ⟨.overrun (.digits (ds.length + 1)), 0⟩ := by
    rw [value, hscalar]
    · exact fun _ h => hne rfl (List.cons.inj h).1
    · exact fun _ h => hne rfl (List.cons.inj h).1
    · exact fun _ h => hne rfl (List.cons.inj h).1
  have htext : wholeText l (c :: ds) = .error ⟨.overrun (.digits (ds.length + 1)), 0⟩ := by
    unfold wholeText
    split
    · next he => exact absurd (List.cons.inj he).1 (hne rfl)
    · rw [hskip, hvalue]
      rfl
  refine overrun?_eq_some_iff.mpr ⟨Stop.inText ⟨.overrun (.digits (ds.length + 1)), 0⟩ (c :: ds), ?_, rfl⟩
  rw [readWithin, String.toList_ofList, htext]
  rfl

end Erd.Json
