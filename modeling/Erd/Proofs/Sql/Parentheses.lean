import Erd.Proofs.Sql.Layout

/-!
# The parenthesis that ends a body

The body of a table ends at the first parenthesis that brings the count of open ones back to where it was
before the body. That parenthesis is the one that answers the first: what stands between the two is nested,
which is said here of the text alone, by what its beginnings hold.

**Results.**
* `openAfter?_eq_some_iff`: how many parentheses are open after a text, by counts of characters.
* `upToClose_eq_some_iff`: what the scan for the end of a body gives.
* `body?_matches`: the body that a statement opens is the one nested text between parentheses that starts
  there, and there is none exactly if there is no such text.
-/
namespace Erd.Sql

open Text

/-- No beginning of the text closes more parentheses than it opens, and the whole text closes as many. Other
characters do not count. -/
structure Nested (b : List Char) : Prop where
  answered : ∀ p, p <+: b → p.count ')' ≤ p.count '('
  complete : b.count ')' = b.count '('

/-- The text starts with an opening parenthesis, a nested text, and the parenthesis that closes it. -/
def Encloses (s b : List Char) : Prop := Nested b ∧ ∃ rest, s = '(' :: (b ++ ')' :: rest)

/-! ## Counting -/

/-- The beginnings of a text with one more character in front. -/
theorem forall_beginning_cons {P : List Char → Prop} {c : Char} {s : List Char} :
    (∀ p, p <+: c :: s → P p) ↔ P [] ∧ ∀ p, p <+: s → P (c :: p) := by
  constructor
  · intro h
    exact ⟨h [] List.nil_prefix, fun p hp => h (c :: p) (List.cons_prefix_cons.mpr ⟨rfl, hp⟩)⟩
  · rintro ⟨hnil, hcons⟩ p hp
    cases p with
    | nil => exact hnil
    | cons x p =>
      obtain ⟨rfl, hp'⟩ := List.cons_prefix_cons.mp hp
      exact hcons p hp'

/-- The count of open parentheses after a text, if none is closed that is not open. -/
theorem openAfter?_eq_some_iff {depth d : Nat} {s : List Char} :
    openAfter? depth s = some d ↔
      (∀ p, p <+: s → p.count ')' ≤ depth + p.count '(') ∧ depth + s.count '(' = d + s.count ')' := by
  induction s generalizing depth with
  | nil => simp [openAfter?]
  | cons c s ih =>
    rw [openAfter?_cons, forall_beginning_cons]
    unfold openAfterChar?
    by_cases ho : c = '('
    · subst ho
      have hcount (p : List Char) : depth + ('(' :: p).count '(' = depth + 1 + p.count '(' := by
        rw [List.count_cons_self]
        omega
      simp only [if_true, Option.bind_some, ih, hcount, List.count_cons_of_ne (show '(' ≠ ')' by decide)]
      simp
    by_cases hc : c = ')'
    · subst hc
      rw [if_neg ho, if_pos rfl]
      cases depth with
      | zero =>
        -- The closing parenthesis is itself a beginning that closes too much.
        simp only [Option.bind_none, reduceCtorEq, false_iff]
        rintro ⟨⟨-, h⟩, -⟩
        have := h [] List.nil_prefix
        simp at this
      | succ depth =>
        have hle (p : List Char) : (')' :: p).count ')' ≤ depth + 1 + (')' :: p).count '(' ↔
            p.count ')' ≤ depth + p.count '(' := by
          rw [List.count_cons_self, List.count_cons_of_ne (by decide)]
          omega
        have heq : depth + 1 + (')' :: s).count '(' = d + (')' :: s).count ')' ↔
            depth + s.count '(' = d + s.count ')' := by
          rw [List.count_cons_self, List.count_cons_of_ne (by decide)]
          omega
        simp only [Option.bind_some, ih, hle, heq]
        simp
    · simp only [if_neg ho, if_neg hc, Option.bind_some, ih, List.count_cons_of_ne ho, List.count_cons_of_ne hc]
      simp

theorem nested_iff {b : List Char} : Nested b ↔ openAfter? 0 b = some 0 := by
  rw [openAfter?_eq_some_iff]
  simp only [Nat.zero_add]
  exact ⟨fun h => ⟨h.answered, h.complete.symm⟩, fun h => ⟨h.1, h.2.symm⟩⟩

instance (b : List Char) : Decidable (Nested b) := decidable_of_iff _ nested_iff.symm

/-! ## The end of a body -/

/-- A body that is found is followed by the parenthesis that closes it. -/
theorem exists_of_upToClose {depth : Nat} {s b : List Char} (h : upToClose depth s = some b) :
    ∃ rest, s = b ++ ')' :: rest := by
  induction s generalizing depth b with
  | nil => cases h
  | cons c s ih =>
    have hmap {depth : Nat} (h : (upToClose depth s).map (c :: ·) = some b) : ∃ rest, c :: s = b ++ ')' :: rest := by
      obtain ⟨u, hu, rfl⟩ := Option.map_eq_some_iff.mp h
      obtain ⟨rest, rfl⟩ := ih hu
      exact ⟨rest, rfl⟩
    by_cases ho : c = '('
    · subst ho
      rw [upToClose_open] at h
      exact hmap h
    by_cases hc : c = ')'
    · subst hc
      cases depth with
      | zero =>
        cases h
        exact ⟨s, rfl⟩
      | succ depth =>
        rw [upToClose_close] at h
        exact hmap h
    · rw [upToClose_cons ho hc] at h
      exact hmap h

/-- The scan goes up to a closing parenthesis after which none is open. -/
theorem upToClose_eq_some_iff {depth : Nat} {s b : List Char} :
    upToClose depth s = some b ↔ openAfter? depth b = some 0 ∧ ∃ rest, s = b ++ ')' :: rest := by
  constructor
  · intro h
    obtain ⟨rest, rfl⟩ := exists_of_upToClose h
    exact ⟨(upToClose_eq_self_iff depth b rest).mp h, rest, rfl⟩
  · rintro ⟨h, rest, rfl⟩
    exact (upToClose_eq_self_iff depth b rest).mpr h

theorem body?_eq_some_iff {s b : List Char} : body? s = some b ↔ Encloses s b := by
  unfold body? Encloses
  split
  · next s => simp [upToClose_eq_some_iff, nested_iff]
  · next hs =>
    simp only [reduceCtorEq, false_iff]
    rintro ⟨-, rest, rfl⟩
    exact hs _ rfl

/-- A text encloses at most one text. -/
theorem Encloses.unique {s b b' : List Char} (h : Encloses s b) (h' : Encloses s b') : b' = b := by
  rw [← body?_eq_some_iff] at h h'
  exact Option.some.inj (h'.symm.trans h)

/-- The head of a table definition ends right before a parenthesis of the statement. -/
theorem exists_open_of_tableHead? {s name rest : List Char} (h : tableHead? s = some (name, rest)) :
    ∃ i, s[i]? = some '(' ∧ rest = s.drop i := by
  rw [tableHead?_eq_headName?] at h
  obtain ⟨p, hp, h⟩ := Option.bind_eq_some_iff.mp h
  obtain ⟨body, hbody, h⟩ := Option.map_eq_some_iff.mp h
  cases h
  unfold bodyStart? at hbody
  split at hbody
  · next t ht =>
    cases hbody
    obtain ⟨before, hs⟩ : '(' :: t <:+ s := ht ▸ (List.dropWhile_suffix _).trans (headName?_suffix hp)
    exact ⟨before.length, by simp [← hs], by simp [← hs]⟩
  · cases hbody

/-- The body that a statement opens at a place is the nested text between the parenthesis there and the one that
answers it; there is at most one such text, and no body exactly if there is none. Bodies are only looked for at
places that hold an opening parenthesis. -/
theorem body?_matches (s : List Char) (i : Nat) :
    (∀ b, body? (s.drop i) = some b ↔ Encloses (s.drop i) b) ∧
    (∀ b b', Encloses (s.drop i) b → Encloses (s.drop i) b' → b' = b) ∧
    (body? (s.drop i) = none ↔ ¬ ∃ b, Encloses (s.drop i) b) ∧
    ∀ name rest, tableHead? s = some (name, rest) → ∃ j, s[j]? = some '(' ∧ rest = s.drop j := by
  refine ⟨fun b => body?_eq_some_iff, fun b b' => Encloses.unique, ?_, fun name rest => exists_open_of_tableHead?⟩
  simp only [← body?_eq_some_iff, Option.eq_none_iff_forall_ne_some, not_exists]

/-- Quotes do not hide a parenthesis. -/
example : body? "(a INT, b TEXT DEFAULT ')') x".toList = some "a INT, b TEXT DEFAULT '".toList := by decide

end Erd.Sql
