import Erd.Proofs.Text
import Erd.Sql.Body

/-!
# Bodies of tables that were written

The lines of a written body are flat: parentheses stand in them one after another and never in each other,
and all commas within a line stand in parentheses. The closing parenthesis of a body of flat lines is
therefore found behind the last of them, and the commas between the lines are the ones that separate.

**Results.**
* `body?_bodyText`: the body ends behind its last line.
* `definitions_bodyText`: the definitions of the body are its lines.
-/
namespace Erd.Sql

open Text

/-- A character that has no meaning for the nesting of a body. -/
def isNeutral (c : Char) : Bool := c != '(' && c != ')' && c != '\'' && c != ','

/-- A text whose parentheses hold no others, with no comma outside of them and no quote. -/
inductive Flat : List Char → Prop where
  | nil : Flat []
  | neutral {c : Char} {s : List Char} (hc : isNeutral c = true) (hs : Flat s) : Flat (c :: s)
  | group {inside s : List Char} (hi : ∀ c ∈ inside, isNeutral c = true ∨ c = ',') (hs : Flat s) :
    Flat ('(' :: (inside ++ ')' :: s))

theorem Flat.append {s t : List Char} (hs : Flat s) (ht : Flat t) : Flat (s ++ t) := by
  induction hs with
  | nil => exact ht
  | neutral hc _ ih => exact .neutral hc ih
  | group hi _ ih =>
    rw [List.cons_append, List.append_assoc, List.cons_append]
    exact .group hi ih

theorem flat_of_neutral {s : List Char} (h : ∀ c ∈ s, isNeutral c = true) : Flat s := by
  induction s with
  | nil => exact .nil
  | cons c s ih =>
    obtain ⟨hc, hs⟩ := List.forall_mem_cons.mp h
    exact .neutral hc (ih hs)

theorem isNeutral_of_isWord {c : Char} (h : isWord c = true) : isNeutral c = true := by
  simp only [isNeutral, Bool.and_eq_true, bne_iff_ne]
  exact ⟨⟨⟨ne_of_isWord h (by decide), ne_of_isWord h (by decide)⟩, ne_of_isWord h (by decide)⟩,
    ne_of_isWord h (by decide)⟩

/-! ## The end of a body -/

theorem upToClose_cons {c : Char} (ho : c ≠ '(') (hc : c ≠ ')') (depth : Nat) (s : List Char) :
    upToClose depth (c :: s) = (upToClose depth s).map (c :: ·) := by
  cases depth <;> simp [upToClose, ho, hc]

theorem upToClose_open (depth : Nat) (s : List Char) :
    upToClose depth ('(' :: s) = (upToClose (depth + 1) s).map ('(' :: ·) := by
  cases depth <;> simp [upToClose]

theorem upToClose_close (depth : Nat) (s : List Char) :
    upToClose (depth + 1) (')' :: s) = (upToClose depth s).map (')' :: ·) := by
  simp [upToClose]

/-- A text with as many closing as opening parentheses, none of which closes too early. -/
def Balanced (s : List Char) : Prop :=
  ∀ depth rest, upToClose depth (s ++ rest) = (upToClose depth rest).map (s ++ ·)

theorem balanced_nil : Balanced [] := by
  intro depth rest
  simp

theorem Balanced.append {s t : List Char} (hs : Balanced s) (ht : Balanced t) : Balanced (s ++ t) := by
  intro depth rest
  rw [List.append_assoc, hs, ht, Option.map_map]
  congr 1
  funext u
  simp

theorem balanced_cons {c : Char} (ho : c ≠ '(') (hc : c ≠ ')') {s : List Char} (hs : Balanced s) :
    Balanced (c :: s) := by
  intro depth rest
  rw [List.cons_append, upToClose_cons ho hc, hs, Option.map_map]
  rfl

theorem balanced_group {inside s : List Char} (hi : Balanced inside) (hs : Balanced s) :
    Balanced ('(' :: (inside ++ ')' :: s)) := by
  intro depth rest
  have hin : inside ++ ')' :: s ++ rest = inside ++ ')' :: (s ++ rest) := by simp
  rw [List.cons_append, upToClose_open, hin, hi, upToClose_close, hs, Option.map_map, Option.map_map,
    Option.map_map]
  congr 1
  funext u
  simp

theorem Flat.balanced {s : List Char} (h : Flat s) : Balanced s := by
  induction h with
  | nil => exact balanced_nil
  | neutral hc _ ih =>
    simp only [isNeutral, Bool.and_eq_true, bne_iff_ne] at hc
    exact balanced_cons hc.1.1.1 hc.1.1.2 ih
  | group hi _ ih =>
    rename_i inside s _
    refine balanced_group ?_ ih
    clear ih
    induction inside with
    | nil => exact balanced_nil
    | cons c inside ihi =>
      obtain ⟨hc, hi⟩ := List.forall_mem_cons.mp hi
      refine balanced_cons ?_ ?_ (ihi hi)
      · rintro rfl
        rcases hc with hc | hc <;> revert hc <;> decide
      · rintro rfl
        rcases hc with hc | hc <;> revert hc <;> decide

/-! ## The separators of a body -/

/-- The pieces with a text in front of the first one. -/
def prepend (s : List Char) : List (List Char) → List (List Char)
  | [] => [s]
  | piece :: pieces => (s ++ piece) :: pieces

theorem prepend_prepend (s t : List Char) (ps : List (List Char)) :
    prepend s (prepend t ps) = prepend (s ++ t) ps := by
  cases ps <;> simp [prepend]

theorem piecesFrom_ne_nil (n : Nesting) (s : List Char) : piecesFrom n s ≠ [] := by
  cases s with
  | nil => simp [piecesFrom]
  | cons c s =>
    rw [piecesFrom]
    split
    · simp
    · split <;> simp

theorem piecesFrom_cons {n : Nesting} {c : Char} (h : (c = ',' && n.isOpen) = false) (s : List Char) :
    piecesFrom n (c :: s) = prepend [c] (piecesFrom (n.after c) s) := by
  rw [piecesFrom, if_neg (by simp [h])]
  cases hp : piecesFrom (n.after c) s <;> rfl

theorem after_neutral {c : Char} (h : isNeutral c = true) (d : Int) :
    (Nesting.mk d false).after c = ⟨d, false⟩ := by
  simp only [isNeutral, Bool.and_eq_true, bne_iff_ne] at h
  simp [Nesting.after, h.1.1.1, h.1.1.2, h.1.2]

theorem after_inside {c : Char} (h : isNeutral c = true ∨ c = ',') : (Nesting.mk 1 false).after c = ⟨1, false⟩ := by
  rcases h with h | rfl
  · exact after_neutral h 1
  · rfl

/-- In parentheses nothing separates. -/
theorem piecesFrom_inside {inside : List Char} (h : ∀ c ∈ inside, isNeutral c = true ∨ c = ',')
    (rest : List Char) :
    piecesFrom ⟨1, false⟩ (inside ++ rest) = prepend inside (piecesFrom ⟨1, false⟩ rest) := by
  induction inside with
  | nil =>
    cases hp : piecesFrom ⟨1, false⟩ rest with
    | nil => exact absurd hp (piecesFrom_ne_nil _ _)
    | cons p ps => simp [prepend, hp]
  | cons c inside ih =>
    obtain ⟨hc, hi⟩ := List.forall_mem_cons.mp h
    have hclosed : (c = ',' && (Nesting.mk 1 false).isOpen) = false := by simp [Nesting.isOpen]
    rw [List.cons_append, piecesFrom_cons hclosed, after_inside hc, ih hi, prepend_prepend]
    rfl

/-- Nothing in a flat text separates. -/
theorem Flat.piecesFrom {s : List Char} (h : Flat s) (rest : List Char) :
    piecesFrom {} (s ++ rest) = prepend s (Sql.piecesFrom {} rest) := by
  induction h with
  | nil =>
    cases hp : Sql.piecesFrom {} rest with
    | nil => exact absurd hp (piecesFrom_ne_nil _ _)
    | cons p ps => simp [prepend, hp]
  | @neutral c s hc hs ih =>
    have hne : (c = ',' && (Nesting.mk 0 false).isOpen) = false := by
      simp only [isNeutral, Bool.and_eq_true, bne_iff_ne] at hc
      simp [hc.2]
    rw [List.cons_append, piecesFrom_cons hne, after_neutral hc, ih, prepend_prepend]
    rfl
  | @group inside s hi hs ih =>
    have hin : inside ++ ')' :: s ++ rest = inside ++ ')' :: (s ++ rest) := by simp
    have hopen : (Nesting.mk 0 false).after '(' = ⟨1, false⟩ := rfl
    have hclose : (Nesting.mk 1 false).after ')' = ⟨0, false⟩ := rfl
    rw [List.cons_append, piecesFrom_cons rfl, hopen, hin, piecesFrom_inside hi, piecesFrom_cons rfl, hclose,
      ih, prepend_prepend, prepend_prepend, prepend_prepend]
    simp

/-! ## Written bodies -/

/-- The body of a table with these lines. -/
def bodyText : List (List Char) → List Char
  | [] => ['\n']
  | x :: xs => '\n' :: ([',', '\n'].intercalate ((x :: xs).map ([' ', ' '] ++ ·)) ++ ['\n'])

/-- A line of a written body: flat, not empty and without blanks around it. -/
structure IsBodyLine (x : List Char) : Prop where
  flat : Flat x
  tight : Tight x
  ne_nil : x ≠ []

theorem bodyText_cons_cons (x y : List Char) (xs : List (List Char)) :
    bodyText (x :: y :: xs) = (['\n', ' ', ' '] ++ x) ++ ',' :: bodyText (y :: xs) := by
  simp [bodyText]

theorem bodyText_singleton (x : List Char) : bodyText [x] = ['\n', ' ', ' '] ++ (x ++ ['\n']) := by
  simp [bodyText]

theorem flat_lineStart {x : List Char} (h : Flat x) : Flat (['\n', ' ', ' '] ++ x) :=
  (flat_of_neutral (by decide)).append h

/-- The closing parenthesis of a written body is the one behind its last line. -/
theorem balanced_bodyText {xs : List (List Char)} (h : ∀ x ∈ xs, Flat x) : Balanced (bodyText xs) := by
  induction xs with
  | nil => exact (flat_of_neutral (by decide)).balanced
  | cons x xs ih =>
    obtain ⟨hx, hxs⟩ := List.forall_mem_cons.mp h
    cases xs with
    | nil =>
      rw [bodyText_singleton]
      exact ((flat_of_neutral (by decide)).append (hx.append (flat_of_neutral (by decide)))).balanced
    | cons y ys =>
      rw [bodyText_cons_cons]
      exact (flat_lineStart hx).balanced.append (balanced_cons (by decide) (by decide) (ih hxs))

theorem body?_bodyText {xs : List (List Char)} (h : ∀ x ∈ xs, Flat x) (rest : List Char) :
    body? ('(' :: (bodyText xs ++ ')' :: rest)) = some (bodyText xs) := by
  rw [body?, balanced_bodyText h]
  simp [upToClose]

theorem trim_lineStart {x : List Char} (h : Tight x) : trim (['\n', ' ', ' '] ++ x) = x := by
  simpa using trim_pad (a := ['\n', ' ', ' ']) (b := []) (by decide) h (by simp)

theorem pieces_bodyText {xs : List (List Char)} (hne : xs ≠ []) (h : ∀ x ∈ xs, IsBodyLine x) :
    (piecesFrom {} (bodyText xs)).map trim = xs := by
  induction xs with
  | nil => exact absurd rfl hne
  | cons x xs ih =>
    obtain ⟨hx, hxs⟩ := List.forall_mem_cons.mp h
    cases xs with
    | nil =>
      have hflat : Flat (bodyText [x]) := by
        rw [bodyText_singleton]
        exact (flat_of_neutral (by decide)).append (hx.flat.append (flat_of_neutral (by decide)))
      have := hflat.piecesFrom []
      rw [List.append_nil] at this
      rw [this, bodyText_singleton]
      simp only [piecesFrom, prepend, List.append_nil, List.map_cons, List.map_nil]
      rw [trim_pad (by decide) hx.tight (by decide)]
    | cons y ys =>
      have hsep : piecesFrom {} (',' :: bodyText (y :: ys)) = [] :: piecesFrom {} (bodyText (y :: ys)) := by
        rw [piecesFrom, if_pos (by decide)]
      rw [bodyText_cons_cons, (flat_lineStart hx.flat).piecesFrom, hsep]
      simp only [prepend, List.append_nil, List.map_cons, trim_lineStart hx.tight, ih (by simp) hxs]

/-- The definitions of a written body are its lines. -/
theorem definitions_bodyText {xs : List (List Char)} (h : ∀ x ∈ xs, IsBodyLine x) :
    definitions (bodyText xs) = xs := by
  cases xs with
  | nil => rfl
  | cons x xs =>
    rw [definitions, pieces_bodyText (by simp) h, List.filter_eq_self]
    intro y hy
    simpa using (h y hy).ne_nil

end Erd.Sql
