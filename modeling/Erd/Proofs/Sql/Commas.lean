import Erd.Proofs.Sql.Arrangement

/-!
# The commas that separate definitions

Definitions are separated by the commas of a body that stand outside of quotes and of parentheses. Where a place
stands is told here by counts of what comes before it: it is quoted after an odd number of quotes, and its depth
is the number of parentheses opened before it less those closed, quoted ones aside. The scanner carries both along.

A text that ends where it began and has no separating comma is self-contained. Bodies joined from such texts are
taken apart again, and every body is joined from such texts and a last one in one way only.

**Results.**
* `foldl_after`: the state of the scanner, by counts of characters.
* `settled_iff`: what is self-contained is settled.
* `cut_iff`: the pieces of a body are the one way to cut it.
* `definitions_separated`: the definitions of a joined body, and the pieces of any body.
-/
namespace Erd.Sql

open Text

/-- What stands outside of single quotes in a text that starts between them or not. -/
def unquoted (quoted : Bool) : List Char → List Char
  | [] => []
  | c :: s =>
    if c = '\'' then unquoted (!quoted) s
    else if quoted then unquoted quoted s
    else c :: unquoted quoted s

/-- How many more parentheses are opened in a text than closed. -/
def surplus (s : List Char) : Int := s.count '(' - s.count ')'

/-- A comma after the text separates: it is neither quoted nor in parentheses. -/
def Open (s : List Char) : Prop := s.count '\'' % 2 = 0 ∧ surplus (unquoted false s) = 0

/-- No comma in the text separates. -/
def Undivided (x : List Char) : Prop := ∀ a b, x = a ++ ',' :: b → ¬ Open a

/-- The text ends outside of quotes and of parentheses, and all its commas are in one or the other. -/
structure SelfContained (x : List Char) : Prop where
  ends : Open x
  undivided : Undivided x

/-- A body cut at its separating commas: self-contained pieces, and a last one that may leave something open. -/
inductive Cut : List Char → List (List Char) → Prop where
  | last {x : List Char} (hx : Undivided x) : Cut x [x]
  | cons {x body : List Char} {pieces : List (List Char)} (hx : SelfContained x) (h : Cut body pieces) :
    Cut (x ++ ',' :: body) (x :: pieces)

/-! ## The state of the scanner -/

theorem surplus_cons (c : Char) (s : List Char) :
    surplus (c :: s) = (if c = '(' then 1 else if c = ')' then -1 else 0) + surplus s := by
  unfold surplus
  by_cases ho : c = '('
  · subst ho
    rw [if_pos rfl, List.count_cons_self, List.count_cons_of_ne (by decide)]
    omega
  by_cases hc : c = ')'
  · subst hc
    rw [if_neg ho, if_pos rfl, List.count_cons_self, List.count_cons_of_ne (by decide)]
    omega
  · rw [if_neg ho, if_neg hc, List.count_cons_of_ne ho, List.count_cons_of_ne hc]
    omega

/-- The nesting after a text. -/
theorem foldl_after (n : Nesting) (s : List Char) :
    s.foldl Nesting.after n =
      ⟨n.depth + surplus (unquoted n.quoted s), n.quoted ^^ decide (s.count '\'' % 2 = 1)⟩ := by
  induction s generalizing n with
  | nil => simp [unquoted, surplus]
  | cons c s ih =>
    obtain ⟨depth, quoted⟩ := n
    rw [List.foldl_cons, ih, unquoted]
    by_cases hq : c = '\''
    · subst hq
      have hparity : decide ((s.count '\'' + 1) % 2 = 1) = !decide (s.count '\'' % 2 = 1) := by
        rw [← decide_not, decide_eq_decide]
        omega
      rw [List.count_cons_self, hparity]
      cases quoted <;> simp [Nesting.after]
    · rw [if_neg hq, List.count_cons_of_ne hq]
      cases quoted with
      | true => simp [Nesting.after, hq]
      | false =>
        simp only [Nesting.after, hq, if_false, Bool.false_eq_true, surplus_cons]
        split_ifs <;> simp <;> omega

theorem isOpen_iff {s : List Char} : (s.foldl Nesting.after {}).isOpen = true ↔ Open s := by
  rw [foldl_after]
  unfold Nesting.isOpen Open
  simp

theorem foldl_after_of_open {s : List Char} (h : Open s) : s.foldl Nesting.after {} = {} := by
  rw [foldl_after, h.2]
  simp [h.1]

/-! ## Texts that commas do not divide -/

/-- A text is one piece if the scanner finds no separating comma in it. -/
theorem piecesFrom_eq_self_iff {n : Nesting} {x : List Char} :
    piecesFrom n x = [x] ↔ ∀ a b, x = a ++ ',' :: b → (a.foldl Nesting.after n).isOpen = false := by
  induction x generalizing n with
  | nil => simp [piecesFrom]
  | cons c x ih =>
    by_cases hsep : (c = ',' && n.isOpen) = true
    · rw [piecesFrom, if_pos hsep]
      obtain ⟨hc, ho⟩ : c = ',' ∧ n.isOpen = true := by simpa using hsep
      refine iff_of_false (by simp) fun h => ?_
      have := h [] x (by rw [hc]; rfl)
      rw [List.foldl_nil, ho] at this
      cases this
    · have hsep : (c = ',' && n.isOpen) = false := by simpa using hsep
      have hone : prepend [c] (piecesFrom (n.after c) x) = [c :: x] ↔ piecesFrom (n.after c) x = [x] := by
        cases hp : piecesFrom (n.after c) x with
        | nil => exact absurd hp (piecesFrom_ne_nil _ _)
        | cons p ps => simp [prepend]
      rw [piecesFrom_cons hsep, hone, ih]
      constructor
      · intro h a b hx
        cases a with
        | nil =>
          obtain ⟨rfl, -⟩ := List.cons.inj hx
          simpa using hsep
        | cons d a =>
          obtain ⟨rfl, hrest⟩ := List.cons.inj hx
          exact h a b hrest
      · intro h a b hx
        exact h (c :: a) b (by rw [hx]; rfl)

theorem undivided_iff {x : List Char} : Undivided x ↔ piecesFrom {} x = [x] := by
  simp only [piecesFrom_eq_self_iff, Undivided, ← isOpen_iff, Bool.not_eq_true]

theorem settled_iff {x : List Char} : Settled x ↔ SelfContained x := by
  constructor
  · intro h
    exact ⟨isOpen_iff.mp (by rw [h.level]; rfl), undivided_iff.mpr h.whole⟩
  · intro h
    exact ⟨undivided_iff.mp h.undivided, foldl_after_of_open h.ends⟩

instance (x : List Char) : Decidable (SelfContained x) := decidable_of_iff _ settled_iff

/-! ## The pieces of a body -/

theorem prepend_nil {ps : List (List Char)} (h : ps ≠ []) : prepend [] ps = ps := by
  cases ps with
  | nil => exact absurd rfl h
  | cons p ps => rfl

theorem Cut.join_eq {body : List Char} {pieces : List (List Char)} (h : Cut body pieces) :
    pieces ≠ [] ∧ join ',' pieces = body := by
  induction h with
  | last hx => exact ⟨by simp, rfl⟩
  | cons hx _ ih => exact ⟨by simp, by rw [join_cons ih.1, ih.2]⟩

/-- What the scanner makes of the rest of a piece that it has begun. -/
theorem cut_append {x : List Char} (hx : Undivided x) (s : List Char) :
    Cut (x ++ s) (prepend x (piecesFrom (x.foldl Nesting.after {}) s)) := by
  induction s generalizing x with
  | nil => simpa [piecesFrom, prepend] using Cut.last hx
  | cons c s ih =>
    by_cases hsep : (c = ',' && (x.foldl Nesting.after {}).isOpen) = true
    · obtain ⟨rfl, ho⟩ : c = ',' ∧ (x.foldl Nesting.after {}).isOpen = true := by simpa using hsep
      have ho := isOpen_iff.mp ho
      have hrest : Cut s (piecesFrom {} s) := by
        simpa [prepend_nil (piecesFrom_ne_nil _ _)] using ih (x := []) (by simp [Undivided])
      rw [piecesFrom, if_pos hsep, foldl_after_of_open ho]
      simpa [prepend] using Cut.cons ⟨ho, hx⟩ hrest
    · have hsep : (c = ',' && (x.foldl Nesting.after {}).isOpen) = false := by simpa using hsep
      have hmore : Undivided (x ++ [c]) := by
        rw [undivided_iff, piecesFrom_append (undivided_iff.mp hx), piecesFrom_cons hsep, prepend_prepend,
          piecesFrom, prepend, List.append_nil]
      simpa [piecesFrom_cons hsep, prepend_prepend] using ih hmore

/-- There is one way to cut a body. -/
theorem cut_iff {body : List Char} {pieces : List (List Char)} : Cut body pieces ↔ pieces = piecesFrom {} body := by
  constructor
  · intro h
    induction h with
    | last hx => exact (undivided_iff.mp hx).symm
    | cons hx _ ih => rw [piecesFrom_settled (settled_iff.mpr hx), ih]
  · rintro rfl
    have h := cut_append (x := []) (by simp [Undivided]) body
    rwa [List.foldl_nil, List.nil_append, prepend_nil (piecesFrom_ne_nil _ _)] at h

/-- The definitions of a body that was joined from self-contained items with commas are the items without the
blanks around them, those that are blank left out. Every body can be cut in exactly one way into pieces that are
self-contained, up to the last, in which no comma separates; joined with commas the pieces are the body, and its
definitions are the pieces without the blanks around them, those that are blank left out. -/
theorem definitions_separated :
    (∀ items : List (List Char), (∀ x ∈ items, SelfContained x) →
      definitions (join ',' items) = (items.map trim).filter fun d => !d.isEmpty) ∧
    ∀ body : List Char, ∃ pieces, Cut body pieces ∧ (∀ others, Cut body others → others = pieces) ∧
      join ',' pieces = body ∧ definitions body = ((pieces.map trim).filter fun d => !d.isEmpty) ∧
      ∀ p ∈ pieces, ∃ a b, (∀ c ∈ a, isBlank c = true) ∧ (∀ c ∈ b, isBlank c = true) ∧ p = a ++ (trim p ++ b) := by
  refine ⟨fun items h => definitions_join fun x hx => settled_iff.mpr (h x hx), fun body => ?_⟩
  have hcut : Cut body (piecesFrom {} body) := cut_iff.mpr rfl
  exact ⟨piecesFrom {} body, hcut, fun others h => cut_iff.mp h, hcut.join_eq.2, rfl, fun p _ => exists_trim p⟩

/-- Items with a nested comma, with nothing, with a comma at a negative depth, and with quoted signs. -/
def oddItems : List (List Char) :=
  ["a DECIMAL(10, 2)".toList, " ".toList, "),(".toList, "\n b TEXT DEFAULT '(,' ".toList]

theorem definitions_separated_odd :
    (∀ x ∈ oddItems, SelfContained x) ∧
      definitions (join ',' oddItems) = ["a DECIMAL(10, 2)".toList, "),(".toList, "b TEXT DEFAULT '(,'".toList] := by
  have h : ∀ x ∈ oddItems, SelfContained x := by decide
  refine ⟨h, ?_⟩
  rw [definitions_separated.1 oddItems h]
  decide

end Erd.Sql
