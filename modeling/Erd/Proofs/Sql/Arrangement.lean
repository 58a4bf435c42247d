import Erd.Proofs.Sql.Isolation
import Erd.Proofs.Sql.LetterCase.Script
import Erd.Proofs.Sql.Body

/-!
# Definitions in another order

Keys, unique constraints and foreign keys of a table may stand anywhere among the definitions of its body.
They set flags of columns that are there already, and it does not matter in which order flags are set. So a
body with some of them moved gives the same columns and the same foreign keys in another order.

The end of a body and the commas in it are found by two counts of parentheses. The one for the commas leaves
out what stands between quotes, the one for the end does not. A definition is settled if the first count is
back where it was before it, and enclosed if the second one is.

**Results.**
* `definitions_join`: the definitions of a body are the settled texts that it was joined from.
* `definitions_join_append`: those in front of a place and those behind it.
* `enclosed_join_of_moved`: a body ends where it did although enclosed texts have moved.
* `columns_moved`, `references_moved`: keys that move leave the columns as they were.
* `moved_definitions`: where texts of keys have moved in a body, keys have moved among its definitions.
-/
namespace Erd.Sql

open Text

/-! ## Texts that are joined -/

section Join

variable {sep : Char} {xs ys : List (List Char)}

/-- With one more separator in front each text has its own. -/
theorem cons_join (hne : xs ≠ []) : sep :: join sep xs = xs.flatMap (sep :: ·) := by
  induction xs with
  | nil => exact absurd rfl hne
  | cons x xs ih =>
    cases xs with
    | nil => simp [join]
    | cons y ys => rw [join_cons (by simp), List.flatMap_cons, ← ih (by simp), List.cons_append]

/-- Texts in another order make a text of the same characters. -/
theorem join_perm (h : ys.Perm xs) : (join sep ys).Perm (join sep xs) := by
  by_cases hne : xs = []
  · subst hne
    rw [List.perm_nil.mp h]
  · have hne' : ys ≠ [] := fun hy => hne (List.perm_nil.mp (hy ▸ h).symm)
    refine (List.perm_cons sep).mp ?_
    rw [cons_join hne, cons_join hne']
    exact h.flatMap_right _

/-- Two characters side by side stand in one of the texts. -/
theorem pair_infix_join {a b : Char} (ha : a ≠ sep) (hb : b ≠ sep) (h : [a, b] <:+: join sep xs) :
    ∃ x ∈ xs, [a, b] <:+: x := by
  induction xs with
  | nil => exact absurd (List.infix_nil.mp h) (by simp)
  | cons x xs ih =>
    cases xs with
    | nil => exact ⟨x, List.mem_cons_self, h⟩
    | cons y ys =>
      rw [join_cons (by simp)] at h
      rcases pair_infix_append ha hb h with h | h
      · exact ⟨x, List.mem_cons_self, h⟩
      · obtain ⟨z, hz, hzi⟩ := ih h
        exact ⟨z, List.mem_cons_of_mem x hz, hzi⟩

end Join

/-! ## The definitions of a body -/

/-- A text with its quotes closed, with as many opening as closing parentheses outside of quotes, and with
commas only in one or the other. -/
structure Settled (x : List Char) : Prop where
  whole : piecesFrom {} x = [x]
  level : x.foldl Nesting.after {} = {}

instance (x : List Char) : Decidable (Settled x) :=
  decidable_of_iff (piecesFrom {} x = [x] ∧ x.foldl Nesting.after {} = {})
    ⟨fun h => ⟨h.1, h.2⟩, fun h => ⟨h.whole, h.level⟩⟩

/-- What follows a text without a separator is read on from the nesting after it. -/
theorem piecesFrom_append {n : Nesting} {x : List Char} (h : piecesFrom n x = [x]) (rest : List Char) :
    piecesFrom n (x ++ rest) = prepend x (piecesFrom (x.foldl Nesting.after n) rest) := by
  induction x generalizing n with
  | nil =>
    cases hp : piecesFrom n rest with
    | nil => exact absurd hp (piecesFrom_ne_nil n rest)
    | cons p ps => simp [prepend, hp]
  | cons c x ih =>
    by_cases hsep : (c = ',' && n.isOpen) = true
    · rw [piecesFrom, if_pos hsep] at h
      cases h
    · have hsep : (c = ',' && n.isOpen) = false := by simpa using hsep
      have hx : piecesFrom (n.after c) x = [x] := by
        rw [piecesFrom_cons hsep] at h
        cases hp : piecesFrom (n.after c) x with
        | nil => exact absurd hp (piecesFrom_ne_nil _ _)
        | cons p ps =>
          rw [hp] at h
          simpa [prepend] using h
      rw [List.cons_append, piecesFrom_cons hsep, ih hx, prepend_prepend]
      rfl

/-- A settled text in front of a comma is a piece of its own. -/
theorem piecesFrom_settled {x : List Char} (h : Settled x) (s : List Char) :
    piecesFrom {} (x ++ ',' :: s) = x :: piecesFrom {} s := by
  have hsep : piecesFrom {} (',' :: s) = [] :: piecesFrom {} s := by rw [piecesFrom, if_pos (by decide)]
  rw [piecesFrom_append h.whole, h.level, hsep, prepend, List.append_nil]

/-- Behind a settled text the definitions of a body are those of the rest. -/
theorem definitions_join_cons {x : List Char} (h : Settled x) (xs : List (List Char)) :
    definitions (join ',' (x :: xs)) = ([trim x].filter fun d => !d.isEmpty) ++ definitions (join ',' xs) := by
  cases xs with
  | nil =>
    have hnil : definitions (join ',' []) = [] := rfl
    rw [hnil, List.append_nil, join, definitions, h.whole, List.map_singleton]
  | cons y ys =>
    rw [join_cons (by simp), definitions, piecesFrom_settled h, List.map_cons, ← List.singleton_append,
      List.filter_append, definitions]

/-- The definitions of a body are those in front of a place and those behind it, if what is in front is settled. -/
theorem definitions_join_append {xs : List (List Char)} (h : ∀ x ∈ xs, Settled x) (ys : List (List Char)) :
    definitions (join ',' (xs ++ ys)) = definitions (join ',' xs) ++ definitions (join ',' ys) := by
  induction xs with
  | nil => rfl
  | cons x xs ih =>
    obtain ⟨hx, hxs⟩ := List.forall_mem_cons.mp h
    rw [List.cons_append, definitions_join_cons hx, definitions_join_cons hx, ih hxs, List.append_assoc]

/-- The definitions of a body are the texts that it was joined from, those that are blank left out. -/
theorem definitions_join {xs : List (List Char)} (h : ∀ x ∈ xs, Settled x) :
    definitions (join ',' xs) = (xs.map trim).filter fun d => !d.isEmpty := by
  induction xs with
  | nil => rfl
  | cons x xs ih =>
    obtain ⟨hx, hxs⟩ := List.forall_mem_cons.mp h
    rw [definitions_join_cons hx, ih hxs, List.map_cons, ← List.filter_append, List.singleton_append]

/-- A flat text is settled. -/
theorem Flat.settled {s : List Char} (h : Flat s) : Settled s where
  whole := by
    have hall := h.piecesFrom []
    rw [List.append_nil] at hall
    rw [hall, Sql.piecesFrom, prepend, List.append_nil]
  level := by
    induction h with
    | nil => rfl
    | neutral hc _ ih => rw [List.foldl_cons, after_neutral hc, ih]
    | @group inside s hi _ ih =>
      have hinside : inside.foldl Nesting.after ⟨1, false⟩ = ⟨1, false⟩ := by
        clear ih
        induction inside with
        | nil => rfl
        | cons c inside ihi =>
          obtain ⟨hc, hi⟩ := List.forall_mem_cons.mp hi
          rw [List.foldl_cons, after_inside hc, ihi hi]
      have hopen : ({} : Nesting).after '(' = ⟨1, false⟩ := rfl
      have hclose : (Nesting.mk 1 false).after ')' = {} := rfl
      rw [List.foldl_cons, hopen, List.foldl_append, hinside, List.foldl_cons, hclose, ih]

/-! ## The end of a body -/

/-- How many parentheses are open after a character, unless it closes one that is not open. -/
def openAfterChar? (depth : Nat) (c : Char) : Option Nat :=
  if c = '(' then some (depth + 1)
  else if c = ')' then
    match depth with
    | 0 => none
    | depth + 1 => some depth
  else some depth

/-- How many are open after a text. -/
def openAfter? (depth : Nat) (s : List Char) : Option Nat := s.foldlM openAfterChar? depth

/-- In parentheses of its own the text is what stands between them. -/
def Enclosed (x : List Char) : Prop := body? ('(' :: (x ++ [')'])) = some x

instance (x : List Char) : Decidable (Enclosed x) :=
  inferInstanceAs (Decidable (body? ('(' :: (x ++ [')'])) = some x))

theorem openAfter?_cons (depth : Nat) (c : Char) (s : List Char) :
    openAfter? depth (c :: s) = (openAfterChar? depth c).bind fun d => openAfter? d s :=
  List.foldlM_cons

theorem openAfter?_append (depth : Nat) (s t : List Char) :
    openAfter? depth (s ++ t) = (openAfter? depth s).bind fun d => openAfter? d t :=
  List.foldlM_append

/-- A parenthesis closes a body if it follows a text after which none is open. -/
theorem upToClose_eq_self_iff (depth : Nat) (s tail : List Char) :
    upToClose depth (s ++ ')' :: tail) = some s ↔ openAfter? depth s = some 0 := by
  induction s generalizing depth with
  | nil => cases depth <;> simp [upToClose, openAfter?]
  | cons c s ih =>
    rw [List.cons_append, openAfter?_cons]
    by_cases ho : c = '('
    · subst ho
      rw [upToClose_open]
      simp [openAfterChar?, ih]
    · by_cases hc : c = ')'
      · subst hc
        cases depth with
        | zero => simp [upToClose, openAfterChar?]
        | succ depth =>
          rw [upToClose_close]
          simp [openAfterChar?, ih]
      · rw [upToClose_cons ho hc]
        simp [openAfterChar?, ho, hc, ih]

theorem enclosed_iff {x : List Char} : Enclosed x ↔ openAfter? 0 x = some 0 := upToClose_eq_self_iff 0 x []

theorem body?_enclosed {x : List Char} (h : Enclosed x) (tail : List Char) :
    body? ('(' :: (x ++ ')' :: tail)) = some x :=
  (upToClose_eq_self_iff 0 x tail).mpr (enclosed_iff.mp h)

/-- More parentheses that are open before are open after. -/
theorem openAfter?_add {depth d : Nat} {s : List Char} (h : openAfter? depth s = some d) (k : Nat) :
    openAfter? (depth + k) s = some (d + k) := by
  induction s generalizing depth with
  | nil =>
    cases h
    rfl
  | cons c s ih =>
    rw [openAfter?_cons] at h ⊢
    obtain ⟨e, he, hs⟩ := Option.bind_eq_some_iff.mp h
    have hchar : openAfterChar? (depth + k) c = some (e + k) := by
      unfold openAfterChar? at he ⊢
      split at he
      · cases he
        rw [if_pos ‹_›, Nat.add_right_comm]
      · rw [if_neg ‹_›]
        split at he
        · rw [if_pos ‹_›]
          cases depth with
          | zero => cases he
          | succ depth =>
            cases he
            rw [Nat.add_right_comm]
        · cases he
          rw [if_neg ‹_›]
    rw [hchar, Option.bind_some, ih hs]

theorem Enclosed.openAfter? {x : List Char} (h : Enclosed x) (depth : Nat) :
    openAfter? depth x = some depth := by
  simpa using openAfter?_add (enclosed_iff.mp h) depth

/-- The count goes through one text after the other. -/
theorem openAfter?_join (depth : Nat) (xs : List (List Char)) :
    openAfter? depth (join ',' xs) = xs.foldlM openAfter? depth := by
  induction xs generalizing depth with
  | nil => rfl
  | cons x xs ih =>
    cases xs with
    | nil => cases h : openAfter? depth x <;> simp [join, h]
    | cons y ys =>
      have hcomma (d : Nat) : openAfter? d (',' :: join ',' (y :: ys)) = (y :: ys).foldlM openAfter? d := by
        rw [openAfter?_cons, ← ih d]
        rfl
      rw [join_cons (by simp), openAfter?_append, List.foldlM_cons]
      exact congrArg _ (funext hcomma)

/-- Texts that do not change the count can be left out. -/
theorem foldlM_openAfter?_filter {p : List Char → Bool} {xs : List (List Char)}
    (h : ∀ x ∈ xs, p x = false → Enclosed x) (depth : Nat) :
    (xs.filter p).foldlM openAfter? depth = xs.foldlM openAfter? depth := by
  induction xs generalizing depth with
  | nil => rfl
  | cons x xs ih =>
    obtain ⟨hx, hxs⟩ := List.forall_mem_cons.mp h
    cases hp : p x with
    | true =>
      rw [List.filter_cons_of_pos hp, List.foldlM_cons, List.foldlM_cons]
      exact congrArg _ (funext fun d => ih hxs d)
    | false =>
      rw [List.filter_cons_of_neg (by simp [hp]), List.foldlM_cons, (hx hp).openAfter?, ih hxs]
      rfl

/-! ## Keys that move -/

/-- A list in another order in which only what is a key has moved: the rest stands in the order it had. -/
structure Moved {α : Type} (key : α → Bool) (xs ys : List α) : Prop where
  perm : ys.Perm xs
  others : (ys.filter fun x => !key x) = xs.filter fun x => !key x

instance {α : Type} [DecidableEq α] (key : α → Bool) (xs ys : List α) : Decidable (Moved key xs ys) :=
  decidable_of_iff (ys.Perm xs ∧ (ys.filter fun x => !key x) = xs.filter fun x => !key x)
    ⟨fun h => ⟨h.1, h.2⟩, fun h => ⟨h.perm, h.others⟩⟩

theorem Moved.filter {α : Type} {key : α → Bool} {xs ys : List α} (h : Moved key xs ys) (p : α → Bool) :
    Moved key (xs.filter p) (ys.filter p) := by
  refine ⟨h.perm.filter p, ?_⟩
  rw [List.filter_comm, h.others, List.filter_comm]

theorem Moved.map {α β : Type} {key : β → Bool} {f : α → β} {xs ys : List α}
    (h : Moved (fun x => key (f x)) xs ys) : Moved key (xs.map f) (ys.map f) := by
  refine ⟨h.perm.map f, ?_⟩
  rw [List.filter_map, List.filter_map]
  exact congrArg (List.map f) h.others

/-- A body ends where it did although enclosed texts have moved. -/
theorem enclosed_join_of_moved {key : List Char → Bool} {xs ys : List (List Char)} (hm : Moved key xs ys)
    (hkey : ∀ x ∈ xs, key x = true → Enclosed x) (h : Enclosed (join ',' xs)) : Enclosed (join ',' ys) := by
  have hxs : ∀ x ∈ xs, (!key x) = false → Enclosed x := fun x hx hk => hkey x hx (by simpa using hk)
  have hys : ∀ y ∈ ys, (!key y) = false → Enclosed y := fun y hy => hxs y (hm.perm.mem_iff.mp hy)
  rw [enclosed_iff, openAfter?_join] at h ⊢
  rw [← foldlM_openAfter?_filter hys, hm.others, foldlM_openAfter?_filter hxs, h]

/-- A primary key, a unique constraint or a foreign key of the table. -/
def Definition.isKey : Definition → Bool
  | .primaryKey _ | .unique _ | .foreignKey _ => true
  | _ => false

/-- The text of one. -/
def isKeyText (x : List Char) : Bool := (Definition.read (trim x)).isKey

/-- Two changes that can be made in either order can be made by name in either order. -/
theorem changeNamed_comm {f g : Outline.Column → Outline.Column} (hf : ∀ c, (f c).name = c.name)
    (hg : ∀ c, (g c).name = c.name) (hfg : ∀ c, f (g c) = g (f c)) (m n : String) (cs : List Outline.Column) :
    Outline.changeNamed m f (Outline.changeNamed n g cs) =
      Outline.changeNamed n g (Outline.changeNamed m f cs) := by
  induction cs with
  | nil => rfl
  | cons c cs ih =>
    by_cases hn : nameKey c.name = nameKey n <;> by_cases hm : nameKey c.name = nameKey m
    · simp only [Outline.changeNamed, if_pos hn, if_pos hm, hf, hg, hfg]
    · simp only [Outline.changeNamed, if_pos hn, if_neg hm, hg]
    · simp only [Outline.changeNamed, if_neg hn, if_pos hm, hf]
    · simp only [Outline.changeNamed, if_neg hn, if_neg hm, ih]

/-- A change by name can be made before or after changes of other kinds. -/
theorem foldl_changeNamed_comm {f g : Outline.Column → Outline.Column} (hf : ∀ c, (f c).name = c.name)
    (hg : ∀ c, (g c).name = c.name) (hfg : ∀ c, f (g c) = g (f c)) (m : String) (names : List String)
    (cs : List Outline.Column) :
    names.foldl (fun cs name => Outline.changeNamed name g cs) (Outline.changeNamed m f cs) =
      Outline.changeNamed m f (names.foldl (fun cs name => Outline.changeNamed name g cs) cs) := by
  induction names generalizing cs with
  | nil => rfl
  | cons n names ih => rw [List.foldl_cons, List.foldl_cons, ← changeNamed_comm hf hg hfg, ih]

theorem foldl_changeNamed_perm {f : Outline.Column → Outline.Column} (hf : ∀ c, (f c).name = c.name)
    {ms ns : List String} (h : ms.Perm ns) (cs : List Outline.Column) :
    ms.foldl (fun cs name => Outline.changeNamed name f cs) cs =
      ns.foldl (fun cs name => Outline.changeNamed name f cs) cs :=
  h.foldl_eq' (fun m _ n _ cs => changeNamed_comm hf hf (fun _ => rfl) n m cs) cs

section Moved

variable {name : String} {ds es : List Definition} (h : Moved Definition.isKey ds es)

include h

theorem ownColumns_moved :
    (TableDefinition.mk name es).ownColumns = (TableDefinition.mk name ds).ownColumns := by
  have hothers (xs : List Definition) :
      (xs.filter fun x => !x.isKey).filterMap Definition.column? = xs.filterMap Definition.column? := by
    rw [List.filterMap_filter]
    refine List.filterMap_congr fun x _ => ?_
    cases x <;> rfl
  rw [TableDefinition.ownColumns, TableDefinition.ownColumns, ← hothers, h.others, hothers]

/-- The columns stay as they are. -/
theorem columns_moved : (TableDefinition.mk name es).columns = (TableDefinition.mk name ds).columns := by
  rw [TableDefinition.columns, TableDefinition.columns, ownColumns_moved h,
    foldl_changeNamed_perm (f := markPrimaryKey) (fun c => rfl) (h.perm.flatMap_right _),
    foldl_changeNamed_perm (f := markUnique) (fun c => rfl) (h.perm.filterMap _)]

/-- The foreign keys come in another order. -/
theorem references_moved :
    (TableDefinition.mk name es).references.Perm (TableDefinition.mk name ds).references :=
  h.perm.filterMap _

end Moved

theorem moved_definitions {xs ys : List (List Char)} (hm : Moved isKeyText xs ys)
    (hs : ∀ x ∈ xs, Settled x) : Moved Definition.isKey ((definitions (join ',' xs)).map Definition.read)
      ((definitions (join ',' ys)).map Definition.read) := by
  rw [definitions_join hs, definitions_join fun y hy => hs y (hm.perm.mem_iff.mp hy)]
  have htrim : Moved (fun t => (Definition.read t).isKey) (xs.map trim) (ys.map trim) := Moved.map hm
  exact (htrim.filter _).map

end Erd.Sql
