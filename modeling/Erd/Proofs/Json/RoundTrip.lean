import Erd.Proofs.Json.Scalar

/-!
# Printed values are read back

A value is printed over several lines and read from left to right. Between the parts of a value there are only
line ends and blanks, which the reader skips; behind a value comes a comma, a line end or nothing. The reader
bounds the depth of its calls by the length of the text, and every call takes at least one character.

Numbers with a fraction are not looked at here, and neither are objects that have a key twice: the reader keeps
the last value of such a key.

**Results.**
* `items_itemsText`, `members_membersText`: the parts of a value are read back one after another.
* `readBack_of_exact`: a value is read back off the front of a text.
* `read_print`: the text of a value is read as the value.
-/
namespace Erd.Json

/-- The text of the value tells it: it has no numbers but whole ones, and no key of an object comes twice. -/
inductive Exact : Json → Prop
  | null : Exact .null
  | bool (b : Bool) : Exact (.bool b)
  | int (n : Int) : Exact (.int n)
  | str (s : String) : Exact (.str s)
  | arr {vs : List Json} (h : ∀ v ∈ vs, Exact v) : Exact (.arr vs)
  | obj {fs : List (String × Json)} (hn : (fs.map Prod.fst).Nodup) (h : ∀ f ∈ fs, Exact f.2) : Exact (.obj fs)

theorem enter?_unlimited : ({} : Limits).enter? = some {} := rfl

/-- The text starts as values do: with neither a blank nor a closing bracket. -/
def Opens (s : List Char) : Prop :=
  s ≠ [] ∧ ∀ c ∈ s.head?, isSpace c = false ∧ c ≠ ']' ∧ c ≠ '\x7d' ∧ c ≠ '\uFEFF'

theorem opens_cons {c : Char} (s : List Char)
    (h : isSpace c = false ∧ c ≠ ']' ∧ c ≠ '\x7d' ∧ c ≠ '\uFEFF') : Opens (c :: s) :=
  ⟨List.cons_ne_nil _ _, fun _ he => by cases he; exact h⟩

theorem opens_of_isDigit {c : Char} (hc : c.isDigit = true) (s : List Char) : Opens (c :: s) := by
  have hne {x : Char} (hx : x.isDigit = false) : c ≠ x := ne_of_isDigit hc hx
  refine opens_cons s ⟨?_, hne rfl, hne rfl, hne rfl⟩
  simp [isSpace, hne (x := ' ') rfl, hne (x := '\t') rfl, hne (x := '\n') rfl, hne (x := '\r') rfl]

theorem opens_textAt {v : Json} (h : Exact v) (level : Nat) (t : List Char) : Opens (textAt level v ++ t) := by
  cases h with
  | null => exact opens_cons _ (by decide)
  | bool b => cases b <;> exact opens_cons _ (by decide)
  | int n =>
    obtain ⟨c, s, hs, hc⟩ := cons_intText n
    rw [textAt, hs]
    rcases hc with hc | rfl
    · exact opens_of_isDigit hc _
    · exact opens_cons _ (by decide)
  | str s => exact opens_cons _ (by decide)
  | @arr vs h =>
    cases vs with
    | nil => exact opens_cons _ (by decide)
    | cons v vs => exact opens_cons _ (by decide)
  | @obj fs hn h =>
    cases fs with
    | nil => exact opens_cons _ (by decide)
    | cons f fs => exact opens_cons _ (by decide)

theorem skip_eq_self {s : List Char} (h : ∀ c ∈ s.head?, isSpace c = false) : skip s = s := by
  have hnone : ∀ c ∈ ([] : List Char), isSpace c = true := by simp
  exact Text.dropWhile_append_stop hnone h

theorem skip_newLine {s : List Char} (h : ∀ c ∈ s.head?, isSpace c = false) (level : Nat) :
    skip (newLine level ++ s) = s := by
  refine Text.dropWhile_append_stop (fun c hc => ?_) h
  rcases List.mem_cons.mp hc with rfl | hc
  · rfl
  · rw [List.eq_of_mem_replicate hc]
    rfl

theorem closes_newLine (level : Nat) (t : List Char) : Closes (newLine level ++ t) := by
  intro c hc
  cases hc
  exact .inr rfl

theorem closes_comma (t : List Char) : Closes (',' :: t) := by
  intro c hc
  cases hc
  exact .inl rfl

/-- Reading what is printed of a value gives the value, whatever closes it. The depth of the calls is bounded by
the length of the text. -/
def ReadBack (v : Json) : Prop :=
  ∀ level depth t, Closes t → (textAt level v).length ≤ depth → value {} depth (textAt level v ++ t) = .ok (v, t)

section Nested

variable {level : Nat} {t : List Char}

/-- The items of an array are read back one after another. -/
theorem items_itemsText {v : Json} {vs : List Json} {depth : Nat} (h : ∀ w ∈ v :: vs, Exact w ∧ ReadBack w)
    (hd : (textAt (level + 1) v).length + (itemsText level vs).length < depth) :
    items {} depth (textAt (level + 1) v ++ (itemsText level vs ++ (newLine level ++ ']' :: t))) =
      .ok (v :: vs, t) := by
  induction vs generalizing v depth with
  | nil =>
    obtain ⟨depth, rfl⟩ := Nat.exists_eq_succ_of_ne_zero (by omega : depth ≠ 0)
    have hv := (h v List.mem_cons_self).2 (level + 1) depth (newLine level ++ ']' :: t) (closes_newLine _ _)
      (by omega)
    rw [items, itemsText, List.nil_append, hv]
    simp only [skip_newLine (s := ']' :: t) (by simp [isSpace])]
  | cons w ws ih =>
    obtain ⟨depth, rfl⟩ := Nat.exists_eq_succ_of_ne_zero (by omega : depth ≠ 0)
    let more := textAt (level + 1) w ++ (itemsText level ws ++ (newLine level ++ ']' :: t))
    have hmore : itemsText level (w :: ws) ++ (newLine level ++ ']' :: t) = ',' :: (newLine (level + 1) ++ more) := by
      simp [itemsText, more]
    simp only [itemsText, List.length_append, List.length_cons] at hd
    have hv := (h v List.mem_cons_self).2 (level + 1) depth _ (closes_comma (newLine (level + 1) ++ more)) (by omega)
    have hopens : Opens more := opens_textAt (h w (by simp)).1 _ _
    have hrest : items {} depth more = .ok (w :: ws, t) :=
      ih (fun x hx => h x (List.mem_cons_of_mem v hx)) (by omega)
    have hcomma : skip (',' :: (newLine (level + 1) ++ more)) = ',' :: (newLine (level + 1) ++ more) :=
      skip_eq_self (by simp [isSpace])
    rw [items, hmore, hv]
    simp only [hcomma, skip_newLine (fun c hc => (hopens.2 c hc).1), hrest]
    rfl

theorem memberText_append (f : String × Json) (t : List Char) : memberText level f ++ t =
    '"' :: (f.1.toList.flatMap stringChar ++ '"' :: ':' :: ' ' :: (textAt level f.2 ++ t)) := by
  obtain ⟨key, v⟩ := f
  simp [memberText, stringText]

/-- One member of an object is read back, up to what closes its value. -/
theorem members_memberText {f : String × Json} {depth : Nat} (hf : Exact f.2 ∧ ReadBack f.2) (ht : Closes t)
    (hd : (memberText (level + 1) f).length ≤ depth) :
    members {} (depth + 1) (memberText (level + 1) f ++ t) = match skip t with
      | '\x7d' :: left => .ok ([f], left)
      | ',' :: more => (members {} depth (skip more)).map fun (ms, left) => (f :: ms, left)
      | other => .error ⟨.comma, other.length⟩ := by
  obtain ⟨name, value⟩ := f
  obtain ⟨hexact, hback⟩ : Exact value ∧ ReadBack value := hf
  have hlength : (textAt (level + 1) value).length ≤ depth := by
    rw [← List.append_nil (memberText (level + 1) (name, value)), memberText_append] at hd
    simp only [List.length_append, List.length_cons, List.length_nil] at hd
    omega
  have hopens : Opens (textAt (level + 1) value ++ t) := opens_textAt hexact _ _
  have hcolon : skip (':' :: ' ' :: (textAt (level + 1) value ++ t)) = ':' :: ' ' :: (textAt (level + 1) value ++ t) :=
    skip_eq_self (by simp [isSpace])
  have hblank : skip (' ' :: (textAt (level + 1) value ++ t)) = textAt (level + 1) value ++ t := by
    have hspace : ∀ c ∈ [' '], isSpace c = true := by simp [isSpace]
    exact Text.dropWhile_append_stop hspace fun c hc => (hopens.2 c hc).1
  rw [memberText_append, members, string_chars]
  simp only [hcolon, hblank, String.ofList_toList]
  exact hback (level + 1) depth t ht hlength ▸ rfl

/-- The members of an object are read back one after another. -/
theorem members_membersText {f : String × Json} {fs : List (String × Json)} {depth : Nat}
    (h : ∀ g ∈ f :: fs, Exact g.2 ∧ ReadBack g.2)
    (hd : (memberText (level + 1) f).length + (membersText level fs).length < depth) :
    members {} depth (memberText (level + 1) f ++ (membersText level fs ++ (newLine level ++ '\x7d' :: t))) =
      .ok (f :: fs, t) := by
  induction fs generalizing f depth with
  | nil =>
    obtain ⟨depth, rfl⟩ := Nat.exists_eq_succ_of_ne_zero (by omega : depth ≠ 0)
    rw [membersText, List.nil_append, members_memberText (h f List.mem_cons_self) (closes_newLine _ _) (by omega)]
    simp only [skip_newLine (s := '\x7d' :: t) (by simp [isSpace])]
  | cons g gs ih =>
    obtain ⟨depth, rfl⟩ := Nat.exists_eq_succ_of_ne_zero (by omega : depth ≠ 0)
    let more := memberText (level + 1) g ++ (membersText level gs ++ (newLine level ++ '\x7d' :: t))
    have hmore : membersText level (g :: gs) ++ (newLine level ++ '\x7d' :: t) =
        ',' :: (newLine (level + 1) ++ more) := by
      simp [membersText, more]
    simp only [membersText, List.length_append, List.length_cons] at hd
    have hquote : ∀ c ∈ more.head?, isSpace c = false := by
      simp [more, memberText_append, isSpace]
    have hrest : members {} depth more = .ok (g :: gs, t) :=
      ih (fun x hx => h x (List.mem_cons_of_mem f hx)) (by omega)
    have hcomma : skip (',' :: (newLine (level + 1) ++ more)) = ',' :: (newLine (level + 1) ++ more) :=
      skip_eq_self (by simp [isSpace])
    rw [hmore, members_memberText (h f List.mem_cons_self) (closes_comma _) (by omega)]
    simp only [hcomma, skip_newLine hquote, hrest]
    rfl

end Nested

theorem put_of_not_mem {key : String} {v : Json} {fs : List (String × Json)} (h : key ∉ fs.map Prod.fst) :
    put key v fs = fs ++ [(key, v)] := by
  induction fs with
  | nil => rfl
  | cons f fs ih =>
    obtain ⟨hne, hrest⟩ := not_or.mp (mt List.mem_cons.mpr h)
    rw [put, if_neg (Ne.symm hne), ih hrest]
    rfl

/-- Members with distinct keys are the fields. -/
theorem ofMembers_eq_self {ms : List (String × Json)} (h : (ms.map Prod.fst).Nodup) : ofMembers ms = ms := by
  have hfold : ∀ fs : List (String × Json), ((fs ++ ms).map Prod.fst).Nodup →
      ms.foldl (fun fields m => put m.1 m.2 fields) fs = fs ++ ms := by
    induction ms with
    | nil => simp
    | cons m ms ih =>
      intro fs hfs
      have hm : m.1 ∉ fs.map Prod.fst := by
        intro hmem
        rw [List.map_append] at hfs
        exact (List.nodup_append.mp hfs).2.2 _ hmem _ List.mem_cons_self rfl
      have hsplit : fs ++ m :: ms = fs ++ [(m.1, m.2)] ++ ms := by simp
      rw [hsplit] at hfs ⊢
      rw [List.foldl_cons, put_of_not_mem hm]
      exact ih (List.nodup_cons.mp h).2 _ hfs
  exact hfold [] h

theorem readBack_of_exact {v : Json} (h : Exact v) : ReadBack v := by
  induction h with
  | null =>
    intro level depth t ht hd
    obtain ⟨depth, rfl⟩ := Nat.exists_eq_succ_of_ne_zero (by simp [textAt] at hd; omega : depth ≠ 0)
    rfl
  | bool b =>
    intro level depth t ht hd
    obtain ⟨depth, rfl⟩ := Nat.exists_eq_succ_of_ne_zero (by cases b <;> simp [textAt] at hd <;> omega : depth ≠ 0)
    cases b <;> rfl
  | int n =>
    intro level depth t ht hd
    obtain ⟨c, s, hs, hc⟩ := cons_intText n
    rw [textAt] at hd ⊢
    obtain ⟨depth, rfl⟩ := Nat.exists_eq_succ_of_ne_zero (by rw [hs, List.length_cons] at hd; omega : depth ≠ 0)
    rw [← scalar_intText ht n, hs, List.cons_append]
    rcases hc with hc | rfl
    · rw [value]
      · exact fun _ h => ne_of_isDigit hc rfl (List.cons.inj h).1
      · exact fun _ h => ne_of_isDigit hc rfl (List.cons.inj h).1
      · exact fun _ h => ne_of_isDigit hc rfl (List.cons.inj h).1
    · rfl
  | str s =>
    intro level depth t ht hd
    obtain ⟨depth, rfl⟩ := Nat.exists_eq_succ_of_ne_zero (by simp [textAt, stringText] at hd; omega : depth ≠ 0)
    have htext : textAt level (.str s) ++ t = '"' :: (s.toList.flatMap stringChar ++ '"' :: t) := by
      simp [textAt, stringText]
    rw [htext, value, string_chars]
    simp [Except.map]
  | @arr vs h ih =>
    intro level depth t ht hd
    cases vs with
    | nil =>
      obtain ⟨depth, rfl⟩ := Nat.exists_eq_succ_of_ne_zero (by simp [textAt] at hd; omega : depth ≠ 0)
      rfl
    | cons v vs =>
      simp only [textAt, List.length_append, List.length_cons] at hd
      obtain ⟨depth, rfl⟩ := Nat.exists_eq_succ_of_ne_zero (by omega : depth ≠ 0)
      have hitems : items {} depth (textAt (level + 1) v ++ (itemsText level vs ++ (newLine level ++ ']' :: t))) =
          .ok (v :: vs, t) :=
        items_itemsText (fun w hw => ⟨h w hw, ih w hw⟩) (by omega)
      have htext : textAt level (.arr (v :: vs)) ++ t = '[' :: (newLine (level + 1) ++
          (textAt (level + 1) v ++ (itemsText level vs ++ (newLine level ++ ']' :: t)))) := by
        simp [textAt]
      obtain ⟨hne, hopens⟩ : Opens (textAt (level + 1) v ++ (itemsText level vs ++ (newLine level ++ ']' :: t))) :=
        opens_textAt (h v List.mem_cons_self) _ _
      rw [htext, value, enter?_unlimited]
      dsimp only
      rw [skip_newLine fun c hc => (hopens c hc).1]
      split
      · next left hleft =>
        rw [hleft] at hopens
        exact absurd rfl (hopens ']' rfl).2.1
      · rw [hitems]
        rfl
  | @obj fs hn h ih =>
    intro level depth t ht hd
    cases fs with
    | nil =>
      obtain ⟨depth, rfl⟩ := Nat.exists_eq_succ_of_ne_zero (by simp [textAt] at hd; omega : depth ≠ 0)
      rfl
    | cons f fs =>
      simp only [textAt, List.length_append, List.length_cons] at hd
      obtain ⟨depth, rfl⟩ := Nat.exists_eq_succ_of_ne_zero (by omega : depth ≠ 0)
      have hmembers : members {} depth (memberText (level + 1) f ++
          (membersText level fs ++ (newLine level ++ '\x7d' :: t))) = .ok (f :: fs, t) :=
        members_membersText (fun g hg => ⟨h g hg, ih g hg⟩) (by omega)
      have htext : textAt level (.obj (f :: fs)) ++ t = '\x7b' :: (newLine (level + 1) ++
          (memberText (level + 1) f ++ (membersText level fs ++ (newLine level ++ '\x7d' :: t)))) := by
        simp [textAt]
      rw [htext, value, enter?_unlimited]
      dsimp only
      rw [skip_newLine (by simp [memberText_append, isSpace])]
      split
      · next left hleft =>
        rw [memberText_append] at hleft
        cases hleft
      · rw [hmembers]
        simp only [Except.mapError, Except.map, ofMembers_eq_self hn]

/-- A printed value is read back. -/
theorem read_print {v : Json} (h : Exact v) : read v.print = .ok v := by
  have hread := readBack_of_exact h 0 (2 * (textAt 0 v).length + 2) [] (by simp [Closes]) (by omega)
  rw [List.append_nil] at hread
  obtain ⟨hne, hopens⟩ := opens_textAt h 0 []
  rw [List.append_nil] at hne hopens
  have htext : wholeText {} (textAt 0 v) = .ok v := by
    unfold wholeText
    split
    · next s hs => exact absurd rfl (hopens '\uFEFF' (by rw [hs]; rfl)).2.2.2
    · rw [skip_eq_self fun c hc => (hopens c hc).1, hread]
      rfl
  rw [read, readWithin, print, String.toList_ofList, htext]
  rfl

end Erd.Json
