import Erd.Json.Reader
import Erd.Proofs.Building
import Erd.Proofs.Text

/-!
# Values that are read have distinct keys

An object may be written with a key twice. The reader keeps the first place of such a key and its last value, so
that no object it gives has a key twice, at whatever depth. A text that is blank gives no value at all.

**Results.**
* `distinctKeys_ofMembers`: members become an object without a key twice.
* `isScalar_of_scalar`: what a number or a word off the front of a text can be.
* `Inherited.value`, `Inherited.readWithin`: what scalars have and parts pass on, every value that is read has.
* `distinctKeys_of_read`: the value of a text has distinct keys, and so have its parts.
* `exists_read_eq_error`: a blank text has no value.
-/
namespace Erd.Json

/-- No object in the value has a key twice. -/
inductive DistinctKeys : Json → Prop
  | null : DistinctKeys .null
  | bool (b : Bool) : DistinctKeys (.bool b)
  | int (n : Int) : DistinctKeys (.int n)
  | float (x : Binary64) : DistinctKeys (.float x)
  | str (s : String) : DistinctKeys (.str s)
  | arr {vs : List Json} (h : ∀ v ∈ vs, DistinctKeys v) : DistinctKeys (.arr vs)
  | obj {fs : List (String × Json)} (hn : (fs.map Prod.fst).Nodup) (h : ∀ f ∈ fs, DistinctKeys f.2) :
    DistinctKeys (.obj fs)

@[simp]
theorem distinctKeys_obj {fs : List (String × Json)} :
    DistinctKeys (.obj fs) ↔ (fs.map Prod.fst).Nodup ∧ ∀ f ∈ fs, DistinctKeys f.2 := by
  constructor
  · intro h
    cases h with
    | obj hn hfs => exact ⟨hn, hfs⟩
  · exact fun ⟨hn, hfs⟩ => .obj hn hfs

attribute [simp] DistinctKeys.str

/-! ## Fields -/

theorem mem_keys_put {key k : String} {v : Json} {fs : List (String × Json)} :
    k ∈ (put key v fs).map Prod.fst ↔ k = key ∨ k ∈ fs.map Prod.fst := by
  induction fs with
  | nil => simp [put]
  | cons f fs ih =>
    by_cases hk : f.1 = key
    · simp [put, hk]
    · rw [put, if_neg hk, List.map_cons, List.mem_cons, ih, List.map_cons, List.mem_cons, or_left_comm]

theorem nodup_put (key : String) (v : Json) {fs : List (String × Json)} (h : (fs.map Prod.fst).Nodup) :
    ((put key v fs).map Prod.fst).Nodup := by
  induction fs with
  | nil => simp [put]
  | cons f fs ih =>
    obtain ⟨hf, hfs⟩ := List.nodup_cons.mp h
    by_cases hk : f.1 = key
    · rw [put, if_pos hk]
      exact h
    · rw [put, if_neg hk, List.map_cons, List.nodup_cons]
      refine ⟨fun hmem => ?_, ih hfs⟩
      rcases mem_keys_put.mp hmem with he | hmem
      · exact hk he
      · exact hf hmem

theorem mem_put {key : String} {v : Json} {fs : List (String × Json)} {f : String × Json} (h : f ∈ put key v fs) :
    f.2 = v ∨ f ∈ fs := by
  induction fs with
  | nil =>
    rw [List.mem_singleton.mp h]
    exact .inl rfl
  | cons g fs ih =>
    rw [put] at h
    split at h
    · rcases List.mem_cons.mp h with rfl | h
      · exact .inl rfl
      · exact .inr (List.mem_cons_of_mem g h)
    · rcases List.mem_cons.mp h with rfl | h
      · exact .inr List.mem_cons_self
      · exact (ih h).imp_right (List.mem_cons_of_mem g)

theorem distinctKeys_put {key : String} {v : Json} {fs : List (String × Json)} (hv : DistinctKeys v)
    (h : DistinctKeys (.obj fs)) : DistinctKeys (.obj (put key v fs)) := by
  obtain ⟨hn, hfs⟩ := distinctKeys_obj.mp h
  refine .obj (nodup_put key v hn) fun f hf => ?_
  rcases mem_put hf with he | hf
  · rw [he]
    exact hv
  · exact hfs f hf

theorem distinctKeys_ofMembers {ms : List (String × Json)} (h : ∀ m ∈ ms, DistinctKeys m.2) :
    DistinctKeys (.obj (ofMembers ms)) := by
  have hfold (fs : List (String × Json)) (hfs : DistinctKeys (.obj fs)) :
      DistinctKeys (.obj (ms.foldl (fun fields m => put m.1 m.2 fields) fs)) := by
    induction ms generalizing fs with
    | nil => exact hfs
    | cons m ms ih =>
      obtain ⟨hm, hms⟩ := List.forall_mem_cons.mp h
      exact ih hms _ (distinctKeys_put hm hfs)
  exact hfold [] (.obj List.nodup_nil (List.forall_mem_nil _))

theorem mem_of_get? {key : String} {v : Json} {fs : List (String × Json)} (h : get? key fs = some v) :
    (key, v) ∈ fs := by
  induction fs with
  | nil => cases h
  | cons f fs ih =>
    rw [get?] at h
    split at h
    · next hk =>
      cases h
      cases hk
      exact List.mem_cons_self
    · exact List.mem_cons_of_mem f (ih h)

theorem distinctKeys_of_get? {key : String} {v : Json} {fs : List (String × Json)} (h : DistinctKeys (.obj fs))
    (hv : get? key fs = some v) : DistinctKeys v :=
  (distinctKeys_obj.mp h).2 (key, v) (mem_of_get? hv)

/-! ## Scalars -/

/-- The digits of a whole number are the start of its text. -/
theorem wholeDigits?_eq {s whole rest : List Char} (h : wholeDigits? s = some (whole, rest)) :
    whole ++ rest = s ∧ ∀ c ∈ whole, c.isDigit = true := by
  unfold wholeDigits? at h
  split at h
  · cases h
    exact ⟨rfl, by simp⟩
  · next c s hc =>
    split at h
    · next hd =>
      cases h
      refine ⟨by rw [List.cons_append, List.takeWhile_append_dropWhile], List.forall_mem_cons.mpr ⟨hd, ?_⟩⟩
      exact fun d hd => List.mem_takeWhile_imp hd
    · cases h
  · cases h

/-- What a scalar can be. A whole number is told by its digits, which are no more than the limit allows. -/
inductive IsScalar (l : Limits) : Json → Prop
  | null : IsScalar l .null
  | bool (b : Bool) : IsScalar l (.bool b)
  | float (x : Binary64) : IsScalar l (.float x)
  | int {n : Int} {whole : List Char} (hwhole : ∀ c ∈ whole, c.isDigit = true) (hn : n.natAbs = ofDigits whole)
    (hshort : ∀ k ∈ l.digits, whole.length ≤ k) : IsScalar l (.int n)

theorem isScalar_of_named {l : Limits} {s rest : List Char} {v : Json} (h : named? s = some (v, rest)) :
    IsScalar l v := by
  obtain ⟨⟨name, w⟩, hw, h⟩ := List.exists_of_findSome?_eq_some h
  obtain ⟨left, -, he⟩ := Option.map_eq_some_iff.mp h
  cases he
  simp only [namedValues, List.mem_cons, List.not_mem_nil, or_false, Prod.mk.injEq] at hw
  rcases hw with ⟨-, rfl⟩ | ⟨-, rfl⟩ | ⟨-, rfl⟩ | ⟨-, rfl⟩ | ⟨-, rfl⟩ | ⟨-, rfl⟩
  · exact .null
  · exact .bool true
  · exact .bool false
  · exact .float _
  · exact .float _
  · exact .float _

theorem isScalar_of_magnitude {l : Limits} {negative : Bool} {s rest : List Char} {v : Json}
    (h : magnitude? l negative s = some (.ok (v, rest))) : IsScalar l v := by
  unfold magnitude? at h
  obtain ⟨⟨whole, left⟩, hwhole, h⟩ := Option.bind_eq_some_iff.mp h
  dsimp only at h
  split at h
  · split at h
    · cases h
    · next hshort =>
      cases h
      refine .int (wholeDigits?_eq hwhole).2 (by cases negative <;> simp) fun k hk => ?_
      by_contra hlt
      exact hshort ((Option.any_eq_true _ _).mpr ⟨k, hk, by simpa using hlt⟩)
  · cases h
    exact .float _

theorem isScalar_of_scalar {l : Limits} {s rest : List Char} {v : Json} (h : scalar l s = .ok (v, rest)) :
    IsScalar l v := by
  unfold scalar at h
  split at h
  · next r hr =>
    cases h
    exact isScalar_of_named hr
  · split at h
    · next r hr =>
      cases h
      unfold number? at hr
      split at hr
      · exact isScalar_of_magnitude hr
      · exact isScalar_of_magnitude hr
    · cases h

/-! ## Values -/

/-- What makes a property one of all values that a reader gives: scalars have it, and values have it whose parts
do. The limit to digits is the only one that scalars know. -/
structure Inherited (digits : Option Nat) (P : Json → Prop) : Prop where
  scalar : ∀ {l : Limits} {v : Json}, l.digits = digits → IsScalar l v → P v
  str : ∀ s, P (.str s)
  arr : ∀ {vs : List Json}, (∀ v ∈ vs, P v) → P (.arr vs)
  obj : ∀ {ms : List (String × Json)}, (∀ m ∈ ms, P m.2) → P (.obj (ofMembers ms))

theorem eq_ok_of_mapError {ε ε' α : Type} {f : ε → ε'} {x : Except ε α} {a : α} (h : x.mapError f = .ok a) :
    x = .ok a := by
  cases x with
  | error e => cases h
  | ok b =>
    cases h
    rfl

theorem digits_enter? {l inner : Limits} (h : l.enter? = some inner) : inner.digits = l.digits := by
  unfold Limits.enter? at h
  split at h
  · cases h
    rfl
  · cases h
  · cases h
    rfl

/-- The parts of a value are read with a smaller bound. -/
theorem Inherited.value {digits : Option Nat} {P : Json → Prop} (hP : Inherited digits P) (depth : Nat) :
    ∀ l : Limits, l.digits = digits →
      (∀ s v rest, value l depth s = .ok (v, rest) → P v) ∧
      (∀ s vs rest, items l depth s = .ok (vs, rest) → ∀ v ∈ vs, P v) ∧
      ∀ s ms rest, members l depth s = .ok (ms, rest) → ∀ m ∈ ms, P m.2 := by
  induction depth with
  | zero =>
    refine fun l _ => ⟨fun s v rest h => ?_, fun s vs rest h => ?_, fun s ms rest h => ?_⟩
    · cases h
    · cases h
    · cases h
  | succ depth ih =>
    refine fun l hl => ⟨fun s v rest h => ?_, fun s vs rest h => ?_, fun s ms rest h => ?_⟩
    · rw [value.eq_def] at h
      dsimp only at h
      split at h
      · obtain ⟨⟨cs, left⟩, -, he⟩ := Except.map_eq_ok.mp h
        cases he
        exact hP.str _
      · split at h
        · cases h
        · next inner hinner =>
          split at h
          · cases h
            show P (.obj (ofMembers []))
            exact hP.obj (List.forall_mem_nil _)
          · obtain ⟨⟨ms, left⟩, hms, he⟩ := Except.map_eq_ok.mp h
            cases he
            exact hP.obj ((ih inner ((digits_enter? hinner).trans hl)).2.2 _ _ _ (eq_ok_of_mapError hms))
      · split at h
        · cases h
        · next inner hinner =>
          split at h
          · cases h
            exact hP.arr (List.forall_mem_nil _)
          · obtain ⟨⟨vs, left⟩, hvs, he⟩ := Except.map_eq_ok.mp h
            cases he
            exact hP.arr ((ih inner ((digits_enter? hinner).trans hl)).2.1 _ _ _ (eq_ok_of_mapError hvs))
      · exact hP.scalar hl (isScalar_of_scalar h)
    · rw [items.eq_def] at h
      dsimp only at h
      split at h
      · cases h
      · next v left hv =>
        have hhead := (ih l hl).1 _ _ _ hv
        split at h
        · cases h
          exact List.forall_mem_singleton.mpr hhead
        · obtain ⟨⟨ws, left⟩, hws, he⟩ := Except.map_eq_ok.mp h
          cases he
          exact List.forall_mem_cons.mpr ⟨hhead, (ih l hl).2.1 _ _ _ hws⟩
        · cases h
    · rw [members.eq_def] at h
      dsimp only at h
      split at h
      · split at h
        · cases h
        · split at h
          · split at h
            · cases h
            · next v left hv =>
              have hhead := (ih l hl).1 _ _ _ hv
              split at h
              · cases h
                exact List.forall_mem_singleton.mpr hhead
              · obtain ⟨⟨ns, left⟩, hns, he⟩ := Except.map_eq_ok.mp h
                cases he
                exact List.forall_mem_cons.mpr ⟨hhead, (ih l hl).2.2 _ _ _ hns⟩
              · cases h
          · cases h
      · cases h

/-- Every value that is read has an inherited property. -/
theorem Inherited.readWithin {l : Limits} {P : Json → Prop} (hP : Inherited l.digits P) {text : String} {v : Json}
    (h : readWithin l text = .ok v) : P v := by
  rw [Json.readWithin] at h
  cases hwhole : wholeText l text.toList with
  | error e =>
    rw [hwhole] at h
    cases h
  | ok w =>
    rw [hwhole] at h
    cases h
    unfold wholeText at hwhole
    split at hwhole
    · cases hwhole
    · split at hwhole
      · cases hwhole
      · next hvalue =>
        split at hwhole
        · cases hwhole
          exact (hP.value _ l rfl).1 _ _ _ (eq_ok_of_mapError hvalue)
        · cases hwhole

theorem inherited_distinctKeys (digits : Option Nat) : Inherited digits DistinctKeys where
  scalar _ h := by
    cases h with
    | null => exact .null
    | bool b => exact .bool b
    | float x => exact .float x
    | int => exact .int _
  str := .str
  arr := .arr
  obj := distinctKeys_ofMembers

/-- No object in the value of a text has a key twice. -/
theorem distinctKeys_of_read {text : String} {v : Json} (h : read text = .ok v) : DistinctKeys v :=
  (inherited_distinctKeys none).readWithin h

/-! ## Blank texts -/

theorem isDigit_of_isBlank {c : Char} (h : Text.isBlank c = true) : c.isDigit = false := by
  have hcodes : ∀ n ∈ Text.blankCodes, (Char.ofNat n).isDigit = false := by decide +kernel
  have hc := hcodes _ (Text.toNat_mem_blankCodes h)
  rwa [Char.ofNat_toNat] at hc

/-- No blank starts a number or a value that has a word. -/
theorem scalar_of_isBlank {s : List Char} (hs : ∀ c ∈ s.head?, Text.isBlank c = true) :
    scalar {} s = .error ⟨.value, s.length⟩ := by
  cases s with
  | nil => rfl
  | cons c s =>
    have hc := hs c rfl
    have hne {x : Char} (hx : Text.isBlank x = false) : x ≠ c := by
      rintro rfl
      rw [hc] at hx
      cases hx
    have hnamed : named? (c :: s) = none := by
      simp [named?, namedValues, word?, hne (x := 'n') rfl, hne (x := 't') rfl, hne (x := 'f') rfl,
        hne (x := 'N') rfl, hne (x := 'I') rfl, hne (x := '-') rfl]
    have hwhole : wholeDigits? (c :: s) = none := by
      unfold wholeDigits?
      split
      · next he =>
        cases he
        cases hc
      · next he =>
        cases he
        rw [isDigit_of_isBlank hc]
        rfl
      · rfl
    have hnumber : number? {} (c :: s) = none := by
      rw [number?, magnitude?, hwhole]
      · rfl
      · intro rest he
        cases he
        cases hc
    rw [scalar, hnamed, hnumber]

/-- A blank text has no value: what is left of it after its leading blanks starts none. -/
theorem exists_read_eq_error {text : String} (h : Text.isBlankText text.toList = true) :
    ∃ e, read text = .error e := by
  have hblank : ∀ c ∈ text.toList, Text.isBlank c = true := by simpa [Text.isBlankText] using h
  have hhead : ∀ c ∈ (skip text.toList).head?, Text.isBlank c = true := fun c hc =>
    hblank c ((List.dropWhile_suffix _).subset (List.mem_of_head? hc))
  have hvalue (depth : Nat) :
      value {} (depth + 1) (skip text.toList) = .error ⟨.value, (skip text.toList).length⟩ := by
    rw [value.eq_def]
    dsimp only
    split
    · next he =>
      rw [he] at hhead
      cases hhead _ rfl
    · next he =>
      rw [he] at hhead
      cases hhead _ rfl
    · next he =>
      rw [he] at hhead
      cases hhead _ rfl
    · exact scalar_of_isBlank hhead
  unfold read readWithin wholeText
  split
  · exact ⟨_, rfl⟩
  · rw [hvalue]
    exact ⟨_, rfl⟩

end Erd.Json
