import Erd.Json.Printer
import Erd.Json.Reader
import Erd.Proofs.Text

/-!
# Printed strings and numbers

All but the printable characters of ASCII is printed by its units, a character beyond the first plane by two of
them. The reader takes the units off one after another and puts two that make a pair together; since no
character is named by half a pair, it never joins the units of different characters.

A number goes on as long as digits, a point or an exponent follow. What the printer puts after a value is a comma
or a line end, and so a number ends where it ended.

**Results.**
* `string_stringChar`: a printed character is taken off a string as it was.
* `string_chars`: a printed string is read as it was.
* `scalar_intText`: so is a whole number, before anything that closes a value.
-/
namespace Erd.Json

/-! ## Characters -/

theorem hexValue?_hexDigit : ∀ n < 16, hexValue? (Text.hexDigit n) = some n := by decide

/-- Four digits of base sixteen tell the number that they were made of. -/
theorem hex_four {n : Nat} (h : n < 0x10000) :
    ∃ a b c d, Text.hex 4 n = [a, b, c, d] ∧ hexFour? a b c d = some n := by
  refine ⟨_, _, _, _, rfl, ?_⟩
  have hdigit (k : Nat) : hexValue? (Text.hexDigit (k % 16)) = some (k % 16) :=
    hexValue?_hexDigit _ (Nat.mod_lt k (by decide))
  simp only [hexFour?, hdigit, Option.bind_eq_bind, Option.bind_some, Option.pure_def, Option.some.injEq]
  omega

section Units

variable {l : Limits} {t : List Char}

/-- A unit that is no half of a pair is read as its own character. -/
theorem unit_hex {n : Nat} (h : n < 0x10000) (hn : isHighUnit n = false ∧ isLowUnit n = false) (ht : t ≠ []) :
    unit l (Text.hex 4 n ++ t) = .ok (unitChar n, t) := by
  obtain ⟨a, b, c, d, hs, hv⟩ := hex_four h
  obtain ⟨e, t, rfl⟩ := List.exists_cons_of_ne_nil ht
  have hlone (rest : List Char) : loneUnit l n rest = .ok (unitChar n, rest) := by
    simp [loneUnit, hn]
  rw [hs]
  simp only [List.cons_append, List.nil_append, unit, hv]
  split
  · rw [hn.1, if_neg Bool.false_ne_true, hlone]
  · exact hlone _

/-- The two units of a pair are read as one character. -/
theorem unit_pair {high low : Nat} (hh : high < 0x10000) (hl : low < 0x10000) (hhigh : isHighUnit high = true)
    (hlow : isLowUnit low = true) (ht : t ≠ []) :
    unit l (Text.hex 4 high ++ (unitEscape low ++ t)) = .ok (pairChar high low, t) := by
  obtain ⟨a, b, c, d, hs, hv⟩ := hex_four hh
  obtain ⟨a', b', c', d', hs', hv'⟩ := hex_four hl
  obtain ⟨e, t, rfl⟩ := List.exists_cons_of_ne_nil ht
  rw [unitEscape, hs, hs']
  simp only [List.cons_append, List.nil_append, unit, hv, hv', hhigh, hlow, if_true]

end Units

theorem isValid_toNat (c : Char) : c.toNat.isValidChar := c.valid

theorem toNat_lt (c : Char) : c.toNat < 0x110000 := by
  have h := isValid_toNat c
  simp only [Nat.isValidChar] at h
  omega

/-- No character is named by half a pair. -/
theorem isUnit_toNat (c : Char) : isHighUnit c.toNat = false ∧ isLowUnit c.toNat = false := by
  have h := isValid_toNat c
  simp only [Nat.isValidChar] at h
  simp only [isHighUnit, isLowUnit, Bool.and_eq_false_iff, decide_eq_false_iff_not]
  omega

theorem unitChar_toNat (c : Char) : unitChar c.toNat = c := by
  obtain ⟨h1, h2⟩ := isUnit_toNat c
  rw [unitChar, h1, h2]
  exact Char.ofNat_toNat c

/-- The characters that are printed as a backslash and a letter. -/
def shortEscaped : List Char := ['"', '\\', '\n', '\r', '\t', '\x0C', '\x08']

theorem stringChar_short : ∀ c ∈ shortEscaped,
    ∃ e ∈ ['"', '\\', 'n', 'r', 't', 'f', 'b'], escaped? e = some c ∧ stringChar c = ['\\', e] := by
  simp only [shortEscaped, List.forall_mem_cons]
  exact ⟨⟨'"', by decide⟩, ⟨'\\', by decide⟩, ⟨'n', by decide⟩, ⟨'r', by decide⟩, ⟨'t', by decide⟩, ⟨'f', by decide⟩,
    ⟨'b', by decide⟩, by simp⟩

theorem stringChar_long {c : Char} (h : c ∉ shortEscaped) : stringChar c =
    if 32 ≤ c.toNat && c.toNat < 127 then [c]
    else if c.toNat < 0x10000 then unitEscape c.toNat
    else unitEscape (0xD800 + (c.toNat - 0x10000) / 0x400) ++
      unitEscape (0xDC00 + (c.toNat - 0x10000) % 0x400) := by
  simp only [shortEscaped, List.mem_cons, List.not_mem_nil, or_false, not_or] at h
  obtain ⟨h1, h2, h3, h4, h5, h6, h7⟩ := h
  simp only [stringChar, h1, h2, h3, h4, h5, h6, h7, if_false]

/-- A character beyond the first plane is read back from its two units. -/
theorem unit_high {l : Limits} {c : Char} {t : List Char} (h : ¬ c.toNat < 0x10000) (ht : t ≠ []) :
    unit l (Text.hex 4 (0xD800 + (c.toNat - 0x10000) / 0x400) ++
      (unitEscape (0xDC00 + (c.toNat - 0x10000) % 0x400) ++ t)) = .ok (c, t) := by
  have hlt : c.toNat < 0x110000 := toNat_lt c
  have hhigh : isHighUnit (0xD800 + (c.toNat - 0x10000) / 0x400) = true := by
    simp only [isHighUnit, Bool.and_eq_true, decide_eq_true_eq]
    omega
  have hlow : isLowUnit (0xDC00 + (c.toNat - 0x10000) % 0x400) = true := by
    simp only [isLowUnit, Bool.and_eq_true, decide_eq_true_eq]
    omega
  have hchar : pairChar (0xD800 + (c.toNat - 0x10000) / 0x400) (0xDC00 + (c.toNat - 0x10000) % 0x400) = c := by
    refine (congrArg Char.ofNat ?_).trans (Char.ofNat_toNat c)
    omega
  rw [unit_pair (by omega) (by omega) hhigh hlow ht, hchar]

/-! ## Strings -/

section Strings

variable {l : Limits} {opening : Nat} {t : List Char}

theorem string_escaped {e c : Char} (he : escaped? e = some c) :
    string l opening ('\\' :: e :: t) = (string l opening t).map fun (cs, left) => (c :: cs, left) := by
  have hu : e ≠ 'u' := by
    rintro rfl
    cases he
  rw [string]
  · rw [he]
  · exact hu

theorem string_unit {c : Char} {s : List Char} (hs : unit l s = .ok (c, t)) :
    string l opening ('\\' :: 'u' :: s) = (string l opening t).map fun (cs, left) => (c :: cs, left) := by
  rw [string]
  split
  · next h => rw [h] at hs; cases hs
  · next h => rw [h] at hs; cases hs; rfl

theorem string_plain {c : Char} (hq : c ≠ '"') (hb : c ≠ '\\') (hc : 32 ≤ c.toNat) :
    string l opening (c :: t) = (string l opening t).map fun (cs, left) => (c :: cs, left) := by
  rw [string]
  · rw [if_neg (by omega)]
  · exact hq
  · intro rest h
    exact absurd h hb
  · intro h
    exact absurd h hb
  · intro e rest h
    exact absurd h hb

/-- A printed character is read as it was. What follows it is there, if only the quote that ends the string. -/
theorem string_stringChar (c : Char) (ht : t ≠ []) :
    string l opening (stringChar c ++ t) = (string l opening t).map fun (cs, left) => (c :: cs, left) := by
  by_cases hc : c ∈ shortEscaped
  · obtain ⟨e, -, he, hs⟩ := stringChar_short c hc
    rw [hs]
    exact string_escaped he
  · rw [stringChar_long hc]
    split
    · next hp =>
      simp only [Bool.and_eq_true, decide_eq_true_eq] at hp
      exact string_plain (fun h => hc (by simp [h, shortEscaped])) (fun h => hc (by simp [h, shortEscaped])) hp.1
    · split
      · next h =>
        have hu := unit_hex (l := l) h (isUnit_toNat c) ht
        rw [unitChar_toNat] at hu
        exact string_unit hu
      · next h =>
        rw [List.append_assoc]
        exact string_unit (unit_high h ht)

/-- A printed string is read as it was. -/
theorem string_chars (s t : List Char) : string l opening (s.flatMap stringChar ++ '"' :: t) = .ok (s, t) := by
  induction s with
  | nil => rw [List.flatMap_nil, List.nil_append, string]
  | cons c s ih =>
    rw [List.flatMap_cons, List.append_assoc, string_stringChar c (by simp), ih]
    rfl

end Strings

/-! ## Numbers -/

/-- The text cannot go on with the value before it: it is over, or goes on with a comma or a line end. -/
def Closes (t : List Char) : Prop := ∀ c ∈ t.head?, c = ',' ∨ c = '\n'

theorem ofDigits_toDigits (n : Nat) : ofDigits (Nat.toDigits 10 n) = n := by
  have h : ofDigits (Nat.toDigits 10 n) = Nat.ofDigitChars 10 (Nat.toDigits 10 n) 0 := by
    rw [ofDigits, Nat.ofDigitChars_eq_foldl]
    refine congrArg (fun f => List.foldl f 0 _) (funext fun m => funext fun c => ?_)
    rw [Nat.mul_comm]
    rfl
  rw [h, Nat.ofDigitChars_ten_toDigits]

/-- The digits of a number other than zero start with another digit than zero. -/
theorem head_toDigits {n : Nat} (hn : n ≠ 0) : ∃ c s, Nat.toDigits 10 n = c :: s ∧ c ≠ '0' := by
  induction n using Nat.strongRecOn with
  | ind n ih =>
    rw [Nat.toDigits_eq_if (by decide)]
    split
    · next h =>
      have hdigit : ∀ k < 10, k ≠ 0 → k.digitChar ≠ '0' := by decide
      exact ⟨_, _, rfl, hdigit n h hn⟩
    · next h =>
      obtain ⟨c, s, hs, hc⟩ := ih (n / 10) (by omega) (by omega)
      exact ⟨c, s ++ [(n % 10).digitChar], by rw [hs]; rfl, hc⟩

theorem isDigit_toDigits (n : Nat) : ∀ c ∈ Nat.toDigits 10 n, c.isDigit = true := fun c hc =>
  Nat.isDigit_of_mem_toDigits (by decide) (by decide) hc

theorem cons_toDigits (n : Nat) : ∃ c s, Nat.toDigits 10 n = c :: s ∧ c.isDigit = true := by
  obtain ⟨c, s, hs⟩ := List.exists_cons_of_ne_nil (Nat.toDigits_ne_nil (n := n) (b := 10))
  exact ⟨c, s, hs, isDigit_toDigits n c (by rw [hs]; exact List.mem_cons_self)⟩

/-- A whole number is printed as its digits, after a sign if it is negative. -/
theorem intText_cases (n : Int) :
    (∃ m : Nat, n = m ∧ intText n = Nat.toDigits 10 m) ∨
      ∃ m : Nat, n = -(m : Int) ∧ intText n = '-' :: Nat.toDigits 10 m := by
  cases n with
  | ofNat m => exact .inl ⟨m, rfl, Nat.toList_repr⟩
  | negSucc m =>
    refine .inr ⟨m + 1, rfl, ?_⟩
    show ("-" ++ Nat.repr (m + 1)).toList = _
    rw [String.toList_append, Nat.toList_repr]
    rfl

theorem cons_intText (n : Int) : ∃ c s, intText n = c :: s ∧ (c.isDigit = true ∨ c = '-') := by
  rcases intText_cases n with ⟨m, -, htext⟩ | ⟨m, -, htext⟩
  · obtain ⟨c, s, hs, hc⟩ := cons_toDigits m
    exact ⟨c, s, htext.trans hs, .inl hc⟩
  · exact ⟨'-', _, htext, .inr rfl⟩

theorem ne_of_isDigit {c x : Char} (hc : c.isDigit = true) (hx : x.isDigit = false) : c ≠ x := by
  rintro rfl
  rw [hc] at hx
  cases hx

section Numbers

variable {t : List Char} (ht : Closes t)

include ht

theorem isDigit_of_closes : ∀ c ∈ t.head?, c.isDigit = false := by
  intro c hc
  rcases ht c hc with rfl | rfl <;> rfl

/-- The digits of a number are read as a whole. -/
theorem wholeDigits?_toDigits (n : Nat) : wholeDigits? (Nat.toDigits 10 n ++ t) = some (Nat.toDigits 10 n, t) := by
  by_cases hn : n = 0
  · subst hn
    rfl
  · obtain ⟨c, s, hs, hc⟩ := head_toDigits hn
    have hd := isDigit_toDigits n
    rw [hs] at hd ⊢
    have htail : ∀ e ∈ s, e.isDigit = true := fun e he => hd e (List.mem_cons_of_mem c he)
    rw [List.cons_append, wholeDigits?, if_pos (hd c List.mem_cons_self),
      Text.takeWhile_append_stop htail (isDigit_of_closes ht), Text.dropWhile_append_stop htail (isDigit_of_closes ht)]
    exact fun h => hc h

theorem fraction_of_closes : fraction t = (none, t) := by
  cases t with
  | nil => rfl
  | cons c t =>
    rcases ht c rfl with rfl | rfl <;> rfl

theorem exponent?_of_closes : exponent? t = none := by
  cases t with
  | nil => rfl
  | cons c t =>
    rcases ht c rfl with rfl | rfl <;> rfl

theorem magnitude?_toDigits (negative : Bool) (n : Nat) :
    magnitude? {} negative (Nat.toDigits 10 n ++ t) = some (.ok (.int (if negative then -n else n), t)) := by
  simp only [magnitude?, wholeDigits?_toDigits ht, Option.bind_eq_bind, Option.bind_some, fraction_of_closes ht,
    exponent?_of_closes ht, ofDigits_toDigits]
  rfl

omit ht in
/-- No value that has a word starts with a digit, whatever its sign. -/
theorem named?_of_isDigit {c : Char} (hc : c.isDigit = true) (s : List Char) :
    named? (c :: s) = none ∧ named? ('-' :: c :: s) = none := by
  have hn : 'n' ≠ c := (ne_of_isDigit hc rfl).symm
  have ht : 't' ≠ c := (ne_of_isDigit hc rfl).symm
  have hf : 'f' ≠ c := (ne_of_isDigit hc rfl).symm
  have hN : 'N' ≠ c := (ne_of_isDigit hc rfl).symm
  have hI : 'I' ≠ c := (ne_of_isDigit hc rfl).symm
  have hm : '-' ≠ c := (ne_of_isDigit hc rfl).symm
  constructor
  · simp [named?, namedValues, word?, hn, ht, hf, hN, hI, hm]
  · simp [named?, namedValues, word?, hI]

omit ht in
/-- Without a sign only the digits matter. -/
theorem number?_of_ne {l : Limits} {c : Char} (hc : c ≠ '-') (s : List Char) :
    number? l (c :: s) = magnitude? l false (c :: s) := by
  rw [number?]
  exact fun rest h => hc (List.cons.inj h).1

/-- A whole number is read as it was. -/
theorem scalar_intText (n : Int) : scalar {} (intText n ++ t) = .ok (.int n, t) := by
  rcases intText_cases n with ⟨m, rfl, htext⟩ | ⟨m, rfl, htext⟩
  · obtain ⟨c, s, hs, hc⟩ := cons_toDigits m
    have hnamed : named? (Nat.toDigits 10 m ++ t) = none := by
      rw [hs]
      exact (named?_of_isDigit hc _).1
    have hnumber : number? {} (Nat.toDigits 10 m ++ t) = magnitude? {} false (Nat.toDigits 10 m ++ t) := by
      rw [hs]
      exact number?_of_ne (ne_of_isDigit hc rfl) _
    rw [htext, scalar, hnamed, hnumber, magnitude?_toDigits ht]
    rfl
  · obtain ⟨c, s, hs, hc⟩ := cons_toDigits m
    have hnamed : named? ('-' :: (Nat.toDigits 10 m ++ t)) = none := by
      rw [hs]
      exact (named?_of_isDigit hc _).2
    rw [htext, List.cons_append, scalar, hnamed, number?, magnitude?_toDigits ht]
    rfl

end Numbers

end Erd.Json
