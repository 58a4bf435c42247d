import Erd.Number.Binary64

/-!
# JSON values

Whole numbers keep every digit and are told apart from numbers with a fraction or an exponent. The fields
of an object keep the order in which their keys first came.

**Results.**
* `get?_put_self`, `get?_put_of_ne`: a put field is found under its key and disturbs no other.
-/
namespace Erd

/-- A JSON value. -/
inductive Json where
  | null
  | bool (b : Bool)
  | int (n : Int)
  | float (x : Binary64)
  | str (s : String)
  | arr (items : List Json)
  | obj (fields : List (String × Json))
  deriving Inhabited

namespace Json

/-- The fields of an object with one more: a key that is there already keeps its place. -/
def put (key : String) (value : Json) : List (String × Json) → List (String × Json)
  | [] => [(key, value)]
  | (k, v) :: fields => if k = key then (k, value) :: fields else (k, v) :: put key value fields

/-- The value under a key. -/
def get? (key : String) : List (String × Json) → Option Json
  | [] => none
  | (k, v) :: fields => if k = key then some v else get? key fields

theorem get?_put_self (key : String) (v : Json) (fields : List (String × Json)) :
    get? key (put key v fields) = some v := by
  induction fields with
  | nil => simp [put, get?]
  | cons f fields ih =>
    rw [put]
    split
    · next h => simp [get?, h]
    · next h => simp [get?, h, ih]

theorem get?_put_of_ne {key other : String} (h : other ≠ key) (v : Json)
    (fields : List (String × Json)) : get? other (put key v fields) = get? other fields := by
  induction fields with
  | nil => simp [put, get?, h.symm]
  | cons f fields ih =>
    rw [put]
    split
    · next hk => simp [get?, hk, h.symm]
    · simp [get?, ih]

/-- Fields written one after another: a key that comes again replaces the value at its first place. -/
def ofMembers (members : List (String × Json)) : List (String × Json) :=
  members.foldl (fun fields m => put m.1 m.2 fields) []

/-- Everything counts as true but null, false, zero, and what is empty. -/
def isTruthy : Json → Bool
  | .null => false
  | .bool b => b
  | .int n => n ≠ 0
  | .float x => !x.isZero
  | .str s => s ≠ ""
  | .arr items => !items.isEmpty
  | .obj fields => !fields.isEmpty

end Json

end Erd
