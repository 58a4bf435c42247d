import Erd.Files.Path
import Erd.Text.Quoted

/-!
# A tree of files

The files and directories around a working directory, as far as reading, writing and making directories
go. Of what is not below the working directory only the directories above it are known to be there; a path
from the root leads nowhere.

**Results.**
* `lookup_put_self`, `lookup_put_of_ne`: what is put at a place is found there, and nothing else changes.
* `exists_place_of_write`: a file that was written holds what was written, and all other places are as before.
-/
namespace Erd.Files

/-- Why the system refuses an operation on a path. -/
inductive Fault where
  | notFound
  | exists
  | notDirectory
  | isDirectory
  | nameTooLong
  /-- Another fault, with the system's number and wording. -/
  | other (number : Nat) (text : String)
  deriving DecidableEq, Repr

/-- The number of a fault. -/
def Fault.number : Fault → Nat
  | .notFound => 2
  | .exists => 17
  | .notDirectory => 20
  | .isDirectory => 21
  | .nameTooLong => 36
  | .other number _ => number

/-- The wording of a fault. -/
def Fault.text : Fault → String
  | .notFound => "No such file or directory"
  | .exists => "File exists"
  | .notDirectory => "Not a directory"
  | .isDirectory => "Is a directory"
  | .nameTooLong => "File name too long"
  | .other _ text => text

/-- The fault with a number, worded by `text` if it is none of those that have a name. -/
def Fault.ofNumber (number : Nat) (text : String) : Fault :=
  match number with
  | 2 => .notFound
  | 17 => .exists
  | 20 => .notDirectory
  | 21 => .isDirectory
  | 36 => .nameTooLong
  | _ => .other number text

/-- A fault with the path that it is about. -/
structure SystemError where
  fault : Fault
  path : String
  deriving DecidableEq, Repr

/-- The wording of an error. -/
def SystemError.message (e : SystemError) : String :=
  "[Errno " ++ toString e.fault.number ++ "] " ++ e.fault.text ++ ": " ++ Text.quoted e.path

/-- What stands at a place. -/
inductive Entry where
  | file (bytes : List UInt8)
  | directory
  deriving DecidableEq, Repr

/-- A place: the names that lead to it from the working directory. Two points come first, if at all. -/
abbrev Place := List String

/-- The place is the working directory or above it. -/
def Place.isAbove (p : Place) : Bool := p.all (· == "..")

/-- The place is the working directory or below it. -/
def Place.isInside (p : Place) : Bool := p.head? != some ".."

/-- The place of the directory around a place. -/
def Place.outer (p : Place) : Place := if p.isAbove then p ++ [".."] else p.dropLast

/-- The entries around a working directory. -/
abbrev Tree := List (Place × Entry)

namespace Tree

/-- What stands at a place. The working directory and those above it are directories. -/
def lookup (t : Tree) (p : Place) : Option Entry :=
  if Place.isAbove p then some .directory else List.lookup p t

/-- An entry put at a place. -/
def put (p : Place) (e : Entry) : Tree → Tree
  | [] => [(p, e)]
  | (q, f) :: t => if q = p then (p, e) :: t else (q, f) :: put p e t

theorem lookup_put_self {p : Place} (hp : Place.isAbove p = false) (e : Entry) (t : Tree) :
    lookup (put p e t) p = some e := by
  rw [lookup, hp, if_neg Bool.false_ne_true]
  induction t with
  | nil => simp [put]
  | cons f t ih =>
    obtain ⟨q, f⟩ := f
    by_cases h : q = p
    · simp [put, h]
    · rw [put, if_neg h, List.lookup_cons, beq_false_of_ne (Ne.symm h)]
      exact ih

theorem lookup_put_of_ne {p q : Place} (hq : q ≠ p) (e : Entry) (t : Tree) :
    lookup (put p e t) q = lookup t q := by
  unfold lookup
  congr 1
  induction t with
  | nil => rw [put, List.lookup_cons, beq_false_of_ne hq]
  | cons f t ih =>
    obtain ⟨r, f⟩ := f
    by_cases h : r = p
    · simp [put, h, List.lookup_cons, beq_false_of_ne hq]
    · rw [put, if_neg h, List.lookup_cons, List.lookup_cons, ih]

/-- The directories on the way to a place and then the place itself, put where they are missing. -/
def putAll (names : List String) (e : Entry) (t : Tree) : Tree :=
  let ways := (List.range names.length).map fun i => names.take i
  let t := ways.foldl (fun t w => if (t.lookup w).isSome then t else t.put w .directory) t
  t.put names e

/-- The place of the directory that names lead to from a place. -/
def enter (t : Tree) (here : Place) : List String → Except Fault Place
  | [] => .ok here
  | n :: names =>
    if n = ".." then t.enter (Place.outer here) names
    else if 255 < n.utf8ByteSize then .error .nameTooLong
    else match t.lookup (here ++ [n]) with
      | some .directory => t.enter (here ++ [n]) names
      | some (.file _) => .error .notDirectory
      | none => .error .notFound

/-- The place that a path names, whether anything stands there or not. -/
def locate (t : Tree) (p : Path) : Except Fault Place :=
  if p.slashes ≠ 0 then (if p.names = [] then .ok [] else .error .notFound)
  else match p.names.getLast? with
    | none => .ok []
    | some ".." => t.enter [] p.names
    | some n =>
      match t.enter [] p.names.dropLast with
      | .error f => .error f
      | .ok here => if 255 < n.utf8ByteSize then .error .nameTooLong else .ok (here ++ [n])

/-- A directory stands at a path. -/
def isDirectory (t : Tree) (p : Path) : Bool :=
  match t.locate p with
  | .ok place => t.lookup place == some .directory
  | .error _ => false

/-- The bytes of the file at a path. -/
def read (t : Tree) (p : Path) : Except Fault (List UInt8) :=
  match t.locate p with
  | .error f => .error f
  | .ok place =>
    match t.lookup place with
    | some (.file bytes) => .ok bytes
    | some .directory => .error .isDirectory
    | none => .error .notFound

/-- The tree with a file changed: `change` gives its new bytes from the old ones, if there are any. -/
def modify (change : List UInt8 → List UInt8) (t : Tree) (p : Path) : Except Fault Tree :=
  match t.locate p with
  | .error f => .error f
  | .ok place =>
    match t.lookup place with
    | some .directory => .error .isDirectory
    | some (.file bytes) => .ok (t.put place (.file (change bytes)))
    | none => .ok (t.put place (.file (change [])))

/-- The tree with a file written. -/
def write (bytes : List UInt8) (t : Tree) (p : Path) : Except Fault Tree := t.modify (fun _ => bytes) p

/-- A file that was written holds what was written, and all other places are as before. -/
theorem exists_place_of_write {bytes : List UInt8} {t u : Tree} {p : Path} (h : t.write bytes p = .ok u) :
    ∃ place, t.locate p = .ok place ∧ u.lookup place = some (.file bytes) ∧
      ∀ q, q ≠ place → u.lookup q = t.lookup q := by
  rw [write, modify] at h
  cases hp : t.locate p with
  | error f => simp [hp] at h
  | ok place =>
    have hput (hplace : t.lookup place ≠ some .directory) :
        (t.put place (.file bytes)).lookup place = some (.file bytes) := by
      refine lookup_put_self (Bool.eq_false_iff.mpr fun habove => hplace ?_) _ t
      rw [lookup, habove, if_pos rfl]
    refine ⟨place, rfl, ?_⟩
    cases he : t.lookup place with
    | none =>
      simp only [hp, he, Except.ok.injEq] at h
      exact h ▸ ⟨hput (by simp [he]), fun q hq => lookup_put_of_ne hq _ t⟩
    | some e =>
      cases e with
      | directory => simp [hp, he] at h
      | file old =>
        simp only [hp, he, Except.ok.injEq] at h
        exact h ▸ ⟨hput (by simp [he]), fun q hq => lookup_put_of_ne hq _ t⟩

/-- The tree with bytes written at the end of a file. -/
def append (bytes : List UInt8) (t : Tree) (p : Path) : Except Fault Tree := t.modify (· ++ bytes) p

/-- The tree with a new directory, whose parent must be there. -/
def makeDirectory (t : Tree) (p : Path) : Except Fault Tree :=
  match t.locate p with
  | .error f => .error f
  | .ok place => if (t.lookup place).isSome then .error .exists else .ok (t.put place .directory)

/-- A fault of making a directory, unless the directory is there after all. -/
def unlessThere (t : Tree) (p : Path) (f : Fault) : Except SystemError Tree :=
  if t.isDirectory p then .ok t else .error ⟨f, p.toString⟩

/-- The tree with a directory and all those on the way to it. The count bounds the way. -/
def makeAll (t : Tree) (slashes : Nat) : Nat → List String → Except SystemError Tree
  | 0, names =>
    match t.makeDirectory ⟨slashes, names⟩ with
    | .ok t => .ok t
    | .error f => t.unlessThere ⟨slashes, names⟩ f
  | n + 1, names =>
    match t.makeDirectory ⟨slashes, names⟩ with
    | .ok t => .ok t
    | .error .notFound =>
      match t.makeAll slashes n names.dropLast with
      | .error e => .error e
      | .ok t =>
        match t.makeDirectory ⟨slashes, names⟩ with
        | .ok t => .ok t
        | .error .notFound => .error ⟨.notFound, (⟨slashes, names⟩ : Path).toString⟩
        | .error f => t.unlessThere ⟨slashes, names⟩ f
    | .error f => t.unlessThere ⟨slashes, names⟩ f

/-- The tree with the directory at a path and all those on the way to it. -/
def makeDirectories (t : Tree) (p : Path) : Except SystemError Tree :=
  t.makeAll p.slashes p.names.length p.names

end Tree

end Erd.Files
