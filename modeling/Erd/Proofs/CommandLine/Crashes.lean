import Erd.Proofs.CommandLine.Conversion

/-!
# Runs that end without a status

A command that the arguments ask for reports what it comes to with status zero, one or two. What it cannot report
is a path with a NUL in it, which the system is never asked about; an input whose bytes are those of no text; JSON
that runs into a limit; and a place that has too many digits to be written. Each ends the run without a status, and
nothing else does: whatever else the text of an input, reading it in its format, writing the diagram and writing the
file all come to a report. Of JSON with half a pair of units on its own nothing is said.

**Results.**
* `decode_eq_error_iff`: the bytes that are not decoded are those of no text.
* `Command.run_cases`: a run ends with a status, comes to what it cannot report, or reads bytes of no text.
* `Command.run_eq_error_iff`: what ends it without a status.
* `ends_with_status`: a run that comes to none of it ends with status zero, one or two.
* `not_ends_garbled`: a byte that no text has ends the validation of it.
-/
namespace Erd.CommandLine

/-! ## Bytes of no text -/

theorem encode_of_fromUTF8? {bytes : List UInt8} {text : String} (h : String.fromUTF8? ⟨bytes.toArray⟩ = some text) :
    bytes = encode text := by
  unfold String.fromUTF8? at h
  split at h
  · cases h
    rw [encode, ByteArray.toList, toList_loop]
    rfl
  · cases h

theorem decode_eq_error_iff {bytes : List UInt8} {crash : Crash} :
    decode bytes = .error crash ↔ crash = .undecodable ∧ ∀ text, bytes ≠ encode text := by
  constructor
  · intro h
    refine ⟨?_, ?_⟩
    · unfold decode at h
      split at h
      · cases h
      · cases h
        rfl
    · rintro text rfl
      rw [decode_encode] at h
      cases h
  · rintro ⟨rfl, hnone⟩
    unfold decode
    split
    · next text ht => exact absurd (encode_of_fromUTF8? ht) (hnone text)
    · rfl

/-- What is not decoded has bytes of no text, and what is decoded has those of one. -/
theorem exists_decode_iff {bytes : List UInt8} :
    (∃ text, decode bytes = .ok text) ↔ ∃ text, bytes = encode text := by
  constructor
  · rintro ⟨text, h⟩
    by_contra hnone
    rw [decode_eq_error_iff.mpr ⟨rfl, fun text ht => hnone ⟨text, ht⟩⟩] at h
    cases h
  · rintro ⟨text, rfl⟩
    exact ⟨_, decode_encode text⟩

/-! ## What a command comes to -/

/-- What the JSON of a text runs into, if that is what the command takes it for. -/
def Command.overrun? (room : Room) (text : String) : Command → Option Json.Overrun
  | .convert c => c.overrun? room text
  | .validate _ => Json.overrun? (room.limits 0) text

/-- How many calls the reader is away from the command. -/
def Command.calls : Command → Nat
  | .convert c => readerCalls c.source
  | .validate _ => 0

/-- A text that runs into a limit has more than the limit allows. -/
theorem Command.exceeds_of_overrun? {c : Command} {room : Room} {text : String} {x : Json.Overrun}
    (h : c.overrun? room text = some x) : Json.Exceeds (room.limits c.calls) text.toList x := by
  cases c with
  | convert c => exact InputFormat.exceeds_of_overrun? h
  | validate name => exact Json.exceeds_of_overrun? h

/-- What a validation comes to and cannot report. -/
inductive Validation.Stumbles (w : World) (name : String) : Crash → Prop where
  | input : ¬ isUsablePath name → Stumbles w name .unusablePath
  | overrun {bytes : List UInt8} {text : String} {x : Json.Overrun} : isUsablePath name → w.input name = .ok bytes →
      decode bytes = .ok text → Json.overrun? (w.room.limits 0) text = some x → x ≠ .halfPair →
      Stumbles w name (.overrun x)

/-- The command comes to what it cannot report: a path with a NUL in it, JSON that runs into a limit, or a number
that is too long to be written. -/
def Command.Stumbles (sheet : Outline.Sheet) (w : World) (crash : Crash) : Command → Prop
  | .convert c => c.Stumbles sheet w crash
  | .validate name => Validation.Stumbles w name crash

/-- The command reads its input, and the bytes of it are those of no text. A conversion to an unknown dialect
never comes to read. -/
structure Command.Garbled (w : World) (c : Command) : Prop where
  usable : isUsablePath c.input
  known : c.hasUnknownDialect = false
  bytes : ∃ bytes, w.input c.input = .ok bytes ∧ ∀ text, bytes ≠ encode text

theorem Command.garbled_iff {c : Command} {w : World} {bytes : List UInt8} (hpath : isUsablePath c.input)
    (hknown : c.hasUnknownDialect = false) (hin : w.input c.input = .ok bytes) :
    c.Garbled w ↔ ∀ text, bytes ≠ encode text := by
  constructor
  · rintro ⟨-, -, bytes', hbytes', hnone⟩
    obtain rfl : bytes' = bytes := Except.ok.inj (hbytes'.symm.trans hin)
    exact hnone
  · exact fun hnone => ⟨hpath, hknown, bytes, hin, hnone⟩

/-- An input that is not garbled is text, if the command comes to read it. -/
theorem Command.exists_decode {c : Command} {w : World} (h : ¬ c.Garbled w) (hpath : isUsablePath c.input)
    (hknown : c.hasUnknownDialect = false) {bytes : List UInt8} (hin : w.input c.input = .ok bytes) :
    ∃ text, decode bytes = .ok text := by
  refine exists_decode_iff.mpr ?_
  by_contra hnone
  exact h ((garbled_iff hpath hknown hin).mpr fun text ht => hnone ⟨text, ht⟩)

/-- No half pair of units on its own cuts the reading of the input short, if the command takes it for JSON. -/
def Command.IsPaired (w : World) (c : Command) : Prop :=
  ∀ bytes text, w.input c.input = .ok bytes → decode bytes = .ok text → c.overrun? w.room text ≠ some .halfPair

section Convert

variable {c : Conversion} {sheet : Outline.Sheet} {o : Sql.TableOptions} {w : World}

theorem exists_of_known (h : (Command.convert c).hasUnknownDialect = false) :
    ∃ k, Dialect.ofName? c.dialect = some k := by
  cases hk : Dialect.ofName? c.dialect with
  | some k => exact ⟨k, rfl⟩
  | none => simp [Command.hasUnknownDialect, hk] at h

/-- A run whose input is text, or is not come to, is settled check by check. -/
theorem outcome_of_not_garbled (hgrid : sheet.grid.columns ≠ 0) (hpaired : (Command.convert c).IsPaired w)
    (h : ¬ (Command.convert c).Garbled w) : c.Outcome sheet o w ((Command.convert c).run sheet o w) := by
  refine outcome_run hgrid fun k bytes hk hpath hbytes => ?_
  have hknown : (Command.convert c).hasUnknownDialect = false := by simp [Command.hasUnknownDialect, hk]
  obtain ⟨text, hdecode⟩ := Command.exists_decode h hpath hknown hbytes
  exact ⟨text, hdecode, hpaired bytes text hbytes hdecode⟩

/-- A conversion ends with a status, stumbles, or reads bytes of no text. -/
theorem run_convert_cases (o : Sql.TableOptions) (hgrid : sheet.grid.columns ≠ 0)
    (hpaired : (Command.convert c).IsPaired w) :
    (∃ report files, (Command.convert c).run sheet o w = .ok (report, files) ∧ report.status ∈ [0, 1, 2]) ∨
      (∃ crash, c.Stumbles sheet w crash) ∨ (Command.convert c).Garbled w := by
  by_cases hgarbled : (Command.convert c).Garbled w
  · exact .inr (.inr hgarbled)
  have houtcome := outcome_of_not_garbled (o := o) hgrid hpaired hgarbled
  cases hrun : (Command.convert c).run sheet o w with
  | error crash => exact .inr (.inl ⟨crash, (run_eq_error_iff_stumbles houtcome crash).mp hrun⟩)
  | ok result =>
    rw [hrun] at houtcome
    have hreported := reported_of_outcome houtcome
    refine .inl ⟨result.1, result.2, rfl, ?_⟩
    by_cases hzero : result.1.status = 0
    · simp [hzero]
    by_cases htwo : result.1.status = 2
    · simp [htwo]
    · simp [hreported.otherwise hzero htwo]

end Convert

section Validate

variable {name : String} {w : World}

theorem Verdict.status_mem (v : Verdict) : v.status ∈ [0, 1, 2] := by
  cases v <;> simp [Verdict.status, fileFailure, invalidInput]

/-- So does a validation. -/
theorem run_validate_cases (sheet : Outline.Sheet) (o : Sql.TableOptions)
    (hpaired : (Command.validate name).IsPaired w) :
    (∃ report files, (Command.validate name).run sheet o w = .ok (report, files) ∧ report.status ∈ [0, 1, 2]) ∨
      (∃ crash, Validation.Stumbles w name crash) ∨ (Command.validate name).Garbled w := by
  by_cases hpath : isUsablePath name
  · cases hin : w.input name with
    | error e =>
      refine .inl ⟨unreadable name e, w.files, ?_, by simp [unreadable, Report.failed, fileFailure]⟩
      rw [Command.run, Command.input, hpath, if_neg (by simp), hin]
      rfl
    | ok bytes =>
      by_cases hgarbled : (Command.validate name).Garbled w
      · exact .inr (.inr hgarbled)
      obtain ⟨text, hdecode⟩ := Command.exists_decode hgarbled hpath rfl hin
      cases hover : Json.overrun? (w.room.limits 0) text with
      | some x =>
        have hx : x ≠ .halfPair := fun hx => hpaired bytes text hin hdecode (hx ▸ hover)
        exact .inr (.inl ⟨_, .overrun hpath hin hdecode hover hx⟩)
      | none =>
        refine .inl ⟨validation name text, w.files, ?_, ?_⟩
        · rw [run_validate_text sheet o w hpath hin hdecode, validationPlan, hover]
          rfl
        · rw [validation_eq, status_validationReport]
          exact (verdictOn text).status_mem
  · exact .inr (.inl ⟨_, .input hpath⟩)

end Validate

/-! ## Both commands -/

namespace Command

variable {sheet : Outline.Sheet} {o : Sql.TableOptions} {w : World} {c : Command}

theorem run_cases (o : Sql.TableOptions) (hgrid : sheet.grid.columns ≠ 0) (hpaired : c.IsPaired w) :
    (∃ report files, c.run sheet o w = .ok (report, files) ∧ report.status ∈ [0, 1, 2]) ∨
      (∃ crash, c.Stumbles sheet w crash) ∨ c.Garbled w := by
  cases c with
  | convert c => exact run_convert_cases o hgrid hpaired
  | validate name => exact run_validate_cases sheet o hpaired

/-- A run that comes to what it cannot report ends there. -/
theorem run_of_stumbles {crash : Crash} (h : c.Stumbles sheet w crash) : c.run sheet o w = .error crash := by
  cases c with
  | convert c => exact CommandLine.run_of_stumbles h
  | validate name =>
    cases h with
    | input hpath =>
      rw [run, if_pos]
      simpa [input, hasUnknownDialect] using hpath
    | overrun hpath hin hdecode hover _ => exact run_validate_of_overrun? sheet o w name hpath hin hdecode hover

/-- A run that reads bytes of no text ends there. -/
theorem run_of_garbled (h : c.Garbled w) : c.run sheet o w = .error .undecodable := by
  obtain ⟨bytes, hbytes, hnone⟩ := h.bytes
  have hdecode : decode bytes = .error .undecodable := decode_eq_error_iff.mpr ⟨rfl, hnone⟩
  have hplan : c.plan w.room sheet o (.ok bytes) = .error .undecodable := by
    cases c with
    | convert c =>
      obtain ⟨k, hk⟩ := exists_of_known h.known
      simp only [plan, Conversion.planInput, Dialect.named, hk, hdecode]
      rfl
    | validate name =>
      rw [plan, hdecode]
      rfl
  rw [run, h.usable, if_neg (by simp), hbytes, hplan]
  rfl

theorem run_eq_error_iff (hgrid : sheet.grid.columns ≠ 0) (hpaired : c.IsPaired w) (crash : Crash) :
    c.run sheet o w = .error crash ↔ c.Stumbles sheet w crash ∨ crash = .undecodable ∧ c.Garbled w := by
  constructor
  · intro h
    rcases run_cases o hgrid hpaired with ⟨report, files, hrun, -⟩ | ⟨crash', hstumbles⟩ | hgarbled
    · cases h.symm.trans hrun
    · cases h.symm.trans (run_of_stumbles hstumbles)
      exact .inl hstumbles
    · cases h.symm.trans (run_of_garbled hgarbled)
      exact .inr ⟨rfl, hgarbled⟩
  · rintro (hstumbles | ⟨rfl, hgarbled⟩)
    · exact run_of_stumbles hstumbles
    · exact run_of_garbled hgarbled

end Command

/-- A command names an unknown dialect only if the settings do. -/
theorem known_of_ofArguments {settings : Settings} {args : List String} {c : Command}
    (hargs : Command.ofArguments settings args = .ok c) (hdialect : (Dialect.ofName? settings.dialect).isSome) :
    c.hasUnknownDialect = false := by
  cases c with
  | validate name => rfl
  | convert c =>
    rw [Command.hasUnknownDialect]
    rcases dialect_of_ofArguments hargs with ⟨k, hk⟩ | hk
    · rw [hk, Dialect.ofName?_name]
      rfl
    · rw [hk]
      simpa using hdialect

/-- Any run of either command that the arguments ask for, whatever the files and the standard input hold but JSON
that is cut short by half a pair of units on its own. It ends without a status exactly if it comes to a path with a
NUL in it, reads bytes that are those of no text, takes its input for JSON that runs into a limit, which then has
more digits or more nesting than the limit allows, or has a number to write that is too long. With settings that name
a known dialect, as they do by default, every command that can use the path of its input comes to read it. In all
other cases it ends with status zero, one or two. -/
theorem ends_with_status {settings : Settings} (hgrid : settings.grid.columns ≠ 0) {args : List String} {c : Command}
    (hargs : Command.ofArguments settings args = .ok c) (idPrefix : String) (w : World) (hpaired : c.IsPaired w) :
    ((Dialect.ofName? settings.dialect).isSome → c.hasUnknownDialect = false) ∧
    (∀ text x, c.overrun? w.room text = some x → Json.Exceeds (w.room.limits c.calls) text.toList x) ∧
    (∀ crash, c.run ⟨settings.grid, idPrefix⟩ settings.tableOptions w = .error crash ↔
      c.Stumbles ⟨settings.grid, idPrefix⟩ w crash ∨ crash = .undecodable ∧ c.Garbled w) ∧
    ((∀ crash, ¬ c.Stumbles ⟨settings.grid, idPrefix⟩ w crash) → ¬ c.Garbled w → ∃ report files,
      c.run ⟨settings.grid, idPrefix⟩ settings.tableOptions w = .ok (report, files) ∧ report.status ∈ [0, 1, 2]) := by
  have hsheet : (⟨settings.grid, idPrefix⟩ : Outline.Sheet).grid.columns ≠ 0 := hgrid
  refine ⟨known_of_ofArguments hargs, fun _ _ => Command.exceeds_of_overrun?, Command.run_eq_error_iff hsheet hpaired,
    fun hfree htext => ?_⟩
  rcases Command.run_cases settings.tableOptions hsheet hpaired with h | ⟨crash, h⟩ | h
  · exact h
  · exact absurd h (hfree crash)
  · exact absurd h htext

/-- A byte that no text has. -/
def strayByte : List UInt8 := [255]

theorem strayByte_ne_encode (text : String) : strayByte ≠ encode text := by
  have hnone : String.fromUTF8? ⟨strayByte.toArray⟩ = none := by decide +kernel
  have hdecode : decode strayByte = .error .undecodable := by rw [decode, hnone]
  exact (decode_eq_error_iff.mp hdecode).2 text

/-- Bytes of no text hold no JSON. -/
theorem isPaired_strayByte {c : Command} {w : World} (hin : w.input c.input = .ok strayByte) : c.IsPaired w := by
  intro bytes text hbytes hdecode
  cases hin.symm.trans hbytes
  obtain ⟨text', ht⟩ := exists_decode_iff.mp ⟨text, hdecode⟩
  exact absurd ht (strayByte_ne_encode text')

theorem isPaired_of_text {c : Command} {w : World} {bytes : List UInt8} {text : String}
    (hin : w.input c.input = .ok bytes) (hdecode : decode bytes = .ok text)
    (h : c.overrun? w.room text ≠ some .halfPair) : c.IsPaired w := by
  intro bytes' text' hin' hdecode'
  cases hin.symm.trans hin'
  cases hdecode.symm.trans hdecode'
  exact h

/-- The standard input is validated by default settings: the stray byte ends the run, as does a number of too many
digits, and a diagram document comes to a status. -/
theorem ends_with_status_stdin :
    Settings.ofEnvironment [] = .ok {} ∧ ({} : Settings).grid.columns ≠ 0 ∧
      Command.ofArguments {} ["validate", "-"] = .ok (.validate "-") ∧
      (∀ bytes ∈ [strayByte, encode (longNumber 5000), encode loneText],
        (Command.validate "-").IsPaired { stdin := bytes }) ∧
      (Command.validate "-").run {} {} { stdin := strayByte } = .error .undecodable ∧
      (Command.validate "-").run {} {} { stdin := encode (longNumber 5000) } = .error (.overrun (.digits 5000)) ∧
      ∃ report files, (Command.validate "-").run {} {} { stdin := encode loneText } = .ok (report, files) ∧
        report.status ∈ [0, 1, 2] := by
  have hgrid : ({} : Settings).grid.columns ≠ 0 := by decide
  have hargs : Command.ofArguments {} ["validate", "-"] = .ok (.validate "-") := ofArguments_validate (by decide) {}
  have husable : isUsablePath "-" := by decide
  have hlong : Json.overrun? (({} : Room).limits 0) (longNumber 5000) = some (.digits 5000) :=
    overrun?_longNumber rfl (by decide)
  have hlone : Json.overrun? (({} : Room).limits 0) loneText = none :=
    Json.overrun?_of_wider (({} : Room).wider_limits (Nat.zero_le 1)) overrun?_loneText
  have hstrayPaired : (Command.validate "-").IsPaired { stdin := strayByte } := isPaired_strayByte rfl
  have hlongPaired : (Command.validate "-").IsPaired { stdin := encode (longNumber 5000) } :=
    isPaired_of_text rfl decode_longNumber (by
      show Json.overrun? (({} : Room).limits 0) (longNumber 5000) ≠ _
      simp [hlong])
  have hlonePaired : (Command.validate "-").IsPaired { stdin := encode loneText } :=
    isPaired_of_text rfl decode_loneText (by
      show Json.overrun? (({} : Room).limits 0) loneText ≠ _
      simp [hlone])
  refine ⟨rfl, hgrid, hargs, by simp [hstrayPaired, hlongPaired, hlonePaired], ?_, ?_, ?_⟩
  · obtain ⟨-, -, hcrash, -⟩ := ends_with_status hgrid hargs "" _ hstrayPaired
    exact (hcrash _).mpr (.inr ⟨rfl, husable, rfl, strayByte, rfl, strayByte_ne_encode⟩)
  · obtain ⟨-, -, hcrash, -⟩ := ends_with_status hgrid hargs "" _ hlongPaired
    exact (hcrash _).mpr (.inl (.overrun husable rfl decode_longNumber hlong (by decide)))
  · obtain ⟨-, -, -, hstatus⟩ := ends_with_status hgrid hargs "" _ hlonePaired
    refine hstatus (fun crash hstumbles => ?_) fun hgarbled => ?_
    · cases hstumbles with
      | input hpath => exact hpath husable
      | overrun hpath hin hdecode hover _ =>
        cases hin
        cases decode_loneText.symm.trans hdecode
        cases hlone.symm.trans hover
    · exact (Command.garbled_iff (c := .validate "-") husable rfl rfl).mp hgarbled loneText rfl

/-- Not every run ends with a status: the validation of a file that holds the stray byte does not, though the file
is there and can be read. -/
theorem not_ends_garbled :
    ¬ ∀ (args : List String) (c : Command) (w : World), Command.ofArguments {} args = .ok c →
      ∃ report files, c.run {} {} w = .ok (report, files) ∧ report.status ∈ [0, 1, 2] := by
  intro h
  obtain ⟨report, files, hrun, -⟩ := h ["validate", "a"] (.validate "a") { files := [(["a"], .file strayByte)] }
    (ofArguments_validate (by decide) {})
  have hcrash : (Command.validate "a").run {} {} { files := [(["a"], .file strayByte)] } = .error .undecodable :=
    Command.run_of_garbled ⟨by decide, rfl, strayByte, rfl, strayByte_ne_encode⟩
  cases hrun.symm.trans hcrash

end Erd.CommandLine
