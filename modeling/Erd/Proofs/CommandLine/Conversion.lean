import Erd.Proofs.CommandLine.Choices
import Erd.Proofs.CommandLine.Verdict
import Erd.Proofs.Outline

/-!
# A conversion succeeds or leaves nothing behind

A conversion looks at its dialect, its input, the text that it holds, the complaints about the text and the file
to be written, in this order, and stops at the first that fails. Nothing is shown or written before the last of
them, so that a conversion that fails leaves no trace but its message; one that succeeds leaves the text of the
diagram in one place, also where complaints were let pass and the diagram is only a part of what was meant.

Some things are no faults of the input. A path with a NUL in it is none that the system reports; JSON may have more
digits or more nesting than there is room for, and a place in the grid more digits than can be written. Nothing
prepares for these, and they end the run without a status.

**Results.**
* `InputFormat.exists_read_iff`: the texts that each format accepts.
* `outcome_run`: what a run comes to, check by check.
* `run_eq_error_iff_stumbles`: what ends it without a status.
* `conversion_clean`: the status of a run and all that it leaves behind.
* `not_conversion_reported`: a conversion that has no status.
-/
namespace Erd

/-! ## Texts of a format -/

/-- A format accepts a text. All texts are accepted but those that should be documents of diagrams, and are no
JSON or not valid. -/
def InputFormat.Accepts (f : InputFormat) (text : String) : Prop :=
  f = .document → ∃ v, Json.read text = .ok v ∧ Diagram.firstViolation? v = none

theorem Diagram.exists_read_iff {text : String} :
    (∃ d, Diagram.read text = .ok d) ↔ ∃ v, Json.read text = .ok v ∧ firstViolation? v = none := by
  unfold Diagram.read
  cases Json.read text with
  | error e => simp
  | ok v => cases hv : load v <;> simp [firstViolation?_eq_none_iff, hv, Except.mapError]

/-- A format reads the texts that it accepts. -/
theorem InputFormat.exists_read_iff {sheet : Outline.Sheet} (hgrid : sheet.grid.columns ≠ 0) (k : Dialect)
    (text : String) (f : InputFormat) : (∃ r, f.read sheet k text = .ok r) ↔ f.Accepts text := by
  have hdraft (d : Draft) : ∃ r, (d.reading sheet).mapError ImportError.noGrid = .ok r :=
    ⟨_, by rw [Draft.reading_eq hgrid]; rfl⟩
  cases f with
  | sql => exact ⟨fun _ h => (by cases h), fun _ => hdraft _⟩
  | dbml => exact ⟨fun _ h => (by cases h), fun _ => hdraft _⟩
  | jsonSchema => exact ⟨fun _ h => (by cases h), fun _ => hdraft _⟩
  | document =>
    have hread : InputFormat.document.read sheet k text = (Diagram.read text).map fun d => ⟨d, []⟩ := rfl
    simp only [hread, Except.map_eq_ok, Accepts, forall_const, ← Diagram.exists_read_iff]
    exact ⟨fun ⟨_, d, hd, _⟩ => ⟨d, hd⟩, fun ⟨d, hd⟩ => ⟨_, d, hd, rfl⟩⟩

theorem Diagram.read_ne_noGrid (text : String) (e : GridError) : Diagram.read text ≠ .error (.noGrid e) := by
  unfold Diagram.read
  cases Json.read text with
  | error e' => simp
  | ok v => cases hv : load v <;> simp [hv, Except.mapError]

/-- With a grid, reading does not fail for want of one. -/
theorem InputFormat.read_ne_noGrid {sheet : Outline.Sheet} (hgrid : sheet.grid.columns ≠ 0) (k : Dialect)
    (text : String) (f : InputFormat) (e : GridError) : f.read sheet k text ≠ .error (.noGrid e) := by
  by_cases hf : f = .document
  · subst hf
    have hread : InputFormat.document.read sheet k text = (Diagram.read text).map fun d => ⟨d, []⟩ := rfl
    rw [hread]
    cases hd : Diagram.read text with
    | ok d => simp [Except.map]
    | error e' =>
      rintro h
      cases h
      exact Diagram.read_ne_noGrid text e hd
  · obtain ⟨r, hr⟩ := (f.exists_read_iff hgrid k text).mpr fun h => absurd h hf
    simp [hr]

/-- A text that runs into a limit has more than the limit allows, whatever its format. -/
theorem InputFormat.exceeds_of_overrun? {f : InputFormat} {l : Json.Limits} {text : String} {x : Json.Overrun}
    (h : f.overrun? l text = some x) : Json.Exceeds l text.toList x := by
  cases f with
  | sql => cases h
  | dbml => cases h
  | jsonSchema => exact JsonSchema.exceeds_of_overrun? h
  | document => exact Json.exceeds_of_overrun? h

namespace CommandLine

/-! ## The checks -/

namespace Conversion

variable (c : Conversion) (sheet : Outline.Sheet) (o : Sql.TableOptions) (w : World)

/-- The text that a conversion leaves behind. -/
def text (k : Dialect) (r : Reading) : String := c.target.write o k r.diagram ++ "\n"

/-- What the JSON of a text runs into, if that is what the conversion takes it for. -/
def overrun? (room : Room) (text : String) : Option Json.Overrun :=
  c.source.overrun? (room.limits (readerCalls c.source)) text

/-- The conversion comes to read a text: the dialect is known, and the input is there and holds it. -/
structure Holds (k : Dialect) (text : String) : Prop where
  known : Dialect.ofName? c.dialect = some k
  usable : isUsablePath c.input
  input : ∃ bytes, w.input c.input = .ok bytes ∧ decode bytes = .ok text

/-- The text has room and is read in its format, and if there are complaints about it they do not matter. -/
structure Reads (k : Dialect) (r : Reading) : Prop where
  held : ∃ text, c.Holds w k text ∧ c.overrun? w.room text = none ∧ c.source.read sheet k text = .ok r
  settled : c.isStrict → r.diagnostics = []

/-- All is well up to the writing. -/
structure Ready (k : Dialect) (r : Reading) : Prop extends c.Reads sheet w k r where
  writable : c.target.canWrite w.room.digits r.diagram = true

/-- The dialect is known, and the input cannot be read. -/
def LacksInput (e : Files.SystemError) : Prop :=
  (∃ k, Dialect.ofName? c.dialect = some k) ∧ w.input c.input = .error e

/-- What the conversion comes to and cannot report: a path with a NUL in it, JSON that runs into a limit, be it to
digits or to nesting, and a number that is too long to be written. -/
inductive Stumbles : Crash → Prop where
  | input {k : Dialect} : Dialect.ofName? c.dialect = some k → ¬ isUsablePath c.input → Stumbles .unusablePath
  | overrun {k : Dialect} {text : String} {x : Json.Overrun} : c.Holds w k text → c.overrun? w.room text = some x →
      x ≠ .halfPair → Stumbles (.overrun x)
  | unwritable {k : Dialect} {r : Reading} : c.Reads sheet w k r → c.target.canWrite w.room.digits r.diagram = false →
      Stumbles .unwritable
  | output {k : Dialect} {r : Reading} {path : String} : c.Ready sheet w k r → c.output = some path →
      ¬ isUsablePath path → Stumbles .unusablePath

/-- All is well, and the file can be written if there is one. -/
def Completes : Prop :=
  ∃ k r, c.Ready sheet w k r ∧ ∀ path, c.output = some path → ∃ files, w.write path (c.text o k r) = .ok files

/-- A file cannot be read or written, and all that comes before is well. -/
def LacksFile : Prop :=
  (∃ e, c.LacksInput w e) ∨
    ∃ k r path e, c.Ready sheet w k r ∧ c.output = some path ∧ w.write path (c.text o k r) = .error e

/-- A text is left at one place and nothing anywhere else. -/
def Leaves (text : String) (report : Report) (files : Files.Tree) : Prop :=
  match c.output with
  | none => report.output = text ∧ files = w.files
  | some path =>
    report.output = "" ∧ ∃ place, w.files.locate (.ofString path) = .ok place ∧
      files.lookup place = some (.file (encode text)) ∧ ∀ q, q ≠ place → files.lookup q = w.files.lookup q

/-- What a report tells and what it leaves behind. -/
structure Reported (report : Report) (files : Files.Tree) : Prop where
  completes_iff : report.status = 0 ↔ c.Completes sheet o w
  lacksFile_iff : report.status = 2 ↔ c.LacksFile sheet o w
  otherwise : report.status ≠ 0 → report.status ≠ 2 → report.status = 1
  /-- A run that fails shows no output and changes no file. -/
  traceless : report.status ≠ 0 → report.output = "" ∧ files = w.files
  /-- A run that completes leaves the text of the diagram, and says nothing else. -/
  leaves : report.status = 0 → report.complaint = "" ∧
    ∃ k r, c.Ready sheet w k r ∧ c.Leaves w (c.text o k r) report files

/-- What a run comes to, by the first check that fails. -/
inductive Outcome : Except Crash (Report × Files.Tree) → Prop where
  | unknown {message : String} : Dialect.ofName? c.dialect = none →
      Outcome (.ok (.failed invalidInput message [], w.files))
  | unreadable {e : Files.SystemError} : c.LacksInput w e →
      Outcome (.ok (CommandLine.unreadable c.input e, w.files))
  | refused {k : Dialect} {text message : String} : c.Holds w k text → (∀ r, c.source.read sheet k text ≠ .ok r) →
      Outcome (.ok (.failed invalidInput message [], w.files))
  | diagnosed {k : Dialect} {text message : String} {r : Reading} {events : List Event} : c.Holds w k text →
      c.source.read sheet k text = .ok r → c.isStrict → r.diagnostics ≠ [] →
      Outcome (.ok (.failed invalidInput message events, w.files))
  | shown {k : Dialect} {r : Reading} {events : List Event} : c.Ready sheet w k r → c.output = none →
      Outcome (.ok ({ output := c.text o k r, events := events }, w.files))
  | written {k : Dialect} {r : Reading} {path : String} {files : Files.Tree} {events : List Event} :
      c.Ready sheet w k r → c.output = some path → w.write path (c.text o k r) = .ok files →
      Outcome (.ok ({ events := events }, files))
  | unwritten {k : Dialect} {r : Reading} {path message : String} {e : Files.SystemError} {events : List Event} :
      c.Ready sheet w k r → c.output = some path → w.write path (c.text o k r) = .error e →
      Outcome (.ok (.failed fileFailure message events, w.files))
  | crashed {crash : Crash} : c.Stumbles sheet w crash → Outcome (.error crash)

end Conversion

/-! ## The run -/

section Run

variable {c : Conversion} {sheet : Outline.Sheet} {o : Sql.TableOptions} {w : World} {k : Dialect} {r : Reading}
  {text : String}

theorem run_of_holds (h : c.Holds w k text) :
    (Command.convert c).run sheet o w = (c.planText w.room sheet o k text).bind (Plan.run w) := by
  obtain ⟨bytes, hin, hdecode⟩ := h.input
  exact run_convert_text sheet o w h.known h.usable hin hdecode

/-- An input that cannot be named is not come to read. -/
theorem run_of_not_usable (hknown : Dialect.ofName? c.dialect = some k) (h : ¬ isUsablePath c.input) :
    (Command.convert c).run sheet o w = .error .unusablePath := by
  rw [Command.run, if_pos]
  simpa [Command.input, Command.hasUnknownDialect, hknown] using h

theorem planText_of_overrun? {x : Json.Overrun} (h : c.overrun? w.room text = some x) :
    c.planText w.room sheet o k text = .error (.overrun x) := by
  have hover : c.source.overrun? (w.room.limits (readerCalls c.source)) text = some x := h
  rw [Conversion.planText, hover]

/-- What is read without a complaint that matters is written, if its numbers can be. -/
theorem planText_of_read (hroom : c.overrun? w.room text = none) (hread : c.source.read sheet k text = .ok r)
    (hsettled : c.isStrict → r.diagnostics = []) :
    ∃ events, c.planText w.room sheet o k text =
      if c.target.canWrite w.room.digits r.diagram then .ok (c.plan (c.target.write o k r.diagram) events)
      else .error .unwritable := by
  have hover : c.source.overrun? (w.room.limits (readerCalls c.source)) text = none := hroom
  have hgo : (!r.isClean && c.isStrict) = false := by
    cases hstrict : c.isStrict with
    | false => exact Bool.and_false _
    | true => simp [Reading.isClean, hsettled hstrict]
  simp only [Conversion.planText, hover, hread, Conversion.planReading, hgo, Bool.false_eq_true, if_false]
  cases c.target.canWrite w.room.digits r.diagram with
  | false => exact ⟨[], rfl⟩
  | true => exact ⟨_, rfl⟩

/-- The last check: where the text goes. -/
theorem outcome_plan (h : c.Ready sheet w k r) (events : List Event) :
    c.Outcome sheet o w ((c.plan (c.target.write o k r.diagram) events).run w) := by
  unfold Conversion.plan
  cases houtput : c.output with
  | none => exact .shown h houtput
  | some path =>
    simp only [Plan.run]
    split_ifs with husable
    · exact .crashed (.output h houtput (by simpa using husable))
    · cases hwrite : w.write path (c.target.write o k r.diagram ++ "\n") with
      | ok files => exact .written h houtput hwrite
      | error e => exact .unwritten h houtput hwrite

/-- What comes of a text, check by check. -/
theorem outcome_planText (hgrid : sheet.grid.columns ≠ 0) (h : c.Holds w k text)
    (hpaired : c.overrun? w.room text ≠ some .halfPair) :
    c.Outcome sheet o w ((c.planText w.room sheet o k text).bind (Plan.run w)) := by
  cases hroom : c.overrun? w.room text with
  | some x =>
    rw [planText_of_overrun? hroom]
    exact .crashed (.overrun h hroom fun hx => hpaired (hx ▸ hroom))
  | none =>
    have hover : c.source.overrun? (w.room.limits (readerCalls c.source)) text = none := hroom
    cases hread : c.source.read sheet k text with
    | error e =>
      have hnone : ∀ r, c.source.read sheet k text ≠ .ok r := fun r hr => by simp [hread] at hr
      simp only [Conversion.planText, hover, hread]
      cases e with
      | json e => exact .refused h hnone
      | invalid v => exact .refused h hnone
      | noGrid e => exact absurd hread (InputFormat.read_ne_noGrid hgrid k text _ e)
    | ok r =>
      by_cases hstop : c.isStrict ∧ r.diagnostics ≠ []
      · have hstops : (!r.isClean && c.isStrict) = true := by simpa [Reading.isClean, and_comm] using hstop
        simp only [Conversion.planText, hover, hread, Conversion.planReading, hstops, if_true]
        exact .diagnosed h hread hstop.1 hstop.2
      · have hsettled : c.isStrict → r.diagnostics = [] := by simpa using hstop
        have hreads : c.Reads sheet w k r := ⟨⟨text, h, hroom, hread⟩, hsettled⟩
        obtain ⟨events, hplan⟩ := planText_of_read (o := o) hroom hread hsettled
        rw [hplan]
        split_ifs with hwrite
        · exact outcome_plan ⟨hreads, hwrite⟩ events
        · exact .crashed (.unwritable hreads (by simpa using hwrite))

/-- What a run comes to, check by check, if all that it comes to read is UTF-8 with whole pairs. -/
theorem outcome_run (hgrid : sheet.grid.columns ≠ 0)
    (htext : ∀ k bytes, Dialect.ofName? c.dialect = some k → isUsablePath c.input → w.input c.input = .ok bytes →
      ∃ text, decode bytes = .ok text ∧ c.overrun? w.room text ≠ some .halfPair) :
    c.Outcome sheet o w ((Command.convert c).run sheet o w) := by
  cases hknown : Dialect.ofName? c.dialect with
  | none =>
    simp only [Command.run, Command.hasUnknownDialect, hknown, Option.isNone_none, Bool.not_true, Bool.and_false,
      Bool.false_eq_true, if_false, Command.plan, Conversion.planInput, Dialect.named]
    exact .unknown hknown
  | some k =>
    by_cases hpath : isUsablePath c.input
    · cases hinput : w.input c.input with
      | error e =>
        simp only [Command.run, Command.input, hpath, Bool.not_true, Bool.false_and, Bool.false_eq_true, if_false,
          Command.plan, Conversion.planInput, Dialect.named, hknown, hinput]
        exact .unreadable ⟨⟨k, hknown⟩, hinput⟩
      | ok bytes =>
        obtain ⟨text, hdecode, hpaired⟩ := htext k bytes hknown hpath hinput
        have hholds : c.Holds w k text := ⟨hknown, hpath, bytes, hinput, hdecode⟩
        rw [run_of_holds hholds]
        exact outcome_planText hgrid hholds hpaired
    · rw [run_of_not_usable hknown hpath]
      exact .crashed (.input hknown hpath)

end Run

/-! ## What is left behind -/

section Result

variable {c : Conversion} {sheet : Outline.Sheet} {o : Sql.TableOptions} {w : World} {k : Dialect} {r : Reading}

/-- At most one text is read. -/
theorem Conversion.Holds.unique {k' : Dialect} {text text' : String} (h : c.Holds w k text)
    (h' : c.Holds w k' text') : k' = k ∧ text' = text := by
  obtain ⟨bytes, hin, hdecode⟩ := h.input
  obtain ⟨bytes', hin', hdecode'⟩ := h'.input
  obtain rfl := Except.ok.inj (hin'.symm.trans hin)
  exact ⟨Option.some.inj (h'.known.symm.trans h.known), Except.ok.inj (hdecode'.symm.trans hdecode)⟩

/-- What is read is read of the text that the input holds. -/
theorem Conversion.Reads.of_holds {k' : Dialect} {text : String} (h : c.Reads sheet w k' r)
    (hheld : c.Holds w k text) :
    k' = k ∧ c.overrun? w.room text = none ∧ c.source.read sheet k text = .ok r := by
  obtain ⟨text', hheld', hroom, hread⟩ := h.held
  obtain ⟨rfl, rfl⟩ := hheld.unique hheld'
  exact ⟨rfl, hroom, hread⟩

/-- At most one reading is ready. -/
theorem Conversion.Reads.unique {k' : Dialect} {r' : Reading} (h : c.Reads sheet w k r)
    (h' : c.Reads sheet w k' r') : k' = k ∧ r' = r := by
  obtain ⟨text, hheld, -, hread⟩ := h.held
  obtain ⟨rfl, -, hread'⟩ := h'.of_holds hheld
  exact ⟨rfl, Except.ok.inj (hread'.symm.trans hread)⟩

theorem leaves_none {text : String} {events : List Event} (houtput : c.output = none) :
    c.Leaves w text { output := text, events := events } w.files := by
  simp [Conversion.Leaves, houtput]

theorem leaves_some {text path : String} {events : List Event} {files : Files.Tree}
    (houtput : c.output = some path) (hwrite : w.write path text = .ok files) :
    c.Leaves w text { events := events } files := by
  have hfile : w.files.write (encode text) (.ofString path) = .ok files := by
    unfold World.write at hwrite
    cases hf : w.files.write (encode text) (.ofString path) with
    | error f => simp [hf, Except.mapError] at hwrite
    | ok t => simpa [hf, Except.mapError] using hwrite
  obtain ⟨place, hplace, hlookup, hother⟩ := Files.Tree.exists_place_of_write hfile
  rw [Conversion.Leaves, houtput]
  exact ⟨rfl, place, hplace, hlookup, hother⟩

/-! Where nothing is ready, only the input matters; where something is, only the output does. -/

theorem not_ready_of_unknown (h : Dialect.ofName? c.dialect = none) : ¬ ∃ k r, c.Ready sheet w k r := by
  rintro ⟨k, r, hready⟩
  obtain ⟨text, hheld, -⟩ := hready.held
  cases h.symm.trans hheld.known

theorem not_ready_of_lacksInput {e : Files.SystemError} (h : c.LacksInput w e) :
    ¬ ∃ k r, c.Ready sheet w k r := by
  rintro ⟨k, r, hready⟩
  obtain ⟨text, hheld, -⟩ := hready.held
  obtain ⟨bytes, hin, -⟩ := hheld.input
  cases h.2.symm.trans hin

theorem not_ready_of_holds {text : String} (h : c.Holds w k text)
    (hnone : ∀ r, c.source.read sheet k text = .ok r → ¬ (c.isStrict → r.diagnostics = [])) :
    ¬ ∃ k r, c.Ready sheet w k r := by
  rintro ⟨k', r, hready⟩
  exact hnone r (hready.of_holds h).2.2 hready.settled

theorem not_completes (h : ¬ ∃ k r, c.Ready sheet w k r) : ¬ c.Completes sheet o w := by
  rintro ⟨k, r, hready, -⟩
  exact h ⟨k, r, hready⟩

theorem lacksFile_iff_of_not_ready (h : ¬ ∃ k r, c.Ready sheet w k r) :
    c.LacksFile sheet o w ↔ ∃ e, c.LacksInput w e := by
  refine ⟨fun hlacks => hlacks.resolve_right ?_, .inl⟩
  rintro ⟨k, r, -, -, hready, -⟩
  exact h ⟨k, r, hready⟩

theorem completes_iff (h : c.Ready sheet w k r) :
    c.Completes sheet o w ↔
      ∀ path, c.output = some path → ∃ files, w.write path (c.text o k r) = .ok files := by
  refine ⟨?_, fun hwrite => ⟨k, r, h, hwrite⟩⟩
  rintro ⟨k', r', hready, hwrite⟩
  obtain ⟨rfl, rfl⟩ := h.unique hready.toReads
  exact hwrite

theorem lacksFile_iff (h : c.Ready sheet w k r) :
    c.LacksFile sheet o w ↔ ∃ path e, c.output = some path ∧ w.write path (c.text o k r) = .error e := by
  constructor
  · rintro (⟨e, hlacks⟩ | ⟨k', r', path, e, hready, houtput, hwrite⟩)
    · exact absurd ⟨k, r, h⟩ (not_ready_of_lacksInput hlacks)
    · obtain ⟨rfl, rfl⟩ := h.unique hready.toReads
      exact ⟨path, e, houtput, hwrite⟩
  · rintro ⟨path, e, houtput, hwrite⟩
    exact .inr ⟨k, r, path, e, h, houtput, hwrite⟩

theorem stumbles_iff (h : c.Ready sheet w k r) (crash : Crash) :
    c.Stumbles sheet w crash ↔ crash = .unusablePath ∧ ∃ path, c.output = some path ∧ ¬ isUsablePath path := by
  obtain ⟨text, hheld, hroom, -⟩ := h.held
  constructor
  · rintro (⟨-, hpath⟩ | ⟨hheld', hover, -⟩ | ⟨hreads, hwrite⟩ | ⟨-, houtput, hpath⟩)
    · exact absurd hheld.usable hpath
    · obtain ⟨-, rfl⟩ := hheld.unique hheld'
      cases hroom.symm.trans hover
    · obtain ⟨-, rfl⟩ := h.unique hreads
      cases h.writable.symm.trans hwrite
    · exact ⟨rfl, _, houtput, hpath⟩
  · rintro ⟨rfl, path, houtput, hpath⟩
    exact .output h houtput hpath

/-- A run that comes to what it cannot report ends there. -/
theorem run_of_stumbles {crash : Crash} (h : c.Stumbles sheet w crash) :
    (Command.convert c).run sheet o w = .error crash := by
  cases h with
  | input hknown hpath => exact run_of_not_usable hknown hpath
  | overrun hheld hover _ =>
    rw [run_of_holds hheld, planText_of_overrun? hover]
    rfl
  | unwritable hreads hwrite =>
    obtain ⟨text, hheld, hroom, hread⟩ := hreads.held
    obtain ⟨events, hplan⟩ := planText_of_read (o := o) hroom hread hreads.settled
    rw [run_of_holds hheld, hplan, hwrite]
    rfl
  | output hready houtput hpath =>
    obtain ⟨text, hheld, hroom, hread⟩ := hready.held
    obtain ⟨events, hplan⟩ := planText_of_read (o := o) hroom hread hready.settled
    rw [run_of_holds hheld, hplan, hready.writable, if_pos rfl, Conversion.plan, houtput]
    show Plan.run w (.write _ _ events) = _
    rw [Plan.run, if_pos (by simpa using hpath)]

/-- A run without a report is one that came to what it cannot report. -/
theorem run_eq_error_iff_stumbles
    (h : c.Outcome sheet o w ((Command.convert c).run sheet o w)) (crash : Crash) :
    (Command.convert c).run sheet o w = .error crash ↔ c.Stumbles sheet w crash := by
  refine ⟨fun hrun => ?_, run_of_stumbles⟩
  rw [hrun] at h
  cases h with
  | crashed hstumbles => exact hstumbles

/-- A run that stops before anything is ready. -/
theorem reported_of_not_ready {message : String} {events : List Event} (h : ¬ ∃ k r, c.Ready sheet w k r)
    (hin : ¬ ∃ e, c.LacksInput w e) : c.Reported sheet o w (.failed invalidInput message events) w.files where
  completes_iff := iff_of_false (by simp [Report.failed, invalidInput]) (not_completes h)
  lacksFile_iff := iff_of_false (by simp [Report.failed, invalidInput])
    fun hlacks => hin ((lacksFile_iff_of_not_ready h).mp hlacks)
  otherwise _ _ := rfl
  traceless _ := ⟨rfl, rfl⟩
  leaves := by simp [Report.failed, invalidInput]

/-- A run that stops at a file. -/
theorem reported_of_lacksFile {message : String} {events : List Event} (h : ¬ c.Completes sheet o w)
    (hlacks : c.LacksFile sheet o w) : c.Reported sheet o w (.failed fileFailure message events) w.files where
  completes_iff := iff_of_false (by simp [Report.failed, fileFailure]) h
  lacksFile_iff := iff_of_true rfl hlacks
  otherwise _ hne := absurd rfl hne
  traceless _ := ⟨rfl, rfl⟩
  leaves := by simp [Report.failed, fileFailure]

/-- A run that goes to its end. -/
theorem reported_of_completes {output : String} {events : List Event} {files : Files.Tree}
    (hready : c.Ready sheet w k r) (h : c.Completes sheet o w)
    (hleaves : c.Leaves w (c.text o k r) { output := output, events := events } files) :
    c.Reported sheet o w { output := output, events := events } files where
  completes_iff := iff_of_true rfl h
  lacksFile_iff := by
    refine iff_of_false (by simp) fun hlacks => ?_
    obtain ⟨path, e, houtput, hwrite⟩ := (lacksFile_iff hready).mp hlacks
    obtain ⟨files', hwrite'⟩ := (completes_iff hready).mp h path houtput
    cases hwrite.symm.trans hwrite'
  otherwise hne _ := absurd rfl hne
  traceless hne := absurd rfl hne
  leaves _ := ⟨rfl, k, r, hready, hleaves⟩

theorem reported_of_outcome {report : Report} {files : Files.Tree}
    (h : c.Outcome sheet o w (.ok (report, files))) : c.Reported sheet o w report files := by
  have hlacks {k : Dialect} {text : String} (hheld : c.Holds w k text) : ¬ ∃ e, c.LacksInput w e := by
    rintro ⟨e, -, herror⟩
    obtain ⟨bytes, hin, -⟩ := hheld.input
    cases hin.symm.trans herror
  cases h with
  | unknown hnone =>
    refine reported_of_not_ready (not_ready_of_unknown hnone) ?_
    rintro ⟨e, ⟨k, hk⟩, -⟩
    cases hnone.symm.trans hk
  | unreadable hlacks =>
    exact reported_of_lacksFile (not_completes (not_ready_of_lacksInput hlacks)) (.inl ⟨_, hlacks⟩)
  | refused hheld hnone =>
    exact reported_of_not_ready (not_ready_of_holds hheld fun r hr => absurd hr (hnone r)) (hlacks hheld)
  | diagnosed hheld hread hstrict hdirty =>
    refine reported_of_not_ready (not_ready_of_holds hheld fun r hr hsettled => ?_) (hlacks hheld)
    cases hread.symm.trans hr
    exact hdirty (hsettled hstrict)
  | shown hready houtput =>
    exact reported_of_completes hready ((completes_iff hready).mpr (by simp [houtput])) (leaves_none houtput)
  | written hready houtput hwrite =>
    exact reported_of_completes hready ((completes_iff hready).mpr (by simp [houtput, hwrite]))
      (leaves_some houtput hwrite)
  | unwritten hready houtput hwrite =>
    refine reported_of_lacksFile ?_ (.inr ⟨_, _, _, _, hready, houtput, hwrite⟩)
    simp [completes_iff hready, houtput, hwrite]

end Result

/-- Any conversion that the arguments ask for, with an input that is UTF-8 or cannot be read, and that is not taken
for JSON with half a pair of units on its own. Its dialect is known unless it is that of the settings, and what its
format reads are the texts that it accepts. It ends without a report exactly if it comes to a path with a NUL in it,
to JSON that runs into a limit, which then has more than the limit allows, or to a number that is too long to be
written. In all other cases it ends with status zero exactly if everything is well, with status two exactly if a
file cannot be read or written and all before that is well, and with status one otherwise. If the status is not zero
nothing is shown and no file changes; if it is, the text of the diagram, complete or not, and a line end are left at
one place and nothing anywhere else. -/
theorem conversion_clean {settings : Settings} (hgrid : settings.grid.columns ≠ 0) {args : List String}
    {c : Conversion} (hargs : Command.ofArguments settings args = .ok (.convert c)) (idPrefix : String) (w : World)
    (htext : ∀ bytes, w.input c.input = .ok bytes → ∃ text, bytes = encode text)
    (hpaired : ∀ bytes text, w.input c.input = .ok bytes → decode bytes = .ok text →
      c.overrun? w.room text ≠ some .halfPair) :
    (Dialect.ofName? c.dialect = none → c.dialect = settings.dialect) ∧
    (∀ k text, (∃ r, c.source.read ⟨settings.grid, idPrefix⟩ k text = .ok r) ↔ c.source.Accepts text) ∧
    (∀ text x, c.overrun? w.room text = some x →
      Json.Exceeds (w.room.limits (readerCalls c.source)) text.toList x) ∧
    (∀ crash, (Command.convert c).run ⟨settings.grid, idPrefix⟩ settings.tableOptions w = .error crash ↔
      c.Stumbles ⟨settings.grid, idPrefix⟩ w crash) ∧
    ((∀ crash, ¬ c.Stumbles ⟨settings.grid, idPrefix⟩ w crash) → ∃ report files,
      (Command.convert c).run ⟨settings.grid, idPrefix⟩ settings.tableOptions w = .ok (report, files) ∧
        c.Reported ⟨settings.grid, idPrefix⟩ settings.tableOptions w report files) := by
  have houtcome : c.Outcome ⟨settings.grid, idPrefix⟩ settings.tableOptions w
      ((Command.convert c).run ⟨settings.grid, idPrefix⟩ settings.tableOptions w) := by
    refine outcome_run hgrid fun k bytes _ _ hbytes => ?_
    obtain ⟨text, rfl⟩ := htext bytes hbytes
    exact ⟨_, decode_encode text, hpaired _ _ hbytes (decode_encode text)⟩
  refine ⟨fun hnone => ?_, fun k text => c.source.exists_read_iff hgrid k text,
    fun _ _ => InputFormat.exceeds_of_overrun?, run_eq_error_iff_stumbles houtcome, fun hfree => ?_⟩
  · refine (dialect_of_ofArguments hargs).resolve_left ?_
    rintro ⟨k, hk⟩
    rw [hk, Dialect.ofName?_name] at hnone
    cases hnone
  · generalize (Command.convert c).run ⟨settings.grid, idPrefix⟩ settings.tableOptions w = run at houtcome ⊢
    cases run with
    | ok result => exact ⟨result.1, result.2, rfl, reported_of_outcome houtcome⟩
    | error crash =>
      cases houtcome with
      | crashed hstumbles => exact absurd hstumbles (hfree crash)

/-- A text with a line that is none of DBML. -/
def brokenDbml : String := "Table t \x7b\n  id int\n\x7d\nnonsense\n"

/-- What comes of its table. -/
def repairedDbml : String := "Table t \x7b\n  id int [null]\n\x7d\n"

/-- The conversion of the text in one file to another. -/
def repair : Conversion where
  input := "a"
  source := .dbml
  target := .dbml
  dialect := "mysql"
  output := some "b"

/-- The files around the conversion. -/
def repairWorld : World where
  files := [(["a"], .file (encode brokenDbml)), (["b"], .file [])]

theorem ready_repair :
    ∃ r, repair.Ready {} repairWorld .mysql r ∧ repair.text {} .mysql r = repairedDbml := by
  have hshown : (match InputFormat.dbml.read {} .mysql brokenDbml with
      | .ok r => some (repair.text {} .mysql r)
      | .error _ => none) = some repairedDbml := by
    decide +kernel
  have hdecode : decode (encode brokenDbml) = .ok brokenDbml := decode_of_plain (by decide +kernel)
  have hheld : repair.Holds repairWorld .mysql brokenDbml := ⟨by decide, by decide, _, rfl, hdecode⟩
  split at hshown
  · next r hr =>
    exact ⟨r, ⟨⟨⟨_, hheld, rfl, hr⟩, fun hstrict => absurd hstrict (by decide)⟩, rfl⟩, Option.some.inj hshown⟩
  · cases hshown

/-- What can be used of a text is written where that was asked for, and nothing else is touched. -/
theorem conversion_clean_repair :
    ({} : Settings).grid.columns ≠ 0 ∧
      Command.ofArguments {} ["convert", "a", "--from=dbml", "--to", "dbml", "--dia", "mysql", "-ob"] =
        .ok (.convert repair) ∧
      (∀ bytes, repairWorld.input repair.input = .ok bytes → ∃ text, bytes = encode text) ∧
      (∀ bytes text, repairWorld.input repair.input = .ok bytes → decode bytes = .ok text →
        repair.overrun? repairWorld.room text ≠ some .halfPair) ∧
      ∃ report files, (Command.convert repair).run {} {} repairWorld = .ok (report, files) ∧
        report.status = 0 ∧ report.output = "" ∧ files.lookup ["a"] = some (.file (encode brokenDbml)) ∧
        files.lookup ["b"] = some (.file (encode repairedDbml)) := by
  have hgrid : ({} : Settings).grid.columns ≠ 0 := by decide
  have hargs : Command.ofArguments {} ["convert", "a", "--from=dbml", "--to", "dbml", "--dia", "mysql", "-ob"] =
      .ok (.convert repair) := eq_ok_of_toOption (by decide +kernel)
  have htext : ∀ bytes, repairWorld.input repair.input = .ok bytes → ∃ text, bytes = encode text :=
    fun bytes hbytes => ⟨brokenDbml, (Except.ok.inj hbytes).symm⟩
  have hpaired : ∀ bytes text, repairWorld.input repair.input = .ok bytes → decode bytes = .ok text →
      repair.overrun? repairWorld.room text ≠ some .halfPair := fun _ _ _ _ h => by cases h
  obtain ⟨r, hready, hr⟩ := ready_repair
  obtain ⟨-, -, -, -, hclean⟩ := conversion_clean hgrid hargs "" repairWorld htext hpaired
  have hfree : ∀ crash, ¬ repair.Stumbles {} repairWorld crash := by
    intro crash
    rw [stumbles_iff hready]
    rintro ⟨-, path, hpath, hnul⟩
    cases hpath
    exact hnul (by decide)
  have hcompletes : repair.Completes {} {} repairWorld := by
    rw [completes_iff hready]
    rintro path hpath
    cases hpath
    exact ⟨_, rfl⟩
  obtain ⟨report, files, hrun, hreported⟩ := hclean hfree
  have hzero := hreported.completes_iff.mpr hcompletes
  obtain ⟨-, k, r', hready', houtput, place, hplace, hlookup, hother⟩ := hreported.leaves hzero
  obtain ⟨rfl, rfl⟩ := hready.unique hready'.toReads
  obtain rfl : ["b"] = place := Except.ok.inj hplace
  refine ⟨hgrid, hargs, htext, hpaired, report, files, hrun, hzero, houtput, ?_, ?_⟩
  · rw [hother ["a"] (by decide)]
    rfl
  · rw [hlookup, ← hr]

/-- Not every conversion ends with a status: one whose input is named with a NUL does not, though the name is
accepted and there is no such input. -/
theorem not_conversion_reported :
    ¬ ∀ (settings : Settings) (args : List String) (c : Conversion) (w : World), settings.grid.columns ≠ 0 →
      Command.ofArguments settings args = .ok (.convert c) →
      (∀ bytes, w.input c.input = .ok bytes → ∃ text, bytes = encode text) →
      ∃ report files, (Command.convert c).run ⟨settings.grid, ""⟩ settings.tableOptions w = .ok (report, files) := by
  intro h
  obtain ⟨report, files, hrun⟩ := h {} ["convert", "a\x00b", "--from", "sql", "--to", "dbml"]
    { input := "a\x00b", source := .sql, target := .dbml, dialect := "postgresql" } {} (by decide)
    (eq_ok_of_toOption (by decide +kernel)) (by rintro bytes ⟨⟩)
  cases hrun

end CommandLine

end Erd
