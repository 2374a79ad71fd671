import Dialogue.Console
import Mathlib.Data.List.Basic

/-!
# Tapes that fall back on one another

A tape gives its own lines first and leaves the rest to the console that it falls back on; what is written to
it, or echoed by it, is passed on to that console, too. However many tapes fall back on one another, they are
one console to those who use it (`Tapes.flat_readLine`, `Tapes.flat_writeLine`): its lines are those of all
tapes, outermost first, and its record is that of the innermost tape. What holds of one use holds of uses in
a row, as `Use.run_map` shows for any two things that can be read from and written to.
-/

namespace Dialogue

/-- What is done at a console. -/
inductive Use where
  | read
  | write (line : String)
  deriving DecidableEq

namespace Use

variable {σ τ ρ υ : Type}

/-- What is read in a row of uses, and what has been used is then. -/
def run (read : σ → ρ × σ) (write : String → σ → σ) (s : σ) : List Use → List ρ × σ
  | [] => ([], s)
  | .read :: uses =>
    let (lines, last) := run read write (read s).2 uses
    ((read s).1 :: lines, last)
  | .write line :: uses => run read write (write line s) uses

variable {read : σ → ρ × σ} {write : String → σ → σ} {read' : τ → υ × τ} {write' : String → τ → τ}

/-- A view that goes along with reading and with writing goes along with any row of uses. -/
theorem run_map {g : ρ → υ} {f : σ → τ} (hread : ∀ s, read' (f s) = (g (read s).1, f (read s).2))
    (hwrite : ∀ line s, write' line (f s) = f (write line s)) (s : σ) (uses : List Use) :
    run read' write' (f s) uses = ((run read write s uses).1.map g, f (run read write s uses).2) := by
  induction uses generalizing s with
  | nil => rfl
  | cons u uses ih =>
    cases u with
    | read =>
      rw [run, hread, ih]
      rfl
    | write line => rw [run, hwrite, ih, run]

end Use

/-! ### Tapes -/

/-- A tape has a record of its own, whether it falls back on another console or not. -/
structure Tape where
  queued : List String
  echo : Bool := false
  written : List String := []

/-- Tapes, each of which falls back on the next. -/
inductive Tapes where
  | last (t : Tape)
  | before (t : Tape) (next : Tapes)

namespace Tapes

open Use (run)

def writeLine (line : String) : Tapes → Tapes
  | .last t => .last { t with written := t.written ++ [line] }
  | .before t next => .before t (next.writeLine line)

/-- An echo is written as any line is, so that it can pass through several tapes. -/
def echoed (echo : Bool) (line : String) (c : Tapes) : Tapes := if echo then c.writeLine line else c

def readLine : Tapes → Option String × Tapes
  | .last t =>
    match t.queued with
    | [] => (none, .last t)
    | line :: queued => (some line, echoed t.echo line (.last { t with queued := queued }))
  | .before t next =>
    match t.queued with
    | [] => (next.readLine.1, .before t next.readLine.2)
    | line :: queued => (some line, echoed t.echo line (.before { t with queued := queued } next))

/-- The records of the tapes that fall back on another one. -/
def outerRecords : Tapes → List (List String)
  | .last _ => []
  | .before t next => t.written :: next.outerRecords

theorem outerRecords_writeLine (c : Tapes) (line : String) :
    (c.writeLine line).outerRecords = c.outerRecords := by
  induction c with
  | last t => rfl
  | before t next ih => exact congrArg (t.written :: ·) ih

theorem outerRecords_echoed (echo : Bool) (line : String) (c : Tapes) :
    (echoed echo line c).outerRecords = c.outerRecords := by
  cases echo with
  | false => rfl
  | true => exact c.outerRecords_writeLine line

theorem outerRecords_readLine (c : Tapes) : c.readLine.2.outerRecords = c.outerRecords := by
  induction c with
  | last t =>
    obtain ⟨_ | ⟨line, queued⟩, echo, written⟩ := t
    · rfl
    · exact outerRecords_echoed echo line _
  | before t next ih =>
    obtain ⟨_ | ⟨line, queued⟩, echo, written⟩ := t
    · exact congrArg (written :: ·) ih
    · exact outerRecords_echoed echo line _

theorem outerRecords_run (c : Tapes) (uses : List Use) :
    (run readLine writeLine c uses).2.outerRecords = c.outerRecords := by
  induction uses generalizing c with
  | nil => rfl
  | cons u uses ih =>
    cases u with
    | read => exact (ih c.readLine.2).trans c.outerRecords_readLine
    | write line => exact (ih (c.writeLine line)).trans (c.outerRecords_writeLine line)

/-! ### As a console -/

/-- The tapes as a console. That has the record of the innermost tape only. -/
def toConsole : Tapes → Console
  | .last t => .tape t.queued t.echo t.written
  | .before t next => .relay t.queued t.echo next.toConsole

theorem writeLine_toConsole (line : String) (c : Tapes) :
    c.toConsole.writeLine line = (c.writeLine line).toConsole := by
  induction c with
  | last t => rfl
  | before t next ih => exact congrArg (Console.relay t.queued t.echo) ih

theorem readLine_toConsole (c : Tapes) :
    c.toConsole.readLine = (.ok c.readLine.1, c.readLine.2.toConsole) := by
  induction c with
  | last t =>
    obtain ⟨_ | ⟨line, queued⟩, _ | _, written⟩ := t <;> rfl
  | before t next ih =>
    obtain ⟨_ | ⟨line, queued⟩, echo, written⟩ := t
    · simp only [toConsole, Console.readLine, ih]
      rfl
    · cases echo with
      | false => rfl
      | true =>
        simp only [toConsole, Console.readLine, writeLine_toConsole]
        rfl

end Tapes

/-! ### As one console -/

/-- A console in one piece: the lines that it has to give, each with whether it is echoed, and the record of
what has been written. -/
structure Flat where
  upcoming : List (String × Bool)
  record : List String

namespace Flat

open Use (run)

def writeLine (line : String) (f : Flat) : Flat := { f with record := f.record ++ [line] }

def readLine : Flat → Option String × Flat
  | ⟨[], record⟩ => (none, ⟨[], record⟩)
  | ⟨(line, echo) :: upcoming, record⟩ =>
    (some line, ⟨upcoming, if echo then record ++ [line] else record⟩)

/-- What is recorded in a row of uses, in its order, if these are the lines to give. -/
def recorded : List (String × Bool) → List Use → List String
  | _, [] => []
  | upcoming, .write line :: uses => line :: recorded upcoming uses
  | [], .read :: uses => recorded [] uses
  | (line, echo) :: upcoming, .read :: uses =>
    if echo then line :: recorded upcoming uses else recorded upcoming uses

theorem run_eq (f : Flat) (uses : List Use) :
    run readLine writeLine f uses =
      ((List.range (uses.count .read)).map fun i => (f.upcoming.map Prod.fst)[i]?,
        ⟨f.upcoming.drop (uses.count .read), f.record ++ recorded f.upcoming uses⟩) := by
  induction uses generalizing f with
  | nil => simp [run, recorded]
  | cons u uses ih =>
    cases u with
    | write line => simp [run, ih, writeLine, recorded]
    | read =>
      obtain ⟨_ | ⟨⟨line, echo⟩, upcoming⟩, record⟩ := f
      · simp [run, ih, readLine, recorded, List.range_succ_eq_map, Function.comp_def]
      · cases echo <;> simp [run, ih, readLine, recorded, List.range_succ_eq_map]

end Flat

namespace Tapes

open Use (run run_map)

def flat : Tapes → Flat
  | .last t => ⟨t.queued.map (·, t.echo), t.written⟩
  | .before t next => ⟨t.queued.map (·, t.echo) ++ next.flat.upcoming, next.flat.record⟩

theorem flat_writeLine (line : String) (c : Tapes) :
    c.flat.writeLine line = (c.writeLine line).flat := by
  induction c with
  | last t => rfl
  | before t next ih => rw [writeLine, flat, flat, ← ih]; rfl

theorem flat_echoed (echo : Bool) (line : String) (c : Tapes) :
    (echoed echo line c).flat =
      ⟨c.flat.upcoming, if echo then c.flat.record ++ [line] else c.flat.record⟩ := by
  cases echo with
  | false => rfl
  | true => exact (c.flat_writeLine line).symm

theorem flat_readLine (c : Tapes) : c.flat.readLine = (c.readLine.1, c.readLine.2.flat) := by
  induction c with
  | last t =>
    obtain ⟨_ | ⟨line, queued⟩, echo, written⟩ := t
    · rfl
    · simp only [readLine, flat_echoed]
      rfl
  | before t next ih =>
    obtain ⟨_ | ⟨line, queued⟩, echo, written⟩ := t
    · exact ih
    · simp only [readLine, flat_echoed]
      rfl

/-- Tapes that fall back on one another are one console, whatever is read and written and in what order:
their lines are read one after the other, outermost tape first, then none are left, and what is written or
echoed is recorded in its order by the innermost tape, while the records of the others stay as they are. -/
theorem tapes_are_one (c : Tapes) (uses : List Use) :
    let (reads, after) := run readLine writeLine c uses
    run Console.readLine Console.writeLine c.toConsole uses = (reads.map .ok, after.toConsole) ∧
    run Flat.readLine Flat.writeLine c.flat uses = (reads, after.flat) ∧
    reads = (List.range (uses.count .read)).map (fun i => (c.flat.upcoming.map Prod.fst)[i]?) ∧
    after.flat.record = c.flat.record ++ Flat.recorded c.flat.upcoming uses ∧
    after.outerRecords = c.outerRecords := by
  have hconsole := run_map (g := Except.ok) readLine_toConsole writeLine_toConsole c uses
  have hflat := run_map (g := id) flat_readLine flat_writeLine c uses
  rw [List.map_id] at hflat
  have hrun := hflat.symm.trans (c.flat.run_eq uses)
  obtain ⟨hreads, hafter⟩ := Prod.mk.inj hrun
  exact ⟨hconsole, hflat, hreads, congrArg Flat.record hafter, c.outerRecords_run uses⟩

example :
    run readLine writeLine
        (.before ⟨["A"], true, []⟩ (.before ⟨["B"], false, []⟩ (.last ⟨["C"], true, []⟩)))
        [.read, .write "X", .read, .read, .read] =
      ([some "A", some "B", some "C", none],
        .before ⟨[], true, []⟩ (.before ⟨[], false, []⟩ (.last ⟨[], true, ["A", "X", "C"]⟩))) :=
  rfl

end Tapes

end Dialogue
