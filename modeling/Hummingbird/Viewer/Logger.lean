/-
  `JsonlLogger` of `px4_multirotor_viewer.py`.

  Three parties share the logger: whoever calls `write`, the writer thread, and whoever calls
  `close`. A step of the machine is one atomic step of one of them; `Writer` is the place the
  writer thread has reached in `_writer_loop`. `json.dumps` succeeds on a record or raises
  (`encodable`); no file operation raises, and `close` waits until the writer thread has ended.
  Left out are `path`, the flushing, and the lines that the file held when it was opened.
-/
import Hummingbird.Library.Machine
import Mathlib.Algebra.Order.Ring.Unbundled.Rat

namespace Hummingbird

/-- A record as `write` puts it into the queue. -/
structure LogRecord (δ : Type*) where
  wallTime : ℚ
  elapsedTime : ℚ
  topic : String
  data : δ
  deriving DecidableEq

/-- A line of the file: a record of the queue, or the `viewer_logger_stats` at the end. -/
inductive Line (δ : Type*)
  | record (r : LogRecord δ)
  | stats (wallTime elapsedTime : ℚ) (written dropped : ℕ)
  deriving DecidableEq

namespace Line

variable {δ : Type*}

/-- The record of a line that is not the statistics. -/
def toRecord : Line δ → Option (LogRecord δ)
  | record r => some r
  | stats _ _ _ _ => none

@[simp] theorem toRecord_record (r : LogRecord δ) : (record r).toRecord = some r := rfl

end Line

/-- Where the writer thread is; `absent` when it was never started. -/
inductive Writer (δ : Type*)
  | absent
  | testStop
  | testEmpty
  | get
  | fill (batch : List (LogRecord δ))
  | encode (rest lines : List (LogRecord δ))
  | writeLines (lines : List (LogRecord δ))
  | countLines (lines : List (LogRecord δ))
  | report
  | writeStats (line : Line δ)
  | countStats
  | finished

namespace Writer

variable {δ : Type*}

/-- The records taken from the queue that are neither counted nor dropped yet. -/
def batch : Writer δ → List (LogRecord δ)
  | fill batch => batch
  | encode rest lines => lines ++ rest
  | writeLines lines => lines
  | countLines lines => lines
  | _ => []

/-- The records taken from the queue that `json.dumps` has not seen yet. -/
def unencoded : Writer δ → List (LogRecord δ)
  | fill batch => batch
  | encode rest _ => rest
  | _ => []

/-- The encoded records that are not in the file yet. -/
def encoded : Writer δ → List (LogRecord δ)
  | encode _ lines => lines
  | writeLines lines => lines
  | _ => []

/-- The loop has ended. -/
def PastLoop : Writer δ → Prop
  | report => True
  | writeStats _ => True
  | countStats => True
  | finished => True
  | _ => False

/-- The writer thread is running and has not left the loop. -/
def InLoop (w : Writer δ) : Prop := w ≠ .absent ∧ ¬ w.PastLoop

end Writer

structure JsonlLogger (δ : Type*) where
  enabled : Bool
  /-- `_fh is not None`. -/
  isOpen : Bool
  queue : List (LogRecord δ)
  stop : Bool
  count : ℕ
  dropped : ℕ
  startMonotonic : ℚ
  file : List (Line δ)
  writer : Writer δ

namespace JsonlLogger

def loggerBatchRecords : ℕ := 256
def loggerQueueRecords : ℕ := 50000

variable {δ : Type*}

/-- The constructor up to the first `write`. A logger that is switched off, or whose file cannot
    be opened, has no file and no writer thread. -/
def construct (enabled : Bool) (now : ℚ) : JsonlLogger δ where
  enabled := enabled
  isOpen := enabled
  queue := []
  stop := false
  count := 0
  dropped := 0
  startMonotonic := now
  file := []
  writer := if enabled then .testStop else .absent

/-- What becomes of a call of `write`. -/
inductive Outcome (δ : Type*)
  | ignored
  | accepted (r : LogRecord δ)
  | dropped

namespace Outcome

def isIgnored : Outcome δ → Bool
  | ignored => true
  | _ => false

/-- The record, if the queue accepted it. -/
def toRecord : Outcome δ → Option (LogRecord δ)
  | accepted r => some r
  | _ => none

end Outcome

/-- `write`. -/
def write (s : JsonlLogger δ) (now wall : ℚ) (topic : String) (data : δ) :
    JsonlLogger δ × Outcome δ :=
  if s.enabled = false ∨ s.isOpen = false then (s, .ignored)
  else
    let record : LogRecord δ := ⟨wall, now - s.startMonotonic, topic, data⟩
    if s.queue.length < loggerQueueRecords then
      ({ s with queue := s.queue ++ [record] }, .accepted record)
    else ({ s with dropped := s.dropped + 1 }, .dropped)

/-- The next step of `_writer_loop`. The blocking `get` returns `Empty` only when the queue is
    empty. -/
def writerStep (encodable : LogRecord δ → Bool) (s : JsonlLogger δ) (now wall : ℚ) :
    JsonlLogger δ :=
  match s.writer with
  | .absent => s
  | .testStop => if s.stop then { s with writer := .testEmpty } else { s with writer := .get }
  | .testEmpty =>
    match s.queue with
    | [] => { s with writer := .report }
    | _ :: _ => { s with writer := .get }
  | .get =>
    match s.queue with
    | [] => { s with writer := .fill [] }
    | r :: queue => { s with queue := queue, writer := .fill [r] }
  | .fill batch =>
    if batch.length < loggerBatchRecords then
      match s.queue with
      | [] => { s with writer := .encode batch [] }
      | r :: queue => { s with queue := queue, writer := .fill (batch ++ [r]) }
    else { s with writer := .encode batch [] }
  | .encode (r :: rest) lines =>
    if encodable r then { s with writer := .encode rest (lines ++ [r]) }
    else { s with dropped := s.dropped + 1, writer := .encode rest lines }
  | .encode [] [] => { s with writer := .testStop }
  | .encode [] (line :: lines) => { s with writer := .writeLines (line :: lines) }
  | .writeLines lines => { s with file := s.file ++ lines.map .record, writer := .countLines lines }
  | .countLines lines => { s with count := s.count + lines.length, writer := .testStop }
  | .report =>
    { s with writer := .writeStats (.stats wall (now - s.startMonotonic) s.count s.dropped) }
  | .writeStats line => { s with file := s.file ++ [line], writer := .countStats }
  | .countStats => { s with count := s.count + 1, writer := .finished }
  | .finished => s

/-- The next step of `close`: it sets the stop flag, then waits for the writer thread, then gives
    up the file. -/
def close (s : JsonlLogger δ) : JsonlLogger δ :=
  if s.isOpen = false then s
  else if s.stop = false then { s with stop := true }
  else
    match s.writer with
    | .finished => { s with isOpen := false }
    | _ => s

/-- One atomic step of one of the three parties, with the readings of the clocks. -/
inductive Event (δ : Type*)
  | write (now wall : ℚ) (topic : String) (data : δ)
  | writer (now wall : ℚ)
  | close (now : ℚ)

/-- The reading of the monotonic clock. -/
def Event.now : Event δ → ℚ
  | write now _ _ _ => now
  | writer now _ => now
  | close now => now

def handle (encodable : LogRecord δ → Bool) (s : JsonlLogger δ) :
    Event δ → JsonlLogger δ × Option (Outcome δ)
  | .write now wall topic data =>
    let (s', outcome) := write s now wall topic data
    (s', some outcome)
  | .writer now wall => (writerStep encodable s now wall, none)
  | .close _ => (close s, none)

/-- The logger. -/
def logger (encodable : LogRecord δ → Bool) :
    Machine (JsonlLogger δ) (Event δ) (Option (Outcome δ)) ℚ where
  step := handle encodable
  enter := Event.now
  leave := Event.now

abbrev Entry (δ : Type*) := Machine.Step (JsonlLogger δ) (Event δ) (Option (Outcome δ))

/-- What has happened to the logger, newest first. -/
abbrev History (δ : Type*) := List (Entry δ)

/-- Runs of a logger that is constructed at the time `start`. -/
abbrev IsRun (encodable : LogRecord δ → Bool) (enabled : Bool) (start : ℚ) (h : History δ)
    (s : JsonlLogger δ) (t : ℚ) : Prop :=
  Machine.Run (logger encodable) (construct enabled start) start h s t

/-! ## What the writer thread does -/

/-- The ways through a step of the writer thread. -/
inductive WriterBranch (encodable : LogRecord δ → Bool) (now wall : ℚ) (s : JsonlLogger δ) :
    JsonlLogger δ → Prop
  | idle : WriterBranch encodable now wall s s
  | turn (w : Writer δ) (hfrom : s.writer.InLoop) (hto : w.InLoop)
      (hstop : w = .testEmpty → s.stop = true) (hbatch : w.batch = s.writer.batch)
      (hunencoded : w.unencoded = s.writer.unencoded) (hencoded : w.encoded = s.writer.encoded) :
      WriterBranch encodable now wall s { s with writer := w }
  | take (r : LogRecord δ) (queue : List (LogRecord δ)) (w : Writer δ)
      (hqueue : s.queue = r :: queue) (hfrom : s.writer.InLoop) (hto : w.InLoop)
      (hfill : w ≠ .testEmpty) (hbatch : w.batch = s.writer.batch ++ [r])
      (hunencoded : w.unencoded = s.writer.unencoded ++ [r])
      (hencoded : w.encoded = s.writer.encoded) :
      WriterBranch encodable now wall s { s with queue := queue, writer := w }
  | encoded (r : LogRecord δ) (rest lines : List (LogRecord δ))
      (hw : s.writer = .encode (r :: rest) lines) (hr : encodable r = true) :
      WriterBranch encodable now wall s { s with writer := .encode rest (lines ++ [r]) }
  | dropped (r : LogRecord δ) (rest lines : List (LogRecord δ))
      (hw : s.writer = .encode (r :: rest) lines) (hr : encodable r = false) :
      WriterBranch encodable now wall s
        { s with dropped := s.dropped + 1, writer := .encode rest lines }
  | wroteLines (lines : List (LogRecord δ)) (hw : s.writer = .writeLines lines) :
      WriterBranch encodable now wall s
        { s with file := s.file ++ lines.map .record, writer := .countLines lines }
  | countedLines (lines : List (LogRecord δ)) (hw : s.writer = .countLines lines) :
      WriterBranch encodable now wall s
        { s with count := s.count + lines.length, writer := .testStop }
  | drained (hw : s.writer = .testEmpty) (hqueue : s.queue = []) :
      WriterBranch encodable now wall s { s with writer := .report }
  | reported (hw : s.writer = .report) :
      WriterBranch encodable now wall s { s with
        writer := .writeStats (.stats wall (now - s.startMonotonic) s.count s.dropped) }
  | wroteStats (line : Line δ) (hw : s.writer = .writeStats line) :
      WriterBranch encodable now wall s { s with file := s.file ++ [line], writer := .countStats }
  | countedStats (hw : s.writer = .countStats) :
      WriterBranch encodable now wall s { s with count := s.count + 1, writer := .finished }

theorem writerStep_branch (encodable : LogRecord δ → Bool) (s : JsonlLogger δ) (now wall : ℚ) :
    WriterBranch encodable now wall s (s.writerStep encodable now wall) := by
  obtain ⟨enabled, isOpen, queue, stop, count, dropped, start, file, writer⟩ := s
  cases writer with
  | absent => exact .idle
  | testStop =>
    cases stop with
    | false => exact .turn .get ⟨nofun, id⟩ ⟨nofun, id⟩ nofun rfl rfl rfl
    | true => exact .turn .testEmpty ⟨nofun, id⟩ ⟨nofun, id⟩ (fun _ => rfl) rfl rfl rfl
  | testEmpty =>
    cases queue with
    | nil => exact .drained rfl rfl
    | cons r queue => exact .turn .get ⟨nofun, id⟩ ⟨nofun, id⟩ nofun rfl rfl rfl
  | get =>
    cases queue with
    | nil => exact .turn (.fill []) ⟨nofun, id⟩ ⟨nofun, id⟩ nofun rfl rfl rfl
    | cons r queue => exact .take r queue (.fill [r]) rfl ⟨nofun, id⟩ ⟨nofun, id⟩ nofun rfl rfl rfl
  | fill batch =>
    unfold writerStep
    dsimp only
    split
    · cases queue with
      | nil => exact .turn (.encode batch []) ⟨nofun, id⟩ ⟨nofun, id⟩ nofun rfl rfl rfl
      | cons r queue =>
        exact .take r queue (.fill (batch ++ [r])) rfl ⟨nofun, id⟩ ⟨nofun, id⟩ nofun rfl rfl rfl
    · exact .turn (.encode batch []) ⟨nofun, id⟩ ⟨nofun, id⟩ nofun rfl rfl rfl
  | encode rest lines =>
    cases rest with
    | nil =>
      cases lines with
      | nil => exact .turn .testStop ⟨nofun, id⟩ ⟨nofun, id⟩ nofun rfl rfl rfl
      | cons line lines =>
        exact .turn (.writeLines (line :: lines)) ⟨nofun, id⟩ ⟨nofun, id⟩ nofun
          (List.append_nil _).symm rfl rfl
    | cons r rest =>
      unfold writerStep
      dsimp only
      split
      · rename_i hr
        exact .encoded r rest lines rfl hr
      · rename_i hr
        exact .dropped r rest lines rfl (Bool.eq_false_iff.mpr hr)
  | writeLines lines => exact .wroteLines lines rfl
  | countLines lines => exact .countedLines lines rfl
  | report => exact .reported rfl
  | writeStats line => exact .wroteStats line rfl
  | countStats => exact .countedStats rfl
  | finished => exact .idle

end JsonlLogger

end Hummingbird
