/-
  Where the records of `JsonlLogger` go, over every run.

  `Balanced` relates the calls of `write` so far to the counters, the queue, the batch and the
  file; each of the three parties keeps it (`Balanced.write`, `WriterBranch.balanced`,
  `Balanced.close`). `Reported` is the part about the closing statistics, which are taken when the
  loop has ended. `logger_accounts` puts both together; `countsEveryCall_fails` is a run in which
  `write` is called after `close`.
-/
import Hummingbird.Viewer.Logger

namespace Hummingbird

namespace JsonlLogger

variable {δ : Type*} {encodable : LogRecord δ → Bool} {s : JsonlLogger δ}

/-! ## What has been called and what has been written -/

/-- The number of calls of `write`. -/
def calls (h : History δ) : ℕ := h.countP fun k => k.out.isSome

/-- The number of calls of `write` that were not ignored. -/
def openCalls (h : History δ) : ℕ := h.countP fun k => k.out.any fun o => !o.isIgnored

/-- The number of calls of `write` before the stop flag was set. -/
def callsBeforeStop (h : History δ) : ℕ := h.countP fun k => k.out.isSome && !k.pre.stop

/-- The number of calls of `write` after the stop flag was set. -/
def callsAfterStop (h : History δ) : ℕ := h.countP fun k => k.out.isSome && k.pre.stop

/-- The records that the queue accepted, oldest first. -/
def accepted (h : History δ) : List (LogRecord δ) :=
  (h.filterMap fun k => k.out.bind Outcome.toRecord).reverse

/-- The records in the file. -/
def fileRecords (s : JsonlLogger δ) : List (LogRecord δ) := s.file.filterMap Line.toRecord

/-- The records counted as written; at the end `_count` also counts the statistics. -/
def written (s : JsonlLogger δ) : ℕ :=
  match s.writer with
  | .finished => s.count - 1
  | _ => s.count

theorem fileRecords_append_records (f : List (Line δ)) (lines : List (LogRecord δ)) :
    (f ++ lines.map Line.record).filterMap Line.toRecord = f.filterMap Line.toRecord ++ lines := by
  rw [List.filterMap_append, List.filterMap_map]
  congr 1
  apply List.filterMap_some

theorem written_of_inLoop (hw : s.writer.InLoop) : s.written = s.count := by
  unfold written
  split
  · rename_i hfinished
    rw [hfinished] at hw
    exact absurd trivial hw.2
  · rfl

/-! ## The balance -/

/-- After `n` calls that were not ignored, of which the queue accepted the records `acc`: every
    call is accounted for, and what has left the queue is, as far as it can be encoded, in the
    file or on the way to it. -/
structure Balanced (encodable : LogRecord δ → Bool) (n : ℕ) (acc : List (LogRecord δ))
    (s : JsonlLogger δ) : Prop where
  total : n = s.written + s.dropped + s.queue.length + s.writer.batch.length
  order : ∃ gone, acc = gone ++ (s.writer.unencoded ++ s.queue) ∧
    gone.filter encodable = s.fileRecords ++ s.writer.encoded

theorem balanced_construct (enabled : Bool) (start : ℚ) :
    Balanced encodable 0 [] (construct enabled start) := by
  cases enabled with
  | false => exact ⟨rfl, [], rfl, rfl⟩
  | true => exact ⟨rfl, [], rfl, rfl⟩

section Steps

variable {n : ℕ} {acc : List (LogRecord δ)}

/-- A call of `write` is ignored, or it is one more call to account for. -/
theorem Balanced.write (hb : Balanced encodable n acc s) (now wall : ℚ) (topic : String)
    (data : δ) :
    Balanced encodable (n + if (s.write now wall topic data).2.isIgnored then 0 else 1)
      (acc ++ (s.write now wall topic data).2.toRecord.toList) (s.write now wall topic data).1 := by
  obtain ⟨htotal, gone, hacc, hgone⟩ := hb
  unfold JsonlLogger.write
  split
  · exact ⟨htotal, gone, by rw [hacc]; exact List.append_nil _, hgone⟩
  · dsimp only
    split
    · refine ⟨?_, gone, ?_, hgone⟩
      · show n + 1 = s.written + s.dropped + (s.queue ++ [_]).length + s.writer.batch.length
        rw [List.length_append, List.length_singleton]
        omega
      · rw [hacc]
        simp [Outcome.toRecord]
    · refine ⟨?_, gone, ?_, hgone⟩
      · show n + 1 = s.written + (s.dropped + 1) + s.queue.length + s.writer.batch.length
        omega
      · rw [hacc]
        exact List.append_nil _

theorem Balanced.close (hb : Balanced encodable n acc s) : Balanced encodable n acc s.close := by
  obtain ⟨htotal, hgone⟩ := hb
  unfold JsonlLogger.close
  split
  · exact ⟨htotal, hgone⟩
  · split
    · exact ⟨htotal, hgone⟩
    · split
      · exact ⟨htotal, hgone⟩
      · exact ⟨htotal, hgone⟩

/-- The writer thread moves records on and loses none. -/
theorem WriterBranch.balanced {now wall : ℚ} {s' : JsonlLogger δ}
    (hbr : WriterBranch encodable now wall s s') (hb : Balanced encodable n acc s)
    (hstats : ∀ line, s.writer = .writeStats line → line.toRecord = none) :
    Balanced encodable n acc s' := by
  obtain ⟨htotal, gone, hacc, hgone⟩ := hb
  cases hbr with
  | idle => exact ⟨htotal, gone, hacc, hgone⟩
  | turn w hfrom hto _ hbatch hunencoded hencoded =>
    rw [written_of_inLoop hfrom] at htotal
    refine ⟨?_, gone, ?_, ?_⟩
    · rw [written_of_inLoop hto, hbatch]
      exact htotal
    · rw [hunencoded]
      exact hacc
    · rw [hencoded]
      exact hgone
  | take r queue w hqueue hfrom hto _ hbatch hunencoded hencoded =>
    rw [written_of_inLoop hfrom, hqueue, List.length_cons] at htotal
    refine ⟨?_, gone, ?_, ?_⟩
    · rw [written_of_inLoop hto, hbatch, List.length_append, List.length_singleton]
      dsimp only
      omega
    · rw [hacc, hqueue, hunencoded]
      simp
    · rw [hencoded]
      exact hgone
  | encoded r rest lines hw hr =>
    rw [written_of_inLoop (hw ▸ ⟨nofun, id⟩), hw, Writer.batch, List.length_append,
      List.length_cons] at htotal
    rw [hw] at hacc hgone
    refine ⟨?_, gone ++ [r], ?_, ?_⟩
    · simp only [written, Writer.batch, List.length_append, List.length_singleton]
      omega
    · rw [hacc]
      simp [Writer.unencoded]
    · rw [List.filter_append, hgone]
      simp [Writer.encoded, fileRecords, hr]
  | dropped r rest lines hw hr =>
    rw [written_of_inLoop (hw ▸ ⟨nofun, id⟩), hw, Writer.batch, List.length_append,
      List.length_cons] at htotal
    rw [hw] at hacc hgone
    refine ⟨?_, gone ++ [r], ?_, ?_⟩
    · simp only [written, Writer.batch, List.length_append]
      omega
    · rw [hacc]
      simp [Writer.unencoded]
    · rw [List.filter_append, hgone]
      simp [Writer.encoded, fileRecords, hr]
  | wroteLines lines hw =>
    rw [written, hw] at htotal
    rw [hw] at hacc hgone
    refine ⟨htotal, gone, hacc, ?_⟩
    rw [hgone]
    show _ = (s.file ++ lines.map Line.record).filterMap Line.toRecord ++ []
    rw [fileRecords_append_records, List.append_nil]
    rfl
  | countedLines lines hw =>
    rw [written_of_inLoop (hw ▸ ⟨nofun, id⟩), hw, Writer.batch] at htotal
    rw [hw] at hacc hgone
    refine ⟨?_, gone, hacc, hgone⟩
    simp only [written, Writer.batch, List.length_nil]
    omega
  | drained hw =>
    rw [written, hw] at htotal
    rw [hw] at hacc hgone
    exact ⟨htotal, gone, hacc, hgone⟩
  | reported hw =>
    rw [written, hw] at htotal
    rw [hw] at hacc hgone
    exact ⟨htotal, gone, hacc, hgone⟩
  | wroteStats line hw =>
    rw [written, hw] at htotal
    rw [hw] at hacc hgone
    refine ⟨htotal, gone, hacc, ?_⟩
    rw [hgone]
    show _ = (s.file ++ [line]).filterMap Line.toRecord ++ []
    rw [List.filterMap_append, List.filterMap_cons_none (hstats line hw), List.filterMap_nil,
      List.append_nil]
    rfl
  | countedStats hw =>
    rw [written, hw] at htotal
    rw [hw] at hacc hgone
    exact ⟨htotal, gone, hacc, hgone⟩

end Steps

/-! ## The closing statistics -/

/-- The statistics are in the file. -/
def Writer.Closed : Writer δ → Prop
  | .countStats => True
  | .finished => True
  | _ => False

theorem Writer.Closed.pastLoop {w : Writer δ} (hw : Writer.Closed w) : w.PastLoop := by
  cases w with
  | countStats => trivial
  | finished => trivial
  | _ => exact hw.elim

/-- What the place of the writer thread says about the flags and the file. -/
structure Phased (s : JsonlLogger δ) : Prop where
  started : s.writer ≠ .absent → s.enabled = true ∧ (s.stop = false → s.isOpen = true)
  tested : s.writer = .testEmpty → s.stop = true
  stopped : s.writer.PastLoop → s.stop = true
  pending : ∀ line, s.writer = .writeStats line → line.toRecord = none
  running : ¬ Writer.Closed s.writer → s.file = s.fileRecords.map Line.record
  closed : Writer.Closed s.writer →
    ∃ line : Line δ, line.toRecord = none ∧ s.file = s.fileRecords.map Line.record ++ [line]

theorem phased_construct (enabled : Bool) (start : ℚ) :
    Phased (construct enabled start : JsonlLogger δ) := by
  cases enabled with
  | false =>
    exact ⟨fun h => absurd rfl h, nofun, False.elim, nofun, fun _ => rfl, False.elim⟩
  | true =>
    exact ⟨fun _ => ⟨rfl, fun _ => rfl⟩, nofun, False.elim, nofun, fun _ => rfl, False.elim⟩

theorem Phased.write (hp : Phased s) (now wall : ℚ) (topic : String) (data : δ) :
    Phased (s.write now wall topic data).1 := by
  obtain ⟨hstarted, htested, hstopped, hpending, hrunning, hclosed⟩ := hp
  unfold JsonlLogger.write
  split
  · exact ⟨hstarted, htested, hstopped, hpending, hrunning, hclosed⟩
  · dsimp only
    split
    · exact ⟨hstarted, htested, hstopped, hpending, hrunning, hclosed⟩
    · exact ⟨hstarted, htested, hstopped, hpending, hrunning, hclosed⟩

theorem Phased.close (hp : Phased s) : Phased s.close := by
  obtain ⟨hstarted, htested, hstopped, hpending, hrunning, hclosed⟩ := hp
  unfold JsonlLogger.close
  split
  · exact ⟨hstarted, htested, hstopped, hpending, hrunning, hclosed⟩
  · split
    · exact ⟨fun h => ⟨(hstarted h).1, nofun⟩, fun _ => rfl, fun _ => rfl, hpending, hrunning,
        hclosed⟩
    · rename_i hstop
      split
      · exact ⟨fun h => ⟨(hstarted h).1, fun hs => absurd hs hstop⟩, htested, hstopped, hpending,
          hrunning, hclosed⟩
      · exact ⟨hstarted, htested, hstopped, hpending, hrunning, hclosed⟩

theorem not_closed_of_inLoop {w : Writer δ} (hw : w.InLoop) : ¬ Writer.Closed w :=
  fun hc => hw.2 hc.pastLoop

/-- A step inside the loop, which adds at most records to the file. -/
theorem Phased.loop (hp : Phased s) {s' : JsonlLogger δ} (lines : List (LogRecord δ))
    (hflags : s'.enabled = s.enabled ∧ s'.stop = s.stop ∧ s'.isOpen = s.isOpen)
    (hfile : s'.file = s.file ++ lines.map Line.record) (hfrom : s.writer.InLoop)
    (hto : s'.writer.InLoop) (htested : s'.writer = .testEmpty → s'.stop = true) : Phased s' := by
  obtain ⟨henabled, hstop, hisOpen⟩ := hflags
  refine ⟨?_, htested, fun h => absurd h hto.2, ?_, ?_,
    fun h => absurd h (not_closed_of_inLoop hto)⟩
  · intro _
    rw [henabled, hstop, hisOpen]
    exact hp.started hfrom.1
  · intro line hline
    rw [hline] at hto
    exact absurd trivial hto.2
  · intro _
    unfold fileRecords
    rw [hfile, fileRecords_append_records, List.map_append]
    congr 1
    exact hp.running (not_closed_of_inLoop hfrom)

/-- A step inside the loop that leaves the file alone. -/
theorem Phased.loop_same (hp : Phased s) {s' : JsonlLogger δ}
    (hflags : s'.enabled = s.enabled ∧ s'.stop = s.stop ∧ s'.isOpen = s.isOpen)
    (hfile : s'.file = s.file) (hfrom : s.writer.InLoop) (hto : s'.writer.InLoop)
    (htested : s'.writer = .testEmpty → s'.stop = true) : Phased s' :=
  hp.loop [] hflags (by rw [hfile, List.map_nil, List.append_nil]) hfrom hto htested

theorem WriterBranch.phased {now wall : ℚ} {s' : JsonlLogger δ}
    (hbr : WriterBranch encodable now wall s s') (hp : Phased s) : Phased s' := by
  have hflags := And.intro (Eq.refl s.enabled) (And.intro (Eq.refl s.stop) (Eq.refl s.isOpen))
  cases hbr with
  | idle => exact hp
  | turn w hfrom hto hstop => exact hp.loop_same hflags rfl hfrom hto hstop
  | take r queue w _ hfrom hto hfill =>
    exact hp.loop_same hflags rfl hfrom hto fun h => absurd h hfill
  | encoded r rest lines hw =>
    exact hp.loop_same hflags rfl (hw ▸ ⟨nofun, id⟩) ⟨nofun, id⟩ nofun
  | dropped r rest lines hw =>
    exact hp.loop_same hflags rfl (hw ▸ ⟨nofun, id⟩) ⟨nofun, id⟩ nofun
  | wroteLines lines hw => exact hp.loop lines hflags rfl (hw ▸ ⟨nofun, id⟩) ⟨nofun, id⟩ nofun
  | countedLines lines hw =>
    exact hp.loop_same hflags rfl (hw ▸ ⟨nofun, id⟩) ⟨nofun, id⟩ nofun
  | drained hw =>
    obtain ⟨hstarted, htested, -, -, hrunning, -⟩ := hp
    rw [hw] at hstarted hrunning
    exact ⟨fun _ => hstarted nofun, nofun, fun _ => htested hw, nofun, fun _ => hrunning id,
      False.elim⟩
  | reported hw =>
    obtain ⟨hstarted, -, hstopped, -, hrunning, -⟩ := hp
    rw [hw] at hstarted hstopped hrunning
    refine ⟨fun _ => hstarted nofun, nofun, fun _ => hstopped trivial, ?_, fun _ => hrunning id,
      False.elim⟩
    intro line hline
    obtain rfl := Writer.writeStats.inj hline
    rfl
  | wroteStats line hw =>
    obtain ⟨hstarted, -, hstopped, hpending, hrunning, -⟩ := hp
    rw [hw] at hstarted hstopped hrunning
    have hnone := hpending line hw
    refine ⟨fun _ => hstarted nofun, nofun, fun _ => hstopped trivial, nofun,
      fun h => absurd trivial h, fun _ => ⟨line, hnone, ?_⟩⟩
    have hrecords :
        (s.file ++ [line]).filterMap Line.toRecord = s.file.filterMap Line.toRecord := by
      rw [List.filterMap_append, List.filterMap_cons_none hnone, List.filterMap_nil,
        List.append_nil]
    show s.file ++ [line] = ((s.file ++ [line]).filterMap Line.toRecord).map Line.record ++ [line]
    rw [hrecords]
    congr 1
    exact hrunning id
  | countedStats hw =>
    obtain ⟨hstarted, -, hstopped, -, -, hclosed⟩ := hp
    rw [hw] at hstarted hstopped hclosed
    exact ⟨fun _ => hstarted nofun, nofun, fun _ => hstopped trivial, nofun,
      fun h => absurd trivial h, fun _ => hclosed trivial⟩

/-- What the closing statistics say, if nothing was written after the stop flag was set: `n` calls
    in all. -/
structure Reported (n : ℕ) (s : JsonlLogger δ) : Prop where
  drained : s.writer = .report → s.queue = []
  pending : ∀ wall elapsed written dropped,
    s.writer = .writeStats (.stats wall elapsed written dropped) → written + dropped = n
  inFile : ∀ wall elapsed written dropped,
    .stats wall elapsed written dropped ∈ s.file → written + dropped = n

/-- There are no statistics before the stop flag is set. -/
theorem Phased.reported {n : ℕ} (hp : Phased s) (hs : s.stop = false) : Reported n s := by
  have hloop : ¬ s.writer.PastLoop := by
    intro h
    rw [hp.stopped h] at hs
    cases hs
  refine ⟨?_, ?_, ?_⟩
  · intro h
    rw [h] at hloop
    exact absurd trivial hloop
  · intro wall elapsed written dropped h
    rw [h] at hloop
    exact absurd trivial hloop
  · intro wall elapsed written dropped h
    rw [hp.running fun hc => hloop hc.pastLoop] at h
    obtain ⟨r, -, hr⟩ := List.mem_map.mp h
    cases hr

/-- While the writer thread is in its loop there are only the statistics of the file. -/
theorem reported_of_inLoop {n : ℕ} (hto : s.writer.InLoop)
    (hfile : ∀ wall elapsed written dropped,
      .stats wall elapsed written dropped ∈ s.file → written + dropped = n) : Reported n s := by
  refine ⟨?_, ?_, hfile⟩
  · intro h
    rw [h] at hto
    exact absurd trivial hto.2
  · intro wall elapsed written dropped h
    rw [h] at hto
    exact absurd trivial hto.2

theorem WriterBranch.reports {n : ℕ} {acc : List (LogRecord δ)} {now wall : ℚ}
    {s' : JsonlLogger δ} (hbr : WriterBranch encodable now wall s s') (hr : Reported n s)
    (hb : Balanced encodable n acc s) : Reported n s' := by
  obtain ⟨hdrained, hpending, hfile⟩ := hr
  cases hbr with
  | idle => exact ⟨hdrained, hpending, hfile⟩
  | turn w _ hto => exact reported_of_inLoop hto hfile
  | take r queue w _ _ hto => exact reported_of_inLoop hto hfile
  | encoded => exact ⟨nofun, nofun, hfile⟩
  | dropped => exact ⟨nofun, nofun, hfile⟩
  | wroteLines lines =>
    refine ⟨nofun, nofun, ?_⟩
    intro wall elapsed written dropped h
    rcases List.mem_append.mp h with h | h
    · exact hfile wall elapsed written dropped h
    · obtain ⟨r, -, hr⟩ := List.mem_map.mp h
      cases hr
  | countedLines => exact ⟨nofun, nofun, hfile⟩
  | drained _ hqueue => exact ⟨fun _ => hqueue, nofun, hfile⟩
  | reported hw =>
    refine ⟨nofun, ?_, hfile⟩
    intro wall elapsed written dropped h
    obtain ⟨-, -, rfl, rfl⟩ := Line.stats.inj (Writer.writeStats.inj h)
    have htotal := hb.total
    rw [written, hw, hdrained hw] at htotal
    exact htotal.symm
  | wroteStats line hw =>
    refine ⟨nofun, nofun, ?_⟩
    intro wall elapsed written dropped h
    rcases List.mem_append.mp h with h | h
    · exact hfile wall elapsed written dropped h
    · obtain rfl := List.mem_singleton.mp h
      exact hpending wall elapsed written dropped hw
  | countedStats => exact ⟨nofun, nofun, hfile⟩

/-! ## Every run -/

/-- What every step keeps. -/
structure Kept (encodable : LogRecord δ → Bool) (h : History δ) (s : JsonlLogger δ) : Prop where
  balanced : Balanced encodable (openCalls h) (accepted h) s
  phased : Phased s
  reported : callsAfterStop h = 0 → Reported (openCalls h) s
  early : callsAfterStop h = 0 → s.writer ≠ .absent → openCalls h = callsBeforeStop h

theorem kept_construct (enabled : Bool) (start : ℚ) :
    Kept encodable [] (construct enabled start : JsonlLogger δ) where
  balanced := balanced_construct enabled start
  phased := phased_construct enabled start
  reported _ := (phased_construct enabled start).reported (by cases enabled <;> rfl)
  early _ _ := rfl

theorem accepted_cons (k : Entry δ) (h : History δ) :
    accepted (k :: h) = accepted h ++ (k.out.bind Outcome.toRecord).toList := by
  unfold accepted
  rw [List.filterMap_cons]
  cases k.out.bind Outcome.toRecord with
  | none => exact (List.append_nil _).symm
  | some r => exact List.reverse_cons

section Steps

variable {h : History δ} {k : Entry δ}

/-- A step that is no call of `write`. -/
theorem counts_of_out_none (hk : k.out = none) : openCalls (k :: h) = openCalls h ∧
    callsBeforeStop (k :: h) = callsBeforeStop h ∧ callsAfterStop (k :: h) = callsAfterStop h ∧
      accepted (k :: h) = accepted h := by
  refine ⟨?_, ?_, ?_, ?_⟩
  · apply List.countP_cons_of_neg
    simp [hk]
  · apply List.countP_cons_of_neg
    simp [hk]
  · apply List.countP_cons_of_neg
    simp [hk]
  · rw [accepted_cons, hk]
    exact List.append_nil _

theorem write_stop (s : JsonlLogger δ) (now wall : ℚ) (topic : String) (data : δ) :
    (s.write now wall topic data).1.stop = s.stop := by
  unfold JsonlLogger.write
  split
  · rfl
  · dsimp only
    split
    · rfl
    · rfl

theorem write_writer (s : JsonlLogger δ) (now wall : ℚ) (topic : String) (data : δ) :
    (s.write now wall topic data).1.writer = s.writer := by
  unfold JsonlLogger.write
  split
  · rfl
  · dsimp only
    split
    · rfl
    · rfl

/-- Before the stop flag is set no call is ignored. -/
theorem Phased.write_not_ignored (hp : Phased s) (hw : s.writer ≠ .absent) (hs : s.stop = false)
    (now wall : ℚ) (topic : String) (data : δ) :
    (s.write now wall topic data).2.isIgnored = false := by
  obtain ⟨henabled, hopen⟩ := hp.started hw
  have hn : ¬ (s.enabled = false ∨ s.isOpen = false) := by
    rw [henabled, hopen hs]
    simp
  unfold JsonlLogger.write
  rw [if_neg hn]
  dsimp only
  split
  · rfl
  · rfl

variable (encodable h) in
/-- A call of `write` counts as made before the stop flag was set, or after it. -/
theorem counts_of_write (s : JsonlLogger δ) (now wall : ℚ) (topic : String) (data : δ) :
    openCalls ((logger encodable).record s (.write now wall topic data) :: h) =
        openCalls h + (if (s.write now wall topic data).2.isIgnored then 0 else 1) ∧
      callsBeforeStop ((logger encodable).record s (.write now wall topic data) :: h) =
        callsBeforeStop h + (if s.stop then 0 else 1) ∧
      callsAfterStop ((logger encodable).record s (.write now wall topic data) :: h) =
        callsAfterStop h + (if s.stop then 1 else 0) := by
  refine ⟨?_, ?_, ?_⟩
  · unfold openCalls
    rw [List.countP_cons]
    congr 1
    show (if (!(s.write now wall topic data).2.isIgnored) = true then 1 else 0) = _
    cases (s.write now wall topic data).2.isIgnored <;> rfl
  · unfold callsBeforeStop
    rw [List.countP_cons]
    congr 1
    show (if (!s.stop) = true then 1 else 0) = _
    cases s.stop <;> rfl
  · unfold callsAfterStop
    rw [List.countP_cons]
    rfl

theorem Kept.write (hk : Kept encodable h s) (now wall : ℚ) (topic : String) (data : δ) :
    Kept encodable ((logger encodable).record s (.write now wall topic data) :: h)
      (s.write now wall topic data).1 := by
  have hphased := hk.phased.write now wall topic data
  obtain ⟨hopen, hbefore, hafter⟩ := counts_of_write encodable h s now wall topic data
  refine ⟨?_, hphased, ?_, ?_⟩
  · rw [hopen, accepted_cons]
    exact hk.balanced.write now wall topic data
  · intro hlate
    apply hphased.reported
    rw [write_stop]
    by_contra hs
    rw [hafter, if_pos (by simpa using hs)] at hlate
    omega
  · intro hlate hw
    rw [write_writer] at hw
    have hs : s.stop = false := by
      by_contra hs
      rw [hafter, if_pos (by simpa using hs)] at hlate
      omega
    rw [hafter] at hlate
    have hearly := hk.early (by omega) hw
    rw [hopen, hbefore, hk.phased.write_not_ignored hw hs, hs, hearly]

theorem close_same (s : JsonlLogger δ) :
    s.close.writer = s.writer ∧ s.close.queue = s.queue ∧ s.close.file = s.file := by
  unfold JsonlLogger.close
  split
  · exact ⟨rfl, rfl, rfl⟩
  · split
    · exact ⟨rfl, rfl, rfl⟩
    · split
      · exact ⟨rfl, rfl, rfl⟩
      · exact ⟨rfl, rfl, rfl⟩

theorem Kept.close (hk : Kept encodable h s) (now : ℚ) :
    Kept encodable ((logger encodable).record s (.close now) :: h) s.close := by
  obtain ⟨hopen, hbefore, hafter, hacc⟩ :=
    counts_of_out_none (h := h) (k := (logger encodable).record s (.close now)) rfl
  obtain ⟨hbalanced, hphased, hreported, hearly⟩ := hk
  obtain ⟨hwriter, hqueue, hfile⟩ := close_same s
  refine ⟨?_, hphased.close, ?_, ?_⟩
  · rw [hopen, hacc]
    exact hbalanced.close
  · rw [hafter, hopen]
    intro hlate
    have hr := hreported hlate
    exact ⟨by rw [hwriter, hqueue]; exact hr.drained, by rw [hwriter]; exact hr.pending,
      by rw [hfile]; exact hr.inFile⟩
  · rw [hafter, hopen, hbefore, hwriter]
    exact hearly

theorem Kept.writerStep (hk : Kept encodable h s) (now wall : ℚ) :
    Kept encodable ((logger encodable).record s (.writer now wall) :: h)
      (s.writerStep encodable now wall) := by
  obtain ⟨hopen, hbefore, hafter, hacc⟩ :=
    counts_of_out_none (h := h) (k := (logger encodable).record s (.writer now wall)) rfl
  obtain ⟨hbalanced, hphased, hreported, hearly⟩ := hk
  have hbr := writerStep_branch encodable s now wall
  refine ⟨?_, hbr.phased hphased, ?_, ?_⟩
  · rw [hopen, hacc]
    exact hbr.balanced hbalanced hphased.pending
  · rw [hafter, hopen]
    intro hlate
    exact hbr.reports (hreported hlate) hbalanced
  · rw [hafter, hopen, hbefore]
    intro hlate hw
    apply hearly hlate
    intro habsent
    apply hw
    unfold JsonlLogger.writerStep
    rw [habsent]
    exact habsent

end Steps

/-- What a run of the logger promises: the file holds, in order, a prefix of the records that the
    queue accepted and that can be encoded, and possibly the statistics after them; every call
    that found the log open is accounted for; and the statistics tell the number of calls before
    the stop flag was set, if there are none after it. -/
structure Accounted (encodable : LogRecord δ → Bool) (h : History δ) (s : JsonlLogger δ) :
    Prop where
  file : ∃ closing : List (Line δ), s.file = s.fileRecords.map Line.record ++ closing ∧
    closing.length ≤ 1 ∧ ∀ line ∈ closing, line.toRecord = none
  inOrder : s.fileRecords <+: (accepted h).filter encodable
  total : openCalls h = s.written + s.dropped + s.queue.length + s.writer.batch.length
  report : ∀ wall elapsed written dropped, .stats wall elapsed written dropped ∈ s.file →
    callsAfterStop h = 0 → written + dropped = callsBeforeStop h

theorem Phased.file (hp : Phased s) :
    ∃ closing : List (Line δ), s.file = s.fileRecords.map Line.record ++ closing ∧
      closing.length ≤ 1 ∧ ∀ line ∈ closing, line.toRecord = none := by
  by_cases hc : Writer.Closed s.writer
  · obtain ⟨line, hline, hfile⟩ := hp.closed hc
    refine ⟨[line], hfile, le_rfl, ?_⟩
    intro line' hline'
    obtain rfl := List.mem_singleton.mp hline'
    exact hline
  · refine ⟨[], ?_, Nat.zero_le 1, fun line hline => absurd hline List.not_mem_nil⟩
    rw [List.append_nil]
    exact hp.running hc

theorem Kept.accounted {h : History δ} (hk : Kept encodable h s) : Accounted encodable h s where
  file := hk.phased.file
  inOrder := by
    obtain ⟨gone, hacc, hgone⟩ := hk.balanced.order
    rw [hacc, List.filter_append, hgone, List.append_assoc]
    exact List.prefix_append _ _
  total := hk.balanced.total
  report := by
    intro wall elapsed written dropped hstats hlate
    have hclosed : Writer.Closed s.writer := by
      by_contra hn
      rw [hk.phased.running hn] at hstats
      obtain ⟨r, -, hr⟩ := List.mem_map.mp hstats
      cases hr
    have hstarted : s.writer ≠ .absent := by
      intro habsent
      rw [habsent] at hclosed
      exact hclosed
    rw [← hk.early hlate hstarted]
    exact (hk.reported hlate).inFile wall elapsed written dropped hstats

/-- Every interleaving of the calls of `write`, the writer thread and `close` accounts for what
    was written. -/
theorem logger_accounts {enabled : Bool} {start t : ℚ} {h : History δ}
    (hr : IsRun encodable enabled start h s t) : Accounted encodable h s := by
  apply Kept.accounted
  refine Machine.Run.invariant (P := fun h s _ => Kept encodable h s) hr
    (kept_construct enabled start) ?_
  intro h s t e _ hk _ _
  cases e with
  | write now wall topic data => exact hk.write now wall topic data
  | writer now wall => exact hk.writerStep now wall
  | close now => exact hk.close now

/-- The metadata are written, then the log is closed. -/
def closedEvents : List (Event Unit) :=
  .write 1 0 "viewer_meta" () :: List.replicate 7 (.writer 1 0) ++
    .close 2 :: List.replicate 5 (.writer 2 0) ++ [.close 2]

/-- In that run the statistics report one record written and none dropped. -/
theorem logger_accounts_closed : ∃ h s t, IsRun (fun _ : LogRecord Unit => true) true 0 h s t ∧
    s.file = [.record ⟨0, 1, "viewer_meta", ()⟩, .stats 0 2 1 0] ∧ callsAfterStop h = 0 ∧
      Accounted (fun _ => true) h s := by
  obtain ⟨t, hr⟩ := Machine.run_final (M := logger fun _ : LogRecord Unit => true)
    (construct true 0) 0 closedEvents (by decide +kernel)
  exact ⟨_, _, t, hr, by decide +kernel, by decide +kernel, logger_accounts hr⟩

/-- Every call of `write` is accounted for, whether it found the log open or not, with the given
    number of records counted as written. -/
def CountsEveryCall (written : JsonlLogger δ → ℕ) (h : History δ) (s : JsonlLogger δ) : Prop :=
  calls h = written s + s.dropped + s.queue.length + s.writer.batch.length

/-- Two calls after `close` are ignored and counted nowhere, whether `_count` is taken, which also
    counts the statistics, or the number of records in the file. -/
theorem countsEveryCall_fails : ∃ h s t, IsRun (fun _ : LogRecord Unit => true) true 0 h s t ∧
    ¬ CountsEveryCall (fun s => s.count) h s ∧
      ¬ CountsEveryCall (fun s => s.fileRecords.length) h s := by
  obtain ⟨t, hr⟩ := Machine.run_final (M := logger fun _ : LogRecord Unit => true)
    (construct true 0) 0 (closedEvents ++ List.replicate 2 (.write 3 0 "" ())) (by decide +kernel)
  refine ⟨_, _, t, hr, ?_, ?_⟩
  · unfold CountsEveryCall
    decide +kernel
  · unfold CountsEveryCall
    decide +kernel

end JsonlLogger

end Hummingbird
