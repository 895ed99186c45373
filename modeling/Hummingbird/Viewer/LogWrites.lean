/-
  Which calls of `JsonlLogger.write` are in the file.

  At every moment of a run the file holds records of some of the calls, in their order
  (`fileRecords_sublist`). As long as nothing has been dropped they are those of the first calls
  (`fileRecords_prefix`), and in the end those of all calls, if none came after the stop flag was
  set (`fileRecords_eq`). `Writes` is what every step keeps, beside `Kept`.
-/
import Hummingbird.Viewer.Accounting

namespace Hummingbird

namespace JsonlLogger

variable {δ : Type*} {encodable : LogRecord δ → Bool} {start : ℚ} {h : History δ}
  {s : JsonlLogger δ}

/-- The record that a call of `write` stands for. -/
def Event.offers (start : ℚ) : Event δ → Option (LogRecord δ)
  | write now wall topic data => some ⟨wall, now - start, topic, data⟩
  | _ => none

/-- The records of all calls of `write`, oldest first. -/
def offered (start : ℚ) (h : History δ) : List (LogRecord δ) :=
  (h.filterMap fun k => k.event.offers start).reverse

theorem offered_cons (k : Entry δ) :
    offered start (k :: h) = offered start h ++ (k.event.offers start).toList := by
  unfold offered
  rw [List.filterMap_cons]
  cases k.event.offers start with
  | none => exact (List.append_nil _).symm
  | some r => exact List.reverse_cons

/-- Where the records of the calls are, in a logger that is switched on. -/
structure Writes (start : ℚ) (h : History δ) (s : JsonlLogger δ) : Prop where
  clock : s.startMonotonic = start
  enabled : s.enabled = true
  isOpen : s.stop = false → s.isOpen = true
  sublist : (accepted h).Sublist (offered start h)
  first : s.dropped = 0 → accepted h <+: offered start h
  all : s.dropped = 0 → s.isOpen = true ∨ callsAfterStop h = 0 → accepted h = offered start h
  order : s.dropped = 0 →
    accepted h = s.fileRecords ++ (s.writer.encoded ++ (s.writer.unencoded ++ s.queue))
  drained : callsAfterStop h = 0 → s.writer.PastLoop → s.queue = []

theorem writes_construct (start : ℚ) : Writes start [] (construct true start : JsonlLogger δ) where
  clock := rfl
  enabled := rfl
  isOpen _ := rfl
  sublist := .refl _
  first _ := List.prefix_rfl
  all _ _ := rfl
  order _ := rfl
  drained _ _ := rfl

/-- A step that is no call of `write`. -/
theorem Writes.move (hw : Writes start h s) {k : Entry δ} (hout : k.out = none)
    (hevent : k.event.offers start = none) {s' : JsonlLogger δ}
    (hsame : s'.startMonotonic = s.startMonotonic ∧ s'.enabled = s.enabled)
    (hopen : s'.isOpen = true → s.isOpen = true)
    (hstop : s'.stop = false → s.stop = false ∧ s'.isOpen = s.isOpen)
    (hdropped : s'.dropped = 0 → s.dropped = 0)
    (horder : s'.dropped = 0 →
      s'.fileRecords ++ (s'.writer.encoded ++ (s'.writer.unencoded ++ s'.queue)) =
        s.fileRecords ++ (s.writer.encoded ++ (s.writer.unencoded ++ s.queue)))
    (hdrained : s'.writer.PastLoop → s'.queue = [] ∨ s.writer.PastLoop ∧ s'.queue = s.queue) :
    Writes start (k :: h) s' := by
  obtain ⟨-, -, hafter, haccepted⟩ := counts_of_out_none (h := h) hout
  have hoffered : offered start (k :: h) = offered start h := by
    rw [offered_cons, hevent]
    exact List.append_nil _
  refine ⟨by rw [hsame.1, hw.clock], by rw [hsame.2, hw.enabled], ?_, ?_, ?_, ?_, ?_, ?_⟩
  · intro h
    rw [(hstop h).2]
    exact hw.isOpen (hstop h).1
  · rw [haccepted, hoffered]
    exact hw.sublist
  · rw [haccepted, hoffered]
    exact fun hd => hw.first (hdropped hd)
  · rw [haccepted, hoffered, hafter]
    exact fun hd h => hw.all (hdropped hd) (h.imp_left hopen)
  · intro hd
    rw [haccepted, horder hd]
    exact hw.order (hdropped hd)
  · rw [hafter]
    intro hlate hpast
    rcases hdrained hpast with hnil | ⟨hpast, hqueue⟩
    · exact hnil
    · rw [hqueue]
      exact hw.drained hlate hpast

/-- A call is ignored once the log has been given up, or it is dropped, or its record comes behind
    all others. -/
theorem Writes.write (hw : Writes start h s) (hp : Phased s) (now wall : ℚ) (topic : String)
    (data : δ) : Writes start ((logger encodable).record s (.write now wall topic data) :: h)
      (s.write now wall topic data).1 := by
  let r : LogRecord δ := ⟨wall, now - start, topic, data⟩
  obtain ⟨-, -, hafter⟩ := counts_of_write encodable h s now wall topic data
  have hoffered : offered start ((logger encodable).record s (.write now wall topic data) :: h) =
      offered start h ++ [r] := offered_cons _
  have haccepted := accepted_cons ((logger encodable).record s (.write now wall topic data)) h
  change _ = accepted h ++ (s.write now wall topic data).2.toRecord.toList at haccepted
  have hdrained :
      callsAfterStop ((logger encodable).record s (.write now wall topic data) :: h) = 0 →
        ¬ s.writer.PastLoop := by
    intro hlate hpast
    rw [hafter, if_pos (hp.stopped hpast)] at hlate
    cases hlate
  unfold JsonlLogger.write at haccepted ⊢
  split at haccepted
  · rename_i hclosed
    have hlog : s.isOpen = false := hclosed.resolve_left (by simp [hw.enabled])
    have hstop : s.stop = true := by
      by_contra h
      have hopen := hw.isOpen (Bool.eq_false_iff.mpr h)
      rw [hlog] at hopen
      cases hopen
    rw [if_pos hclosed]
    replace haccepted : _ = accepted h := haccepted.trans (List.append_nil _)
    refine ⟨hw.clock, hw.enabled, hw.isOpen, ?_, ?_, ?_, ?_, ?_⟩
    · rw [haccepted, hoffered]
      exact hw.sublist.trans (List.sublist_append_left _ _)
    · rw [haccepted, hoffered]
      exact fun hd => (hw.first hd).trans (List.prefix_append _ _)
    · rintro - (hopen | hlate)
      · rw [hlog] at hopen
        cases hopen
      · rw [hafter, if_pos hstop] at hlate
        cases hlate
    · rw [haccepted]
      exact hw.order
    · exact fun hlate hpast => absurd hpast (hdrained hlate)
  · rename_i hopen
    rw [if_neg hopen]
    have hlog : s.isOpen = true := by
      by_contra h
      exact hopen (Or.inr (Bool.eq_false_iff.mpr h))
    dsimp only at haccepted ⊢
    split at haccepted
    · rename_i hroom
      rw [if_pos hroom]
      have hall : s.dropped = 0 → accepted h = offered start h := fun hd => hw.all hd (Or.inl hlog)
      rw [hw.clock] at haccepted ⊢
      change _ = accepted h ++ [r] at haccepted
      refine ⟨rfl, hw.enabled, hw.isOpen, ?_, ?_, ?_, ?_, ?_⟩
      · rw [haccepted, hoffered]
        exact hw.sublist.append (.refl _)
      · rw [haccepted, hoffered]
        intro hd
        rw [hall hd]
      · rw [haccepted, hoffered]
        intro hd _
        rw [hall hd]
      · intro hd
        rw [haccepted, hw.order hd]
        simp only [List.append_assoc, fileRecords, r]
      · exact fun hlate hpast => absurd hpast (hdrained hlate)
    · rename_i hfull
      rw [if_neg hfull]
      replace haccepted : _ = accepted h := haccepted.trans (List.append_nil _)
      have hdropped : s.dropped + 1 ≠ 0 := Nat.succ_ne_zero _
      refine ⟨hw.clock, hw.enabled, hw.isOpen, ?_, fun hd => absurd hd hdropped,
        fun hd => absurd hd hdropped, fun hd => absurd hd hdropped, ?_⟩
      · rw [haccepted, hoffered]
        exact hw.sublist.trans (List.sublist_append_left _ _)
      · exact fun hlate hpast => absurd hpast (hdrained hlate)

/-- What `close` does to the flags. -/
theorem close_flags (s : JsonlLogger δ) :
    (s.close.startMonotonic = s.startMonotonic ∧ s.close.enabled = s.enabled ∧
      s.close.dropped = s.dropped) ∧ (s.close.isOpen = true → s.isOpen = true) ∧
        (s.close.stop = false → s.stop = false ∧ s.close.isOpen = s.isOpen) := by
  unfold JsonlLogger.close
  split
  · exact ⟨⟨rfl, rfl, rfl⟩, id, fun h => ⟨h, rfl⟩⟩
  · split
    · exact ⟨⟨rfl, rfl, rfl⟩, id, nofun⟩
    · rename_i hstop
      split
      · exact ⟨⟨rfl, rfl, rfl⟩, nofun, fun h => absurd h hstop⟩
      · exact ⟨⟨rfl, rfl, rfl⟩, id, fun h => ⟨h, rfl⟩⟩

theorem Writes.close (hw : Writes start h s) (now : ℚ) :
    Writes start ((logger encodable).record s (.close now) :: h) s.close := by
  obtain ⟨hwriter, hqueue, hfile⟩ := close_same s
  obtain ⟨⟨hclock, henabled, hdropped⟩, hopen, hstop⟩ := close_flags s
  refine hw.move rfl rfl ⟨hclock, henabled⟩ hopen hstop (by rw [hdropped]; exact id) ?_ ?_
  · intro _
    unfold fileRecords
    rw [hfile, hwriter, hqueue]
  · intro hpast
    rw [hwriter] at hpast
    exact Or.inr ⟨hpast, hqueue⟩

/-- The writer thread passes the records on in their order. -/
theorem WriterBranch.writes {now wall : ℚ} {s' : JsonlLogger δ}
    (hbr : WriterBranch encodable now wall s s') (hw : Writes start h s) (hp : Phased s)
    {k : Entry δ} (hout : k.out = none) (hevent : k.event.offers start = none) :
    Writes start (k :: h) s' := by
  have hflags := And.intro (Eq.refl s.startMonotonic) (Eq.refl s.enabled)
  have hstop : s.stop = false → s.stop = false ∧ s.isOpen = s.isOpen := fun h => ⟨h, rfl⟩
  cases hbr with
  | idle => exact hw.move hout hevent hflags id hstop id (fun _ => rfl) fun h => Or.inr ⟨h, rfl⟩
  | turn w hfrom hto _ _ hunencoded hencoded =>
    refine hw.move hout hevent hflags id hstop id (fun _ => ?_) fun h => absurd h hto.2
    dsimp only
    rw [hunencoded, hencoded]
    rfl
  | take r queue w hqueue hfrom hto _ _ hunencoded hencoded =>
    refine hw.move hout hevent hflags id hstop id (fun _ => ?_) fun h => absurd h hto.2
    dsimp only
    rw [hunencoded, hencoded, hqueue, List.append_assoc]
    rfl
  | encoded r rest lines hwriter hr =>
    refine hw.move hout hevent hflags id hstop id (fun _ => ?_) False.elim
    simp [hwriter, Writer.encoded, Writer.unencoded, fileRecords]
  | dropped r rest lines hwriter hr =>
    have hdropped : s.dropped + 1 ≠ 0 := Nat.succ_ne_zero _
    exact hw.move hout hevent hflags id hstop (fun hd => absurd hd hdropped)
      (fun hd => absurd hd hdropped) False.elim
  | wroteLines lines hwriter =>
    refine hw.move hout hevent hflags id hstop id (fun _ => ?_) False.elim
    unfold fileRecords
    rw [fileRecords_append_records, hwriter, List.append_assoc]
    rfl
  | countedLines lines hwriter =>
    refine hw.move hout hevent hflags id hstop id (fun _ => ?_) False.elim
    rw [hwriter]
    rfl
  | drained hwriter hqueue =>
    refine hw.move hout hevent hflags id hstop id (fun _ => ?_) fun _ => Or.inl hqueue
    rw [hwriter]
    rfl
  | reported hwriter =>
    refine hw.move hout hevent hflags id hstop id (fun _ => ?_) fun _ => Or.inr ⟨?_, rfl⟩
    · rw [hwriter]
      rfl
    · rw [hwriter]
      trivial
  | wroteStats line hwriter =>
    refine hw.move hout hevent hflags id hstop id (fun _ => ?_) fun _ => Or.inr ⟨?_, rfl⟩
    · unfold fileRecords
      rw [List.filterMap_append, List.filterMap_cons_none (hp.pending line hwriter),
        List.filterMap_nil, List.append_nil, hwriter]
      rfl
    · rw [hwriter]
      trivial
  | countedStats hwriter =>
    refine hw.move hout hevent hflags id hstop id (fun _ => ?_) fun _ => Or.inr ⟨?_, rfl⟩
    · rw [hwriter]
      rfl
    · rw [hwriter]
      trivial

/-! ## Every run -/

section Runs

variable {t : ℚ}

theorem IsRun.kept {enabled : Bool} (hr : IsRun encodable enabled start h s t) :
    Kept encodable h s := by
  refine Machine.Run.invariant (P := fun h s _ => Kept encodable h s) hr
    (kept_construct enabled start) ?_
  intro h s t e _ hk _ _
  cases e with
  | write now wall topic data => exact hk.write now wall topic data
  | writer now wall => exact hk.writerStep now wall
  | close now => exact hk.close now

theorem IsRun.writes (hr : IsRun encodable true start h s t) : Writes start h s := by
  refine Machine.Run.invariant (P := fun h s _ => Writes start h s) hr (writes_construct start) ?_
  intro h s t e hrun hw _ _
  have hp := (IsRun.kept hrun).phased
  cases e with
  | write now wall topic data => exact hw.write hp now wall topic data
  | writer now wall => exact (writerStep_branch encodable s now wall).writes hw hp rfl rfl
  | close now => exact hw.close now

/-- The records in the file are some of those that `write` was called with, in their order. -/
theorem IsRun.fileRecords_sublist (hr : IsRun encodable true start h s t) :
    s.fileRecords.Sublist (offered start h) := by
  obtain ⟨gone, haccepted, hgone⟩ := (IsRun.kept hr).balanced.order
  have hfile : s.fileRecords.Sublist (gone.filter encodable) := by
    rw [hgone]
    exact List.sublist_append_left _ _
  refine ((hfile.trans List.filter_sublist).trans ?_).trans (IsRun.writes hr).sublist
  rw [haccepted]
  exact List.sublist_append_left _ _

/-- As long as nothing has been dropped they are the first ones. -/
theorem IsRun.fileRecords_prefix (hr : IsRun encodable true start h s t) (hd : s.dropped = 0) :
    s.fileRecords <+: offered start h := by
  have hw := IsRun.writes hr
  refine List.IsPrefix.trans ?_ (hw.first hd)
  rw [hw.order hd]
  exact List.prefix_append _ _

/-- In the end they are all of them, unless there was a call after the stop flag was set. -/
theorem IsRun.fileRecords_eq (hr : IsRun encodable true start h s t) (hd : s.dropped = 0)
    (hlate : callsAfterStop h = 0) (hfinished : s.writer = .finished) :
    s.fileRecords = offered start h := by
  have hw := IsRun.writes hr
  have hqueue : s.queue = [] := hw.drained hlate (by rw [hfinished]; trivial)
  rw [← hw.all hd (Or.inr hlate), hw.order hd, hfinished, hqueue]
  exact (List.append_nil _).symm

end Runs

end JsonlLogger

end Hummingbird
