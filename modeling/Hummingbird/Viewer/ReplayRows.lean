/-
  Which messages a replay shows as they were shown live.

  A message is handled live at one time and its record is ingested at another, by a viewer whose
  mode and whose view may be others. `ReplaysLive` says that the same rows are pushed, apart from
  the time column and the FMU pose curve. `replaysLive_iff` is the exact condition: what is read
  back with `finite_n` has to be finite, what is read back as it is stored must not be infinite
  (`Faithful`), the replay must not take a health sample of its own with the record, and a mocap
  message has to find the statistics that it found live (`SameStatistics`), which it does if the
  view of the replay is the live one on a clock that is ahead (`sameStatistics_of_offset`).
-/
import Mathlib.Tactic.NormNum
import Hummingbird.Viewer.Ingest
import Hummingbird.Viewer.OptiHealth

namespace Hummingbird

namespace Viewer

open Rotation Window Pacing

/-! ## Rows -/

/-- The buffers of the FMU pose curve and of the error that is computed from it. -/
def Buffer.isFmuPose : Buffer → Bool
  | .fmuPosePos => true
  | .fmuPoseRpy => true
  | .posError => true
  | _ => false

/-- The rows that are pushed, apart from the FMU pose curve, without their times. -/
def rows (pushed : List Push) : List (Buffer × List PyFloat) :=
  (pushed.filter fun p => !p.buffer.isFmuPose).map fun p => (p.buffer, p.row)

theorem rows_append (a b : List Push) : rows (a ++ b) = rows a ++ rows b := by
  unfold rows
  rw [List.filter_append, List.map_append]

theorem singleton_row_iff (b : Buffer) (r r' : List PyFloat) : [(b, r)] = [(b, r')] ↔ r = r' := by
  simp

theorem pair_row_iff (a b : Buffer) (r r' q q' : List PyFloat) :
    [(a, r), (b, q)] = [(a, r'), (b, q')] ↔ r = r' ∧ q = q' := by
  simp

theorem pair_append_iff (a b : Buffer) (r r' q : List PyFloat)
    (x y : List (Buffer × List PyFloat)) :
    [(a, r), (b, q)] ++ x = [(a, r'), (b, q)] ++ y ↔ r = r' ∧ x = y := by
  simp

theorem recordFmuPose_isFmuPose (s : View) (t : ℚ) (pos : Fin 3 → PyFloat) (quat : Quaternion) :
    ∀ p ∈ recordFmuPose s t pos quat, p.buffer.isFmuPose = true := by
  intro p hp
  unfold recordFmuPose at hp
  split at hp
  · dsimp only at hp
    split at hp
    · simp only [List.mem_append, List.mem_cons, List.not_mem_nil, or_false] at hp
      rcases hp with rfl | rfl
      · rfl
      · rfl
    · simp only [List.mem_append, List.mem_cons, List.not_mem_nil, or_false] at hp
      rcases hp with (rfl | rfl) | rfl
      · rfl
      · rfl
      · rfl
  · cases hp

theorem rows_recordFmuPose (s : View) (t : ℚ) (pos : Fin 3 → PyFloat) (quat : Quaternion) :
    rows (recordFmuPose s t pos quat) = [] := by
  have hnil : (recordFmuPose s t pos quat).filter (fun p => !p.buffer.isFmuPose) = [] := by
    apply List.filter_eq_nil_iff.mpr
    intro p hp
    rw [recordFmuPose_isFmuPose s t pos quat p hp]
    simp
  unfold rows
  rw [hnil]
  rfl

/-- Whether the FMU pose is recorded makes no difference to the rows. -/
theorem rows_fmuPose_ite (b : Bool) (s : View) (t : ℚ) (pos : Fin 3 → PyFloat)
    (quat : Quaternion) : rows (if b then recordFmuPose s t pos quat else []) = [] := by
  split
  · exact rows_recordFmuPose s t pos quat
  · rfl

/-! ## The statistics of the mocap stream -/

/-- The same configuration in another mode. -/
def Config.inMode (c : Config) (m : ViewerMode) : Config := { c with viewerMode := m }

/-- The mean of the delays in the window of a view at `t`, with one more of `d`. -/
noncomputable def meanDelay (c : Config) (s : View) (t : ℚ) (d : ℝ) : ℝ :=
  let window := prune Prod.fst (t - c.optiDelayAvgSec) (s.optiDelayWindow ++ [(t, d)])
  (window.map Prod.snd).sum / window.length

/-- The number of mocap messages in the window of a view at `t`, with one more. -/
def arrivalCount (c : Config) (s : View) (t : ℚ) : ℕ :=
  (prune id (t - c.optiRateWindowSec) (s.optiArrivalTimes ++ [t])).length

/-- A mocap message of this delay finds the same statistics in the view `s` at `t` as in the view
    `r` at `τ`: the mean delay, whether it is time for a health sample, and what is counted then. -/
structure SameStatistics (c : Config) (s : View) (t : ℚ) (r : View) (τ : ℚ) (raw : Option ℝ) :
    Prop where
  mean : ∀ d ∈ raw, meanDelay c r τ d = meanDelay c s t d
  due : Due optiHealthSpacingSec r.lastOptiHealthSampleT τ ↔
    Due optiHealthSpacingSec s.lastOptiHealthSampleT t
  count : Due optiHealthSpacingSec s.lastOptiHealthSampleT t →
    arrivalCount c r τ = arrivalCount c s t

section Statistics

variable (c : Config) (m : ViewerMode) (s : View) (t : ℚ) (r : View) (τ : ℚ)

theorem rows_healthRows_iff (n k : ℕ) :
    rows (healthRows (c.inMode m) τ n) = rows (healthRows c t k) ↔ n = k := by
  constructor
  · intro h
    have hrow := (List.cons.inj h).1
    have hrate : (((n / c.optiRateWindowSec : ℚ) : ℝ)) = ((k / c.optiRateWindowSec : ℚ) : ℝ) :=
      PyFloat.num.inj (List.cons.inj (Prod.mk.inj hrow).2).1
    have hpos : 0 < c.optiRateWindowSec := lt_max_of_lt_left (by norm_num)
    exact_mod_cast (div_left_inj' hpos.ne').mp (Rat.cast_injective hrate)
  · rintro rfl
    rfl

/-- What is sampled agrees if both sample the same number, or neither samples. -/
theorem rows_recordOptiHealth_iff :
    rows (recordOptiHealth (c.inMode m) r τ false).2 = rows (recordOptiHealth c s t false).2 ↔
      (Due optiHealthSpacingSec r.lastOptiHealthSampleT τ ↔
          Due optiHealthSpacingSec s.lastOptiHealthSampleT t) ∧
        (Due optiHealthSpacingSec s.lastOptiHealthSampleT t →
          (prune id (τ - c.optiRateWindowSec) r.optiArrivalTimes).length =
            (prune id (t - c.optiRateWindowSec) s.optiArrivalTimes).length) := by
  by_cases hr : Due optiHealthSpacingSec r.lastOptiHealthSampleT τ
  · rw [recordOptiHealth_of_due (Or.inr hr)]
    by_cases hs : Due optiHealthSpacingSec s.lastOptiHealthSampleT t
    · rw [recordOptiHealth_of_due (Or.inr hs)]
      refine (rows_healthRows_iff c m t τ _ _).trans ?_
      exact ⟨fun h => ⟨iff_of_true hr hs, fun _ => h⟩, fun h => h.2 hs⟩
    · rw [recordOptiHealth_of_not_due hs]
      exact iff_of_false (fun h => by cases h) fun h => hs (h.1.mp hr)
  · rw [recordOptiHealth_of_not_due hr]
    by_cases hs : Due optiHealthSpacingSec s.lastOptiHealthSampleT t
    · rw [recordOptiHealth_of_due (Or.inr hs)]
      exact iff_of_false (fun h => by cases h) fun h => hr (h.1.mpr hs)
    · rw [recordOptiHealth_of_not_due hs]
      exact iff_of_true rfl ⟨iff_of_false hr hs, fun h => absurd h hs⟩

/-- A delay adds the same row if its mean is the same. -/
theorem rows_recordOptiDelay_iff (raw : Option ℝ) :
    rows (recordOptiDelay (c.inMode m) r τ raw).2 = rows (recordOptiDelay c s t raw).2 ↔
      ∀ d ∈ raw, meanDelay c r τ d = meanDelay c s t d := by
  cases raw with
  | none => exact iff_of_true rfl fun d hd => by cases hd
  | some d =>
    show [(Buffer.optiTransportDelay, [PyFloat.num d, .num (meanDelay c r τ d)])] =
      [(Buffer.optiTransportDelay, [PyFloat.num d, .num (meanDelay c s t d)])] ↔ _
    simp

/-- A message adds the same rows exactly if it finds the same statistics. -/
theorem rows_recordOptiTiming_iff (raw : Option ℝ) :
    rows (recordOptiTiming (c.inMode m) r τ raw).2 = rows (recordOptiTiming c s t raw).2 ↔
      SameStatistics c s t r τ raw := by
  have hlength : (rows (recordOptiDelay (c.inMode m) (r.arrive τ) τ raw).2).length =
      (rows (recordOptiDelay c (s.arrive t) t raw).2).length := by
    cases raw with
    | none => rfl
    | some d => rfl
  have hdelay := rows_recordOptiDelay_iff c m (s.arrive t) t (r.arrive τ) τ raw
  have hhealth := rows_recordOptiHealth_iff c m (recordOptiDelay c (s.arrive t) t raw).1 t
    (recordOptiDelay (c.inMode m) (r.arrive τ) τ raw).1 τ
  rw [recordOptiDelay_lastSample, recordOptiDelay_lastSample, recordOptiDelay_arrivals,
    recordOptiDelay_arrivals] at hhealth
  rw [recordOptiTiming_eq, recordOptiTiming_eq, rows_append, rows_append]
  constructor
  · intro h
    obtain ⟨hdelays, hhealths⟩ := List.append_inj h hlength
    obtain ⟨hdue, hcount⟩ := hhealth.mp hhealths
    exact ⟨hdelay.mp hdelays, hdue, hcount⟩
  · rintro ⟨hmean, hdue, hcount⟩
    rw [hdelay.mpr hmean, hhealth.mpr ⟨hdue, hcount⟩]

/-- A health sample that is not due leaves the statistics as they are. -/
theorem sameStatistics_recordOptiHealth {raw : Option ℝ}
    (hdue : ¬ Due optiHealthSpacingSec r.lastOptiHealthSampleT τ) :
    SameStatistics c s t (recordOptiHealth (c.inMode m) r τ false).1 τ raw ↔
      SameStatistics c s t r τ raw := by
  have hview := congrArg Prod.fst (recordOptiHealth_of_not_due (c := c.inMode m) hdue)
  have hcount : arrivalCount c (recordOptiHealth (c.inMode m) r τ false).1 τ =
      arrivalCount c r τ := by
    rw [hview]
    exact congrArg List.length (prune_prune_append le_rfl r.optiArrivalTimes [τ])
  have hmean : ∀ d, meanDelay c (recordOptiHealth (c.inMode m) r τ false).1 τ d =
      meanDelay c r τ d := by
    intro d
    rw [hview]
    rfl
  have hlast : (recordOptiHealth (c.inMode m) r τ false).1.lastOptiHealthSampleT =
      r.lastOptiHealthSampleT := by
    rw [hview]
  constructor
  · rintro ⟨hm, hd, hc⟩
    simp only [hmean, hlast, hcount] at hm hd hc
    exact ⟨hm, hd, hc⟩
  · rintro ⟨hm, hd, hc⟩
    refine ⟨?_, ?_, ?_⟩
    · simpa only [hmean] using hm
    · simpa only [hlast] using hd
    · simpa only [hcount] using hc

/-- A view whose clock is ahead by a constant has the same statistics. -/
theorem sameStatistics_of_offset {d : ℚ} (raw : Option ℝ)
    (harrivals : r.optiArrivalTimes = s.optiArrivalTimes.map (· + d))
    (hdelays : r.optiDelayWindow = s.optiDelayWindow.map fun x => (x.1 + d, x.2))
    (hlast : r.lastOptiHealthSampleT = s.lastOptiHealthSampleT.map (· + d)) :
    SameStatistics c s t r (t + d) raw := by
  have hlt : ∀ a w : ℚ, a + d < t + d - w ↔ a < t - w := by
    intro a w
    rw [add_sub_right_comm, add_lt_add_iff_right]
  refine ⟨?_, ?_, ?_⟩
  · intro raw _
    have happend : r.optiDelayWindow ++ [(t + d, raw)] =
        (s.optiDelayWindow ++ [(t, raw)]).map fun x => (x.1 + d, x.2) := by
      rw [hdelays, List.map_append]
      rfl
    unfold meanDelay
    dsimp only
    rw [happend, prune_map fun x => hlt x.1 _, List.map_map, List.length_map]
    rfl
  · rw [hlast]
    cases s.lastOptiHealthSampleT with
    | none => exact iff_of_true (fun u hu => by cases hu) fun u hu => by cases hu
    | some last =>
      simp only [Due, Option.map_some, Option.mem_some_iff, forall_eq', add_sub_add_right_eq_sub]
  · intro _
    have happend : r.optiArrivalTimes ++ [t + d] = (s.optiArrivalTimes ++ [t]).map (· + d) := by
      rw [harrivals, List.map_append]
      rfl
    unfold arrivalCount
    rw [happend, prune_map fun a => hlt a _, List.length_map]
    rfl

end Statistics

/-! ## What a replay shows -/

/-- The record that a callback writes, as it is loaded. -/
def Logged.loaded (l : Logged) (elapsed wall replayT : ℚ) : ReplayRecord Dict :=
  ⟨⟨some l.topic, some elapsed, some wall, l.data⟩, replayT⟩

section Property

variable (c : Config) (m : ViewerMode) (s : View) (t : ℚ) (r : View) (τ : ℚ)

/-- The view in which the branch of the record's topic is taken. -/
noncomputable def afterTick (c : Config) (r : View) (τ : ℚ) : View :=
  if c.realMode then (recordOptiHealth c r τ false).1 else r

/-- A viewer in mode `m` with the view `r`, which ingests at `τ` what `msg` has left in the log,
    pushes the rows that the callback has pushed at `t`. -/
def ReplaysLive (msg : Message) : Prop :=
  ∀ l ∈ (callback c s t msg).logged, ∀ elapsed wall, ∃ s' pushed,
    ingestReplayRecord (c.inMode m) r (l.loaded elapsed wall τ) = some (s', pushed) ∧
      rows pushed = rows (callback c s t msg).pushed

/-- The same of the branch of the record's topic alone. -/
def RowsAgree (msg : Message) : Prop :=
  ∀ l ∈ (callback c s t msg).logged, ∀ wall : ℚ, ∃ s' pushed,
    ingestTopic (c.inMode m) r τ l.data l.topic (some wall) = some (s', pushed) ∧
      rows pushed = rows (callback c s t msg).pushed

/-- A message that `_cb_opti` ignores. -/
def Ignored : Message → Prop
  | .opti msg => OtherBody c msg
  | _ => False

/-- A mocap message finds the statistics of the live view. -/
def KeepsStatistics : Message → Prop
  | .opti msg => SameStatistics c s t r τ (rawDelayMs c t msg)
  | _ => True

variable {c m s t r τ}

theorem logged_eq_nil_of_ignored {msg : Message} (h : Ignored c msg) :
    (callback c s t msg).logged = [] := by
  cases msg with
  | opti msg => exact congrArg Handled.logged (cbOpti_other h)
  | _ => exact h.elim

theorem exists_logged {msg : Message} (h : ¬ Ignored c msg) :
    ∃ l, l ∈ (callback c s t msg).logged := by
  cases msg with
  | opti msg =>
    obtain ⟨data, hlogged, -⟩ := cbOpti_of (c := c) h s t
    change (callback c s t (.opti msg)).logged = _ at hlogged
    exact ⟨_, hlogged ▸ List.mem_cons_self⟩
  | _ => exact ⟨_, List.mem_cons_self⟩

/-- No callback begins with a health sample. -/
theorem head_rows_callback (msg : Message) :
    ∀ b ∈ (rows (callback c s t msg).pushed).head?, b.1 ≠ .optiHz := by
  intro b hb
  cases msg with
  | manual msg => cases hb
  | opti msg =>
    by_cases hother : OtherBody c msg
    · have hnil : (callback c s t (.opti msg)).pushed = [] :=
        congrArg Handled.pushed (cbOpti_other hother)
      rw [hnil] at hb
      cases hb
    · obtain ⟨data, -, -, -, -, -, -, hpushed⟩ := cbOpti_of hother s t
      change (callback c s t (.opti msg)).pushed = _ at hpushed
      rw [hpushed] at hb
      obtain rfl := Option.some.inj hb
      exact fun h => by cases h
  | _ =>
    obtain rfl := Option.some.inj hb
    exact fun h => by cases h

/-- In real mode a record for which a sample is due is not replayed as it was shown. -/
theorem not_replaysLive_of_due {msg : Message} (hmsg : ¬ Ignored c msg)
    (hreal : (c.inMode m).realMode = true)
    (hdue : Due optiHealthSpacingSec r.lastOptiHealthSampleT τ) :
    ¬ ReplaysLive c m s t r τ msg := by
  intro h
  obtain ⟨l, hl⟩ := exists_logged (s := s) (t := t) hmsg
  obtain ⟨s', pushed, hingest, hrows⟩ := h l hl 0 0
  unfold ingestReplayRecord at hingest
  rw [if_pos hreal] at hingest
  obtain ⟨x, -, hx⟩ := Option.bind_eq_some_iff.mp hingest
  obtain ⟨-, rfl⟩ := Prod.mk.inj (Option.some.inj hx)
  have hsample : (recordOptiHealth (c.inMode m) r τ false).2 = healthRows (c.inMode m) τ _ :=
    congrArg Prod.snd (recordOptiHealth_of_due (Or.inr hdue))
  change rows ((recordOptiHealth (c.inMode m) r τ false).2 ++ x.2) = _ at hrows
  rw [hsample] at hrows
  have hhead := head_rows_callback (c := c) (s := s) (t := t) msg
  rw [← hrows] at hhead
  exact hhead _ rfl rfl

/-- Otherwise it is left to the branch of its topic. -/
theorem replaysLive_iff_rowsAgree {msg : Message}
    (hdue : (c.inMode m).realMode = true → ¬ Due optiHealthSpacingSec r.lastOptiHealthSampleT τ) :
    ReplaysLive c m s t r τ msg ↔ RowsAgree c m s t (afterTick (c.inMode m) r τ) τ msg := by
  have hingest : ∀ (l : Logged) (elapsed wall : ℚ),
      ingestReplayRecord (c.inMode m) r (l.loaded elapsed wall τ) =
        ingestTopic (c.inMode m) (afterTick (c.inMode m) r τ) τ l.data l.topic (some wall) := by
    intro l elapsed wall
    unfold ingestReplayRecord afterTick
    by_cases hreal : (c.inMode m).realMode = true
    · have hnone : (recordOptiHealth (c.inMode m) r τ false).2 = [] :=
        congrArg Prod.snd (recordOptiHealth_of_not_due (hdue hreal))
      rw [if_pos hreal, if_pos hreal]
      show (ingestTopic _ _ _ _ _ _ >>= fun x =>
        some (x.1, (recordOptiHealth (c.inMode m) r τ false).2 ++ x.2)) = _
      rw [hnone]
      exact Option.bind_fun_some _
    · rw [if_neg hreal, if_neg hreal]
      exact Option.bind_fun_some _
  unfold ReplaysLive RowsAgree
  constructor
  · intro h l hl wall
    obtain ⟨s', pushed, heq, hrows⟩ := h l hl 0 wall
    exact ⟨s', pushed, (hingest l 0 wall).symm.trans heq, hrows⟩
  · intro h l hl elapsed wall
    obtain ⟨s', pushed, heq, hrows⟩ := h l hl wall
    exact ⟨s', pushed, (hingest l elapsed wall).trans heq, hrows⟩

theorem keepsStatistics_recordOptiHealth {msg : Message}
    (hdue : (c.inMode m).realMode = true → ¬ Due optiHealthSpacingSec r.lastOptiHealthSampleT τ) :
    KeepsStatistics c s t (afterTick (c.inMode m) r τ) τ msg ↔
      KeepsStatistics c s t r τ msg := by
  unfold afterTick
  split
  case isTrue hreal =>
    cases msg with
    | opti msg => exact sameStatistics_recordOptiHealth c m s t r τ (hdue hreal)
    | _ => exact Iff.rfl
  case isFalse => exact Iff.rfl

end Property

/-! ## Each topic -/

/-- The topics that `_ingest_replay_record` knows by name, apart from the odometry. -/
def fixedTopics : List String :=
  ["/fmu/out/vehicle_local_position", "/fmu/out/vehicle_local_position_setpoint",
    "/fmu/out/vehicle_angular_velocity", "/fmu/out/vehicle_rates_setpoint",
    "/fmu/out/vehicle_attitude", "/fmu/out/vehicle_attitude_setpoint",
    "/fmu/out/vehicle_thrust_setpoint", "/fmu/out/vehicle_torque_setpoint",
    "/fmu/out/actuator_motors", "/fmu/out/manual_control_setpoint", "/fmu/out/actuator_servos",
    "/fmu/out/hummingbird_status", "/fmu/out/vehicle_status"]

section Topics

variable (c : Config) (m : ViewerMode) (s : View) (t : ℚ) (r : View) (τ : ℚ)

/-- The messages whose rows a replay shows as they were: a position, a position setpoint, a thrust
    or a torque is finite, a velocity or a rate not infinite, and a mocap message has a finite
    position and a topic of its own. -/
def Faithful : Message → Prop
  | .pos msg => (∀ i, (msg.position i).IsFinite) ∧ ∀ i, ¬ (msg.velocity i).IsInf
  | .posSp msg => (∀ i, (msg.position i).IsFinite) ∧ ∀ i, ¬ (msg.velocity i).IsInf
  | .angularVelocity msg => ∀ i, ¬ (msg.xyz i).IsInf
  | .ratesSp msg => ∀ i, ¬ (msg.rates i).IsInf
  | .thrust msg => ∀ i, (msg.xyz i).IsFinite
  | .torque msg => ∀ i, (msg.xyz i).IsFinite
  | .opti msg => OtherBody c msg ∨ (∀ i, (msg.position i).IsFinite) ∧ c.optiTopic ∉ fixedTopics
  | _ => True

theorem faithful_of_ignored {c : Config} {msg : Message} (h : Ignored c msg) : Faithful c msg := by
  cases msg with
  | opti msg => exact Or.inl h
  | _ => exact h.elim

/-- A callback that writes one record, which can be ingested. -/
theorem rowsAgree_iff {msg : Message} {l : Logged} {pushed : List Push}
    (hlog : (callback c s t msg).logged = [l])
    (hingest : ∀ wall, ∃ s', ingestTopic (c.inMode m) r τ l.data l.topic
      wall = some (s', pushed)) :
    RowsAgree c m s t r τ msg ↔ rows pushed = rows (callback c s t msg).pushed := by
  unfold RowsAgree
  rw [hlog]
  constructor
  · intro h
    obtain ⟨s', hs'⟩ := hingest (some 0)
    obtain ⟨s'', pushed', heq, hrows⟩ := h l List.mem_cons_self 0
    rw [hs'] at heq
    obtain ⟨-, rfl⟩ := Prod.mk.inj (Option.some.inj heq)
    exact hrows
  · intro h l' hl' wall
    rw [List.mem_singleton.mp hl']
    obtain ⟨s', hs'⟩ := hingest (some wall)
    exact ⟨s', pushed, hs', h⟩

/-- A callback whose record has a branch of its own. -/
theorem rowsAgree_iff_fixed {msg : Message} {l : Logged} (pushed : List Push)
    (hlog : (callback c s t msg).logged = [l])
    (hingest : ingestFixed (c.inMode m) r τ l.data l.topic =
      some (some pushed)) :
    RowsAgree c m s t r τ msg ↔ rows pushed = rows (callback c s t msg).pushed := by
  refine rowsAgree_iff c m s t r τ hlog ?_
  intro wall
  unfold ingestTopic
  rw [hingest]
  exact ⟨_, rfl⟩

theorem rowsAgree_pos (msg : VehicleLocalPosition) :
    RowsAgree c m s t r τ (.pos msg) ↔ Faithful c (.pos msg) := by
  refine (rowsAgree_iff_fixed c m s t r τ
    ([⟨.pos, τ, numRow fun i => (msg.position i).orZero⟩,
      ⟨.vel, τ, List.ofFn fun i => (msg.velocity i).stored⟩] ++
      if (c.inMode m).realMode then
        recordFmuPose r τ (floats fun i => (msg.position i).orZero)
          (headingQuat msg.heading.finite?)
      else []) rfl ?_).trans ?_
  · apply congrArg some
    apply ingestPos_of
    · rfl
    · rfl
    · rfl
  · show rows (_ ++ if _ then _ else []) = rows (_ ++ if useFallback c s t then _ else []) ↔ _
    rw [rows_append, rows_append, rows_fmuPose_ite, rows_fmuPose_ite, List.append_nil,
      List.append_nil]
    refine (pair_row_iff .pos .vel _ _ _ _).trans ?_
    exact and_congr (ofFn_orZero_eq_iff msg.position) (ofFn_stored_eq_iff msg.velocity)

theorem rowsAgree_posSp (msg : VehicleLocalPositionSetpoint) :
    RowsAgree c m s t r τ (.posSp msg) ↔ Faithful c (.posSp msg) := by
  refine (rowsAgree_iff_fixed c m s t r τ
    [⟨.posSp, τ, numRow fun i => (msg.position i).orZero⟩,
      ⟨.velSp, τ, List.ofFn fun i => (msg.velocity i).stored⟩] rfl ?_).trans ?_
  · apply congrArg some
    apply ingestPosSp_of
    · rfl
    · rfl
  · refine (pair_row_iff .posSp .velSp _ _ _ _).trans ?_
    exact and_congr (ofFn_orZero_eq_iff msg.position) (ofFn_stored_eq_iff msg.velocity)

theorem rowsAgree_att (msg : VehicleAttitude) : RowsAgree c m s t r τ (.att msg) := by
  refine (rowsAgree_iff_fixed c m s t r τ
    [⟨.rpy, τ, numRow (quatToRpyDeg (quaternionOf msg.q))⟩] rfl ?_).mpr rfl
  apply congrArg some
  apply ingestAttitude_of
  · exact congrArg some (jsonArrayN_self msg.q)
  · rfl

theorem rowsAgree_attSp (msg : VehicleAttitudeSetpoint) :
    RowsAgree c m s t r τ (.attSp msg) := by
  refine (rowsAgree_iff_fixed c m s t r τ
    [⟨.attSp, τ, numRow (quatToRpyDeg (quaternionOf msg.qD))⟩] rfl ?_).mpr rfl
  apply congrArg some
  apply ingestAttitude_of
  · exact congrArg some (jsonArrayN_self msg.qD)
  · rfl

theorem rowsAgree_angularVelocity (msg : VehicleAngularVelocity) :
    RowsAgree c m s t r τ (.angularVelocity msg) ↔ Faithful c (.angularVelocity msg) := by
  refine (rowsAgree_iff_fixed c m s t r τ
    [⟨.rates, τ, List.ofFn fun i => (msg.xyz i).stored⟩] rfl ?_).trans ?_
  · apply congrArg some
    apply ingestCells_of
    exact congrArg some (jsonArrayN_self msg.xyz)
  · exact (singleton_row_iff .rates _ _).trans (ofFn_stored_eq_iff msg.xyz)

theorem rowsAgree_ratesSp (msg : VehicleRatesSetpoint) :
    RowsAgree c m s t r τ (.ratesSp msg) ↔ Faithful c (.ratesSp msg) := by
  refine (rowsAgree_iff_fixed c m s t r τ
    [⟨.ratesSp, τ, List.ofFn fun i => (msg.rates i).stored⟩] rfl ?_).trans ?_
  · apply congrArg some
    apply ingestCells_of
    exact congrArg some (jsonArrayN_self msg.rates)
  · exact (singleton_row_iff .ratesSp _ _).trans (ofFn_stored_eq_iff msg.rates)

theorem rowsAgree_thrust (msg : VehicleThrustSetpoint) :
    RowsAgree c m s t r τ (.thrust msg) ↔ Faithful c (.thrust msg) := by
  refine (rowsAgree_iff_fixed c m s t r τ
    [⟨.force, τ, numRow fun i => (msg.xyz i).orZero⟩] rfl ?_).trans ?_
  · apply congrArg some
    apply ingestVector_of
    exact congrArg some (jsonArrayN_self msg.xyz)
  · exact (singleton_row_iff .force _ _).trans (ofFn_orZero_eq_iff msg.xyz)

theorem rowsAgree_torque (msg : VehicleTorqueSetpoint) :
    RowsAgree c m s t r τ (.torque msg) ↔ Faithful c (.torque msg) := by
  refine (rowsAgree_iff_fixed c m s t r τ
    [⟨.torque, τ, numRow fun i => (msg.xyz i).orZero⟩] rfl ?_).trans ?_
  · apply congrArg some
    apply ingestVector_of
    exact congrArg some (jsonArrayN_self msg.xyz)
  · exact (singleton_row_iff .torque _ _).trans (ofFn_orZero_eq_iff msg.xyz)

theorem rowsAgree_motors (msg : ActuatorMotors) : RowsAgree c m s t r τ (.motors msg) := by
  refine (rowsAgree_iff_fixed c m s t r τ
    [⟨.motor, τ, numRow (motorForce c _)⟩] rfl ?_).mpr rfl
  apply congrArg some
  apply ingestMotors_of (c := c.inMode m)
  · rfl
  · exact congrArg some (jsonArrayN_self _)

theorem rowsAgree_manual (msg : ManualControlSetpoint) :
    RowsAgree c m s t r τ (.manual msg) := by
  refine (rowsAgree_iff_fixed c m s t r τ [] rfl ?_).mpr rfl
  apply congrArg some
  apply ingestManual_of (v := msg.manual)
  rfl

theorem rowsAgree_servos (msg : ActuatorServos) : RowsAgree c m s t r τ (.servos msg) := by
  refine (rowsAgree_iff_fixed c m s t r τ
    [⟨.beta, τ, numRow _⟩, ⟨.alpha, τ, numRow _⟩] rfl ?_).mpr rfl
  apply congrArg some
  apply ingestServos_of (c := c.inMode m)
  · rfl
  · exact congrArg some (jsonArrayN_self _)
  · exact congrArg some (jsonArrayN_self _)

theorem rowsAgree_status (msg : HummingbirdStatus) : RowsAgree c m s t r τ (.status msg) := by
  refine (rowsAgree_iff_fixed c m s t r τ
    [⟨.cmdState, τ, [.num msg.hbCmdSource.toNat]⟩] rfl ?_).mpr rfl
  apply congrArg some
  apply ingestInt_of
  rfl

theorem rowsAgree_vehicleStatus (msg : VehicleStatus) :
    RowsAgree c m s t r τ (.vehicleStatus msg) := by
  refine (rowsAgree_iff_fixed c m s t r τ
    [⟨.flightState, τ, [.num msg.navState.toNat]⟩] rfl ?_).mpr rfl
  apply congrArg some
  apply ingestInt_of
  rfl

end Topics

/-! ## Mocap messages -/

/-- No row of the mocap position is pushed. -/
def NoOpti (x : Option (List Push)) : Prop :=
  ∀ pushed, x = some pushed → ∀ p ∈ pushed, p.buffer ≠ .optiPos

theorem noOpti_some {pushed : List Push} (h : ∀ p ∈ pushed, p.buffer ≠ .optiPos) :
    NoOpti (some pushed) := by
  intro pushed' heq
  obtain rfl := Option.some.inj heq
  exact h

theorem noOpti_bind {α : Type} {x : Option α} {f : α → Option (List Push)}
    (h : ∀ a, x = some a → NoOpti (f a)) : NoOpti (x >>= f) := by
  intro pushed heq
  obtain ⟨a, ha, hf⟩ := Option.bind_eq_some_iff.mp heq
  exact h a ha pushed hf

section NoOpti

variable {c : Config} {s : View} {t : ℚ} {data : Dict} {buffer : Buffer} {key : String}

theorem noOpti_singleton {row : List PyFloat} (hb : buffer ≠ .optiPos) :
    NoOpti (some [⟨buffer, t, row⟩]) := by
  apply noOpti_some
  intro p hp
  rw [List.mem_singleton.mp hp]
  exact hb

theorem noOpti_ingestVector {n : ℕ} (hb : buffer ≠ .optiPos) :
    NoOpti (ingestVector t data buffer key n) :=
  noOpti_bind fun _ _ => noOpti_singleton hb

theorem noOpti_ingestCells (hb : buffer ≠ .optiPos) : NoOpti (ingestCells t data buffer key) :=
  noOpti_bind fun _ _ => noOpti_singleton hb

theorem noOpti_ingestInt (hb : buffer ≠ .optiPos) : NoOpti (ingestInt t data buffer key) :=
  noOpti_bind fun _ _ => noOpti_singleton hb

theorem noOpti_ingestVelocity (hb : buffer ≠ .optiPos) :
    NoOpti (ingestVelocity t data buffer) := by
  unfold ingestVelocity
  split
  · exact noOpti_some fun p hp => absurd hp List.not_mem_nil
  · exact noOpti_ingestCells hb

theorem noOpti_ingestAttitude {rpyKey : String} (hb : buffer ≠ .optiPos) :
    NoOpti (ingestAttitude t data buffer key rpyKey) :=
  noOpti_bind fun _ _ => noOpti_bind fun _ _ => noOpti_singleton hb

theorem noOpti_ingestPos : NoOpti (ingestPos c s t data) := by
  refine noOpti_bind fun pos _ => noOpti_bind fun vel hvel => noOpti_some ?_
  intro p hp
  rw [List.mem_append, List.mem_append] at hp
  rcases hp with (hp | hp) | hp
  · rw [List.mem_singleton.mp hp]
    exact nofun
  · exact noOpti_ingestVelocity (by decide) vel hvel p hp
  · split at hp
    · intro hopti
      have hfmu := recordFmuPose_isFmuPose _ _ _ _ p hp
      rw [hopti] at hfmu
      cases hfmu
    · cases hp

theorem noOpti_ingestPosSp : NoOpti (ingestPosSp t data) := by
  refine noOpti_bind fun pos hpos => noOpti_bind fun vel hvel => noOpti_some ?_
  intro p hp
  rcases List.mem_append.mp hp with hp | hp
  · exact noOpti_ingestVector (by decide) pos hpos p hp
  · exact noOpti_ingestVelocity (by decide) vel hvel p hp

theorem noOpti_ingestServos : NoOpti (ingestServos c t data) := by
  refine noOpti_bind fun _ _ => noOpti_bind fun _ _ => noOpti_bind fun _ _ => noOpti_some ?_
  intro p hp
  simp only [List.mem_cons, List.not_mem_nil, or_false] at hp
  rcases hp with rfl | rfl
  · exact nofun
  · exact nofun

/-- A topic with a branch of its own never leads to a mocap row. -/
theorem ingestFixed_noOpti {topic : String} (h : topic ∈ fixedTopics) :
    ∃ x, ingestFixed c s t data topic = some x ∧ NoOpti x := by
  simp only [fixedTopics, List.mem_cons, List.not_mem_nil, or_false] at h
  rcases h with rfl | rfl | rfl | rfl | rfl | rfl | rfl | rfl | rfl | rfl | rfl | rfl | rfl
  · exact ⟨_, rfl, noOpti_ingestPos⟩
  · exact ⟨_, rfl, noOpti_ingestPosSp⟩
  · exact ⟨_, rfl, noOpti_ingestCells (by decide)⟩
  · exact ⟨_, rfl, noOpti_ingestCells (by decide)⟩
  · exact ⟨_, rfl, noOpti_ingestAttitude (by decide)⟩
  · exact ⟨_, rfl, noOpti_ingestAttitude (by decide)⟩
  · exact ⟨_, rfl, noOpti_ingestVector (by decide)⟩
  · exact ⟨_, rfl, noOpti_ingestVector (by decide)⟩
  · exact ⟨_, rfl, noOpti_bind fun _ _ => noOpti_bind fun _ _ => noOpti_singleton (by decide)⟩
  · exact ⟨_, rfl, noOpti_bind fun _ _ => noOpti_some fun p hp => absurd hp List.not_mem_nil⟩
  · exact ⟨_, rfl, noOpti_ingestServos⟩
  · exact ⟨_, rfl, noOpti_ingestInt (by decide)⟩
  · exact ⟨_, rfl, noOpti_ingestInt (by decide)⟩

theorem ingestFixed_eq_none {topic : String} (h : topic ∉ fixedTopics) :
    ingestFixed c s t data topic = none := by
  simp only [fixedTopics, List.mem_cons, List.not_mem_nil, or_false, not_or] at h
  simp [ingestFixed, h]

end NoOpti

section Opti

variable (c : Config) (m : ViewerMode) (s : View) (t : ℚ) (r : View) (τ : ℚ)

/-- Every component of the position reaches every row, so one that is not finite spoils all. -/
theorem mocapPose_isFinite_iff (optiPos : Fin 3 → PyFloat) (optiAtt : Fin 4 → PyFloat)
    (optiOrigin : Position) :
    (∀ i, ((mocapPose optiPos optiAtt optiOrigin).1 i).IsFinite) ↔ ∀ i, (optiPos i).IsFinite := by
  have hrow : ∀ i, ((mocapPose optiPos optiAtt optiOrigin).1 i).IsFinite ↔
      (optiPos 0).IsFinite ∧ (optiPos 1).IsFinite ∧ (optiPos 2).IsFinite := by
    intro i
    unfold mocapPose
    simp [PyFloat.sub_eq, and_assoc]
  constructor
  · intro h i
    obtain ⟨h0, h1, h2⟩ := (hrow 0).mp (h 0)
    fin_cases i
    · exact h0
    · exact h1
    · exact h2
  · intro h i
    exact (hrow i).mpr ⟨h 0, h 1, h 2⟩

theorem rowsAgree_of_ignored {msg : Message} (h : Ignored c msg) : RowsAgree c m s t r τ msg := by
  intro l hl
  rw [logged_eq_nil_of_ignored h] at hl
  cases hl

variable {c}

/-- On the topic of another message the record is taken for that one, which has no mocap row. -/
theorem not_rowsAgree_opti {msg : PoseStamped} (hother : ¬ OtherBody c msg)
    (htopic : c.optiTopic ∈ fixedTopics) : ¬ RowsAgree c m s t r τ (.opti msg) := by
  intro h
  obtain ⟨data, hlogged, -, -, -, -, -, hpushed⟩ := cbOpti_of hother s t
  change (callback c s t (.opti msg)).logged = _ at hlogged
  change (callback c s t (.opti msg)).pushed = _ at hpushed
  obtain ⟨x, hx, hno⟩ : ∃ x, ingestFixed (c.inMode m) r τ data c.optiTopic = some x ∧ NoOpti x :=
    ingestFixed_noOpti htopic
  have hmem : (⟨c.optiTopic, data⟩ : Logged) ∈ (callback c s t (.opti msg)).logged := by
    rw [hlogged]
    exact List.mem_cons_self
  obtain ⟨s', pushed, hingest, hrows⟩ := h _ hmem 0
  unfold ingestTopic at hingest
  rw [hx] at hingest
  obtain ⟨pushed', hpushed', heq⟩ := Option.map_eq_some_iff.mp hingest
  obtain ⟨-, rfl⟩ := Prod.mk.inj heq
  have hrow : (Buffer.optiPos, List.ofFn (mocapPose msg.position msg.orientation c.origin).1) ∈
      rows pushed' := by
    rw [hrows, hpushed, rows_append]
    exact List.mem_append_left _ List.mem_cons_self
  unfold rows at hrow
  obtain ⟨p, hp, hbuffer⟩ := List.mem_map.mp hrow
  exact hno pushed' hpushed' p (List.mem_filter.mp hp).1 (Prod.mk.inj hbuffer).1

/-- On a topic of its own the position and the statistics decide. -/
theorem rowsAgree_opti_of_topic {msg : PoseStamped} (hother : ¬ OtherBody c msg)
    (htopic : c.optiTopic ∉ fixedTopics) : RowsAgree c m s t r τ (.opti msg) ↔
      (∀ i, (msg.position i).IsFinite) ∧ SameStatistics c s t r τ (rawDelayMs c t msg) := by
  obtain ⟨data, hlogged, hstamp, hdelay, hpos, hq, hrpy, hpushed⟩ := cbOpti_of hother s t
  change (callback c s t (.opti msg)).logged = _ at hlogged
  change (callback c s t (.opti msg)).pushed = _ at hpushed
  let pose := mocapPose msg.position msg.orientation c.origin
  let read : View := { r with lastOptiPos := some (floats fun i => (pose.1 i).orZero) }
  have hingest : ∀ wall, ∃ s', ingestTopic (c.inMode m) r τ data c.optiTopic wall =
      some (s', [⟨.optiPos, τ, numRow fun i => (pose.1 i).orZero⟩,
        ⟨.optiRpy, τ, numRow (quatToRpyDeg (Quaternion.ofReal pose.2))⟩] ++
        (recordOptiTiming (c.inMode m) read τ (rawDelayMs c t msg)).2) := by
    intro wall
    unfold ingestTopic
    rw [ingestFixed_eq_none htopic, hpos, ← rawDelayFromLog_of hstamp hdelay wall]
    exact ingestOpti_of hpos hq hrpy wall
  have htiming := rows_recordOptiTiming_iff c m { s with lastOptiPos := some pose.1 } t read τ
    (rawDelayMs c t msg)
  rw [rowsAgree_iff c m s t r τ hlogged hingest, hpushed, rows_append, rows_append]
  refine (pair_append_iff .optiPos .optiRpy _ _ _ _ _).trans (and_congr ?_ ?_)
  · exact (ofFn_orZero_eq_iff _).trans (mocapPose_isFinite_iff _ _ _)
  · -- the position is no part of the statistics
    exact htiming.trans ⟨fun h => ⟨h.mean, h.due, h.count⟩, fun h => ⟨h.mean, h.due, h.count⟩⟩

theorem rowsAgree_opti (msg : PoseStamped) : RowsAgree c m s t r τ (.opti msg) ↔
    Faithful c (.opti msg) ∧
      (Ignored c (.opti msg) ∨ KeepsStatistics c s t r τ (.opti msg)) := by
  by_cases hother : OtherBody c msg
  · exact iff_of_true (rowsAgree_of_ignored c m s t r τ hother) ⟨Or.inl hother, Or.inl hother⟩
  by_cases htopic : c.optiTopic ∈ fixedTopics
  · refine iff_of_false (not_rowsAgree_opti m s t r τ hother htopic) ?_
    rintro ⟨h | ⟨-, h⟩, -⟩
    · exact hother h
    · exact h htopic
  · refine (rowsAgree_opti_of_topic m s t r τ hother htopic).trans (and_congr ?_ ?_)
    · exact ⟨fun h => Or.inr ⟨h, htopic⟩, fun h => (h.resolve_left hother).1⟩
    · exact (or_iff_right (show ¬ Ignored c (.opti msg) from hother)).symm

end Opti

/-- The branch of the topic shows a message as it was shown live exactly if the message is
    faithful and finds the same statistics. -/
theorem rowsAgree_iff_faithful (c : Config) (m : ViewerMode) (s : View) (t : ℚ) (r : View) (τ : ℚ)
    (msg : Message) : RowsAgree c m s t r τ msg ↔
      Faithful c msg ∧ (Ignored c msg ∨ KeepsStatistics c s t r τ msg) := by
  have hkeeps : ∀ {p : Prop}, p ↔ p ∧ (Ignored c msg ∨ True) :=
    (and_iff_left (Or.inr trivial)).symm
  cases msg with
  | pos msg => exact (rowsAgree_pos c m s t r τ msg).trans hkeeps
  | posSp msg => exact (rowsAgree_posSp c m s t r τ msg).trans hkeeps
  | att msg => exact (iff_of_true (rowsAgree_att c m s t r τ msg) trivial).trans hkeeps
  | attSp msg => exact (iff_of_true (rowsAgree_attSp c m s t r τ msg) trivial).trans hkeeps
  | angularVelocity msg => exact (rowsAgree_angularVelocity c m s t r τ msg).trans hkeeps
  | ratesSp msg => exact (rowsAgree_ratesSp c m s t r τ msg).trans hkeeps
  | thrust msg => exact (rowsAgree_thrust c m s t r τ msg).trans hkeeps
  | torque msg => exact (rowsAgree_torque c m s t r τ msg).trans hkeeps
  | motors msg => exact (iff_of_true (rowsAgree_motors c m s t r τ msg) trivial).trans hkeeps
  | manual msg => exact (iff_of_true (rowsAgree_manual c m s t r τ msg) trivial).trans hkeeps
  | servos msg => exact (iff_of_true (rowsAgree_servos c m s t r τ msg) trivial).trans hkeeps
  | status msg => exact (iff_of_true (rowsAgree_status c m s t r τ msg) trivial).trans hkeeps
  | vehicleStatus msg =>
    exact (iff_of_true (rowsAgree_vehicleStatus c m s t r τ msg) trivial).trans hkeeps
  | opti msg => exact rowsAgree_opti m s t r τ msg

/-- A replay shows a message as it was shown live exactly if the message is faithful and, unless
    it is ignored, no health sample is due and it finds the same statistics. -/
theorem replaysLive_iff (c : Config) (m : ViewerMode) (s : View) (t : ℚ) (r : View) (τ : ℚ)
    (msg : Message) : ReplaysLive c m s t r τ msg ↔
      Faithful c msg ∧ (Ignored c msg ∨
        ((c.inMode m).realMode = true → ¬ Due optiHealthSpacingSec r.lastOptiHealthSampleT τ) ∧
          KeepsStatistics c s t r τ msg) := by
  by_cases hdue : (c.inMode m).realMode = true →
      ¬ Due optiHealthSpacingSec r.lastOptiHealthSampleT τ
  · rw [replaysLive_iff_rowsAgree hdue, rowsAgree_iff_faithful, and_iff_right hdue,
      keepsStatistics_recordOptiHealth hdue]
  · obtain ⟨hreal, hnow⟩ := Classical.not_imp.mp hdue
    rw [not_not] at hnow
    by_cases hmsg : Ignored c msg
    · refine iff_of_true ?_ ⟨faithful_of_ignored hmsg, Or.inl hmsg⟩
      intro l hl
      rw [logged_eq_nil_of_ignored hmsg] at hl
      cases hl
    · refine iff_of_false (not_replaysLive_of_due hmsg hreal hnow) ?_
      rintro ⟨-, h | ⟨h, -⟩⟩
      · exact hmsg h
      · exact h hreal hnow

/-- A position setpoint that only sets a velocity, as PX4 sends it when a velocity is commanded. -/
def velocitySetpoint : VehicleLocalPositionSetpoint where
  timestamp := 0
  x := .nan
  y := .nan
  z := .nan
  vx := .num 1
  vy := .num 0
  vz := .num 0
  yaw := .nan

/-- Its position is shown as NaN live, and as 0 by a replay. -/
theorem replaysLive_velocitySetpoint :
    ¬ ReplaysLive (Config.declared .sim 0) .sim View.reset 1 View.reset 0
      (.posSp velocitySetpoint) := by
  have hsim : ((Config.declared .sim 0).inMode .sim).realMode = false := rfl
  rw [replaysLive_iff_rowsAgree fun h => absurd (hsim.symm.trans h) Bool.false_ne_true,
    rowsAgree_posSp]
  rintro ⟨hfinite, -⟩
  exact hfinite 0

end Viewer

end Hummingbird
