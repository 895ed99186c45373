/-
  How an interrupted setpoint stream of `Px4PositionCommand` resumes.

  A silent tick leaves `path_active` for a waiting mode, and setpoints resume only after
  `start_RC2DDS_handoff` has re-seeded the filters. A tick that finds the handoff with a
  stale status is silent too, but stays in the handoff: when the status is back, the next
  tick goes on with the old filters. `resumesReseeded_iff` says that this is the only
  resumption without a new start.
-/
import Hummingbird.PositionCmd.Modes

namespace Hummingbird

namespace Px4PositionCommand

/-- If the tick publishes a setpoint and the tick before it published none, the tick before it
    ran `start_RC2DDS_handoff`. -/
def ResumesReseeded (k : Entry) (past : History) : Prop :=
  PublishesSetpoint k → ∀ k' past', lastTick past = k' :: past' → ¬ PublishesSetpoint k' →
    StartedHandoff k'

/-- The tick has DDS control and a fresh status, and the tick before it found the handoff
    under DDS control with a stale status. -/
def ResumesOldHandoff (c : TickClock) (past : History) : Prop :=
  DdsControl past c.now ∧ StatusFresh past c.now ∧
    ∃ k' past' c', lastTick past = k' :: past' ∧ k'.event = .tick c' ∧
      k'.pre.controlMode = .rc2ddsHandoff ∧ DdsControl past' c'.now ∧ ¬ StatusFresh past' c'.now

/-- How a tick leaves the node in a publishing mode: with a setpoint, at the start of a
    handoff, or in a handoff whose status is stale. -/
theorem TickBranch.publishing_cases {s s' : Px4PositionCommand} {c : TickClock}
    {out : List Publication} (hb : TickBranch s c s' out)
    (hp : Publishing s.controlMode → s.previousDdsControlEnabled = true)
    (hm : Publishing s'.controlMode) :
    (∃ m ∈ out, m.IsTrajectorySetpoint) ∨
      (s.controlMode ≠ .rc2ddsHandoff ∧ s'.controlMode = .rc2ddsHandoff) ∨
      (s.controlMode = .rc2ddsHandoff ∧ s.ddsControlEnabled c.now = true ∧
        s.vehicleStatusFresh c.now = false) := by
  cases hb with
  | takeover => exact absurd hm not_publishing_waitOffboard
  | released _ hn => exact absurd ⟨hp hm, hm⟩ hn
  | statusStale hd hs =>
    by_cases hpath : s.controlMode = .pathActive
    · simp [hpath, Publishing] at hm
    · rw [if_neg hpath] at hm
      exact Or.inr (Or.inr ⟨hm.resolve_left hpath, hd, hs⟩)
  | waitOffboard => exact absurd hm not_publishing_waitOffboard
  | offboardRequest => exact absurd hm not_publishing_waitOffboard
  | waitArm => exact absurd hm not_publishing_waitArm
  | armRequest => exact absurd hm not_publishing_waitArm
  | startHandoff _ _ hreach => exact Or.inr (Or.inl ⟨hreach.controlMode_ne, rfl⟩)
  | path => exact Or.inl ⟨_, List.mem_cons_of_mem _ (List.mem_singleton_self _), trivial⟩
  | handoff => exact Or.inl ⟨_, List.mem_cons_of_mem _ (List.mem_singleton_self _), trivial⟩
  | handoffReached =>
    exact Or.inl ⟨_, List.mem_cons_of_mem _ (List.mem_singleton_self _), trivial⟩

section Runs

variable {p : Parameters} {t₀ t : Time} {h : History} {s : Px4PositionCommand}

/-- `control_mode_` is as the last tick left it. -/
theorem IsRun.lastTick_cases (hr : IsRun p t₀ h s t) :
    (lastTick h = [] ∧ s.controlMode = .waitOffboard) ∨
      ∃ past' s' t' c', lastTick h = node.record s' (.tick c') :: past' ∧
        IsRun p t₀ past' s' t' ∧ s.controlMode = (s'.onTick c').1.controlMode := by
  refine Machine.Run.invariant (P := fun h s _ =>
    (lastTick h = [] ∧ s.controlMode = .waitOffboard) ∨
      ∃ past' s' t' c', lastTick h = node.record s' (.tick c') :: past' ∧
        IsRun p t₀ past' s' t' ∧ s.controlMode = (s'.onTick c').1.controlMode) hr ?_ ?_
  · exact Or.inl ⟨rfl, rfl⟩
  · intro h s t e hr ih _ _
    cases e with
    | tick c => exact Or.inr ⟨h, s, t, c, Past.lastWhere_cons_of_pos rfl h, hr, rfl⟩
    | _ => exact ih

/-- The last tick of a run, as a step of the node. -/
theorem IsRun.lastTick_eq (hr : IsRun p t₀ h s t) {k' : Entry} {past' : History}
    (hlast : lastTick h = k' :: past') :
    ∃ s' t' c', k' = node.record s' (.tick c') ∧ IsRun p t₀ past' s' t' ∧
      s.controlMode = (s'.onTick c').1.controlMode := by
  obtain ⟨hnil, -⟩ | ⟨past'', s', t', c', hlast', hr', hmode⟩ := IsRun.lastTick_cases hr
  · simp [hnil] at hlast
  · rw [hlast'] at hlast
    obtain ⟨rfl, rfl⟩ := List.cons.inj hlast
    exact ⟨s', t', c', rfl, hr', hmode⟩

/-- A tick that finds the handoff with a stale status is silent and stays in the handoff. -/
theorem TickBranch.staleHandoff_inv {s' : Px4PositionCommand} {c : TickClock}
    {out : List Publication} (hb : TickBranch s c s' out)
    (hm : s.controlMode = .rc2ddsHandoff) (hd : s.ddsControlEnabled c.now = true)
    (hs : s.vehicleStatusFresh c.now = false) :
    s'.controlMode = .rc2ddsHandoff ∧ ¬ ∃ m ∈ out, m.IsTrajectorySetpoint := by
  obtain ⟨hpost, -⟩ := hb.statusStale_inv hd hs
  constructor
  · rw [hpost]
    simp [hm]
  · intro hset
    have hfresh := (hb.setpoint_iff.mp hset).2.1
    simp [hs] at hfresh

/-- Setpoints resume without a new start exactly after a tick that found the handoff with a
    stale status. -/
theorem resumesReseeded_iff (hr : IsRun p t₀ h s t) :
    OnTicks (fun _ k past => ResumesReseeded k past) h ↔
      OnTicks (fun c _ past => ¬ ResumesOldHandoff c past) h := by
  refine onTicks_congr (hr.onTicks ?_)
  intro past s t c hr _ hb
  have hs := IsRun.reflects hr
  constructor
  · rintro hreseed ⟨hd, hf, k', past', c', hlast, hk', hm', hd', hf'⟩
    obtain ⟨s', t', c'', rfl, hr', hmode⟩ := IsRun.lastTick_eq hr hlast
    obtain rfl := Event.tick.inj hk'
    have hs' := IsRun.reflects hr'
    rw [← hs'.ddsControlEnabled_iff] at hd'
    rw [← hs'.vehicleStatusFresh_iff] at hf'
    obtain ⟨hstay, hquiet⟩ :=
      (onTick_branch s' c'').staleHandoff_inv hm' hd' (by simpa using hf')
    have hset : PublishesSetpoint (node.record s (.tick c)) :=
      hb.setpoint_iff.mpr ⟨(hs.ddsControlEnabled_iff _).mpr hd,
        (hs.vehicleStatusFresh_iff _).mpr hf,
        Or.inr (dispatchMode_eq_rc2ddsHandoff_iff.mpr (hmode.trans hstay))⟩
    exact (hreseed hset _ _ hlast hquiet).1 hm'
  · intro hold hset k' past' hlast hquiet
    obtain ⟨s', t', c', rfl, hr', hmode⟩ := IsRun.lastTick_eq hr hlast
    have hs' := IsRun.reflects hr'
    obtain ⟨hd, hf, hdm⟩ := hb.setpoint_iff.mp hset
    have hm : Publishing (s'.onTick c').1.controlMode := by
      rw [← hmode]
      rcases hdm with hdm | hdm
      · exact Or.inl (dispatchMode_eq_pathActive_iff.mp hdm).1
      · exact Or.inr (dispatchMode_eq_rc2ddsHandoff_iff.mp hdm)
    rcases (onTick_branch s' c').publishing_cases (IsRun.previousDds_of_publishing hr') hm with
      hset' | hstarted | ⟨hm', hd', hf'⟩
    · exact absurd hset' hquiet
    · exact hstarted
    · refine absurd ⟨(hs.ddsControlEnabled_iff _).mp hd, (hs.vehicleStatusFresh_iff _).mp hf,
        _, _, c', hlast, rfl, hm', (hs'.ddsControlEnabled_iff _).mp hd', ?_⟩ hold
      rw [← hs'.vehicleStatusFresh_iff]
      simp [hf']

end Runs

/-- A handoff starts at 0.6 s; at 1.2 s the status is stale and the tick silent; the status
    is back at 1.3 s and the tick at 1.4 s publishes from the filters of the tick at 0.7 s. -/
def staleHandoffEvents : List Event :=
  [.hummingbirdStatus 0 ⟨hbCmdSourceDds⟩,
    .vehicleStatus 0 ⟨navigationStateOffboard, armingStateArmed⟩,
    tickAt 600000000,
    tickAt 700000000,
    .hummingbirdStatus 1100000000 ⟨hbCmdSourceDds⟩,
    tickAt 1200000000,
    .vehicleStatus 1300000000 ⟨navigationStateOffboard, armingStateArmed⟩,
    tickAt 1400000000]

theorem staleHandoffEvents_timed : node.Timed 0 staleHandoffEvents := by
  simp [staleHandoffEvents, tickAt, clockAt, Machine.Timed, node, Event.enter, Event.leave]

theorem resumesReseeded_iff_staleHandoff :
    OnTicks (fun _ k past => ResumesReseeded k past)
        (node.trace (construct {} 0) staleHandoffEvents []) ↔
      OnTicks (fun c _ past => ¬ ResumesOldHandoff c past)
        (node.trace (construct {} 0) staleHandoffEvents []) := by
  obtain ⟨s, t, hr⟩ :=
    Machine.run_trace (construct {} 0) 0 staleHandoffEvents staleHandoffEvents_timed
  exact resumesReseeded_iff hr

theorem resumesReseeded_fails :
    ¬ ∀ (p : Parameters) (t₀ t : Time) (h : History) (s : Px4PositionCommand),
      IsRun p t₀ h s t → OnTicks (fun _ k past => ResumesReseeded k past) h := by
  intro hall
  obtain ⟨s, t, hr⟩ :=
    Machine.run_trace (construct {} 0) 0 staleHandoffEvents staleHandoffEvents_timed
  have hnew := (hall {} 0 t _ s hr).newest rfl
  have hstarted := hnew
    ((onTick_branch _ _).setpoint_iff.mpr
      ⟨by decide +kernel, by decide +kernel, Or.inr (by decide +kernel)⟩)
    _ _ rfl
    (fun hset => absurd ((onTick_branch _ _).setpoint_iff.mp hset).2.1 (by decide +kernel))
  exact hstarted.1 (by decide +kernel)

end Px4PositionCommand

end Hummingbird
