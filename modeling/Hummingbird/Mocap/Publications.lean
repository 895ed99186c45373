/-
  What `MocapToPx4` publishes, over every run.

  The node is a one-slot mailbox: an accepted message is put into the slot, a tick takes what is
  there and publishes it if it is fresh. `Branch` lists the ways through the two callbacks;
  `IsRun.pendingOdom_eq` says that `pending_odom_` is the slot of the mailbox, so the library's
  facts about mailboxes are facts about the node. `mocap_publications` puts them together with
  the check of the sample age and the frame transform.

  All this is where the accepted poses fit into the doubles and floats of the node (`Fits`). A
  position that is too large for a `float` is published as infinite, and a quaternion whose norm
  is too large for a double as the identity.
-/
import Hummingbird.Library.Mailbox
import Hummingbird.Mocap.Node
import Hummingbird.Mocap.Transform
import Hummingbird.Utils.Attitude

namespace Hummingbird

namespace MocapToPx4

open WithNaN Rotation Mailbox Rounding Matrix

variable {eigen : Matrix (Fin 3) (Fin 3) ℝ → Quat} {p : Parameters}

/-! ## Accepted messages -/

/-- The message names the target body, and its pose is finite with a quaternion that is not
    tiny. -/
def Accepts (p : Parameters) (msg : PoseStamped) : Prop :=
  (p.targetBodyName = "" ∨ msg.frameId = p.targetBodyName) ∧
    (msg.position.x.IsNum ∧ msg.position.y.IsNum ∧ msg.position.z.IsNum) ∧
    ∃ q, msg.orientation.reals = some q ∧ Accepted q

/-- The entry is an accepted message. -/
def AcceptsEntry (p : Parameters) (k : Entry) : Prop :=
  match k.event with
  | .mocap _ msg => Accepts p msg
  | .tick _ => False

/-- The pose fits into the doubles and floats that it is computed in. -/
structure Fits (p : Parameters) (v : Position) (q : Quat) : Prop where
  scaled : ∀ i, ¬ Format.double.Overflows (p.positionScale * v i)
  position : ∀ i, ¬ Format.single.Overflows (p.positionScale * v i - p.origin i)
  norm : ¬ Format.double.Overflows (‖q‖ ^ 2)

/-- The pose fits, if the event is an accepted message. -/
def EventFits (p : Parameters) (e : Event) : Prop :=
  ∀ now msg v q, e = .mocap now msg → Accepts p msg → msg.position.reals = some v →
    msg.orientation.reals = some q → Fits p v q

/-- The poses of all accepted messages fit. -/
def AcceptedFit (p : Parameters) (h : History) : Prop := ∀ k ∈ h, EventFits p k.event

/-- The odometry that a message is transformed into, with its pose as it is over the reals. -/
noncomputable def transform (eigen : Matrix (Fin 3) (Fin 3) ℝ → Quat) (p : Parameters) :
    Event → Option VehicleOdometry
  | .mocap now msg =>
    match msg.stamp.time, msg.position.reals, msg.orientation.reals with
    | some sampleTime, some v, some q =>
      let pose := Opti.mocapPoseToPx4 eigen (p.positionScale • v) q p.origin
      some { odometry eigen p (measurementTime sampleTime now) (p.positionScale • v) q with
        position := Vector3.ofReal pose.pos
        q := Quaternion.ofReal pose.att }
    | _, _, _ => none
  | .tick _ => none

theorem reals_isSome_iff (v : Vector3) :
    (∃ u, v.reals = some u) ↔ v.x.IsNum ∧ v.y.IsNum ∧ v.z.IsNum := by
  obtain ⟨x, y, z⟩ := v
  cases x <;> cases y <;> cases z <;> simp [Vector3.reals]

theorem reals_eq_some {v : Vector3} {u : Position} (h : v.reals = some u) :
    v = Vector3.ofReal u := by
  obtain ⟨x, y, z⟩ := v
  cases x <;> cases y <;> cases z <;> simp only [Vector3.reals, reduceCtorEq] at h
  obtain rfl := Option.some.inj h
  rfl

/-- A position that is finite once it is scaled was finite before. -/
theorem exists_of_scaled {v : Vector3} {u : Position} (h : (scaled p v).reals = some u) :
    ∃ w, v.reals = some w := by
  rw [reals_isSome_iff]
  obtain ⟨x, y, z⟩ := v
  have hnum := (reals_isSome_iff _).mp ⟨u, h⟩
  revert hnum
  cases x <;> cases y <;> cases z <;> simp [scaled, Vector3.finiteOrNan, Double.finiteOrNan]

theorem scaled_of_fits {msg : Vector3} {v : Position} {q : Quat} (hf : Fits p v q)
    (hv : msg.reals = some v) : (scaled p msg).reals = some (p.positionScale • v) := by
  rw [reals_eq_some hv]
  unfold scaled Vector3.finiteOrNan Vector3.ofReal
  simp only [smul_num, smul_eq_mul, Double.finiteOrNan_num (hf.scaled _)]
  exact Vector3.reals_ofReal (p.positionScale • v)

/-- A component of a unit quaternion fits. -/
theorem toFloat_of_mul_self_le {x : ℝ} (hx : x * x ≤ 1) : toFloat (num x) = num x := by
  refine Double.finiteOrNan_num (Format.not_overflows (k := 1) (by decide) ?_)
  have habs := abs_le_one_iff_mul_self_le_one.mpr hx
  rw [zpow_one]
  linarith

/-- The odometry of a pose that fits has the pose as it is over the reals. -/
theorem odometry_of_fits (eigen : Matrix (Fin 3) (Fin 3) ℝ → Quat) {v : Position} {q : Quat}
    (hf : Fits p v q) (measured : RosTime) :
    (odometry eigen p measured (p.positionScale • v) q).position =
        Vector3.ofReal (Opti.mocapPoseToPx4 eigen (p.positionScale • v) q p.origin).pos ∧
      (odometry eigen p measured (p.positionScale • v) q).q =
        Quaternion.ofReal (Opti.mocapPoseToPx4 eigen (p.positionScale • v) q p.origin).att := by
  have hpose := OptiDouble.mocapPoseToPx4_of_fits eigen (p.positionScale • v) q p.origin
    (fun i h => hf.position i (h.of_lt (by decide))) hf.norm
  unfold odometry
  rw [hpose]
  constructor
  · have hfloat : ∀ i, toFloat (num ((Opti.mocapPoseToPx4 eigen (p.positionScale • v) q
        p.origin).pos i)) =
        num ((Opti.mocapPoseToPx4 eigen (p.positionScale • v) q p.origin).pos i) := by
      intro i
      refine Double.finiteOrNan_num ?_
      show ¬ Format.single.Overflows ((Opti.rDown *ᵥ (p.positionScale • v - p.origin)) i)
      rw [rDown_mulVec]
      fin_cases i
      · exact hf.position 0
      · exact fun h => hf.position 1 (Format.overflows_neg.mp h)
      · exact fun h => hf.position 2 (Format.overflows_neg.mp h)
    unfold Vector3.ofReal
    dsimp only
    rw [hfloat, hfloat, hfloat]
  · have hunit := normSq_of_norm (Opti.norm_rotToQuat eigen (Opti.px4Rotation q))
    unfold Quaternion.ofReal Opti.mocapPoseToPx4
    dsimp only
    generalize Opti.rotToQuat eigen (Opti.px4Rotation q) = r at hunit
    have hre := mul_self_nonneg r.re
    have hi := mul_self_nonneg r.imI
    have hj := mul_self_nonneg r.imJ
    have hk := mul_self_nonneg r.imK
    rw [toFloat_of_mul_self_le (by linarith), toFloat_of_mul_self_le (by linarith),
      toFloat_of_mul_self_le (by linarith), toFloat_of_mul_self_le (by linarith)]

/-! ## The ways through the callbacks -/

/-- The ways through the two callbacks. -/
inductive Branch (eigen : Matrix (Fin 3) (Fin 3) ℝ → Quat) (p : Parameters) (s : MocapToPx4) :
    Event → MocapToPx4 → List Publication → Prop
  | stopped {e : Event} (hs : s.stopped = true) : Branch eigen p s e s []
  | ignored {now : RosTime} {msg : PoseStamped} (hs : s.stopped = false)
      (hn : ¬ Accepts p msg) : Branch eigen p s (.mocap now msg) s []
  | threw {now : RosTime} {msg : PoseStamped} (hs : s.stopped = false) :
      Branch eigen p s (.mocap now msg) { s with stopped := true } []
  | accepted {now : RosTime} {msg m : PoseStamped} {odom : VehicleOdometry}
      (hs : s.stopped = false) (ha : Accepts p msg)
      (ht : transform eigen p (.mocap now msg) = some odom) :
      Branch eigen p s (.mocap now msg) { s with pendingOdom := some odom } [.mocap m]
  | empty {now : RosTime} (hs : s.stopped = false) (hp : s.pendingOdom = none) :
      Branch eigen p s (.tick now) s []
  | published {now : RosTime} {odom : VehicleOdometry} (hs : s.stopped = false)
      (hp : s.pendingOdom = some odom)
      (hage : 0 ≤ sampleAgeSec now odom ∧ sampleAgeSec now odom ≤ p.maxSampleAgeSec) :
      Branch eigen p s (.tick now) { s with pendingOdom := none }
        [.vehicleOdometry { odom with timestamp := now.micros }]
  | stale {now : RosTime} {odom : VehicleOdometry} (hs : s.stopped = false)
      (hp : s.pendingOdom = some odom) :
      Branch eigen p s (.tick now) { s with pendingOdom := none } []

/-- What a message does while the node is running. -/
theorem onMocap_branch {s : MocapToPx4} (hs : s.stopped = false) {now : RosTime}
    {msg : PoseStamped} (hfits : EventFits p (.mocap now msg)) :
    Branch eigen p s (.mocap now msg) (onMocap eigen p s now msg).1
      (onMocap eigen p s now msg).2 := by
  unfold onMocap
  split
  · rename_i hbody
    refine .ignored hs ?_
    rintro ⟨hmatch | hmatch, -⟩
    · exact hbody.1 hmatch
    · exact hbody.2 hmatch
  rename_i hbody
  cases htime : msg.stamp.time with
  | none => exact .threw hs
  | some sampleTime =>
    dsimp only
    -- an accepted position stays finite when it is scaled
    have haccepted : Accepts p msg → ∃ v q, msg.position.reals = some v ∧
        msg.orientation.reals = some q ∧ Accepted q ∧ Fits p v q ∧
        (scaled p msg.position).reals = some (p.positionScale • v) := by
      intro ha
      obtain ⟨-, hnum, q, hq, hle⟩ := id ha
      obtain ⟨v, hv⟩ := (reals_isSome_iff _).mpr hnum
      have hf := hfits now msg v q rfl ha hv hq
      exact ⟨v, q, hv, hq, hle, hf, scaled_of_fits hf hv⟩
    cases hpos : (scaled p msg.position).reals with
    | none =>
      refine .ignored hs fun ha => ?_
      obtain ⟨v, q, -, -, -, -, hscaled⟩ := haccepted ha
      rw [hpos] at hscaled
      cases hscaled
    | some optiPos =>
      obtain ⟨w, hw⟩ := exists_of_scaled hpos
      cases hatt : msg.orientation.reals with
      | none =>
        refine .ignored hs fun ha => ?_
        obtain ⟨v, q, -, hq, -⟩ := haccepted ha
        rw [hatt] at hq
        cases hq
      | some optiAtt =>
        dsimp only
        split
        · rename_i htiny
          refine .ignored hs fun ha => ?_
          obtain ⟨v, q, -, hq, hle, -⟩ := haccepted ha
          rw [hatt] at hq
          obtain rfl := Option.some.inj hq
          exact absurd hle (not_le.mpr htiny)
        · rename_i hbig
          have ha : Accepts p msg :=
            ⟨by tauto, (reals_isSome_iff _).mp ⟨w, hw⟩, optiAtt, hatt, not_lt.mp hbig⟩
          refine .accepted hs ha ?_
          obtain ⟨v, q, hv, hq, -, hf, hscaled⟩ := haccepted ha
          rw [hatt] at hq
          rw [hpos] at hscaled
          obtain rfl := Option.some.inj hq
          obtain rfl := Option.some.inj hscaled
          obtain ⟨hposition, hq⟩ :=
            odometry_of_fits eigen hf (measurementTime sampleTime now)
          simp only [transform, htime, hv, hatt]
          rw [← hposition, ← hq]

/-- Every event takes one of the branches. -/
theorem handle_branch (s : MocapToPx4) {e : Event} (hfits : EventFits p e) :
    Branch eigen p s e (handle eigen p s e).1 (handle eigen p s e).2 := by
  unfold handle
  cases hs : s.stopped with
  | true => exact .stopped hs
  | false =>
    rw [if_neg (by simp)]
    cases e with
    | mocap now msg => exact onMocap_branch hs hfits
    | tick now =>
      show Branch eigen p s (.tick now) (publishPx4 p s now).1 (publishPx4 p s now).2
      unfold publishPx4
      cases hp : s.pendingOdom with
      | none => exact .empty hs hp
      | some odom =>
        dsimp only
        split
        · rename_i hage
          exact .published hs hp hage
        · exact .stale hs hp

/-! ## The mailbox -/

open Classical in
/-- What an entry does to the mailbox. -/
noncomputable def mailOp (p : Parameters) (k : Entry) : Op Entry :=
  match k.event with
  | .tick _ => .take
  | .mocap _ msg => if Accepts p msg then .put k else .idle

/-- The operations of a history on the mailbox. -/
noncomputable def mailOps (p : Parameters) (h : History) : List (Op Entry) := h.map (mailOp p)

open Classical in
/-- The accepted messages, newest first. -/
noncomputable def acceptedEntries (p : Parameters) (h : History) : List Entry :=
  h.filter fun k => AcceptsEntry p k

/-- The odometry that the node publishes. -/
def Publication.odometry : Publication → Option VehicleOdometry
  | mocap _ => none
  | vehicleOdometry m => some m

/-- The published odometry, newest first. -/
def published (h : History) : List VehicleOdometry :=
  h.flatMap fun k => k.out.filterMap Publication.odometry

theorem acceptedEntries_sublist (p : Parameters) (h : History) :
    (acceptedEntries p h).Sublist h :=
  List.filter_sublist

theorem mailOp_eq_put {k e : Entry} (h : mailOp p k = .put e) : e = k ∧ AcceptsEntry p k := by
  unfold mailOp at h
  unfold AcceptsEntry
  cases hk : k.event with
  | tick now => simp [hk] at h
  | mocap now msg =>
    simp only [hk] at h
    split at h
    · rename_i ha
      exact ⟨(Op.put.inj h).symm, ha⟩
    · cases h

theorem mailOp_eq_idle {k : Entry} (h : mailOp p k = .idle) :
    k.event.isTick = false ∧ ¬ AcceptsEntry p k := by
  unfold mailOp at h
  unfold AcceptsEntry
  cases hk : k.event with
  | tick now => simp [hk] at h
  | mocap now msg =>
    simp only [hk] at h
    split at h
    · cases h
    · rename_i hn
      exact ⟨rfl, hn⟩

open Classical in
/-- What is put into the mailbox are the accepted messages. -/
theorem puts_mailOps (p : Parameters) (h : History) :
    puts (mailOps p h) = acceptedEntries p h := by
  induction h with
  | nil => rfl
  | cons k h ih =>
    have hcons : mailOps p (k :: h) = mailOp p k :: mailOps p h := rfl
    rw [hcons, acceptedEntries, List.filter_cons, ← acceptedEntries]
    cases hop : mailOp p k with
    | put e =>
      obtain ⟨rfl, ha⟩ := mailOp_eq_put hop
      rw [puts_put, ih, if_pos (decide_eq_true ha)]
    | take =>
      have hn : ¬ AcceptsEntry p k := by
        unfold mailOp at hop
        unfold AcceptsEntry
        cases hk : k.event with
        | tick now => exact id
        | mocap now msg =>
          simp only [hk] at hop
          split at hop <;> cases hop
      rw [puts_take, ih, if_neg (by simpa using hn)]
    | idle =>
      rw [puts_idle, ih, if_neg (by simpa using (mailOp_eq_idle hop).2)]

/-- The entry in the slot: the message accepted last, since the last tick. -/
theorem slot_mailOps {h : History} {e : Entry} (hslot : slot (mailOps p h) = some e) :
    ∃ m rest, h = m ++ e :: rest ∧ AcceptsEntry p e ∧
      ∀ k ∈ m, k.event.isTick = false ∧ ¬ AcceptsEntry p k := by
  obtain ⟨l, rest, heq, hl⟩ := slot_eq_some hslot
  obtain ⟨m, t, rfl, rfl, ht⟩ := List.map_eq_append_iff.mp heq
  obtain ⟨k, rest', rfl, hk, -⟩ := List.map_eq_cons_iff.mp ht
  obtain ⟨rfl, ha⟩ := mailOp_eq_put hk
  refine ⟨m, rest', rfl, ha, ?_⟩
  intro k' hk'
  exact mailOp_eq_idle (hl _ (List.mem_map_of_mem hk'))

section Runs

variable {h : History} {s : MocapToPx4}

/-- While the node is running, `pending_odom_` is what the mailbox holds. -/
theorem IsRun.pendingOdom_eq (hr : IsRun eigen p h s) (hfits : AcceptedFit p h)
    (hs : s.stopped = false) :
    s.pendingOdom = (slot (mailOps p h)).bind fun e => transform eigen p e.event := by
  revert hfits hs
  refine Machine.Run.invariant (P := fun h s _ => AcceptedFit p h → s.stopped = false →
    s.pendingOdom = (slot (mailOps p h)).bind fun e => transform eigen p e.event) hr ?_ ?_
  · intro _ _
    rfl
  · intro h s t e _ ih _ _ hfits hs'
    have hb : Branch eigen p s e (handle eigen p s e).1 (handle eigen p s e).2 :=
      handle_branch s (hfits _ List.mem_cons_self)
    have ih := ih fun k hk => hfits k (List.mem_cons_of_mem _ hk)
    have hcons : mailOps p ((node eigen p).record s e :: h) =
        mailOp p ((node eigen p).record s e) :: mailOps p h := rfl
    rw [hcons]
    show (handle eigen p s e).1.pendingOdom = _
    have hs' : (handle eigen p s e).1.stopped = false := hs'
    revert hb hs'
    generalize (handle eigen p s e).1 = s'
    generalize (handle eigen p s e).2 = out
    intro hb hs'
    cases hb with
    | stopped hs => simp [hs] at hs'
    | threw => simp at hs'
    | ignored hs hn =>
      rw [mailOp]
      simp only [Machine.record, if_neg hn, slot]
      exact ih hs
    | accepted hs ha ht =>
      rw [mailOp]
      simp only [Machine.record, if_pos ha, slot, Option.bind_some]
      exact ht.symm
    | empty hs hp => exact hp
    | published => rfl
    | stale => rfl

/-- The odometry `o` is the transform of the accepted message `e`, stamped when published. -/
def TransformOf (eigen : Matrix (Fin 3) (Fin 3) ℝ → Quat) (p : Parameters)
    (o : VehicleOdometry) (e : Entry) : Prop :=
  ∃ o', transform eigen p e.event = some o' ∧ o = { o' with timestamp := o.timestamp }

/-- The odometry is finite, with a unit quaternion. -/
def WellFormed (o : VehicleOdometry) : Prop :=
  o.position.x.IsNum ∧ o.position.y.IsNum ∧ o.position.z.IsNum ∧ o.q.IsUnit

/-- What a tick publishes that publishes odometry. -/
theorem IsRun.published_inv (hr : IsRun eigen p h s) (hfits : AcceptedFit p h) {e : Event}
    (hfit : EventFits p e) {o : VehicleOdometry}
    (ho : .vehicleOdometry o ∈ (handle eigen p s e).2) :
    ∃ now k, e = .tick now ∧ slot (mailOps p h) = some k ∧ TransformOf eigen p o k ∧
      (handle eigen p s e).2 = [.vehicleOdometry o] ∧ 0 ≤ sampleAgeSec now o ∧
      sampleAgeSec now o ≤ p.maxSampleAgeSec := by
  have hb : Branch eigen p s e (handle eigen p s e).1 (handle eigen p s e).2 :=
    handle_branch s hfit
  revert hb ho
  generalize (handle eigen p s e).1 = s'
  generalize (handle eigen p s e).2 = out
  intro ho hb
  cases hb with
  | published hs hp hage =>
    rename_i now odom
    have hpending := IsRun.pendingOdom_eq hr hfits hs
    rw [hp] at hpending
    obtain ⟨k, hk, ht⟩ := Option.bind_eq_some_iff.mp hpending.symm
    obtain rfl := Publication.vehicleOdometry.inj (List.mem_singleton.mp ho)
    exact ⟨now, k, rfl, hk, ⟨odom, ht, rfl⟩, rfl, hage⟩
  | accepted => simp at ho
  | _ => simp at ho

/-- The published odometry are the transforms of what was taken from the mailbox and found
    fresh. -/
theorem IsRun.published_taken (hr : IsRun eigen p h s) : AcceptedFit p h →
    ∃ sub : List Entry, sub.Sublist (taken (mailOps p h)) ∧
      List.Forall₂ (TransformOf eigen p) (published h) sub := by
  refine Machine.Run.invariant (P := fun h _ _ => AcceptedFit p h → ∃ sub : List Entry,
    sub.Sublist (taken (mailOps p h)) ∧ List.Forall₂ (TransformOf eigen p) (published h) sub)
    hr ?_ ?_
  · exact fun _ => ⟨[], .slnil, .nil⟩
  · intro h s t e hr ih _ _ hfits
    have hpast : AcceptedFit p h := fun k hk => hfits k (List.mem_cons_of_mem _ hk)
    have hfit : EventFits p e := hfits _ List.mem_cons_self
    obtain ⟨sub, hsub, hall⟩ := ih hpast
    have hr : IsRun eigen p h s := hr
    have hcons : mailOps p ((node eigen p).record s e :: h) =
        mailOp p ((node eigen p).record s e) :: mailOps p h := rfl
    have hpub : published ((node eigen p).record s e :: h) =
        (handle eigen p s e).2.filterMap Publication.odometry ++ published h := rfl
    rw [hcons, hpub]
    cases hout : (handle eigen p s e).2.filterMap Publication.odometry with
    | nil =>
      refine ⟨sub, hsub.trans ?_, hall⟩
      cases mailOp p ((node eigen p).record s e) with
      | put => exact .refl _
      | take => exact List.sublist_append_right _ _
      | idle => exact .refl _
    | cons o os =>
      have hmem : .vehicleOdometry o ∈ (handle eigen p s e).2 := by
        obtain ⟨m, hm, hodom⟩ := List.mem_filterMap.mp (hout ▸ List.mem_cons_self)
        cases m with
        | mocap => cases hodom
        | vehicleOdometry o' =>
          obtain rfl := Option.some.inj hodom
          exact hm
      obtain ⟨now, k, rfl, hslot, htrans, hone, -⟩ :=
        IsRun.published_inv hr hpast hfit hmem
      rw [hone] at hout
      obtain ⟨-, rfl⟩ := List.cons.inj hout
      refine ⟨k :: sub, ?_, .cons htrans hall⟩
      show (k :: sub).Sublist ((slot (mailOps p h)).toList ++ taken (mailOps p h))
      rw [hslot]
      exact hsub.cons_cons k

end Runs

/-! ## The transformed message -/

theorem isUnit_ofReal {q : Quat} (hq : ‖q‖ = 1) : (Quaternion.ofReal q).IsUnit := by
  refine ⟨trivial, trivial, trivial, trivial, ?_⟩
  have h := normSq_of_norm hq
  simpa [Quaternion.squaredNorm, Quaternion.ofReal] using h

/-- The pose of the odometry is that of the message, seen from axes that are turned by half a turn
    about x and begin at the origin. -/
def SeenTurned (p : Parameters) (o : VehicleOdometry) (e : Entry) : Prop :=
  ∃ now msg v q r, e.event = .mocap now msg ∧ msg.position.reals = some v ∧
    msg.orientation.reals = some q ∧
    o.position = Vector3.ofReal ![p.positionScale * v 0 - p.origin 0,
      -(p.positionScale * v 1 - p.origin 1), -(p.positionScale * v 2 - p.origin 2)] ∧
    o.q = Quaternion.ofReal r ∧ UpToSign r (turned (unitOf q))

/-- The transform of an accepted message is finite, with a unit quaternion, and its pose is that of
    the message. -/
theorem transform_pose (he : ReturnsQuaternionOf eigen) {k : Entry}
    (ha : AcceptsEntry p k) {o : VehicleOdometry} (ht : transform eigen p k.event = some o) :
    WellFormed o ∧ SeenTurned p o k := by
  unfold AcceptsEntry at ha
  cases hk : k.event with
  | tick now => simp [hk, transform] at ht
  | mocap now msg =>
    rw [hk] at ha ht
    obtain ⟨-, -, q, hq, hle⟩ := ha
    simp only [transform] at ht
    split at ht
    · rename_i sampleTime v optiAtt htime hpos hatt
      obtain rfl := Option.some.inj ht
      rw [hq] at hatt
      obtain rfl := Option.some.inj hatt
      have hframe := frameTransform_optiPose he
      have hunit := hframe.unit (p.positionScale • v) q p.origin hle
      refine ⟨⟨trivial, trivial, trivial, isUnit_ofReal hunit⟩, now, msg, v, q, _, hk, hpos, hq,
        ?_, rfl, hframe.attitude (p.positionScale • v) q p.origin hle⟩
      exact congrArg Vector3.ofReal (rDown_mulVec (p.positionScale • v - p.origin))
    · cases ht

theorem TransformOf.pose (he : ReturnsQuaternionOf eigen) {k : Entry} {o : VehicleOdometry}
    (ha : AcceptsEntry p k) (ht : TransformOf eigen p o k) : WellFormed o ∧ SeenTurned p o k := by
  obtain ⟨o', ho', heq⟩ := ht
  have hpose := transform_pose he ha ho'
  rw [heq]
  exact hpose

/-- The time of the header stamp. -/
def Event.stampTime : Event → Option RosTime
  | mocap _ msg => msg.stamp.time
  | tick _ => none

theorem micros_le_micros {a b : RosTime} (h : a.nanoseconds ≤ b.nanoseconds) :
    a.micros ≤ b.micros := by
  have ha := a.bounded
  have hb := b.bounded
  have hsize : UInt64.size = 2 ^ 64 := rfl
  unfold RosTime.micros
  rw [UInt64.le_iff_toNat_le, UInt64.toNat_ofNat_of_lt' (by omega),
    UInt64.toNat_ofNat_of_lt' (by omega)]
  exact Nat.div_le_div_right h

/-- A positive stamp ahead of the clock is replaced by the reading, so the earlier of the two is
    taken, and it never goes back when neither does. -/
theorem measurementTime_mono {t₁ t₂ now₁ now₂ : RosTime} (h₁ : 0 < t₁.nanoseconds)
    (ht : t₁.nanoseconds ≤ t₂.nanoseconds) (hnow : now₁.nanoseconds ≤ now₂.nanoseconds) :
    (measurementTime t₁ now₁).nanoseconds ≤ (measurementTime t₂ now₂).nanoseconds := by
  unfold measurementTime
  split <;> split <;> omega

/-- The sample time of a transformed message. -/
theorem TransformOf.timestampSample {k : Entry} {o : VehicleOdometry}
    (ht : TransformOf eigen p o k) : ∃ t, k.event.stampTime = some t ∧
      o.timestampSample = (measurementTime t k.event.now).micros := by
  obtain ⟨o', ho', heq⟩ := ht
  have hsample : o.timestampSample = o'.timestampSample := by rw [heq]
  rw [hsample]
  cases hk : k.event with
  | tick now => simp [hk, transform] at ho'
  | mocap now msg =>
    rw [hk] at ho'
    simp only [transform] at ho'
    split at ho'
    · rename_i sampleTime optiPos optiAtt htime hpos hatt
      obtain rfl := Option.some.inj ho'
      exact ⟨sampleTime, htime, rfl⟩
    · cases ho'

/-! ## Every run -/

/-- The clock never goes back. -/
def ClockNondecreasing (h : History) : Prop :=
  h.Pairwise fun k₂ k₁ => k₁.event.now.nanoseconds ≤ k₂.event.now.nanoseconds

/-- The header stamps of the accepted messages are positive and never go back. -/
def StampsNondecreasing (p : Parameters) (h : History) : Prop :=
  (∀ k ∈ acceptedEntries p h, ∀ t, k.event.stampTime = some t → 0 < t.nanoseconds) ∧
    (acceptedEntries p h).Pairwise fun k₂ k₁ => ∀ t₁ t₂, k₁.event.stampTime = some t₁ →
      k₂.event.stampTime = some t₂ → t₁.nanoseconds ≤ t₂.nanoseconds

/-- The odometry `o` that the entry `k` published is the transform of the message accepted last
    before it, since the previous tick, well formed and fresh. -/
structure PublishesNewest (eigen : Matrix (Fin 3) (Fin 3) ℝ → Quat) (p : Parameters)
    (k : Entry) (past : History) (o : VehicleOdometry) : Prop where
  only : k.out = [.vehicleOdometry o]
  newest : ∃ m e rest, past = m ++ e :: rest ∧ AcceptsEntry p e ∧ TransformOf eigen p o e ∧
    SeenTurned p o e ∧ ∀ k' ∈ m, k'.event.isTick = false ∧ ¬ AcceptsEntry p k'
  wellFormed : WellFormed o
  fresh : ∃ now, k.event = .tick now ∧ 0 ≤ sampleAgeSec now o ∧
    sampleAgeSec now o ≤ p.maxSampleAgeSec

/-- What the published odometry of a history promise. -/
structure Delivers (eigen : Matrix (Fin 3) (Fin 3) ℝ → Quat) (p : Parameters) (h : History) :
    Prop where
  subsequence : ∃ sub : List Entry, sub.Sublist (acceptedEntries p h) ∧
    List.Forall₂ (TransformOf eigen p) (published h) sub
  newest : ∀ a k past o, h = a ++ k :: past → .vehicleOdometry o ∈ k.out →
    PublishesNewest eigen p k past o
  ordered : ClockNondecreasing h → StampsNondecreasing p h →
    (published h).Pairwise fun o₂ o₁ => o₁.timestampSample ≤ o₂.timestampSample

section Runs

variable {h : History} {s : MocapToPx4}

/-- One published odometry. -/
theorem IsRun.publishesNewest (he : ReturnsQuaternionOf eigen) {k : Entry} {past : History}
    {o : VehicleOdometry} (hr : IsRun eigen p (k :: past) s) (hfits : AcceptedFit p (k :: past))
    (ho : .vehicleOdometry o ∈ k.out) : PublishesNewest eigen p k past o := by
  cases hr with
  | @handle _ s t e hr _ _ =>
    have hpast : AcceptedFit p past := fun k hk => hfits k (List.mem_cons_of_mem _ hk)
    have hfit : EventFits p e := hfits _ List.mem_cons_self
    obtain ⟨now, k, rfl, hslot, htrans, hone, hage⟩ := IsRun.published_inv hr hpast hfit ho
    obtain ⟨m, rest, hm, ha, hsilent⟩ := slot_mailOps hslot
    obtain ⟨hwell, hseen⟩ := htrans.pose he ha
    exact ⟨hone, ⟨m, k, rest, hm, ha, htrans, hseen, hsilent⟩, hwell, now, rfl, hage⟩

/-- The published odometry are the transforms of a subsequence of the accepted messages. -/
theorem IsRun.published_accepted (hr : IsRun eigen p h s) (hfits : AcceptedFit p h) :
    ∃ sub : List Entry, sub.Sublist (acceptedEntries p h) ∧
      List.Forall₂ (TransformOf eigen p) (published h) sub := by
  obtain ⟨sub, hsub, hall⟩ := IsRun.published_taken hr hfits
  have hputs := taken_sublist_puts (mailOps p h)
  rw [puts_mailOps] at hputs
  exact ⟨sub, hsub.trans hputs, hall⟩

/-- With a clock and stamps that never go back, neither do the sample times. -/
theorem IsRun.timestampSample_pairwise (hr : IsRun eigen p h s) (hfits : AcceptedFit p h)
    (hclock : ClockNondecreasing h) (hstamps : StampsNondecreasing p h) :
    (published h).Pairwise fun o₂ o₁ => o₁.timestampSample ≤ o₂.timestampSample := by
  obtain ⟨sub, hsub, hall⟩ := IsRun.published_accepted hr hfits
  obtain ⟨hpos, hstamps⟩ := hstamps
  have hclock := List.Pairwise.sublist (acceptedEntries_sublist p h) hclock
  refine pairwise_of_forall₂ hall ((hstamps.and hclock).sublist hsub) ?_
  rintro o₂ k₂ o₁ k₁ h₂ h₁ hk₂ hk₁ ⟨hstamp, hnow⟩
  obtain ⟨t₂, ht₂, heq₂⟩ := h₂.timestampSample
  obtain ⟨t₁, ht₁, heq₁⟩ := h₁.timestampSample
  rw [heq₁, heq₂]
  exact micros_le_micros
    (measurementTime_mono (hpos k₁ (hsub.subset hk₁) t₁ ht₁) (hstamp t₁ t₂ ht₁ ht₂) hnow)

end Runs

/-- Every run whose accepted poses fit delivers: the odometry published are the transforms of a
    subsequence of the accepted messages, each the newest at its tick, well formed, fresh, and in
    order. -/
theorem mocap_publications (eigen : Matrix (Fin 3) (Fin 3) ℝ → Quat) (p : Parameters)
    (h : History) (s : MocapToPx4) (he : ReturnsQuaternionOf eigen) (hr : IsRun eigen p h s)
    (hfits : AcceptedFit p h) : Delivers eigen p h where
  subsequence := IsRun.published_accepted hr hfits
  newest a k past o := by
    rintro rfl ho
    obtain ⟨s', t', hr', -⟩ := Machine.Run.of_append hr
    exact IsRun.publishesNewest he hr' (fun k' hk' => hfits k' (List.mem_append_right a hk')) ho
  ordered := IsRun.timestampSample_pairwise hr hfits

/-- 0.9 s. -/
def levelStamp : Stamp := ⟨0, 900000000⟩

theorem time_levelStamp : levelStamp.time = some ⟨900000000, by decide⟩ := by
  unfold Stamp.time
  rw [dif_pos (by decide)]
  rfl

/-- A message of a level body at this distance along x, stamped at 0.9 s. -/
noncomputable def levelMessage (x : ℝ) : PoseStamped where
  stamp := levelStamp
  frameId := "Hummingbird"
  position := ⟨num x, num 0, num 0⟩
  orientation := ⟨num 1, num 0, num 0, num 0⟩

/-- The message arrives at 0.95 s, and the timer ticks at 0.96 s and 0.97 s. -/
noncomputable def levelEvents (x : ℝ) : List Event :=
  [.mocap ⟨950000000, by decide⟩ (levelMessage x), .tick ⟨960000000, by decide⟩,
    .tick ⟨970000000, by decide⟩]

/-- The odometry that is pending once the message has come, unless its position is too large for a
    double. -/
noncomputable def levelOdometry (eigen : Matrix (Fin 3) (Fin 3) ℝ → Quat) (x : ℝ) :
    VehicleOdometry :=
  odometry eigen defaults ⟨900000000, by decide⟩ ![0.001 * x, 0, 0] (quat 1 0 0 0)

theorem onMocap_levelMessage (eigen : Matrix (Fin 3) (Fin 3) ℝ → Quat) {x : ℝ}
    (hx : ¬ Format.double.Overflows (0.001 * x)) (now : RosTime)
    (hnow : 900000000 ≤ now.nanoseconds) :
    ∃ m, onMocap eigen defaults construct now (levelMessage x) =
      (⟨some (levelOdometry eigen x), false⟩, [.mocap m]) := by
  have hone : quat 1 0 0 0 = 1 := rfl
  have hnorm : ‖quat 1 0 0 0‖ = 1 := by rw [hone, norm_one]
  have hsmall : ¬ ‖quat 1 0 0 0‖ < 1e-6 := by
    rw [hnorm]
    norm_num
  have hbody : ¬ (defaults.targetBodyName ≠ "" ∧
      (levelMessage x).frameId ≠ defaults.targetBodyName) := fun h => h.2 rfl
  have htime : (levelMessage x).stamp.time = some ⟨900000000, by decide⟩ := time_levelStamp
  have hmeasured : measurementTime ⟨900000000, by decide⟩ now = ⟨900000000, by decide⟩ :=
    if_pos ⟨by norm_num, hnow⟩
  have hzero : ¬ Format.double.Overflows (0 : ℝ) := Format.not_overflows (k := 0) (by decide)
    (by norm_num)
  have hscaled : (scaled defaults (levelMessage x).position).reals = some ![0.001 * x, 0, 0] := by
    have heq : scaled defaults (levelMessage x).position = ⟨num (0.001 * x), num 0, num 0⟩ := by
      unfold scaled Vector3.finiteOrNan levelMessage defaults
      simp only [smul_num, smul_eq_mul, mul_zero, Double.finiteOrNan_num hx,
        Double.finiteOrNan_num hzero]
    rw [heq]
    rfl
  have hq : (levelMessage x).orientation.reals = some (quat 1 0 0 0) := rfl
  refine ⟨{ levelMessage x with position := Vector3.ofReal ![0.001 * x, 0, 0] }, ?_⟩
  unfold onMocap
  rw [if_neg hbody, htime, hscaled, hq]
  dsimp only
  rw [if_neg hsmall, hmeasured]
  rfl

/-- The first tick publishes what is pending. -/
theorem publishPx4_levelOdometry (eigen : Matrix (Fin 3) (Fin 3) ℝ → Quat) (x : ℝ) :
    publishPx4 defaults ⟨some (levelOdometry eigen x), false⟩ ⟨960000000, by decide⟩ =
      (⟨none, false⟩, [.vehicleOdometry { levelOdometry eigen x with timestamp := 960000 }]) := by
  have hage : 0 ≤ sampleAgeSec ⟨960000000, by decide⟩ (levelOdometry eigen x) ∧
      sampleAgeSec ⟨960000000, by decide⟩ (levelOdometry eigen x) ≤
        defaults.maxSampleAgeSec := by
    have hsample : (levelOdometry eigen x).timestampSample.toNat = 900000 := rfl
    unfold sampleAgeSec
    rw [hsample]
    norm_num [secs, defaults]
  unfold publishPx4
  dsimp only
  rw [if_pos hage]
  rfl

/-- The run publishes one odometry. -/
theorem trace_levelEvents (eigen : Matrix (Fin 3) (Fin 3) ℝ → Quat) {x : ℝ}
    (hx : ¬ Format.double.Overflows (0.001 * x)) :
    ∃ k₂ k₁ k₀, (node eigen defaults).trace construct (levelEvents x) [] = [k₂, k₁, k₀] ∧
      k₁.out = [.vehicleOdometry { levelOdometry eigen x with timestamp := 960000 }] ∧
      k₂.out = [] ∧ ∃ m, k₀.out = [.mocap m] := by
  obtain ⟨m, hm⟩ := onMocap_levelMessage eigen hx ⟨950000000, by decide⟩ (by norm_num)
  have hstep : (node eigen defaults).step construct
      (.mocap ⟨950000000, by decide⟩ (levelMessage x)) =
        (⟨some (levelOdometry eigen x), false⟩, [.mocap m]) := hm
  have htick := publishPx4_levelOdometry eigen x
  refine ⟨_, _, _, rfl, ?_, ?_, m, ?_⟩
  · simp only [Machine.record, hstep]
    exact congrArg Prod.snd htick
  · simp only [Machine.record, hstep]
    have hempty : ((node eigen defaults).step ⟨some (levelOdometry eigen x), false⟩
        (.tick ⟨960000000, by decide⟩)).1 = ⟨none, false⟩ := congrArg Prod.fst htick
    rw [hempty]
    rfl
  · simp only [Machine.record, hstep]

/-- A position that a double holds and a `float` does not is pending as not finite. -/
theorem levelOdometry_overflows (eigen : Matrix (Fin 3) (Fin 3) ℝ → Quat) {x : ℝ}
    (hdouble : ¬ Format.double.Overflows (0.001 * x))
    (hsingle : Format.single.Overflows (0.001 * x)) :
    (levelOdometry eigen x).position.x = nan := by
  have horigin : defaults.origin = 0 := by
    ext i
    fin_cases i <;> rfl
  have hzero : ¬ Format.double.Overflows (0 : ℝ) :=
    Format.not_overflows (k := 0) (by decide) (by norm_num)
  have hpose := OptiDouble.mocapPoseToPx4_of_fits eigen ![0.001 * x, 0, 0] (quat 1 0 0 0)
    defaults.origin (by
      rw [horigin]
      intro i
      fin_cases i
      · simpa using hdouble
      · simpa using hzero
      · simpa using hzero) (by
      have hone : quat 1 0 0 0 = 1 := rfl
      rw [hone, norm_one]
      exact Format.not_overflows (k := 1) (by decide) (by norm_num))
  unfold levelOdometry odometry
  rw [hpose]
  show toFloat (num ((Opti.rDown *ᵥ (![0.001 * x, 0, 0] - defaults.origin)) 0)) = nan
  rw [rDown_mulVec, horigin]
  refine Double.finiteOrNan_of_overflows ?_
  simpa using hsingle

theorem run_levelEvents (eigen : Matrix (Fin 3) (Fin 3) ℝ → Quat) (x : ℝ) : ∃ s,
    IsRun eigen defaults ((node eigen defaults).trace construct (levelEvents x) []) s := by
  obtain ⟨s, t, hr⟩ := Machine.run_trace (M := node eigen defaults) construct () (levelEvents x)
    ⟨trivial, trivial, trivial, trivial, trivial, trivial, trivial⟩
  exact ⟨s, hr⟩

/-- The trace has one message. -/
theorem acceptedFit_levelEvents (eigen : Matrix (Fin 3) (Fin 3) ℝ → Quat) {x : ℝ}
    (hfits : Fits defaults ![x, 0, 0] (quat 1 0 0 0)) :
    AcceptedFit defaults ((node eigen defaults).trace construct (levelEvents x) []) := by
  intro k hk now msg v q he _ hv hq
  simp only [levelEvents, Machine.trace, List.mem_cons, List.not_mem_nil, or_false] at hk
  rcases hk with rfl | rfl | rfl
  · cases he
  · cases he
  · obtain ⟨rfl, rfl⟩ := Event.mocap.inj he
    have hpos : (levelMessage x).position.reals = some ![x, 0, 0] := rfl
    have hatt : (levelMessage x).orientation.reals = some (quat 1 0 0 0) := rfl
    rw [hpos] at hv
    rw [hatt] at hq
    obtain rfl := Option.some.inj hv
    obtain rfl := Option.some.inj hq
    exact hfits

/-- A level body at the origin fits. -/
theorem fits_origin : Fits defaults ![0, 0, 0] (quat 1 0 0 0) := by
  have hone : quat 1 0 0 0 = 1 := rfl
  have hzero : ∀ i, ![(0 : ℝ), 0, 0] i = 0 := by
    intro i
    fin_cases i <;> rfl
  have horigin : defaults.origin = 0 := by
    ext i
    fin_cases i <;> rfl
  refine ⟨fun i => ?_, fun i => ?_, ?_⟩
  · rw [hzero, mul_zero]
    exact Format.not_overflows (k := 0) (by decide) (by norm_num)
  · rw [hzero, horigin, mul_zero, Pi.zero_apply, sub_zero]
    exact Format.not_overflows (k := 0) (by decide) (by norm_num)
  · rw [hone, norm_one]
    exact Format.not_overflows (k := 1) (by decide) (by norm_num)

/-- One message and two ticks: the first tick publishes the message. -/
theorem mocap_publications_origin : ∃ h s,
    IsRun Viewer.rotToQuatBranch defaults h s ∧
      (published h).map VehicleOdometry.timestampSample = [900000] ∧
      Delivers Viewer.rotToQuatBranch defaults h := by
  have hzero : ¬ Format.double.Overflows ((0.001 : ℝ) * 0) := by
    rw [mul_zero]
    exact Format.not_overflows (k := 0) (by decide) (by norm_num)
  obtain ⟨k₂, k₁, k₀, htrace, hk₁, hk₂, m, hk₀⟩ := trace_levelEvents Viewer.rotToQuatBranch hzero
  obtain ⟨s, hr⟩ := run_levelEvents Viewer.rotToQuatBranch 0
  refine ⟨_, s, hr, ?_, mocap_publications _ _ _ _ Viewer.rotToQuatBranch_returnsQuaternionOf hr
    (acceptedFit_levelEvents _ fits_origin)⟩
  rw [htrace]
  simp only [published, List.flatMap_cons, List.flatMap_nil, hk₀, hk₁, hk₂]
  rfl

/-- A position of 10^42 mm is finite in the message and as a double in metres, but not in the
    `float` that is published. -/
theorem mocap_publications_fails : ∃ s,
    IsRun Viewer.rotToQuatBranch defaults
        ((node Viewer.rotToQuatBranch defaults).trace construct (levelEvents (10 ^ 42)) []) s ∧
      ¬ Delivers Viewer.rotToQuatBranch defaults
        ((node Viewer.rotToQuatBranch defaults).trace construct (levelEvents (10 ^ 42)) []) := by
  have hmetres : (0.001 : ℝ) * 10 ^ 42 = 10 ^ 39 := by norm_num
  have hdouble : ¬ Format.double.Overflows ((0.001 : ℝ) * 10 ^ 42) := by
    rw [hmetres]
    refine Format.not_overflows (k := 130) (by decide) ?_
    norm_num
  have hsingle : Format.single.Overflows ((0.001 : ℝ) * 10 ^ 42) := by
    rw [hmetres]
    refine Format.overflows_of_le ?_
    show (2 : ℝ) ^ (128 : ℤ) ≤ _
    norm_num
  obtain ⟨k₂, k₁, k₀, htrace, hk₁, -, -⟩ := trace_levelEvents Viewer.rotToQuatBranch hdouble
  obtain ⟨s, hr⟩ := run_levelEvents Viewer.rotToQuatBranch (10 ^ 42)
  refine ⟨s, hr, fun hdelivers => ?_⟩
  rw [htrace] at hdelivers
  have hnewest := hdelivers.newest [k₂] k₁ [k₀] _ rfl (by rw [hk₁]; exact List.mem_singleton_self _)
  have hx : (levelOdometry Viewer.rotToQuatBranch (10 ^ 42)).position.x.IsNum :=
    hnewest.wellFormed.1
  rw [levelOdometry_overflows Viewer.rotToQuatBranch hdouble hsingle] at hx
  exact hx

end MocapToPx4

end Hummingbird
