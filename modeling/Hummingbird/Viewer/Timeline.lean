/-
  The bands of the plots: `_state_segments` and `_actuator_timeout_segments` of `ViewerWindow` in
  `px4_multirotor_viewer.py`.

  The state bands are computed from rows of a time and a state, which are always finite. The
  timeouts are computed from the times of another buffer only; these are floats, since the function
  asks which of them are finite. A time is compared with the sum of another and the timeout, which
  is rounded: `detectsGaps_iff` says that this is what keeps the function from telling the gaps.
-/
import Mathlib.Data.Rat.Floor
import Mathlib.Tactic.Linarith
import Hummingbird.Library.Timeline
import Hummingbird.Viewer.Float

namespace Hummingbird

namespace Viewer

open Timeline

/-! ## States -/

/-- A row of a state buffer. -/
structure StateRow where
  t : ℚ
  state : ℚ
  deriving DecidableEq

/-- `TIMELINE_OPEN_SEGMENT_SEC`. -/
def timelineOpenSegmentSec : ℚ := 86400

namespace StateRow

/-- `float(row[0])` and `int(row[1])`. -/
def sample (row : StateRow) : ℚ × ℤ :=
  (row.t, if 0 ≤ row.state then ⌊row.state⌋ else ⌈row.state⌉)

end StateRow

/-- The body of the loop over the rows. -/
def addTransition (transitions : List (ℚ × ℤ)) (row : StateRow) : List (ℚ × ℤ) :=
  match transitions.getLast? with
  | none => transitions ++ [row.sample]
  | some last => if row.sample.2 ≠ last.2 then transitions ++ [row.sample] else transitions

/-- `_state_segments`. -/
def stateSegments (samples : List StateRow) : List (Interval ℚ ℤ) :=
  let transitions := samples.foldl addTransition []
  transitions.zipIdx.map fun ((start, state), index) =>
    match transitions[index + 1]? with
    | some next => ⟨start, next.1, state⟩
    | none => ⟨start, start + timelineOpenSegmentSec, state⟩

theorem foldl_addTransition (transitions : List (ℚ × ℤ)) (last : ℚ × ℤ) (rows : List StateRow) :
    rows.foldl addTransition (transitions ++ [last]) =
      transitions ++ (rows.map StateRow.sample).destutter' Differ last := by
  induction rows generalizing transitions last with
  | nil => rfl
  | cons row rows ih =>
    have hstep : addTransition (transitions ++ [last]) row =
        if row.sample.2 ≠ last.2 then transitions ++ [last] ++ [row.sample]
        else transitions ++ [last] := by
      unfold addTransition
      rw [List.getLast?_concat]
    rw [List.foldl_cons, hstep, List.map_cons]
    by_cases hne : Differ last row.sample
    · rw [List.destutter'_cons_pos _ hne, if_pos (Ne.symm hne), ih, List.append_assoc,
        List.singleton_append]
    · rw [List.destutter'_cons_neg _ hne, if_neg fun h => hne (Ne.symm h), ih]

/-- The ends of the segments are looked up by index; this is how they follow each other. -/
theorem zipIdx_eq_intervals (whole l : List (ℚ × ℤ)) (k : ℕ) (h : whole.drop k = l) :
    ((l.zipIdx k).map fun ((start, state), index) =>
      (match whole[index + 1]? with
      | some next => ⟨start, next.1, state⟩
      | none => ⟨start, start + timelineOpenSegmentSec, state⟩ : Interval ℚ ℤ)) =
      intervals timelineOpenSegmentSec l := by
  have hnext : whole[k + 1]? = l[1]? := by rw [← h, List.getElem?_drop]
  induction l using intervals.induct generalizing k with
  | case1 => rfl
  | case2 a =>
    rw [List.zipIdx_singleton, List.map_singleton]
    dsimp only
    rw [hnext]
    rfl
  | case3 a b l ih =>
    have htail : whole.drop (k + 1) = b :: l := by rw [← List.drop_drop, h, List.drop_one,
      List.tail_cons]
    rw [List.zipIdx_cons, List.map_cons, ih (k + 1) htail]
    · dsimp only
      rw [hnext]
      rfl
    · rw [← htail, List.getElem?_drop]

theorem stateSegments_cons (row : StateRow) (rows : List StateRow) :
    stateSegments (row :: rows) = intervals timelineOpenSegmentSec
      ((rows.map StateRow.sample).destutter' Differ row.sample) := by
  have htransitions : (row :: rows).foldl addTransition [] =
      (rows.map StateRow.sample).destutter' Differ row.sample :=
    foldl_addTransition [] row.sample rows
  unfold stateSegments
  rw [htransitions]
  exact zipIdx_eq_intervals _ _ 0 rfl

/-- The segments follow each other from the first row on, and at every time up to the last row
    exactly one of them shows, which has the state of the last row before. -/
structure ShowsStates (samples : List StateRow) (segments : List (Interval ℚ ℤ)) : Prop where
  starts : segments.head?.map Interval.start = samples.head?.map StateRow.t
  contiguous : segments.IsChain fun s s' => s.stop = s'.start
  forward : ∀ s ∈ segments, s.start ≤ s.stop
  changes : segments.IsChain fun s s' => s.value ≠ s'.value
  covers : ∀ first ∈ samples.head?, ∀ last ∈ samples.getLast?, ∀ u, first.t ≤ u → u ≤ last.t →
    ∃ (i : ℕ) (s : Interval ℚ ℤ), segments[i]? = some s ∧ s.Covers u ∧
      latest u (samples.map StateRow.sample) = some s.value ∧
      ∀ (j : ℕ) (s' : Interval ℚ ℤ), segments[j]? = some s' → s'.Covers u → j = i

theorem state_segments (first : StateRow) (rest : List StateRow)
    (hordered : (first :: rest).Pairwise fun a b => a.t ≤ b.t)
    (hspan : ((first :: rest).getLast (List.cons_ne_nil first rest)).t - first.t <
      timelineOpenSegmentSec) : ShowsStates (first :: rest) (stateSegments (first :: rest)) := by
  have hsamples : Ordered ((first :: rest).map StateRow.sample) := List.pairwise_map.mpr hordered
  obtain ⟨l, hl⟩ := exists_destutter'_eq_cons first.sample (rest.map StateRow.sample)
  have hsub := (rest.map StateRow.sample).destutter'_sublist Differ first.sample
  have hordered' : Ordered (first.sample :: l) := hl ▸ hsamples.sublist hsub
  have hpos : (0 : ℚ) ≤ timelineOpenSegmentSec := by norm_num [timelineOpenSegmentSec]
  rw [stateSegments_cons, hl]
  refine ⟨intervals_head? _ _ _, intervals_contiguous _ _, intervals_start_le hpos hordered',
    ?_, ?_⟩
  · have hchain := (rest.map StateRow.sample).isChain_destutter' Differ first.sample
    have hvalues := intervals_values timelineOpenSegmentSec (first.sample :: l)
    rw [hl] at hchain
    rw [← List.isChain_map (R := (· ≠ ·)) Interval.value, hvalues, List.isChain_map]
    exact hchain
  · intro a ha b hb u hlo hhi
    obtain rfl := Option.some.inj ha
    rw [List.getLast?_eq_some_getLast (List.cons_ne_nil first rest)] at hb
    obtain rfl := Option.some.inj hb
    have hlast : first.t ≤ ((first.sample :: l).getLast (List.cons_ne_nil _ _)).1 := by
      rcases List.mem_cons.mp (List.getLast_mem (List.cons_ne_nil first.sample l)) with heq | hmem
      · exact (congrArg Prod.fst heq).ge
      · exact (List.pairwise_cons.mp hordered').1 _ hmem
    have hhorizon : u < ((first.sample :: l).getLast (List.cons_ne_nil _ _)).1 +
        timelineOpenSegmentSec := by
      linarith
    obtain ⟨i, s, hs, hcov, hlatest, hunique⟩ := exists_unique_covering hordered' hlo hhorizon
    refine ⟨i, s, hs, hcov, ?_, hunique⟩
    rw [List.map_cons, ← latest_destutter' u hsamples, hl]
    exact hlatest

/-- Two rows repeat the state before them and three share a time. -/
def repeatedRows : List StateRow := [⟨1, 1⟩, ⟨1, 2⟩, ⟨1, 3⟩, ⟨4, 3⟩]

theorem state_segments_repeatedRows :
    ShowsStates (⟨0, 1⟩ :: repeatedRows) (stateSegments (⟨0, 1⟩ :: repeatedRows)) ∧
      stateSegments (⟨0, 1⟩ :: repeatedRows) = [⟨0, 1, 1⟩, ⟨1, 1, 2⟩, ⟨1, 86401, 3⟩] :=
  ⟨state_segments ⟨0, 1⟩ repeatedRows (by decide +kernel) (by decide +kernel), by decide +kernel⟩

/-! ## Actuator timeouts -/

noncomputable section

/-- The body of the loop over the rows after the first: the segments and `previous`. -/
def timeoutStep (timeoutSec : PyFloat) (acc : List (PyFloat × PyFloat) × PyFloat)
    (current : PyFloat) : List (PyFloat × PyFloat) × PyFloat :=
  let (segments, previous) := acc
  if ¬ current.IsFinite then (segments, previous)
  else if current < previous then (segments, current)
  else
    let timeoutStart := previous.roundedAdd timeoutSec
    if timeoutStart ≤ current then (segments ++ [(previous, current)], current)
    else (segments, current)

/-- `_actuator_timeout_segments`, of the times of the samples. -/
def actuatorTimeoutSegments (samples : List PyFloat) (endTime timeoutSec : PyFloat) :
    List (PyFloat × PyFloat) :=
  match samples with
  | [] => []
  | first :: rest =>
    let (segments, previous) := rest.foldl (timeoutStep timeoutSec) ([], first)
    let timeoutStart := previous.roundedAdd timeoutSec
    if timeoutStart ≤ endTime then segments ++ [(previous, endTime)] else segments

/-- The pairs of consecutive times, with that of the last one and `stop`. -/
def spans (stop : ℝ) (times : List ℝ) (h : times ≠ []) : List (ℝ × ℝ) :=
  consecutive times ++ [(times.getLast h, stop)]

/-- The gaps of at least `timeout` between the times, and the one up to `stop`. -/
def gaps (timeout stop : ℝ) (times : List ℝ) (h : times ≠ []) : List (ℝ × ℝ) :=
  (spans stop times h).filter fun p => timeout ≤ p.2 - p.1

/-- The later time is not before the rounded sum of the earlier one and the timeout. -/
def ReachesTimeout (timeout : ℝ) (p : ℝ × ℝ) : Prop :=
  (PyFloat.num p.1).roundedAdd (.num timeout) ≤ .num p.2

instance (timeout : ℝ) : DecidablePred (ReachesTimeout timeout) :=
  fun _ => Classical.propDecidable _

/-- The gaps that the function finds. -/
def foundGaps (timeout stop : ℝ) (times : List ℝ) (h : times ≠ []) : List (ℝ × ℝ) :=
  (spans stop times h).filter (ReachesTimeout timeout)

end

/-- The segment of two finite times. -/
def floatPair (p : ℝ × ℝ) : PyFloat × PyFloat := (.num p.1, .num p.2)

/-- What is not finite is passed over. -/
theorem foldl_timeoutStep_filter (timeoutSec : PyFloat)
    (acc : List (PyFloat × PyFloat) × PyFloat) (rest : List PyFloat) :
    rest.foldl (timeoutStep timeoutSec) acc =
      (rest.filter PyFloat.IsFinite).foldl (timeoutStep timeoutSec) acc := by
  induction rest generalizing acc with
  | nil => rfl
  | cons current rest ih =>
    by_cases hfinite : current.IsFinite
    · rw [List.filter_cons_of_pos (by simpa using hfinite), List.foldl_cons, List.foldl_cons, ih]
    · have hstep : timeoutStep timeoutSec acc current = acc := if_pos hfinite
      rw [List.filter_cons_of_neg (by simpa using hfinite), List.foldl_cons, hstep, ih]

theorem timeoutStep_num {timeout previous current : ℝ} (h : previous ≤ current)
    (segments : List (PyFloat × PyFloat)) :
    timeoutStep (.num timeout) (segments, .num previous) (.num current) =
      (segments ++ ([(previous, current)].filter (ReachesTimeout timeout)).map floatPair,
        .num current) := by
  have hnot : ¬ PyFloat.num current < .num previous := not_lt.mpr h
  unfold timeoutStep
  dsimp only
  rw [if_neg (not_not.mpr (PyFloat.isFinite_num current)), if_neg hnot]
  by_cases hgap : ReachesTimeout timeout (previous, current)
  · rw [List.filter_cons_of_pos (by simpa using hgap)]
    exact if_pos hgap
  · rw [List.filter_cons_of_neg (by simpa using hgap)]
    refine (if_neg hgap).trans ?_
    simp

theorem foldl_timeoutStep (timeout first : ℝ) {rest : List ℝ}
    (hordered : (first :: rest).Pairwise (· ≤ ·)) (segments : List (PyFloat × PyFloat)) :
    (rest.map PyFloat.num).foldl (timeoutStep (.num timeout)) (segments, .num first) =
      (segments ++ ((consecutive (first :: rest)).filter (ReachesTimeout timeout)).map floatPair,
        .num ((first :: rest).getLast (List.cons_ne_nil first rest))) := by
  induction rest generalizing first segments with
  | nil => simp [consecutive]
  | cons next rest ih =>
    obtain ⟨hfirst, hrest⟩ := List.pairwise_cons.mp hordered
    rw [List.map_cons, List.foldl_cons, timeoutStep_num (hfirst next List.mem_cons_self),
      ih next hrest, consecutive_cons, List.append_assoc, ← List.map_append, ← List.filter_append,
      List.getLast_cons (List.cons_ne_nil next rest)]
    rfl

/-- What the function returns for finite times. -/
theorem actuatorTimeoutSegments_num {timeout stop first : ℝ} {rest : List ℝ}
    (hordered : (first :: rest).Pairwise (· ≤ ·)) :
    actuatorTimeoutSegments ((first :: rest).map PyFloat.num) (.num stop) (.num timeout) =
      (foundGaps timeout stop (first :: rest) (List.cons_ne_nil first rest)).map floatPair := by
  have hloop := foldl_timeoutStep timeout first hordered []
  unfold actuatorTimeoutSegments foundGaps spans
  rw [List.map_cons]
  dsimp only
  rw [hloop, List.nil_append, List.filter_append, List.map_append]
  dsimp only
  by_cases htail : ReachesTimeout timeout
      ((first :: rest).getLast (List.cons_ne_nil first rest), stop)
  · rw [List.filter_cons_of_pos (by simpa using htail)]
    exact if_pos htail
  · rw [List.filter_cons_of_neg (by simpa using htail)]
    refine (if_neg htail).trans ?_
    simp

/-! ### The spans -/

section Spans

variable {stop : ℝ} {times : List ℝ}

theorem spans_ordered (hne : times ≠ []) (hordered : times.Pairwise (· ≤ ·)) :
    (spans stop times hne).Pairwise fun p q => p.2 ≤ q.1 := by
  refine List.pairwise_append.mpr
    ⟨consecutive_pairwise hordered, List.pairwise_singleton _ _, fun p hp q hq => ?_⟩
  rw [List.mem_singleton.mp hq]
  exact consecutive_le_getLast hordered hne p hp

theorem spans_forward (hne : times ≠ []) (hordered : times.Pairwise (· ≤ ·))
    (hpast : ∀ u ∈ times, u ≤ stop) {p : ℝ × ℝ} (hp : p ∈ spans stop times hne) : p.1 ≤ p.2 := by
  rcases List.mem_append.mp hp with hp | hp
  · obtain ⟨first, rest, rfl⟩ := List.exists_cons_of_ne_nil hne
    exact (consecutive_le hordered p hp).2
  · rw [List.mem_singleton.mp hp]
    exact hpast _ (List.getLast_mem hne)

/-- The interiors of segments in order are disjoint. -/
theorem disjoint_of_ordered {segments : List (ℝ × ℝ)}
    (h : segments.Pairwise fun p q => p.2 ≤ q.1) :
    segments.Pairwise fun p q => Set.Ioo p.1 p.2 ∩ Set.Ioo q.1 q.2 = ∅ := by
  refine h.imp fun {p q} hpq => ?_
  rw [Set.eq_empty_iff_forall_notMem]
  rintro u ⟨hu, hu'⟩
  linarith [hu.2, hu'.1]

/-- A time before `stop` is one of the times, or inside one of the spans. -/
theorem mem_or_inside {first u : ℝ} {rest : List ℝ} (hlo : first ≤ u) (hhi : u < stop) :
    u ∈ first :: rest ∨
      ∃ p ∈ spans stop (first :: rest) (List.cons_ne_nil first rest), u ∈ Set.Ioo p.1 p.2 := by
  rcases le_or_gt u ((first :: rest).getLast (List.cons_ne_nil first rest)) with hle | hlt
  · refine (mem_or_between hlo hle).imp_right ?_
    rintro ⟨p, hp, hu⟩
    exact ⟨p, List.mem_append_left _ hp, hu⟩
  · exact Or.inr ⟨_, List.mem_append_right _ List.mem_cons_self, hlt, hhi⟩

/-- None of the times is inside a span. -/
theorem not_mem_inside (hne : times ≠ []) (hordered : times.Pairwise (· ≤ ·)) {u : ℝ}
    (hu : u ∈ times) {p : ℝ × ℝ} (hp : p ∈ spans stop times hne) : u ∉ Set.Ioo p.1 p.2 := by
  rcases List.mem_append.mp hp with hp | hp
  · exact not_mem_between hordered hp hu
  · rw [List.mem_singleton.mp hp]
    exact fun hin => hin.1.not_ge (hordered.rel_getLast hu)

end Spans

/-- Which of the times are in a gap. -/
structure ShowsGaps (timeout stop : ℝ) (times : List ℝ) (segments : List (ℝ × ℝ)) : Prop where
  disjoint : segments.Pairwise fun p q => Set.Ioo p.1 p.2 ∩ Set.Ioo q.1 q.2 = ∅
  ordered : segments.Pairwise fun p q => p.2 ≤ q.1
  outside_iff : ∀ first ∈ times.head?, ∀ last ∈ times.getLast?, ∀ u, first ≤ u → u < stop →
    ((∀ p ∈ segments, u ∉ Set.Ioo p.1 p.2) ↔
      u ∈ times ∨ (∃ p ∈ consecutive times, u ∈ Set.Ioo p.1 p.2 ∧ p.2 - p.1 < timeout) ∨
        last < u ∧ stop - last < timeout)

theorem gaps_shows {timeout stop : ℝ} {times : List ℝ} (hne : times ≠ [])
    (hordered : times.Pairwise (· ≤ ·)) :
    ShowsGaps timeout stop times (gaps timeout stop times hne) where
  disjoint := disjoint_of_ordered ((spans_ordered hne hordered).sublist List.filter_sublist)
  ordered := (spans_ordered hne hordered).sublist List.filter_sublist
  outside_iff := by
    intro first hfirst last hlast u hlo hhi
    rw [List.getLast?_eq_some_getLast hne] at hlast
    obtain rfl := Option.some.inj hlast
    obtain ⟨rest, rfl⟩ := List.head?_eq_some_iff.mp hfirst
    have hshort : (∃ p ∈ spans stop (first :: rest) hne, u ∈ Set.Ioo p.1 p.2 ∧
        p.2 - p.1 < timeout) ↔
        (∃ p ∈ consecutive (first :: rest), u ∈ Set.Ioo p.1 p.2 ∧ p.2 - p.1 < timeout) ∨
          (first :: rest).getLast hne < u ∧ stop - (first :: rest).getLast hne < timeout := by
      simp only [spans, List.mem_append, List.mem_singleton, or_and_right, exists_or,
        exists_eq_left, Set.mem_Ioo, hhi, and_true]
    rw [← hshort]
    constructor
    · intro hout
      refine (mem_or_inside hlo hhi).imp_right ?_
      rintro ⟨p, hp, hu⟩
      refine ⟨p, hp, hu, not_le.mp fun hgap => ?_⟩
      exact hout p (List.mem_filter.mpr ⟨hp, decide_eq_true hgap⟩) hu
    · intro hcases p hp hin
      obtain ⟨hp, hgap⟩ := List.mem_filter.mp hp
      rcases hcases with hu | ⟨q, hq, hinq, hshort⟩
      · exact not_mem_inside hne hordered hu hp hin
      · obtain rfl := eq_of_between (spans_ordered hne hordered) hp hq hin hinq
        exact absurd (of_decide_eq_true hgap) hshort.not_ge

/-! ### Detecting the gaps -/

/-- What the function is meant to do with finite times in order. -/
structure DetectsGaps (timeout stop first : ℝ) (rest : List ℝ) : Prop where
  /-- It returns the gaps. -/
  segments : actuatorTimeoutSegments ((first :: rest).map PyFloat.num) (.num stop)
    (.num timeout) = (gaps timeout stop (first :: rest) (List.cons_ne_nil first rest)).map floatPair
  /-- These show which times are in a gap. -/
  shows : ShowsGaps timeout stop (first :: rest)
    (gaps timeout stop (first :: rest) (List.cons_ne_nil first rest))
  /-- Times that are not finite make no difference. -/
  skips : ∀ rest' : List PyFloat, rest'.filter PyFloat.IsFinite = rest.map PyFloat.num →
    actuatorTimeoutSegments (.num first :: rest') (.num stop) (.num timeout) =
      actuatorTimeoutSegments ((first :: rest).map PyFloat.num) (.num stop) (.num timeout)

theorem floatPair_injective : Function.Injective floatPair := by
  rintro ⟨a, b⟩ ⟨a', b'⟩ h
  obtain ⟨ha, hb⟩ := Prod.mk.inj h
  exact Prod.ext (PyFloat.num.inj ha) (PyFloat.num.inj hb)

theorem DetectsGaps.reachesTimeout_iff {timeout stop first : ℝ} {rest : List ℝ}
    (h : DetectsGaps timeout stop first rest) (hordered : (first :: rest).Pairwise (· ≤ ·))
    {p : ℝ × ℝ} (hp : p ∈ spans stop (first :: rest) (List.cons_ne_nil first rest)) :
    ReachesTimeout timeout p ↔ timeout ≤ p.2 - p.1 := by
  have heq := (List.map_injective_iff.mpr floatPair_injective)
    ((actuatorTimeoutSegments_num hordered).symm.trans h.segments)
  have hiff : p ∈ foundGaps timeout stop (first :: rest) (List.cons_ne_nil first rest) ↔
      p ∈ gaps timeout stop (first :: rest) (List.cons_ne_nil first rest) := by rw [heq]
  rw [foundGaps, gaps, List.mem_filter, List.mem_filter, and_iff_right hp, and_iff_right hp,
    decide_eq_true_iff, decide_eq_true_iff] at hiff
  exact hiff

/-- Gaps are detected exactly if for no two consecutive times, and not for the last one and the
    end, the rounding of the sum makes a difference. -/
theorem detectsGaps_iff {timeout stop first : ℝ} {rest : List ℝ}
    (hordered : (first :: rest).Pairwise (· ≤ ·)) :
    DetectsGaps timeout stop first rest ↔
      ∀ p ∈ spans stop (first :: rest) (List.cons_ne_nil first rest),
        (ReachesTimeout timeout p ↔ timeout ≤ p.2 - p.1) := by
  refine ⟨fun h p hp => h.reachesTimeout_iff hordered hp, fun hagree => ?_⟩
  refine ⟨?_, gaps_shows _ hordered, fun rest' hrest' => ?_⟩
  · rw [actuatorTimeoutSegments_num hordered, foundGaps, gaps]
    congr 1
    exact List.filter_congr fun p hp => decide_eq_decide.mpr (hagree p hp)
  · unfold actuatorTimeoutSegments
    rw [List.map_cons]
    dsimp only
    rw [foldl_timeoutStep_filter, hrest']

/-- Sums of small integers are not rounded. -/
theorem reachesTimeout_intCast {timeout a b : ℤ} (h : |a + timeout| < 2 ^ 53) :
    ReachesTimeout (timeout : ℝ) ((a : ℝ), (b : ℝ)) ↔ (timeout : ℝ) ≤ b - a := by
  have hreal : |(a : ℝ) + timeout| < 2 ^ (53 : ℤ) := by exact_mod_cast h
  have hround : Rounding.Format.double.round ((a : ℝ) + timeout) = a + timeout := by
    exact_mod_cast Rounding.Format.round_intCast (K := ℝ) (f := .double) (by decide) h
  unfold ReachesTimeout
  rw [PyFloat.roundedAdd_num, hround, PyFloat.num_le_num, le_sub_iff_add_le']
  exact Rounding.Format.not_overflows (by decide) hreal

/-- The first gap is a whole timeout, the second is shorter and the tail is longer. -/
theorem detectsGaps_wholeSeconds : DetectsGaps (2 : ℤ) (7 : ℤ) (0 : ℤ) [((2 : ℤ) : ℝ), (3 : ℤ)] :=
  (detectsGaps_iff (by norm_num)).mpr fun p hp => by
    have hp' : p = (((0 : ℤ) : ℝ), ((2 : ℤ) : ℝ)) ∨ p = (((2 : ℤ) : ℝ), ((3 : ℤ) : ℝ)) ∨
        p = (((3 : ℤ) : ℝ), ((7 : ℤ) : ℝ)) := by
      simpa [spans, consecutive] using hp
    rcases hp' with rfl | rfl | rfl
    · exact reachesTimeout_intCast (by decide)
    · exact reachesTimeout_intCast (by decide)
    · exact reachesTimeout_intCast (by decide)

noncomputable section

/-- The double that is written as 0.2. -/
def twoTenths : ℝ := 3602879701896397 / 2 ^ 54

/-- The double that is written as 0.7. -/
def sevenTenths : ℝ := 6305039478318694 / 2 ^ 53

end

/-- The sum of 0.5 and 0.2 is halfway between 0.7 and the double after it. -/
theorem reachesTimeout_sevenTenths : ReachesTimeout twoTenths (1 / 2, sevenTenths) := by
  have hlast : Rounding.Format.double.lastExponent (1 / 2 + twoTenths) = -53 := by
    have hlo : (2 : ℝ) ^ (-1 : ℤ) ≤ |1 / 2 + twoTenths| := by norm_num [twoTenths, abs_of_pos]
    have hhi : |1 / 2 + twoTenths| < 2 ^ (-1 + 1 : ℤ) := by norm_num [twoTenths, abs_of_pos]
    exact Rounding.Format.lastExponent_of_bounds hlo hhi (by decide)
  have hround : Rounding.Format.double.round (1 / 2 + twoTenths) = sevenTenths := by
    rw [Rounding.Format.round_of_eq_half hlast (n := 6305039478318694) (by decide)]
    · norm_num [sevenTenths]
    · norm_num [twoTenths]
  have hsmall : ¬ Rounding.Format.double.Overflows (1 / 2 + twoTenths) := by
    refine Rounding.Format.not_overflows (k := 0) (by decide) ?_
    norm_num [twoTenths, abs_of_pos]
  show (PyFloat.num (1 / 2)).roundedAdd (.num twoTenths) ≤ .num sevenTenths
  rw [PyFloat.roundedAdd_num hsmall, hround, PyFloat.num_le_num]

/-- Samples at 0.5 and 0.7 with the default timeout, which the distance does not reach. -/
theorem detectsGaps_fails : 0 < twoTenths ∧ [1 / 2, sevenTenths].Pairwise (· ≤ ·) ∧
    ¬ DetectsGaps twoTenths sevenTenths (1 / 2) [sevenTenths] := by
  have hordered : [1 / 2, sevenTenths].Pairwise (· ≤ ·) := by
    norm_num [sevenTenths]
  refine ⟨by norm_num [twoTenths], hordered, fun h => ?_⟩
  have hgap := (h.reachesTimeout_iff hordered (p := (1 / 2, sevenTenths))
    (by simp [spans, consecutive])).mp reachesTimeout_sevenTenths
  norm_num [twoTenths, sevenTenths] at hgap

end Viewer

end Hummingbird
