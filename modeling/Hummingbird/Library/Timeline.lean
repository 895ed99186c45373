/-
  Lists of times that do not go back.

  A list of times with values is a step function: `latest u l` is its value at `u`, that of the
  last entry no later than `u`. `intervals horizon l` are the intervals between its entries, the
  last one as long as `horizon`; `exists_unique_covering` says that they tile the time line and
  carry these values. Leaving out entries that repeat the value before them changes no value
  (`latest_destutter'`).

  `consecutive l` are the pairs of neighbours of a list of times; every time in its range is in
  the list or strictly between two of them (`mem_or_between`), and not both (`not_mem_between`).
-/
import Mathlib.Algebra.Order.Group.Defs
import Mathlib.Data.List.Destutter
import Mathlib.Data.Option.Basic

namespace Timeline

/-! ## Step functions -/

section Steps

variable {K S : Type*} [LinearOrder K]

/-- The value of the last entry no later than `u`. -/
def latest (u : K) (l : List (K × S)) : Option S :=
  (l.filter fun a => a.1 ≤ u).getLast?.map Prod.snd

/-- The times do not go back. -/
abbrev Ordered (l : List (K × S)) : Prop := l.Pairwise fun a b => a.1 ≤ b.1

theorem latest_cons_of_le {u : K} {a : K × S} (h : a.1 ≤ u) (l : List (K × S)) :
    latest u (a :: l) = (latest u l).or (some a.2) := by
  unfold latest
  rw [List.filter_cons_of_pos (by simpa using h), List.getLast?_cons]
  cases (l.filter fun a => a.1 ≤ u).getLast? with
  | none => rfl
  | some b => rfl

theorem latest_of_lt {u : K} {l : List (K × S)} (h : ∀ a ∈ l, u < a.1) : latest u l = none := by
  have hnil : (l.filter fun a => a.1 ≤ u) = [] :=
    List.filter_eq_nil_iff.mpr fun a ha => by simpa using h a ha
  rw [latest, hnil]
  rfl

/-- Before its first entry the function has no value. -/
theorem latest_cons_of_lt {u : K} {a : K × S} {l : List (K × S)} (h : u < a.1)
    (hl : Ordered (a :: l)) : latest u (a :: l) = none := by
  refine latest_of_lt fun b hb => ?_
  rcases List.mem_cons.mp hb with rfl | hb
  · exact h
  · exact h.trans_le ((List.pairwise_cons.mp hl).1 b hb)

/-- An entry has another value than the one before it. -/
def Differ (a b : K × S) : Prop := a.2 ≠ b.2

variable [DecidableEq S]

instance : DecidableRel (Differ (K := K) (S := S)) :=
  fun a b => inferInstanceAs (Decidable (a.2 ≠ b.2))

omit [LinearOrder K] in
/-- The first entry always stays. -/
theorem exists_destutter'_eq_cons (a : K × S) (l : List (K × S)) :
    ∃ l', l.destutter' Differ a = a :: l' := by
  induction l with
  | nil => exact ⟨[], rfl⟩
  | cons b l ih =>
    by_cases hne : Differ a b
    · exact ⟨_, List.destutter'_cons_pos _ hne⟩
    · rw [List.destutter'_cons_neg _ hne]
      exact ih

/-- Entries that repeat the value before them say nothing new. -/
theorem latest_destutter' (u : K) {a : K × S} {l : List (K × S)} (hl : Ordered (a :: l)) :
    latest u (l.destutter' Differ a) = latest u (a :: l) := by
  induction l generalizing a with
  | nil => rfl
  | cons b l ih =>
    obtain ⟨ha, hbl⟩ := List.pairwise_cons.mp hl
    have hab : a.1 ≤ b.1 := ha b List.mem_cons_self
    by_cases hne : Differ a b
    · rw [List.destutter'_cons_pos _ hne]
      rcases le_or_gt a.1 u with hle | hlt
      · rw [latest_cons_of_le hle, latest_cons_of_le hle, ih hbl]
      · have hout : Ordered (a :: l.destutter' Differ b) := by
          exact hl.sublist (List.Sublist.cons_cons a (l.destutter'_sublist _ b))
        rw [latest_cons_of_lt hlt hout, latest_cons_of_lt hlt hl]
    · rw [List.destutter'_cons_neg _ hne]
      have hal : Ordered (a :: l) :=
        List.pairwise_cons.mpr ⟨fun c hc => ha c (List.mem_cons_of_mem b hc),
          (List.pairwise_cons.mp hbl).2⟩
      rw [ih hal]
      rcases le_or_gt a.1 u with hle | hlt
      · rcases le_or_gt b.1 u with hbu | hbu
        · have heq : a.2 = b.2 := not_not.mp hne
          rw [latest_cons_of_le hle, latest_cons_of_le hle, latest_cons_of_le hbu, heq]
          cases latest u l with
          | none => rfl
          | some v => rfl
        · have hnone : latest u l = none :=
            latest_of_lt fun c hc => hbu.trans_le ((List.pairwise_cons.mp hbl).1 c hc)
          rw [latest_cons_of_le hle, latest_cons_of_le hle, latest_cons_of_lt hbu hbl, hnone]
      · rw [latest_cons_of_lt hlt hal, latest_cons_of_lt hlt hl]

omit [LinearOrder K] in
/-- The entries that are left when more are appended: only the last one decides what is left of
    those. -/
theorem exists_destutter'_append (a : K × S) (l : List (K × S)) :
    ∃ front last, last.2 = ((a :: l).getLast (List.cons_ne_nil a l)).2 ∧
      ∀ more, (l ++ more).destutter' Differ a = front ++ more.destutter' Differ last := by
  induction l generalizing a with
  | nil => exact ⟨[], a, rfl, fun _ => rfl⟩
  | cons b l ih =>
    by_cases hne : Differ a b
    · obtain ⟨front, last, hlast, hmore⟩ := ih b
      refine ⟨a :: front, last, hlast, fun more => ?_⟩
      rw [List.cons_append, List.destutter'_cons_pos _ hne, hmore]
      rfl
    · obtain ⟨front, last, hlast, hmore⟩ := ih a
      refine ⟨front, last, ?_, fun more => ?_⟩
      · cases l with
        | nil => exact hlast.trans (not_not.mp hne)
        | cons c l => exact hlast
      · rw [List.cons_append, List.destutter'_cons_neg _ hne, hmore]

end Steps

/-! ## Intervals -/

section Intervals

variable {K S : Type*}

/-- An interval of time with a value. -/
structure Interval (K S : Type*) where
  start : K
  stop : K
  value : S
  deriving DecidableEq

/-- The intervals between the entries of a list. -/
def intervals [Add K] (horizon : K) : List (K × S) → List (Interval K S)
  | [] => []
  | [a] => [⟨a.1, a.1 + horizon, a.2⟩]
  | a :: b :: l => ⟨a.1, b.1, a.2⟩ :: intervals horizon (b :: l)

/-- `u` is in the interval, which includes its start. -/
def Interval.Covers [LE K] [LT K] (s : Interval K S) (u : K) : Prop := s.start ≤ u ∧ u < s.stop

section Add

variable [Add K] (horizon : K)

theorem intervals_head? (a : K × S) (l : List (K × S)) :
    (intervals horizon (a :: l)).head?.map Interval.start = some a.1 := by
  cases l with
  | nil => rfl
  | cons b l => rfl

/-- What comes after an entry does not matter for the intervals before it. -/
theorem exists_intervals_append (front : List (K × S)) (last : K × S) :
    ∃ before, ∀ rest, intervals horizon (front ++ last :: rest) =
      before ++ intervals horizon (last :: rest) := by
  induction front with
  | nil => exact ⟨[], fun _ => rfl⟩
  | cons a front ih =>
    obtain ⟨before, hbefore⟩ := ih
    cases front with
    | nil => exact ⟨[⟨a.1, last.1, a.2⟩], fun _ => rfl⟩
    | cons b front =>
      refine ⟨⟨a.1, b.1, a.2⟩ :: before, fun rest => ?_⟩
      exact congrArg (List.cons _) (hbefore rest)

/-- One interval begins where the one before it ends. -/
theorem intervals_contiguous (l : List (K × S)) :
    (intervals horizon l).IsChain fun s s' => s.stop = s'.start := by
  induction l using intervals.induct with
  | case1 => exact .nil
  | case2 a => exact .singleton _
  | case3 a b l ih =>
    rw [intervals, List.isChain_cons]
    refine ⟨fun s hs => ?_, ih⟩
    have hhead := intervals_head? horizon b l
    rw [Option.mem_def.mp hs] at hhead
    exact (Option.some.inj hhead).symm

/-- Their values are those of the entries. -/
theorem intervals_values (l : List (K × S)) :
    (intervals horizon l).map Interval.value = l.map Prod.snd := by
  induction l using intervals.induct with
  | case1 => rfl
  | case2 a => rfl
  | case3 a b l ih => exact congrArg (a.2 :: ·) ih

end Add

variable [AddCommGroup K] [LinearOrder K] [IsOrderedAddMonoid K] {horizon : K}

theorem intervals_start_le (h0 : 0 ≤ horizon) {l : List (K × S)} (hl : Ordered l) :
    ∀ s ∈ intervals horizon l, s.start ≤ s.stop := by
  induction l using intervals.induct with
  | case1 => exact fun s hs => nomatch hs
  | case2 a =>
    intro s hs
    obtain rfl := List.mem_singleton.mp hs
    exact le_add_of_nonneg_right h0
  | case3 a b l ih =>
    intro s hs
    rcases List.mem_cons.mp hs with rfl | hs
    · exact (List.pairwise_cons.mp hl).1 b List.mem_cons_self
    · exact ih (List.pairwise_cons.mp hl).2 s hs

omit [IsOrderedAddMonoid K] in
theorem le_intervals_start {a : K × S} {l : List (K × S)} (hl : Ordered (a :: l)) :
    ∀ s ∈ intervals horizon (a :: l), a.1 ≤ s.start := by
  intro s hs
  have hmem : ∀ {l : List (K × S)}, s ∈ intervals horizon l → ∃ b ∈ l, s.start = b.1 := by
    intro l hs
    induction l using intervals.induct with
    | case1 => cases hs
    | case2 b => exact ⟨b, List.mem_cons_self, congrArg Interval.start (List.mem_singleton.mp hs)⟩
    | case3 b c l ih =>
      rcases List.mem_cons.mp hs with rfl | hs
      · exact ⟨b, List.mem_cons_self, rfl⟩
      · obtain ⟨d, hd, hstart⟩ := ih hs
        exact ⟨d, List.mem_cons_of_mem b hd, hstart⟩
  obtain ⟨b, hb, hstart⟩ := hmem hs
  rw [hstart]
  rcases List.mem_cons.mp hb with rfl | hb
  · exact le_rfl
  · exact (List.pairwise_cons.mp hl).1 b hb

omit [IsOrderedAddMonoid K] in
/-- From the first entry on, exactly one of the intervals has come, and its value is that of the
    last entry. -/
theorem exists_unique_covering {a : K × S} {l : List (K × S)} {u : K} (hl : Ordered (a :: l))
    (hlo : a.1 ≤ u) (hhi : u < ((a :: l).getLast (List.cons_ne_nil a l)).1 + horizon) :
    ∃ (i : ℕ) (s : Interval K S), (intervals horizon (a :: l))[i]? = some s ∧ s.Covers u ∧
      latest u (a :: l) = some s.value ∧
      ∀ (j : ℕ) (s' : Interval K S), (intervals horizon (a :: l))[j]? = some s' → s'.Covers u →
        j = i := by
  induction l generalizing a with
  | nil =>
    refine ⟨0, ⟨a.1, a.1 + horizon, a.2⟩, rfl, ⟨hlo, hhi⟩, ?_, ?_⟩
    · rw [latest_cons_of_le hlo]
      rfl
    · intro j s' hs' _
      cases j with
      | zero => rfl
      | succ j => cases hs'
  | cons b l ih =>
    obtain ⟨ha, hbl⟩ := List.pairwise_cons.mp hl
    rcases lt_or_ge u b.1 with hlt | hge
    · -- still in the first interval
      refine ⟨0, ⟨a.1, b.1, a.2⟩, rfl, ⟨hlo, hlt⟩, ?_, ?_⟩
      · rw [latest_cons_of_le hlo, latest_cons_of_lt hlt hbl]
        rfl
      · intro j s' hs' hcov
        cases j with
        | zero => rfl
        | succ j =>
          have hmem : s' ∈ intervals horizon (b :: l) := List.mem_of_getElem? hs'
          exact absurd (hcov.1.trans_lt hlt) (le_intervals_start hbl s' hmem).not_gt
    · rw [List.getLast_cons (List.cons_ne_nil b l)] at hhi
      obtain ⟨i, s, hs, hcov, hlatest, hunique⟩ := ih hbl hge hhi
      refine ⟨i + 1, s, hs, hcov, ?_, ?_⟩
      · rw [latest_cons_of_le hlo, hlatest]
        rfl
      · intro j s' hs' hcov'
        cases j with
        | zero =>
          obtain rfl := Option.some.inj hs'
          exact absurd hcov'.2 hge.not_gt
        | succ j => rw [hunique j s' hs' hcov']

end Intervals

/-! ## Neighbours -/

section Neighbours

variable {K : Type*}

/-- The pairs of neighbours in a list. -/
def consecutive (l : List K) : List (K × K) := l.zip l.tail

theorem consecutive_cons (a b : K) (l : List K) :
    consecutive (a :: b :: l) = (a, b) :: consecutive (b :: l) := rfl

variable [LinearOrder K]

theorem consecutive_le {a : K} {l : List K} (hl : (a :: l).Pairwise (· ≤ ·)) :
    ∀ p ∈ consecutive (a :: l), a ≤ p.1 ∧ p.1 ≤ p.2 := by
  induction l generalizing a with
  | nil => exact fun p hp => nomatch hp
  | cons b l ih =>
    obtain ⟨ha, hbl⟩ := List.pairwise_cons.mp hl
    have hab := ha b List.mem_cons_self
    intro p hp
    rcases List.mem_cons.mp hp with rfl | hp
    · exact ⟨le_rfl, hab⟩
    · obtain ⟨hb, hle⟩ := ih hbl p hp
      exact ⟨hab.trans hb, hle⟩

/-- One pair ends before the next one begins. -/
theorem consecutive_pairwise {l : List K} (hl : l.Pairwise (· ≤ ·)) :
    (consecutive l).Pairwise fun p q => p.2 ≤ q.1 := by
  induction l with
  | nil => exact .nil
  | cons a l ih =>
    cases l with
    | nil => exact .nil
    | cons b l =>
      obtain ⟨-, hbl⟩ := List.pairwise_cons.mp hl
      exact List.pairwise_cons.mpr ⟨fun q hq => (consecutive_le hbl q hq).1, ih hbl⟩

/-- Of intervals that follow each other only one is around a time. -/
theorem eq_of_between {l : List (K × K)} (hl : l.Pairwise fun p q => p.2 ≤ q.1) {p q : K × K}
    (hp : p ∈ l) (hq : q ∈ l) {u : K} (hpu : p.1 < u ∧ u < p.2) (hqu : q.1 < u ∧ u < q.2) :
    p = q := by
  induction l with
  | nil => cases hp
  | cons a l ih =>
    obtain ⟨ha, hl⟩ := List.pairwise_cons.mp hl
    rcases List.mem_cons.mp hp with rfl | hp'
    · rcases List.mem_cons.mp hq with rfl | hq'
      · rfl
      · exact absurd (hpu.2.trans_le (ha q hq')) hqu.1.not_gt
    · rcases List.mem_cons.mp hq with rfl | hq'
      · exact absurd (hqu.2.trans_le (ha p hp')) hpu.1.not_gt
      · exact ih hl hp' hq'

/-- The end of a pair is no later than the last of the list. -/
theorem consecutive_le_getLast {l : List K} (hl : l.Pairwise (· ≤ ·)) (hne : l ≠ []) :
    ∀ p ∈ consecutive l, p.2 ≤ l.getLast hne := by
  intro p hp
  have hmem : p.2 ∈ l := List.mem_of_mem_tail (List.of_mem_zip hp).2
  exact hl.rel_getLast hmem

/-- No entry is strictly between two neighbours. -/
theorem not_mem_between {l : List K} (hl : l.Pairwise (· ≤ ·)) {p : K × K}
    (hp : p ∈ consecutive l) {u : K} (hu : u ∈ l) : ¬ (p.1 < u ∧ u < p.2) := by
  induction l with
  | nil => cases hu
  | cons a l ih =>
    cases l with
    | nil => cases hp
    | cons b l =>
      obtain ⟨ha, hbl⟩ := List.pairwise_cons.mp hl
      rintro ⟨hlo, hhi⟩
      rcases List.mem_cons.mp hp with rfl | hlater
      · rcases List.mem_cons.mp hu with rfl | hu
        · exact lt_irrefl _ hlo
        · rcases List.mem_cons.mp hu with rfl | hu
          · exact lt_irrefl _ hhi
          · exact absurd hhi ((List.pairwise_cons.mp hbl).1 u hu).not_gt
      · rcases List.mem_cons.mp hu with rfl | hu
        · have hle := (consecutive_le hbl p hlater).1
          exact absurd hlo ((ha b List.mem_cons_self).trans hle).not_gt
        · exact ih hbl hlater hu ⟨hlo, hhi⟩

/-- A time in the range of the list is in it or strictly between two neighbours. -/
theorem mem_or_between {a : K} {l : List K} {u : K} (hlo : a ≤ u)
    (hhi : u ≤ (a :: l).getLast (List.cons_ne_nil a l)) :
    u ∈ a :: l ∨ ∃ p ∈ consecutive (a :: l), p.1 < u ∧ u < p.2 := by
  induction l generalizing a with
  | nil => exact Or.inl (List.mem_singleton.mpr (le_antisymm hhi hlo))
  | cons b l ih =>
    rcases hlo.eq_or_lt with rfl | hlt
    · exact Or.inl List.mem_cons_self
    rcases lt_or_ge u b with hub | hbu
    · exact Or.inr ⟨(a, b), List.mem_cons_self, hlt, hub⟩
    · rw [List.getLast_cons (List.cons_ne_nil b l)] at hhi
      rcases ih hbu hhi with hu | ⟨p, hp, hbetween⟩
      · exact Or.inl (List.mem_cons_of_mem a hu)
      · exact Or.inr ⟨p, List.mem_cons_of_mem (a, b) hp, hbetween⟩

end Neighbours

end Timeline
