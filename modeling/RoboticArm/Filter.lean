import RoboticArm.Motion
import RoboticArm.Runs
import RoboticArm.Smoothing
import Mathlib.Algebra.Order.Group.MinMax
import Mathlib.Data.Finset.Max
import Mathlib.Data.List.GetD
import Mathlib.Tactic.FieldSimp
import Mathlib.Tactic.NormNum

/- The distance filter: the calls of `filtered_tof` in `tof.c`.

   A raw sample outside `(0, 50]` is rejected. An accepted one goes through
   `limit_filter` and then into the window of `moving_average_filter`; the first four
   are not limited. What the filter keeps is a `Smoother`, and an accepted sample is a
   write to it (`smoother_filterStep`).

   1. `filter_settles`: twenty accepted samples of one value make it the output, from
      every reachable state and whatever is rejected in between. Five rounds of the
      window take the error, at most 50, down by 10 each.
   2. A rejected sample changes nothing and returns the last output.
   3. `plausible_iff`: what is returned lies between the samples accepted so far once
      there are four of them. Before that the zeros the window starts with are averaged
      in, and it does so only if the sum of the samples is four times the smallest; the
      first sample never is.

   Correspondence (C ↔ Lean):
     the statics of `tof.c` after some samples   ↔ `filtered`
     the value returned for the next one         ↔ `reading`
     `raw_value <= 0 || raw_value > 50` fails    ↔ `Accepted` -/
namespace RoboticArm

variable {K : Type} [Field K] [LinearOrder K]

/-! ## Samples -/

/-- The statics of the filter before its first call. -/
def Tof.boot : Tof K := ⟨fun _ => 0, 0, 0, 0⟩

def filterStep (t : Tof K) (raw : K) : Tof K := (filteredTof raw t).2

/-- The statics after the samples. -/
def filtered (samples : List K) : Tof K := Runs.exec filterStep Tof.boot samples

/-- What the call for `raw` returns after the samples `pre`. -/
def reading (pre : List K) (raw : K) : K := (filteredTof raw (filtered pre)).1

/-- The sample is within the range of the sensor. -/
def Accepted (raw : K) : Prop := 0 < raw ∧ raw ≤ 50

instance (raw : K) : Decidable (Accepted raw) := inferInstanceAs (Decidable (_ ∧ _))

def accepted (samples : List K) : List K := samples.filter fun raw => Accepted raw

/-! ## One call -/

/-- What the filter keeps, as a smoother. -/
def Tof.smoother (t : Tof K) : Smoothing.Smoother K := ⟨t.tofBuffer, t.bufferIndex, t.lastValidValue⟩

/-- The value an accepted sample writes into the window. -/
def Tof.limited (raw : K) (t : Tof K) : K :=
  if t.initCount < filterWindow then raw else Smoothing.limit 10 t.lastValidValue raw

theorem filteredTof_of_not_accepted {raw : K} (h : ¬ Accepted raw) (t : Tof K) :
    filteredTof raw t = (t.lastValidValue, t) := by
  have hout : raw ≤ 0 ∨ 50 < raw := by
    by_contra hin
    simp only [not_or, not_le, not_lt] at hin
    exact h hin
  rw [filteredTof, if_pos hout]

theorem filterStep_of_not_accepted {raw : K} (h : ¬ Accepted raw) (t : Tof K) :
    filterStep t raw = t := by
  rw [filterStep, filteredTof_of_not_accepted h]

theorem limitFilter_eq (raw : K) (t : Tof K) : (limitFilter raw t).1 = t.limited raw := by
  simp only [limitFilter, apply_ite Prod.fst]
  rfl

theorem window_limitFilter (raw : K) (t : Tof K) :
    (limitFilter raw t).2.tofBuffer = t.tofBuffer ∧
      (limitFilter raw t).2.bufferIndex = t.bufferIndex := by
  simp only [limitFilter]
  split_ifs <;> exact ⟨rfl, rfl⟩

theorem initCount_limitFilter (raw : K) (t : Tof K) : (limitFilter raw t).2.initCount =
    if t.initCount < filterWindow then t.initCount + 1 else t.initCount := by
  simp only [limitFilter]
  split_ifs <;> rfl

omit [LinearOrder K] in
theorem mean_window (b : Nat → K) : Smoothing.mean filterWindow b = (b 0 + b 1 + b 2 + b 3) / 4 := by
  simp only [Smoothing.mean, filterWindow, Finset.sum_range_succ, Finset.sum_range_zero, zero_add,
    Nat.cast_ofNat]

theorem smoother_filterStep {raw : K} (h : Accepted raw) (t : Tof K) :
    (filterStep t raw).smoother = t.smoother.push filterWindow (t.limited raw) := by
  have hin : ¬ (raw ≤ 0 ∨ 50 < raw) := by
    simp only [not_or, not_le, not_lt]
    exact h
  obtain ⟨hbuffer, hindex⟩ := window_limitFilter raw t
  simp only [filterStep, filteredTof, if_neg hin, movingAverageFilter, Tof.smoother,
    Smoothing.Smoother.push, mean_window, hbuffer, hindex, limitFilter_eq]

theorem initCount_filterStep {raw : K} (h : Accepted raw) (t : Tof K) : (filterStep t raw).initCount =
    if t.initCount < filterWindow then t.initCount + 1 else t.initCount := by
  have hin : ¬ (raw ≤ 0 ∨ 50 < raw) := by
    simp only [not_or, not_le, not_lt]
    exact h
  simp only [filterStep, filteredTof, if_neg hin, movingAverageFilter]
  exact initCount_limitFilter raw t

theorem filteredTof_fst (raw : K) (t : Tof K) :
    (filteredTof raw t).1 = (filterStep t raw).lastValidValue := by
  unfold filterStep filteredTof
  split <;> rfl

theorem reading_eq (pre : List K) (raw : K) :
    reading pre raw = (filtered (pre ++ [raw])).lastValidValue := by
  rw [reading, filteredTof_fst, filtered, filtered, Runs.exec_append]
  rfl

theorem exec_accepted (t : Tof K) (samples : List K) :
    Runs.exec filterStep t samples = Runs.exec filterStep t (accepted samples) := by
  induction samples generalizing t with
  | nil => rfl
  | cons raw samples ih =>
    by_cases h : Accepted raw
    · rw [accepted, List.filter_cons_of_pos (by simpa using h)]
      exact ih (filterStep t raw)
    · rw [accepted, List.filter_cons_of_neg (by simpa using h), Runs.exec_cons,
        filterStep_of_not_accepted h]
      exact ih t

/-! ## Settling -/

variable [IsStrictOrderedRing K]

/-- What an accepted sample writes is in every interval that holds the sample and the last
output. -/
theorem limited_mem {lo hi raw : K} {t : Tof K} (hlast : lo ≤ t.lastValidValue ∧ t.lastValidValue ≤ hi)
    (hraw : lo ≤ raw ∧ raw ≤ hi) : lo ≤ t.limited raw ∧ t.limited raw ≤ hi := by
  unfold Tof.limited
  split
  · exact hraw
  · refine Smoothing.limit_mem ?_ hlast hraw
    norm_num

theorem within_filterStep {lo hi raw : K} {t : Tof K}
    (h : Smoothing.Within filterWindow lo hi t.smoother)
    (hraw : lo ≤ raw ∧ raw ≤ hi) :
    Smoothing.Within filterWindow lo hi (filterStep t raw).smoother := by
  by_cases ha : Accepted raw
  · rw [smoother_filterStep ha]
    exact h.push (limited_mem h.last hraw)
  · rw [filterStep_of_not_accepted ha]
    exact h

/-- In every reachable state the filter holds distances of the sensor, or the zeros it
started with. -/
theorem within_filtered (samples : List K) :
    Smoothing.Within filterWindow 0 50 (filtered samples).smoother := by
  have hboot : Smoothing.Within filterWindow (0 : K) 50 Tof.boot.smoother := by
    have hzero : (0 : K) ≤ 0 ∧ (0 : K) ≤ 50 := ⟨le_rfl, by norm_num⟩
    refine ⟨?_, hzero, Nat.zero_lt_succ 3⟩
    intro i _
    exact hzero
  refine Runs.exec_inv (P := fun t : Tof K => Smoothing.Within filterWindow 0 50 t.smoother) ?_
    samples hboot
  intro t raw h
  by_cases ha : Accepted raw
  · exact within_filterStep h ⟨ha.1.le, ha.2⟩
  · rw [filterStep_of_not_accepted ha]
    exact h

/-- The state is within `m` of `v`. -/
def Near (v m : K) (t : Tof K) : Prop := Smoothing.Within filterWindow (v - m) (v + m) t.smoother

/-- One sample `v` writes a value nearer to `v` by 10, and never farther than what is there. -/
theorem limited_near {v m : K} {t : Tof K} (h : Near v m t) :
    v - max (m - 10) 0 ≤ t.limited v ∧ t.limited v ≤ v + max (m - 10) 0 := by
  unfold Tof.limited
  split
  · have hz := le_max_right (m - 10) 0
    exact ⟨by linarith, by linarith⟩
  · exact Smoothing.limit_mem_shrink h.last

theorem Near.step {v m : K} {t : Tof K} (h : Near v m t) (hm : 0 ≤ m) : Near v m (filterStep t v) := by
  refine within_filterStep h ?_
  exact ⟨by linarith, by linarith⟩

theorem Near.round {v m : K} {t : Tof K} (hv : Accepted v) (hm : 0 ≤ m) (h : Near v m t) :
    Near v (max (m - 10) 0) (Runs.exec filterStep t (List.replicate filterWindow v)) := by
  have hfresh : ∀ k ≤ filterWindow, Near v m (Runs.exec filterStep t (List.replicate k v)) ∧
      Smoothing.Fresh filterWindow (v - max (m - 10) 0) (v + max (m - 10) 0) k
        (Runs.exec filterStep t (List.replicate k v)).smoother := by
    intro k
    induction k with
    | zero => exact fun _ => ⟨h, Smoothing.fresh_zero _ _ h.place⟩
    | succ k ih =>
      intro hk
      obtain ⟨hnear, hf⟩ := ih (by omega)
      rw [List.replicate_succ', Runs.exec_append, Runs.exec_cons, Runs.exec_nil]
      refine ⟨hnear.step hm, ?_⟩
      rw [smoother_filterStep hv]
      exact hf.push (by omega) (limited_near hnear)
  refine Smoothing.Within.of_fresh (Nat.zero_lt_succ 3) (hfresh filterWindow le_rfl).2 ?_
  rw [filterWindow, List.replicate_succ', Runs.exec_append, Runs.exec_cons, Runs.exec_nil,
    smoother_filterStep hv]
  rfl

/-- Rounds of the window: each takes the error down by 10. -/
theorem Near.rounds {v : K} {t : Tof K} (hv : Accepted v) (n : Nat) {m : K} (h : Near v m t)
    (hm : 0 ≤ m) :
    Near v (max (m - n * 10) 0) (Runs.exec filterStep t (List.replicate (n * filterWindow) v)) := by
  induction n with
  | zero =>
    rw [Nat.cast_zero, zero_mul, sub_zero, max_eq_left hm, Nat.zero_mul]
    exact h
  | succ n ih =>
    have hround := ih.round hv (le_max_right (m - n * 10) 0)
    have hless : max (max (m - n * 10) 0 - 10) 0 = max (m - (n + 1 : Nat) * 10) 0 := by
      have hneg : (0 : K) - 10 ≤ 0 := by norm_num
      rw [← max_sub_sub_right, max_assoc, max_eq_right hneg, sub_sub, Nat.cast_succ, add_one_mul]
    rw [Nat.succ_mul, List.replicate_add, Runs.exec_append, ← hless]
    exact hround

theorem near_zero {v : K} {t : Tof K} (hv : Accepted v) (n : Nat)
    (h : Smoothing.Within filterWindow 0 50 t.smoother) :
    Near v 0 (Runs.exec filterStep t (List.replicate (5 * filterWindow + n) v)) := by
  have hstart : Near v 50 t := h.mono (by linarith [hv.2]) (by linarith [hv.1])
  have hrounds := hstart.rounds hv 5 (by norm_num)
  have hzero : max ((50 : K) - (5 : Nat) * 10) 0 = 0 := by norm_num
  rw [hzero] at hrounds
  rw [List.replicate_add, Runs.exec_append]
  refine Runs.exec_inv_mem (P := Near v 0) ?_ hrounds
  intro t' raw hraw ht'
  rw [(List.mem_replicate.1 hraw).2]
  exact ht'.step le_rfl

/-- Twenty accepted samples of one value make it the output, and a rejected sample leaves
the state alone and returns the last output. -/
theorem filter_settles :
    (∀ (pre mid : List K) (raw v : K), Accepted v → (∀ x ∈ accepted (mid ++ [raw]), x = v) →
      20 ≤ (accepted (mid ++ [raw])).length → reading (pre ++ mid) raw = v) ∧
    (∀ (pre : List K) (raw : K), ¬ Accepted raw → filtered (pre ++ [raw]) = filtered pre) ∧
    ∀ (pre : List K) (x raw : K), ¬ Accepted raw → reading (pre ++ [x]) raw = reading pre x := by
  have hrejected : ∀ (pre : List K) (raw : K), ¬ Accepted raw →
      filtered (pre ++ [raw]) = filtered pre := by
    intro pre raw hraw
    rw [filtered, Runs.exec_append, Runs.exec_cons, Runs.exec_nil, filterStep_of_not_accepted hraw]
    rfl
  refine ⟨?_, hrejected, ?_⟩
  · intro pre mid raw v hv hall hlen
    obtain ⟨n, hn⟩ : ∃ n, (accepted (mid ++ [raw])).length = 5 * filterWindow + n :=
      Nat.exists_eq_add_of_le hlen
    have hsame : accepted (mid ++ [raw]) = List.replicate (5 * filterWindow + n) v :=
      List.eq_replicate_iff.2 ⟨hn, hall⟩
    have hnear := near_zero hv n (within_filtered pre)
    rw [← hsame, ← exec_accepted, filtered, ← Runs.exec_append, ← List.append_assoc] at hnear
    obtain ⟨hlo, hhi⟩ := hnear.last
    rw [sub_zero] at hlo
    rw [add_zero] at hhi
    rw [reading_eq]
    exact le_antisymm hhi hlo
  · intro pre x raw hraw
    rw [reading_eq, hrejected _ _ hraw, reading_eq]

/-- One distance, a rejected sample, and a second distance for twenty samples. -/
theorem filter_settles_afterStep :
    reading ([45, 60] ++ (0 : ℚ) :: List.replicate 19 20) 20 = 20 ∧
      reading ([45] ++ [(45 : ℚ)]) 60 = reading [45] 45 := by
  have hrejected : ∀ raw : ℚ, 50 < raw → ¬ Accepted raw := fun raw h ha => absurd ha.2 (not_le.2 h)
  have hzero : ¬ Accepted (0 : ℚ) := fun ha => absurd ha.1 (lt_irrefl 0)
  have htwenty : Accepted (20 : ℚ) := by
    constructor <;> norm_num
  have hall : accepted ((0 : ℚ) :: List.replicate 19 20 ++ [20]) = List.replicate 20 20 := by
    have hmem : ∀ x ∈ List.replicate 20 (20 : ℚ), decide (Accepted x) = true := by
      intro x hx
      rw [(List.mem_replicate.1 hx).2]
      simpa using htwenty
    rw [List.cons_append, ← List.replicate_succ', accepted,
      List.filter_cons_of_neg (by simpa using hzero)]
    exact List.filter_eq_self.2 hmem
  obtain ⟨hsettles, -, hlast⟩ := filter_settles (K := ℚ)
  refine ⟨hsettles [45, 60] (0 :: List.replicate 19 20) 20 20 htwenty ?_ ?_, ?_⟩
  · intro x hx
    rw [hall] at hx
    exact (List.mem_replicate.1 hx).2
  · rw [hall, List.length_replicate]
  · exact hlast [45] 45 60 (hrejected 60 (by norm_num))

/-! ## Start-up -/

/-- The value lies between the smallest and the largest of the samples. -/
def Between (samples : List K) (x : K) : Prop := (∃ a ∈ samples, a ≤ x) ∧ ∃ b ∈ samples, x ≤ b

/-- Every value of a run that is returned after an accepted sample lies between the samples
accepted so far. -/
def Plausible (samples : List K) : Prop := ∀ pre raw post, samples = pre ++ raw :: post →
  accepted (pre ++ [raw]) ≠ [] → Between (accepted (pre ++ [raw])) (reading pre raw)

/-- The first samples, up to four, fill the window; the rest of it is 0. -/
structure Started (a : List K) (t : Tof K) : Prop where
  initCount : t.initCount = a.length
  place : t.bufferIndex = a.length % filterWindow
  cells : ∀ i < filterWindow, t.tofBuffer i = a.getD i 0
  last : t.lastValidValue = a.sum / 4

omit [LinearOrder K] [IsStrictOrderedRing K] in
/-- The mean of a window that holds the first samples and zeros. -/
theorem mean_started {a : List K} {b : Nat → K} (ha : a.length ≤ filterWindow)
    (hb : ∀ i < filterWindow, b i = a.getD i 0) : Smoothing.mean filterWindow b = a.sum / 4 := by
  have h0 := hb 0 (by decide)
  have h1 := hb 1 (by decide)
  have h2 := hb 2 (by decide)
  have h3 := hb 3 (by decide)
  rw [mean_window, h0, h1, h2, h3]
  match a, ha with
  | [], _ => simp
  | [w], _ => simp
  | [w, x], _ => simp
  | [w, x, y], _ => simp [add_assoc]
  | [w, x, y, z], _ => simp [add_assoc]

omit [LinearOrder K] [IsStrictOrderedRing K] in
theorem started_boot : Started ([] : List K) Tof.boot where
  initCount := rfl
  place := rfl
  cells _ _ := rfl
  last := by simp [Tof.boot]

omit [IsStrictOrderedRing K] in
theorem Started.step {a : List K} {raw : K} {t : Tof K} (h : Started a t)
    (hlen : a.length < filterWindow) (hraw : Accepted raw) :
    Started (a ++ [raw]) (filterStep t raw) := by
  have hinit : t.initCount < filterWindow := by
    rw [h.initCount]
    exact hlen
  have hplace : t.bufferIndex = a.length := by rw [h.place, Nat.mod_eq_of_lt hlen]
  have hwrite := smoother_filterStep hraw t
  rw [Tof.limited, if_pos hinit] at hwrite
  have hcells : ∀ i < filterWindow, (filterStep t raw).tofBuffer i = (a ++ [raw]).getD i 0 := by
    intro i hi
    have hbuf : (filterStep t raw).tofBuffer = Function.update t.tofBuffer t.bufferIndex raw :=
      congrArg Smoothing.Smoother.cells hwrite
    rw [hbuf, hplace]
    by_cases hia : i = a.length
    · subst hia
      simp
    · rw [Function.update_of_ne hia, h.cells i hi]
      rcases Nat.lt_or_gt_of_ne hia with hlt | hgt
      · rw [List.getD_append _ _ _ _ hlt]
      · rw [List.getD_eq_default _ _ (by omega), List.getD_eq_default _ _ (by simp; omega)]
  refine ⟨?_, ?_, hcells, ?_⟩
  · rw [initCount_filterStep hraw, if_pos hinit, h.initCount, List.length_append, List.length_singleton]
  · have hnext : (filterStep t raw).bufferIndex = (t.bufferIndex + 1) % filterWindow :=
      congrArg Smoothing.Smoother.place hwrite
    rw [hnext, hplace, List.length_append, List.length_singleton]
  · have hlast : (filterStep t raw).lastValidValue =
        Smoothing.mean filterWindow (filterStep t raw).tofBuffer :=
      (congrArg Smoothing.Smoother.last hwrite).trans
        (congrArg (Smoothing.mean filterWindow) (congrArg Smoothing.Smoother.cells hwrite)).symm
    rw [hlast]
    refine mean_started ?_ hcells
    rw [List.length_append, List.length_singleton]
    exact hlen

omit [IsStrictOrderedRing K] in
theorem started_exec {a : List K} (hall : ∀ x ∈ a, Accepted x) (hlen : a.length ≤ filterWindow) :
    Started a (Runs.exec filterStep Tof.boot a) := by
  induction a using List.reverseRecOn with
  | nil => exact started_boot
  | append_singleton a raw ih =>
    rw [List.length_append, List.length_singleton] at hlen
    have hstarted := ih (fun x hx => hall x (List.mem_append_left _ hx)) (by omega)
    rw [Runs.exec_append, Runs.exec_cons, Runs.exec_nil]
    exact hstarted.step (by omega) (hall raw (List.mem_append_right _ List.mem_cons_self))

theorem within_exec {a : List K} {lo hi : K} (hall : ∀ x ∈ a, Accepted x)
    (hlen : filterWindow ≤ a.length) (hmem : ∀ x ∈ a, lo ≤ x ∧ x ≤ hi) :
    Smoothing.Within filterWindow lo hi (Runs.exec filterStep Tof.boot a).smoother := by
  obtain ⟨first, rest, rfl, hfour⟩ : ∃ first rest, a = first ++ rest ∧ first.length = filterWindow :=
    ⟨a.take filterWindow, a.drop filterWindow, (List.take_append_drop _ a).symm,
      List.length_take_of_le hlen⟩
  have hstarted := started_exec (fun x hx => hall x (List.mem_append_left rest hx)) hfour.le
  rw [Runs.exec_append]
  refine Runs.exec_inv_mem (P := fun t : Tof K => Smoothing.Within filterWindow lo hi t.smoother)
    ?_ ?_
  · intro t raw hraw ht
    exact within_filterStep ht (hmem raw (List.mem_append_right first hraw))
  · -- the window is full of samples
    have hcells : ∀ i < filterWindow, lo ≤ (Runs.exec filterStep Tof.boot first).tofBuffer i ∧
        (Runs.exec filterStep Tof.boot first).tofBuffer i ≤ hi := by
      intro i hi
      rw [hstarted.cells i hi, List.getD_eq_getElem _ _ (by omega)]
      exact hmem _ (List.mem_append_left rest (List.getElem_mem (by omega)))
    refine ⟨hcells, ?_, ?_⟩
    · have hlast : (Runs.exec filterStep Tof.boot first).smoother.last =
          Smoothing.mean filterWindow (Runs.exec filterStep Tof.boot first).tofBuffer :=
        hstarted.last.trans (mean_started hfour.le hstarted.cells).symm
      rw [hlast]
      exact Smoothing.mean_mem (Nat.zero_lt_succ 3) hcells
    · show (Runs.exec filterStep Tof.boot first).bufferIndex < filterWindow
      rw [hstarted.place]
      exact Nat.mod_lt _ (Nat.zero_lt_succ 3)

omit [IsStrictOrderedRing K] in
theorem accepted_of_mem {samples : List K} {x : K} (h : x ∈ accepted samples) : Accepted x := by
  simpa using (List.mem_filter.1 h).2

/-- Before the window is full, the output is between the samples exactly when their sum
makes up for the zeros. -/
theorem between_early_iff {a : List K} (hall : ∀ x ∈ a, Accepted x) (hne : a ≠ [])
    (hlen : a.length ≤ filterWindow) :
    Between a (a.sum / 4) ↔ ∃ x ∈ a, 4 * x ≤ a.sum := by
  have hfour : (0 : K) < 4 := by norm_num
  -- the largest of at most four samples is above a quarter of their sum
  have hupper : ∃ b ∈ a, a.sum / 4 ≤ b := by
    obtain ⟨b, hb, hmax⟩ := a.toFinset.exists_max_image id (List.toFinset_nonempty_iff a |>.2 hne)
    have hmem : b ∈ a := List.mem_toFinset.1 hb
    refine ⟨b, hmem, ?_⟩
    have hsum : a.sum ≤ a.length • b := by
      apply List.sum_le_card_nsmul
      intro x hx
      exact hmax x (List.mem_toFinset.2 hx)
    have hcard : (a.length : K) ≤ 4 := by exact_mod_cast hlen
    have hquarter : (a.length : K) * b ≤ 4 * b :=
      mul_le_mul_of_nonneg_right hcard (hall b hmem).1.le
    rw [div_le_iff₀ hfour]
    rw [nsmul_eq_mul] at hsum
    linarith
  refine ⟨?_, ?_⟩
  · rintro ⟨⟨x, hx, hle⟩, -⟩
    rw [le_div_iff₀ hfour] at hle
    exact ⟨x, hx, by linarith⟩
  · rintro ⟨x, hx, hle⟩
    refine ⟨⟨x, hx, ?_⟩, hupper⟩
    rw [le_div_iff₀ hfour]
    linarith

theorem between_late {a : List K} (hall : ∀ x ∈ a, Accepted x) (hlen : filterWindow ≤ a.length) :
    Between a (Runs.exec filterStep Tof.boot a).lastValidValue := by
  have hne : a.toFinset.Nonempty := by
    rw [List.toFinset_nonempty_iff]
    rintro rfl
    simp [filterWindow] at hlen
  obtain ⟨lo, hlo, hmin⟩ := a.toFinset.exists_min_image id hne
  obtain ⟨hi, hhi, hmax⟩ := a.toFinset.exists_max_image id hne
  have hrange : ∀ x ∈ a, lo ≤ x ∧ x ≤ hi := by
    intro x hx
    have hx' := List.mem_toFinset.2 hx
    exact ⟨hmin x hx', hmax x hx'⟩
  have hwithin := within_exec hall hlen hrange
  exact ⟨⟨lo, List.mem_toFinset.1 hlo, hwithin.last.1⟩,
    ⟨hi, List.mem_toFinset.1 hhi, hwithin.last.2⟩⟩

theorem reading_between_iff (pre : List K) (raw : K) (hne : accepted (pre ++ [raw]) ≠ []) :
    Between (accepted (pre ++ [raw])) (reading pre raw) ↔
      filterWindow ≤ (accepted (pre ++ [raw])).length ∨
        ∃ x ∈ accepted (pre ++ [raw]), 4 * x ≤ (accepted (pre ++ [raw])).sum := by
  have hall : ∀ x ∈ accepted (pre ++ [raw]), Accepted x := fun x hx => accepted_of_mem hx
  rw [reading_eq, filtered, exec_accepted]
  generalize accepted (pre ++ [raw]) = a at hne hall ⊢
  rcases Nat.lt_or_ge a.length filterWindow with hlt | hge
  · rw [(started_exec hall hlt.le).last, between_early_iff hall hne hlt.le]
    exact ⟨Or.inr, fun h => h.resolve_left (Nat.not_le.2 hlt)⟩
  · exact iff_of_true (between_late hall hge) (Or.inl hge)

/-- Which values of a run are plausible; they all are only if nothing is ever accepted. -/
theorem plausible_iff (samples : List K) :
    (∀ pre raw post, samples = pre ++ raw :: post → accepted (pre ++ [raw]) ≠ [] →
      (Between (accepted (pre ++ [raw])) (reading pre raw) ↔
        filterWindow ≤ (accepted (pre ++ [raw])).length ∨
          ∃ x ∈ accepted (pre ++ [raw]), 4 * x ≤ (accepted (pre ++ [raw])).sum)) ∧
    (Plausible samples ↔ accepted samples = []) := by
  refine ⟨fun pre raw _ _ hne => reading_between_iff pre raw hne, ?_, ?_⟩
  · intro h
    by_contra hsome
    obtain ⟨a, ha⟩ : ∃ a, (accepted samples).head? = some a := by
      cases hacc : accepted samples with
      | nil => exact absurd hacc hsome
      | cons a _ => exact ⟨a, rfl⟩
    rw [accepted, List.head?_filter, List.find?_eq_some_iff_append] at ha
    obtain ⟨hacc, pre, post, hsplit, hpre⟩ := ha
    have hfirst : accepted (pre ++ [a]) = [a] := by
      have hnone : pre.filter (fun raw => Accepted raw) = [] := by
        apply List.filter_eq_nil_iff.2
        intro x hx
        simpa using hpre x hx
      rw [accepted, List.filter_append, hnone, List.nil_append]
      simpa using hacc
    have hpos : 0 < a := by
      have haccepted : Accepted a := by simpa using hacc
      exact haccepted.1
    have hbetween := h pre a post hsplit (by rw [hfirst]; simp)
    rw [reading_between_iff pre a (by rw [hfirst]; simp), hfirst] at hbetween
    rcases hbetween with hlen | ⟨x, hx, hle⟩
    · exact absurd hlen (by simp [filterWindow])
    · obtain rfl : x = a := by simpa using hx
      rw [List.sum_singleton] at hle
      linarith
  · intro hnone pre raw post hsplit hne
    exfalso
    apply hne
    rw [hsplit, List.append_cons, accepted, List.filter_append] at hnone
    exact (List.append_eq_nil_iff.1 hnone).1

theorem plausible_iff_first : Plausible [(45 : ℚ)] ↔ accepted [(45 : ℚ)] = [] :=
  (plausible_iff [45]).2

/-- The first reading of 45 is returned as 45 / 4. -/
theorem not_plausible_first : ¬ Plausible [(45 : ℚ)] := by
  intro h
  have haccepted : accepted [(45 : ℚ)] = [45] := by
    have hin : Accepted (45 : ℚ) := by
      constructor <;> norm_num
    simpa [accepted] using hin
  have hbetween := h [] 45 [] rfl (by
    rw [List.nil_append, haccepted]
    simp)
  have hreading : reading [] (45 : ℚ) = 45 / 4 := by
    norm_num [reading, filtered, Tof.boot, filteredTof, limitFilter, movingAverageFilter, filterWindow]
  rw [List.nil_append, haccepted, hreading] at hbetween
  obtain ⟨⟨x, hx, hle⟩, -⟩ := hbetween
  rw [List.mem_singleton.1 hx] at hle
  norm_num at hle

end RoboticArm
