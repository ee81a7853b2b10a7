import HopVault.Http
import Mathlib.Data.Rat.Lemmas
import Mathlib.Algebra.Order.Field.Rat
import Mathlib.Order.Bounds.Basic
import Mathlib.Tactic.Linarith

/-! # The numbers behind the charts

    What `experiments/experiment3/generate_charts.py` computes from the
    requests of a run and the time at which a node was killed. Times are in
    microseconds, the resolution of `datetime`. -/

namespace HopVault.Python

open Framework

/-! ## Rows -/

/-- A row of a request log as `load_csv` leaves it. -/
structure Row where
  status : Bytes
  latencyMs : ℚ
  circuitRebuilt : Bool
  rebuildDurationMs : ℚ
  ts : Int
  deriving DecidableEq, Repr

/-- `timedelta.total_seconds`. -/
def totalSeconds (d : Int) : ℚ := d / 10 ^ 6

/-- The request did not succeed. -/
def Row.failed (r : Row) : Bool := r.status != lit "success"

def computeDetectionTime (rows : List Row) (killTs : Int) : ℚ :=
  let failures := rows.filter Row.failed
  match (failures.map (·.ts)).min? with
  | none => 0
  | some firstFailure =>
    let dt := totalSeconds (firstFailure - killTs)
    max dt 0

def computeRequestLoss (rows : List Row) : Nat := rows.countP Row.failed

def computeRebuildOffsets (rows : List Row) (killTs : Int) : List (ℚ × ℚ) :=
  (rows.filter (·.circuitRebuilt)).map fun r => (totalSeconds (r.ts - killTs), r.rebuildDurationMs)

/-! ## Detection time -/

theorem totalSeconds_le {d e : Int} : totalSeconds d ≤ totalSeconds e ↔ d ≤ e := by
  unfold totalSeconds
  rw [div_le_div_iff_of_pos_right (by norm_num), Int.cast_le]

theorem totalSeconds_eq_zero {d : Int} : totalSeconds d = 0 ↔ d = 0 := by
  unfold totalSeconds
  rw [div_eq_zero_iff, Int.cast_eq_zero, or_iff_left (by norm_num)]

theorem totalSeconds_nonneg {d : Int} : 0 ≤ totalSeconds d ↔ 0 ≤ d := by
  have hzero := totalSeconds_eq_zero.mpr rfl
  rw [← hzero, totalSeconds_le]

variable {rows : List Row} {killTs : Int}

/-- What is returned when a request has failed: the least of the delays of
    all failures, where a negative one counts as zero. -/
theorem detection_clamped (killTs : Int) (h : ∃ r ∈ rows, r.failed = true) :
    IsLeast {d | ∃ r ∈ rows, r.failed = true ∧ d = max (totalSeconds (r.ts - killTs)) 0}
      (computeDetectionTime rows killTs) := by
  unfold computeDetectionTime
  dsimp only
  cases hmin : ((rows.filter Row.failed).map (·.ts)).min? with
  | none =>
    -- no failing row: excluded by h
    rw [List.min?_eq_none_iff, List.map_eq_nil_iff, List.filter_eq_nil_iff] at hmin
    obtain ⟨r, hr, hfailed⟩ := h
    exact absurd hfailed (hmin r hr)
  | some firstFailure =>
    obtain ⟨hmem, hleast⟩ := List.min?_eq_some_iff.mp hmin
    obtain ⟨r, hr, rfl⟩ := List.mem_map.mp hmem
    obtain ⟨hr, hfailed⟩ := List.mem_filter.mp hr
    -- the minimum is clamped after it was taken, which keeps it least
    refine ⟨⟨r, hr, hfailed, rfl⟩, ?_⟩
    intro d hd
    obtain ⟨r', hr', hfailed', rfl⟩ := hd
    apply max_le_max_right
    rw [totalSeconds_le]
    have hle := hleast r'.ts (List.mem_map.mpr ⟨r', List.mem_filter.mpr ⟨hr', hfailed'⟩, rfl⟩)
    omega

/-- Without a failure there is nothing to measure. -/
theorem detection_of_no_failure (h : ¬∃ r ∈ rows, r.failed = true) :
    computeDetectionTime rows killTs = 0 := by
  have hnone : rows.filter Row.failed = [] := by
    rw [List.filter_eq_nil_iff]
    intro r hr hfailed
    exact h ⟨r, hr, hfailed⟩
  unfold computeDetectionTime
  rw [hnone]
  rfl

/-- A failure that does not come after the kill makes the time zero. -/
theorem detection_eq_zero {r : Row} (hr : r ∈ rows) (hfailed : r.failed = true)
    (hle : r.ts ≤ killTs) : computeDetectionTime rows killTs = 0 := by
  have hclamped := detection_clamped killTs ⟨r, hr, hfailed⟩
  apply le_antisymm
  · have hdelay := hclamped.2 ⟨r, hr, hfailed, rfl⟩
    have hneg : totalSeconds (r.ts - killTs) ≤ 0 := by
      have hzero := totalSeconds_eq_zero.mpr (rfl : (0 : Int) = 0)
      rw [← hzero, totalSeconds_le]
      omega
    rwa [max_eq_right hneg] at hdelay
  · obtain ⟨r', _, _, heq⟩ := hclamped.1
    rw [heq]
    exact le_max_right _ _

/-- The order in which the requests were logged does not count. -/
theorem charts_perm {rows' : List Row} (h : rows.Perm rows') :
    computeDetectionTime rows killTs = computeDetectionTime rows' killTs ∧
    computeRequestLoss rows = computeRequestLoss rows' ∧
    (computeRebuildOffsets rows killTs).Perm (computeRebuildOffsets rows' killTs) := by
  refine ⟨?_, h.countP_eq _, (h.filter _).map _⟩
  by_cases hfailed : ∃ r ∈ rows, r.failed = true
  · have hfailed' : ∃ r ∈ rows', r.failed = true := by
      obtain ⟨r, hr, hr'⟩ := hfailed
      exact ⟨r, h.mem_iff.mp hr, hr'⟩
    have hleast := detection_clamped killTs hfailed
    simp only [h.mem_iff] at hleast
    exact hleast.unique (detection_clamped killTs hfailed')
  · have hfailed' : ¬∃ r ∈ rows', r.failed = true := by
      intro hex
      obtain ⟨r, hr, hr'⟩ := hex
      exact hfailed ⟨r, h.mem_iff.mpr hr, hr'⟩
    rw [detection_of_no_failure hfailed, detection_of_no_failure hfailed']

variable (rows killTs)

/-- The delays of the failures from the kill on. -/
def delays : Set ℚ :=
  {d | ∃ r ∈ rows, r.failed = true ∧ killTs ≤ r.ts ∧ d = totalSeconds (r.ts - killTs)}

/-- If a request failed from the kill on, the least delay of these is
    returned. -/
def MeasuredFromKill : Prop :=
  (∃ r ∈ rows, r.failed = true ∧ killTs ≤ r.ts) →
    IsLeast (delays rows killTs) (computeDetectionTime rows killTs)

/-- No request failed before the kill, or one failed at the very time of
    it, or none failed from then on. -/
def NoEarlierFailure : Prop :=
  (∀ r ∈ rows, r.failed = true → killTs ≤ r.ts) ∨
  (∃ r ∈ rows, r.failed = true ∧ r.ts = killTs) ∨
  ∀ r ∈ rows, r.failed = true → r.ts < killTs

variable {rows killTs}

/-- Where no failure comes before the kill no delay is clamped. -/
theorem measured_of_none_before (hall : ∀ r ∈ rows, r.failed = true → killTs ≤ r.ts) :
    MeasuredFromKill rows killTs := by
  intro hlate
  obtain ⟨late, hlate, hfailed, -⟩ := hlate
  have hclamped := detection_clamped killTs ⟨late, hlate, hfailed⟩
  -- where no failure is early the clamp changes nothing
  have hsame (r : Row) (hr : r ∈ rows) (hr' : r.failed = true) :
      max (totalSeconds (r.ts - killTs)) 0 = totalSeconds (r.ts - killTs) := by
    apply max_eq_left
    have hle := hall r hr hr'
    exact totalSeconds_nonneg.mpr (by omega)
  constructor
  · obtain ⟨r, hr, hr', heq⟩ := hclamped.1
    exact ⟨r, hr, hr', hall r hr hr', by rw [heq, hsame r hr hr']⟩
  · intro d hd
    obtain ⟨r, hr, hr', -, rfl⟩ := hd
    have hle := hclamped.2 ⟨r, hr, hr', rfl⟩
    rwa [hsame r hr hr'] at hle

/-- A failure at the time of the kill is the first that counts. -/
theorem measured_of_at_kill {r : Row} (hr : r ∈ rows) (hfailed : r.failed = true)
    (heq : r.ts = killTs) : MeasuredFromKill rows killTs := by
  intro _
  rw [detection_eq_zero hr hfailed heq.le]
  constructor
  · refine ⟨r, hr, hfailed, heq.ge, ?_⟩
    symm
    rw [totalSeconds_eq_zero]
    omega
  · intro d hd
    obtain ⟨r', _, _, hle, rfl⟩ := hd
    exact totalSeconds_nonneg.mpr (by omega)

/-- A failure before the kill hides those after it. -/
theorem at_kill_of_measured {early late : Row} (hmeasured : MeasuredFromKill rows killTs)
    (hearly : early ∈ rows) (hfailed : early.failed = true) (hbefore : early.ts < killTs)
    (hlate : late ∈ rows) (hfailed' : late.failed = true) (hafter : killTs ≤ late.ts) :
    ∃ r ∈ rows, r.failed = true ∧ r.ts = killTs := by
  have hleast := hmeasured ⟨late, hlate, hfailed', hafter⟩
  rw [detection_eq_zero hearly hfailed hbefore.le] at hleast
  obtain ⟨r, hr, hr', -, heq⟩ := hleast.1
  have hkill := totalSeconds_eq_zero.mp heq.symm
  exact ⟨r, hr, hr', by omega⟩

variable (rows killTs)

/-- **Detection time** is measured from the kill exactly if no failure
    comes before it, or one comes with it, or all do. -/
theorem detection_measured_iff : MeasuredFromKill rows killTs ↔ NoEarlierFailure rows killTs := by
  constructor
  · intro hmeasured
    unfold NoEarlierFailure
    by_contra hnot
    simp only [not_or, not_forall, not_lt, not_le] at hnot
    -- the condition fails when a failure is early, none is at the kill and one is later
    obtain ⟨⟨early, hearly, hfailed, hbefore⟩, hnone, ⟨late, hlate, hfailed', hafter⟩⟩ := hnot
    apply hnone
    exact at_kill_of_measured hmeasured hearly hfailed hbefore hlate hfailed' hafter
  · intro hcond
    rcases hcond with hall | ⟨r, hr, hfailed, heq⟩ | hnone
    · exact measured_of_none_before hall
    · exact measured_of_at_kill hr hfailed heq
    · intro hlate
      obtain ⟨late, hlate, hfailed, hafter⟩ := hlate
      have hlt := hnone late hlate hfailed
      omega

namespace Sample

/-- A failure five seconds before the kill, and one seven seconds after. -/
def log : List Row :=
  [⟨lit "failed_rebuilt", 40, true, 25, 0⟩, ⟨lit "failed_rebuilt", 55, true, 30, 12000000⟩]

end Sample

/-- The kill is then detected at once. -/
theorem detection_before_kill : ¬MeasuredFromKill Sample.log 5000000 := by
  have hfailed : ∀ r ∈ Sample.log, r.failed = true := by decide +kernel
  have hzero : computeDetectionTime Sample.log 5000000 = 0 := by decide +kernel
  intro hmeasured
  have hlate : (⟨lit "failed_rebuilt", 55, true, 30, 12000000⟩ : Row) ∈ Sample.log := by
    simp [Sample.log]
  have hleast := hmeasured ⟨_, hlate, hfailed _ hlate, by decide⟩
  rw [hzero] at hleast
  obtain ⟨r, hr, -, hle, hdelay⟩ := hleast.1
  have hkill := totalSeconds_eq_zero.mp hdelay.symm
  have hnone : ∀ r ∈ Sample.log, r.ts ≠ 5000000 := by decide +kernel
  apply hnone r hr
  omega

end HopVault.Python
