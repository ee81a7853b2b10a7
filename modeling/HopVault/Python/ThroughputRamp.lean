import Mathlib.Algebra.Order.Floor.Ring
import Mathlib.Data.Rat.Floor
import Mathlib.Algebra.Order.Field.Rat
import Mathlib.Data.List.Range

/-! # The throughput ramp

    `ThroughputRampShape` of `experiments/locust/throughput_scaling.py`:
    Locust calls `tick` again and again until it returns `None`. At the
    first tick of a step the statistics are read for the step before it, and
    the run ends when a threshold is breached or the ramp is over.

    The end of the ramp is found before the statistics are read, so that
    they are never read for the last step.

    Floating-point numbers are taken as the rationals they stand for. -/

namespace HopVault.Python.Ramp

/-! ## The shape -/

/-- The environment variables. -/
structure Config where
  relayCount : Int
  minUsers : Int
  maxUsers : Int
  stepSize : Int
  stepDuration : Int
  p95Threshold : ℚ
  errorRateThreshold : ℚ

/-- `runner.stats.total`. -/
structure Stats where
  numRequests : Nat
  numFailures : Nat
  /-- `get_response_time_percentile`. -/
  percentile : ℚ → Option ℚ
  currentRps : ℚ

/-- An entry of `_step_records`. -/
structure StepRecord where
  relayCount : Int
  users : Int
  elapsed : ℚ
  rps : ℚ
  p50 : ℚ
  p95 : ℚ
  p99 : ℚ
  requests : Nat
  failures : Nat
  errorRate : ℚ
  withinBounds : Bool
  deriving DecidableEq

/-- The fields of the shape, and the two globals it fills in. -/
structure State where
  lastSampledStep : Int
  breached : Bool
  stepRecords : List StepRecord
  ceilingRecord : Option StepRecord
  deriving DecidableEq

def State.init : State := ⟨-1, false, [], none⟩

/-- When `tick` is called, and the statistics if there is a runner. -/
structure Tick where
  elapsed : ℚ
  runner : Option Stats

/-- `round(x, n)`: half to even. -/
def round (x : ℚ) (n : Nat) : ℚ :=
  let y := x * 10 ^ n
  let below := ⌊y⌋
  let nearest :=
    if y - below < 1 / 2 then below
    else if 1 / 2 < y - below then below + 1
    else if below % 2 = 0 then below else below + 1
  nearest / 10 ^ n

/-- `get_response_time_percentile(q) or 0`. -/
def Stats.responseTime (st : Stats) (q : ℚ) : ℚ := (st.percentile q).getD 0

def Stats.total (st : Stats) : Nat := st.numRequests + st.numFailures

def Stats.errRate (st : Stats) : ℚ := st.numFailures / st.total

variable (cfg : Config)

def exceeds (st : Stats) : Bool :=
  decide (cfg.p95Threshold < st.responseTime 0.95 ∨ cfg.errorRateThreshold < st.errRate)

def stepRecord (users : Int) (elapsed : ℚ) (st : Stats) : StepRecord where
  relayCount := cfg.relayCount
  users := users
  elapsed := round elapsed 1
  rps := round st.currentRps 3
  p50 := st.responseTime 0.50
  p95 := round (st.responseTime 0.95) 1
  p99 := st.responseTime 0.99
  requests := st.numRequests
  failures := st.numFailures
  errorRate := round st.errRate 4
  withinBounds := decide (st.responseTime 0.95 ≤ cfg.p95Threshold ∧
    st.errRate ≤ cfg.errorRateThreshold)

/-- `_sample_step`. -/
def sampleStep (s : State) (users : Int) (elapsed : ℚ) (runner : Option Stats) : State :=
  match runner with
  | none => s
  | some st =>
    if st.total = 0 then s
    else
      let record := stepRecord cfg users elapsed st
      let s := { s with stepRecords := s.stepRecords ++ [record] }
      if exceeds cfg st then { s with breached := true } else { s with ceilingRecord := some record }

/-- `int(elapsed // STEP_DURATION)`. -/
def stepIdx (t : Tick) : Int := ⌊t.elapsed / cfg.stepDuration⌋

def usersAt (k : Int) : Int := cfg.minUsers + k * cfg.stepSize

/-- `tick`: the numbers of users and of users spawned in a second, or
    `None`. -/
def tick (s : State) (t : Tick) : Option (Int × Int) × State :=
  if s.breached then (none, s)
  else
    let stepIdx := stepIdx cfg t
    let users := usersAt cfg stepIdx
    if cfg.maxUsers < users then (none, s)
    else
      let spawnRate := max cfg.stepSize 10
      -- sample once per step transition
      if 0 < stepIdx ∧ stepIdx ≠ s.lastSampledStep then
        let s := { s with lastSampledStep := stepIdx }
        let prevUsers := usersAt cfg (stepIdx - 1)
        let s := sampleStep cfg s prevUsers t.elapsed t.runner
        if s.breached then (none, s) else (some (users, spawnRate), s)
      else (some (users, spawnRate), s)

/-- Ticks until the first that returns `None`; whether there was one. -/
def run : State → List Tick → Bool × State
  | s, [] => (false, s)
  | s, t :: ts =>
    match tick cfg s t with
    | (none, s) => (true, s)
    | (some _, s) => run s ts

/-! ## Steps and their windows -/

/-- The parameters make a ramp. -/
structure Config.Positive : Prop where
  minUsers : 0 < cfg.minUsers
  maxUsers : cfg.minUsers ≤ cfg.maxUsers
  stepSize : 0 < cfg.stepSize
  stepDuration : 0 < cfg.stepDuration

/-- The largest step of the ramp. -/
def lastStep : Nat := ((cfg.maxUsers - cfg.minUsers) / cfg.stepSize).toNat

variable {cfg}

theorem Config.Positive.usersAt_le (h : cfg.Positive) {k : Int} :
    usersAt cfg k ≤ cfg.maxUsers ↔ k ≤ lastStep cfg := by
  have hsize := h.stepSize
  have hnonneg : 0 ≤ (cfg.maxUsers - cfg.minUsers) / cfg.stepSize :=
    Int.ediv_nonneg (by have hle := h.maxUsers; omega) hsize.le
  unfold usersAt lastStep
  rw [Int.toNat_of_nonneg hnonneg, Int.le_ediv_iff_mul_le hsize]
  omega

/-- Time does not take a run back to an earlier step. -/
theorem Config.Positive.stepIdx_mono (h : cfg.Positive) {t u : Tick} (hle : t.elapsed ≤ u.elapsed) :
    stepIdx cfg t ≤ stepIdx cfg u := by
  have hduration : (0 : ℚ) < cfg.stepDuration := by exact_mod_cast h.stepDuration
  apply Int.floor_le_floor
  exact (div_le_div_iff_of_pos_right hduration).mpr hle

variable (cfg)

/-- Ticks in order, with one in each window after the `m`-th that they go
    past, and statistics at each. -/
structure Fits (m : Nat) (ts : List Tick) : Prop where
  ordered : ts.Pairwise fun t u => t.elapsed ≤ u.elapsed
  covered : ∀ t ∈ ts, ∀ k : Int, m < k → k ≤ lastStep cfg → k ≤ stepIdx cfg t →
    ∃ u ∈ ts, stepIdx cfg u = k
  available : ∀ t ∈ ts, ∃ st, t.runner = some st ∧ st.total ≠ 0

/-- A threshold is breached where a step is sampled: at the first tick in
    the window of the next step. -/
def Breaches (m : Nat) (ts : List Tick) : Prop :=
  ∃ before t after st, ts = before ++ t :: after ∧
    (∀ u ∈ before, stepIdx cfg u < stepIdx cfg t) ∧
    m < stepIdx cfg t ∧ stepIdx cfg t ≤ lastStep cfg ∧ t.runner = some st ∧ exceeds cfg st = true

/-- The first `n` steps have been sampled, once each and in order. -/
def Sampled (s : State) (n : Nat) : Prop :=
  s.stepRecords.map (·.users) = (List.range n).map fun k : Nat => usersAt cfg k

/-- The state while the ramp is at step `m`. -/
structure AtStep (s : State) (m : Nat) : Prop where
  going : s.breached = false
  last : s.lastSampledStep = if m = 0 then -1 else (m : Int)
  sampled : Sampled cfg s m
  within : ∀ r ∈ s.stepRecords, r.withinBounds = true
  ceiling : s.ceilingRecord = s.stepRecords.getLast?

/-- The run has been stopped by step `k`. -/
structure StoppedBy (s : State) (k : Nat) : Prop where
  sampled : Sampled cfg s (k + 1)
  within : ∀ r ∈ s.stepRecords.take k, r.withinBounds = true
  breach : ∃ r, s.stepRecords[k]? = some r ∧ r.withinBounds = false
  ceiling : s.ceilingRecord = if k = 0 then none else s.stepRecords[k - 1]?

variable {cfg}

theorem Sampled.length {s : State} {n : Nat} (h : Sampled cfg s n) : s.stepRecords.length = n := by
  have hlength := congrArg List.length h
  simpa using hlength

theorem Sampled.snoc {s s' : State} {n : Nat} (h : Sampled cfg s n) {r : StepRecord}
    (hr : s'.stepRecords = s.stepRecords ++ [r]) (husers : r.users = usersAt cfg n) :
    Sampled cfg s' (n + 1) := by
  unfold Sampled at *
  rw [hr, List.map_append, h, List.range_succ, List.map_append, List.map_singleton,
    List.map_singleton, husers]

theorem withinBounds_iff {users : Int} {elapsed : ℚ} {st : Stats} :
    (stepRecord cfg users elapsed st).withinBounds = !exceeds cfg st := by
  unfold stepRecord exceeds
  rw [← decide_not, decide_eq_decide, not_or, not_lt, not_lt]

/-! ## One tick -/

section Tick

variable {s : State} {m : Nat} {t : Tick}

/-- A tick in a window that has been sampled for. -/
theorem AtStep.tick_stay (hpos : cfg.Positive) (hs : AtStep cfg s m)
    (hle : stepIdx cfg t ≤ m) (hfrom : m = 0 ∨ m ≤ stepIdx cfg t)
    (hramp : stepIdx cfg t ≤ lastStep cfg) : ∃ answer, tick cfg s t = (some answer, s) := by
  have husers := not_lt.mpr (hpos.usersAt_le.mpr hramp)
  have hnone : ¬(0 < stepIdx cfg t ∧ stepIdx cfg t ≠ s.lastSampledStep) := by
    rw [hs.last]
    split_ifs <;> omega
  unfold tick
  rw [hs.going]
  simp only [Bool.false_eq_true, if_false, if_neg husers, if_neg hnone]
  exact ⟨_, rfl⟩

/-- A tick after the last window. -/
theorem AtStep.tick_end (hpos : cfg.Positive) (hs : AtStep cfg s m)
    (hramp : lastStep cfg < stepIdx cfg t) : tick cfg s t = (none, s) := by
  have husers : cfg.maxUsers < usersAt cfg (stepIdx cfg t) := by
    rw [← not_le, hpos.usersAt_le]
    omega
  unfold tick
  rw [hs.going]
  simp only [Bool.false_eq_true, if_false, if_pos husers]

/-- A record that breaches a threshold stops the ramp. -/
theorem AtStep.stop (hs : AtStep cfg s m) {s' : State} {r : StepRecord}
    (husers : r.users = usersAt cfg m) (hbounds : r.withinBounds = false)
    (hrecords : s'.stepRecords = s.stepRecords ++ [r])
    (hceiling : s'.ceilingRecord = s.ceilingRecord) : StoppedBy cfg s' m := by
  have hlength := hs.sampled.length
  constructor
  · exact hs.sampled.snoc hrecords husers
  · intro r' hr'
    rw [hrecords, List.take_left' hlength] at hr'
    exact hs.within r' hr'
  · refine ⟨r, ?_, hbounds⟩
    rw [hrecords, List.getElem?_append_right hlength.le, hlength, Nat.sub_self]
    rfl
  · -- the ceiling is the record of the step before, if there was one
    rw [hceiling, hs.ceiling, hrecords, List.getLast?_eq_getElem?, hlength]
    by_cases hm : m = 0
    · rw [if_pos hm, List.getElem?_eq_none]
      omega
    · rw [if_neg hm, List.getElem?_append_left]
      omega

/-- With a record that breaches none it goes on to the next step. -/
theorem AtStep.next (hs : AtStep cfg s m) {s' : State} {r : StepRecord}
    (husers : r.users = usersAt cfg m) (hbounds : r.withinBounds = true)
    (hrecords : s'.stepRecords = s.stepRecords ++ [r]) (hgoing : s'.breached = false)
    (hlast : s'.lastSampledStep = m + 1) (hceiling : s'.ceilingRecord = some r) :
    AtStep cfg s' (m + 1) := by
  constructor
  · exact hgoing
  · rw [hlast, if_neg (by omega)]
    rfl
  · exact hs.sampled.snoc hrecords husers
  · intro r' hr'
    rw [hrecords] at hr'
    rcases List.mem_append.mp hr' with hr' | hr'
    · exact hs.within r' hr'
    · rw [List.mem_singleton.mp hr']
      exact hbounds
  · rw [hceiling, hrecords]
    exact List.getLast?_concat.symm

/-- The first tick in the next window. -/
theorem AtStep.tick_next (hpos : cfg.Positive) (hs : AtStep cfg s m)
    (hnext : stepIdx cfg t = m + 1) (hramp : stepIdx cfg t ≤ lastStep cfg) {st : Stats}
    (hrunner : t.runner = some st) (htotal : st.total ≠ 0) :
    (exceeds cfg st = true ∧ ∃ s', tick cfg s t = (none, s') ∧ s'.breached = true ∧
      StoppedBy cfg s' m) ∨
    (exceeds cfg st = false ∧ ∃ answer s', tick cfg s t = (some answer, s') ∧
      AtStep cfg s' (m + 1)) := by
  have husers := not_lt.mpr (hpos.usersAt_le.mpr hramp)
  have hsample : 0 < stepIdx cfg t ∧ stepIdx cfg t ≠ s.lastSampledStep := by
    rw [hs.last]
    split_ifs <;> omega
  -- the record of the step before
  have hprev : stepIdx cfg t - 1 = (m : Int) := by omega
  let r := stepRecord cfg (usersAt cfg m) t.elapsed st
  have hbounds : r.withinBounds = !exceeds cfg st := withinBounds_iff
  unfold tick sampleStep
  rw [hs.going, hrunner]
  simp only [Bool.false_eq_true, if_false, if_neg husers, if_pos hsample, if_neg htotal, hprev]
  cases hexceeds : exceeds cfg st with
  | true =>
    rw [hexceeds] at hbounds
    exact .inl ⟨rfl, _, rfl, rfl, hs.stop (r := r) rfl hbounds rfl rfl⟩
  | false =>
    rw [hexceeds] at hbounds
    refine .inr ⟨rfl, _, ⟨stepIdx cfg t, false, s.stepRecords ++ [r], some r⟩, rfl, ?_⟩
    exact hs.next rfl hbounds rfl rfl hnext rfl

end Tick

/-! ## Runs -/

variable (cfg) in
/-- How a run can go. -/
inductive Outcome (m : Nat) (ts : List Tick) : Bool × State → Prop
  /-- No tick has come after the ramp. -/
  | going {s : State} : (∀ t ∈ ts, stepIdx cfg t ≤ lastStep cfg) → Outcome m ts (false, s)
  /-- A step has breached a threshold. -/
  | breached {s : State} (k : Nat) :
      Breaches cfg m ts → s.breached = true → StoppedBy cfg s k → Outcome m ts (true, s)
  /-- A tick has come after the ramp, and the last step is not sampled. -/
  | finished {s : State} :
      ¬Breaches cfg m ts → (∃ t ∈ ts, lastStep cfg < stepIdx cfg t) →
      AtStep cfg s (lastStep cfg) → Outcome m ts (true, s)

section Fits

variable {m : Nat} {t : Tick} {ts : List Tick}

/-- A window is not passed over. -/
theorem Fits.step_le (hpos : cfg.Positive) (h : Fits cfg m (t :: ts)) (hm : m < lastStep cfg)
    (hlt : m < stepIdx cfg t) : stepIdx cfg t = m + 1 := by
  obtain ⟨u, hu, hstep⟩ := h.covered t (by simp) (m + 1) (by omega) (by omega) (by omega)
  rcases List.mem_cons.mp hu with rfl | hu
  · exact hstep
  · have hle := hpos.stepIdx_mono ((List.pairwise_cons.mp h.ordered).1 u hu)
    omega

/-- What is left after a tick in a window up to the `n`-th. -/
theorem Fits.tail {n : Nat} (h : Fits cfg m (t :: ts)) (hmn : m ≤ n) (hle : stepIdx cfg t ≤ n) :
    Fits cfg n ts := by
  constructor
  · exact (List.pairwise_cons.mp h.ordered).2
  · intro u hu k hk hlast hstep
    obtain ⟨v, hv, hvk⟩ := h.covered u (List.mem_cons_of_mem _ hu) k (by omega) hlast hstep
    rcases List.mem_cons.mp hv with rfl | hv
    · omega
    · exact ⟨v, hv, hvk⟩
  · intro u hu
    exact h.available u (List.mem_cons_of_mem _ hu)

/-- A breach comes after a tick in an earlier window, and after one at which
    nothing is breached. -/
theorem breaches_cons {n : Nat} (h : stepIdx cfg t ≤ m ∧ n = m ∨
      stepIdx cfg t = n ∧ m < n ∧ ∀ st, t.runner = some st → exceeds cfg st = false) :
    Breaches cfg m (t :: ts) ↔ Breaches cfg n ts := by
  constructor
  · intro hbreaches
    obtain ⟨before, v, after, st, hsplit, hbefore, hlow, hhigh, hrunner, hexceeds⟩ := hbreaches
    cases before with
    | nil =>
      -- a breach at this tick is past step m and over a threshold
      obtain ⟨rfl, -⟩ := List.cons_eq_cons.mp hsplit
      rcases h with ⟨hle, -⟩ | ⟨-, -, hnone⟩
      · omega
      · rw [hnone st hrunner] at hexceeds
        cases hexceeds
    | cons u before =>
      obtain ⟨rfl, hrest⟩ := List.cons_eq_cons.mp hsplit
      have hlt := hbefore t (by simp)
      refine ⟨before, v, after, st, hrest, ?_, by omega, hhigh, hrunner, hexceeds⟩
      intro u hu
      exact hbefore u (List.mem_cons_of_mem _ hu)
  · intro hbreaches
    obtain ⟨before, v, after, st, hsplit, hbefore, hlow, hhigh, hrunner, hexceeds⟩ := hbreaches
    refine ⟨t :: before, v, after, st, by rw [hsplit]; rfl, ?_, by omega, hhigh, hrunner, hexceeds⟩
    intro u hu
    -- a tick before the breach is not past the window of the step that breaches
    rcases List.mem_cons.mp hu with rfl | hu
    · omega
    · exact hbefore u hu

end Fits

/-- One more tick changes neither way. -/
theorem Outcome.cons {m n : Nat} {t : Tick} {ts : List Tick} {x : Bool × State}
    (h : Outcome cfg n ts x) (hramp : stepIdx cfg t ≤ lastStep cfg)
    (hbreaches : Breaches cfg m (t :: ts) ↔ Breaches cfg n ts) : Outcome cfg m (t :: ts) x := by
  cases h with
  | going hnone =>
    apply Outcome.going
    intro u hu
    rcases List.mem_cons.mp hu with rfl | hu
    · exact hramp
    · exact hnone u hu
  | breached k hbreach hflag hstopped =>
    exact .breached k (hbreaches.mpr hbreach) hflag hstopped
  | finished hnone hlate hs =>
    obtain ⟨u, hu, hlt⟩ := hlate
    exact .finished (fun hbreach => hnone (hbreaches.mp hbreach))
      ⟨u, List.mem_cons_of_mem _ hu, hlt⟩ hs

/-- **Run**: a run from step `m` on ends in one of the three ways. The
    induction is on the ticks. -/
theorem outcome_run (hpos : cfg.Positive) {ts : List Tick} {s : State} {m : Nat}
    (hs : AtStep cfg s m) (hm : m ≤ lastStep cfg) (hts : Fits cfg m ts)
    (hfrom : ∀ t ∈ ts, m = 0 ∨ m ≤ stepIdx cfg t) : Outcome cfg m ts (run cfg s ts) := by
  -- induction on the ticks; the state at step m is the invariant
  induction ts generalizing s m with
  | nil =>
    apply Outcome.going
    intro t ht
    cases ht
  | cons t ts ih =>
    have hlater : ∀ u ∈ ts, stepIdx cfg t ≤ stepIdx cfg u := fun u hu =>
      hpos.stepIdx_mono ((List.pairwise_cons.mp hts.ordered).1 u hu)
    unfold run
    by_cases hover : lastStep cfg < stepIdx cfg t
    · -- the windows up to the last have been gone through
      have hlast : m = lastStep cfg := by
        by_contra hne
        have hstep := hts.step_le hpos (by omega) (by omega)
        omega
      rw [hs.tick_end hpos hover]
      refine .finished ?_ ⟨t, by simp, hover⟩ (hlast ▸ hs)
      intro hbreach
      obtain ⟨_, _, _, _, -, -, hlow, hhigh, -⟩ := hbreach
      omega
    · have hramp : stepIdx cfg t ≤ lastStep cfg := by omega
      -- a tick in the window of a step already sampled changes nothing
      by_cases hle : stepIdx cfg t ≤ m
      · obtain ⟨answer, htick⟩ := hs.tick_stay hpos hle (hfrom t (by simp)) hramp
        rw [htick]
        refine (ih hs hm (hts.tail le_rfl hle) ?_).cons hramp (breaches_cons (.inl ⟨hle, rfl⟩))
        intro u hu
        exact hfrom u (List.mem_cons_of_mem _ hu)
      · -- the first tick of the next window samples step m, and stops there if it breaches
        have hnext := hts.step_le hpos (by omega) (by omega)
        obtain ⟨st, hrunner, htotal⟩ := hts.available t (by simp)
        rcases hs.tick_next hpos hnext hramp hrunner htotal with
          ⟨hexceeds, s', htick, hflag, hstopped⟩ | ⟨hexceeds, answer, s', htick, hs'⟩
        · rw [htick]
          refine .breached m ⟨[], t, ts, st, rfl, ?_, by omega, hramp, hrunner, hexceeds⟩ hflag
            hstopped
          intro u hu
          cases hu
        · rw [htick]
          have hnone : ∀ st', t.runner = some st' → exceeds cfg st' = false := by
            intro st' hrunner'
            rw [hrunner] at hrunner'
            cases hrunner'
            exact hexceeds
          refine (ih hs' (by omega) (hts.tail (by omega) (by omega)) ?_).cons hramp
            (breaches_cons (.inr ⟨by omega, by omega, hnone⟩))
          -- the later ticks are not earlier than this one, so past step m as well
          intro u hu
          have hstep := hlater u hu
          omega

theorem atStep_init : AtStep cfg .init 0 := by
  constructor
  · rfl
  · rfl
  · rfl
  · intro r hr
    cases hr
  · rfl

/-! ## The samples of a run -/

variable (cfg)

/-- When the run has ended: every step of the ramp has been sampled and the
    ceiling is the last one, or a step `k` has breached a threshold, the
    steps up to it have been sampled, and the ceiling is the one before. -/
def SamplesEveryStep (ts : List Tick) : Prop :=
  (run cfg .init ts).1 = true →
    ((run cfg .init ts).2.breached = false →
      Sampled cfg (run cfg .init ts).2 (lastStep cfg + 1) ∧
      (run cfg .init ts).2.ceilingRecord = (run cfg .init ts).2.stepRecords[lastStep cfg]?) ∧
    ((run cfg .init ts).2.breached = true → ∃ k, StoppedBy cfg (run cfg .init ts).2 k)

variable {cfg}

/-- **The ramp** samples every step exactly if a step before the last
    breaches a threshold, or the ticks do not go past the ramp: otherwise
    the last step is missed. -/
theorem samples_iff (hpos : cfg.Positive) {ts : List Tick} (hts : Fits cfg 0 ts) :
    SamplesEveryStep cfg ts ↔
      Breaches cfg 0 ts ∨ ∀ t ∈ ts, stepIdx cfg t ≤ lastStep cfg := by
  have houtcome := outcome_run hpos atStep_init (Nat.zero_le _) hts fun _ _ => .inl rfl
  unfold SamplesEveryStep
  cases hrun : run cfg .init ts with
  | mk stopped s =>
    rw [hrun] at houtcome
    cases houtcome with
    | going hnone =>
      -- the run goes on, so it has returned no None
      refine iff_of_true ?_ (.inr hnone)
      intro hstopped
      cases hstopped
    | breached k hbreach hflag hstopped =>
      -- stopped by a breach
      refine iff_of_true ?_ (.inl hbreach)
      intro _
      refine ⟨?_, fun _ => ⟨k, hstopped⟩⟩
      intro hgoing
      rw [hflag] at hgoing
      cases hgoing
    | finished hnone hlate hs =>
      -- past the ramp: the last step's record is what tick never makes
      refine iff_of_false ?_ ?_
      · intro h
        -- one record is missing
        have hsampled := ((h rfl).1 hs.going).1
        have hlength := hsampled.length
        rw [hs.sampled.length] at hlength
        omega
      · intro hcond
        obtain ⟨t, ht, hlt⟩ := hlate
        rcases hcond with hbreach | hall
        · exact hnone hbreach
        · have hle := hall t ht
          omega

namespace Sample

/-- Two steps of half a minute. -/
def twoSteps : Config := ⟨2, 10, 20, 10, 30, 500, 0.01⟩

/-- Statistics with this response time at every percentile. -/
def stats (ms : ℚ) : Stats := ⟨1000, 0, fun _ => some ms, 33⟩

/-- One tick in each window, and one after the ramp. -/
def ticks (ms : ℚ) : List Tick :=
  [⟨0, some (stats ms)⟩, ⟨30, some (stats ms)⟩, ⟨60, some (stats ms)⟩]

theorem positive : twoSteps.Positive := ⟨by decide, by decide, by decide, by decide⟩

theorem fits (ms : ℚ) : Fits twoSteps 0 (ticks ms) := by
  have hwindows : stepIdx twoSteps ⟨0, some (stats ms)⟩ = 0 ∧ stepIdx twoSteps ⟨30, some (stats ms)⟩ = 1 ∧
      stepIdx twoSteps ⟨60, some (stats ms)⟩ = 2 := by
    refine ⟨?_, ?_, ?_⟩ <;> norm_num [stepIdx, twoSteps]
  have hlast : lastStep twoSteps = 1 := by decide
  constructor
  · have hlater : (30 : ℚ) ≤ 60 := by norm_num
    simp [ticks, hlater]
  · intro t _ k hlow hhigh _
    rw [hlast] at hhigh
    have hk : k = 1 := by omega
    exact ⟨⟨30, some (stats ms)⟩, by simp [ticks], by rw [hwindows.2.1, hk]⟩
  · intro t ht
    refine ⟨stats ms, ?_, by simp [stats, Stats.total]⟩
    simp only [ticks, List.mem_cons, List.not_mem_nil, or_false] at ht
    rcases ht with rfl | rfl | rfl <;> rfl

end Sample

/-- At 600 milliseconds the first step breaches its threshold. -/
theorem samples_iff_sample : SamplesEveryStep Sample.twoSteps (Sample.ticks 600) := by
  refine (samples_iff Sample.positive (Sample.fits 600)).mpr (.inl ?_)
  refine ⟨[⟨0, some (Sample.stats 600)⟩], ⟨30, some (Sample.stats 600)⟩,
    [⟨60, some (Sample.stats 600)⟩], Sample.stats 600, rfl, ?_, ?_, ?_, rfl, ?_⟩
  all_goals decide +kernel

/-- At 50 milliseconds nothing is breached, and only the first of the two
    steps is sampled. -/
theorem ramp_misses_last_step :
    Sample.twoSteps.Positive ∧ Fits Sample.twoSteps 0 (Sample.ticks 50) ∧
    ¬SamplesEveryStep Sample.twoSteps (Sample.ticks 50) := by
  refine ⟨Sample.positive, Sample.fits 50, ?_⟩
  have hrun : (run Sample.twoSteps .init (Sample.ticks 50)).1 = true ∧
      (run Sample.twoSteps .init (Sample.ticks 50)).2.breached = false ∧
      (run Sample.twoSteps .init (Sample.ticks 50)).2.stepRecords.length = 1 := by decide +kernel
  have hlast : lastStep Sample.twoSteps = 1 := by decide
  intro h
  have hlength := ((h hrun.1).1 hrun.2.1).1.length
  rw [hrun.2.2, hlast] at hlength
  cases hlength

end HopVault.Python.Ramp
