import HopVault.Framework.Csv
import HopVault.Python.Charts
import HopVault.Python.Timestamps
import Mathlib.Algebra.BigOperators.Ring.Finset
import Mathlib.Tactic.GCongr

/-! # The request log of Experiment 3

    `log_csv_row` and `export_results` of `experiments/experiment3/
    locustfile.py` write a row for each request, and `load_csv` of
    `generate_charts.py` reads the file from which the charts are drawn.
    The log keeps the second of a request, not its time. -/

namespace HopVault.Python

open Framework Framework.Utf8 Framework.Decimal Framework.Calendar

/-! ## Writing -/

/-- A row of the log, in the order of `CSV_FIELDS`. -/
structure LogRow where
  timestamp : Bytes
  status : Bytes
  latencyMs : Int
  circuitRebuilt : Bool
  rebuildDurationMs : Int
  deriving DecidableEq, Repr

/-- `int` of a number. -/
def truncate (q : ℚ) : Int := q.num.tdiv q.den

/-- What `log_csv_row` appends at a time of the clock. -/
def logCsvRow (now : Nat) (status : Bytes) (latencyMs : ℚ) (circuitRebuilt : Bool)
    (rebuildDurationMs : ℚ) : LogRow :=
  ⟨formatRowTime (gmtime now), status, truncate latencyMs, circuitRebuilt, truncate rebuildDurationMs⟩

/-- The dialect `excel`. -/
def excel : Csv.Dialect UInt8 := ⟨44, 34, 13, 10, by decide⟩

/-- `CSV_FIELDS`. -/
def csvFields : List Bytes :=
  [lit "timestamp", lit "status", lit "latency_ms", lit "circuit_rebuilt", lit "rebuild_duration_ms"]

/-- `str` of a `bool`. -/
def formatBool (b : Bool) : Bytes := if b then lit "True" else lit "False"

/-- The fields of a row as texts. -/
def LogRow.cells (r : LogRow) : List Bytes :=
  [r.timestamp, r.status, itoa r.latencyMs, formatBool r.circuitRebuilt, itoa r.rebuildDurationMs]

/-- The file `export_results` writes; none without rows. -/
def exportResults (rows : List LogRow) : Option Bytes :=
  if rows = [] then none else some (Csv.write excel (csvFields :: rows.map LogRow.cells))

/-! ## Reading -/

/-- `row[name]` of a `csv.DictReader`; `none` if there is no such column, or
    the row is too short. -/
def cell (fieldnames row : List Bytes) (name : String) : Option Bytes :=
  ((fieldnames.zip row).reverse.find? fun c => c.1 == lit name).map (·.2)

/-- `str.lower` on ASCII. -/
def lower (s : Bytes) : Bytes :=
  s.map fun b => if 65 ≤ b.toNat ∧ b.toNat ≤ 90 then UInt8.ofNat (b.toNat + 32) else b

/-- `text.lower() in ("true", "1", "yes")`. -/
def readsTrue (text : Bytes) : Bool := [lit "true", lit "1", lit "yes"].contains (lower text)

/-- The time of a row, in microseconds from 1970. -/
def rowTimestamp (t : DateTime) : Int := ((t.seconds : Int) - epochSeconds) * 10 ^ 6

section

-- float of a text
variable (parseFloat : Bytes → Option ℚ)

/-- The body of the loop of `load_csv`. -/
def loadRow (fieldnames row : List Bytes) : Option Row := do
  let latencyMs ← (← cell fieldnames row "latency_ms") |> parseFloat
  let rebuildDurationMs ← (← cell fieldnames row "rebuild_duration_ms") |> parseFloat
  let rebuilt ← cell fieldnames row "circuit_rebuilt"
  let ts ← (← cell fieldnames row "timestamp") |> strptime
  let status ← cell fieldnames row "status"
  return ⟨status, latencyMs, readsTrue rebuilt, rebuildDurationMs, rowTimestamp ts⟩

/-- `load_csv` of a file; `none` if it raises. A row without fields is
    skipped. -/
def loadCsv (text : Bytes) : Option (List Row) :=
  match Csv.read excel text with
  | none => none
  | some [] => some []
  | some (fieldnames :: rows) => (rows.filter (· ≠ [])).mapM (loadRow parseFloat fieldnames)

end

/-! ## Timeline -/

/-- The bin of a row. -/
def binOffset (start : Int) (binSeconds : Nat) (r : Row) : Int :=
  truncate (totalSeconds (r.ts - start) / binSeconds)

/-- One more request in a bin. -/
def countBin (start : Int) (binSeconds : Nat) (bins : Int → Nat) (r : Row) : Int → Nat :=
  Function.update bins (binOffset start binSeconds r) (bins (binOffset start binSeconds r) + 1)

/-- `compute_rps_timeline`: the bins from the first request to the last, and
    the rate of each. -/
def computeRpsTimeline (rows : List Row) (binSeconds : Nat) : List Nat × List ℚ :=
  match (rows.map (·.ts)).min? with
  | none => ([], [])
  | some start =>
    let bins := rows.foldl (countBin start binSeconds) fun _ => 0
    let maxOffset := ((rows.map (binOffset start binSeconds)).max?.getD 0 + 1).toNat
    let xs := List.range maxOffset
    (xs, xs.map fun (x : Nat) => (bins x : ℚ) / binSeconds)

/-! ## What was logged -/

/-- A request, at the time it was logged. -/
structure Logged where
  now : Nat
  status : Bytes
  latencyMs : ℚ
  circuitRebuilt : Bool
  rebuildDurationMs : ℚ

namespace Logged

def row (e : Logged) : LogRow :=
  logCsvRow e.now e.status e.latencyMs e.circuitRebuilt e.rebuildDurationMs

/-- The row the charts see, at some time. -/
def seen (e : Logged) (ts : Int) : Row :=
  ⟨e.status, truncate e.latencyMs, e.circuitRebuilt, truncate e.rebuildDurationMs, ts⟩

/-- As it is read back: the second is kept. -/
def loaded (e : Logged) : Row := e.seen ((e.now / 10 ^ 6 : Nat) * 10 ^ 6)

/-- As it was. -/
def exact (e : Logged) : Row := e.seen e.now

@[simp] theorem seen_ts (e : Logged) (ts : Int) : (e.seen ts).ts = ts := rfl

@[simp] theorem loaded_ts (e : Logged) : e.loaded.ts = (e.now / 10 ^ 6 : Nat) * 10 ^ 6 := e.seen_ts _

@[simp] theorem exact_ts (e : Logged) : e.exact.ts = e.now := e.seen_ts _

/-- A time before the year 10000, and durations that a `float` holds. -/
structure Plain (e : Logged) : Prop where
  clocked : Clocked e.now
  latency : (truncate e.latencyMs).natAbs ≤ 2 ^ 53
  rebuild : (truncate e.rebuildDurationMs).natAbs ≤ 2 ^ 53

end Logged

/-! ## Round trip -/

/-- `float` reads an integer that a `float` can hold. -/
def ReadsIntegers (parseFloat : Bytes → Option ℚ) : Prop :=
  ∀ n : Int, n.natAbs ≤ 2 ^ 53 → parseFloat (itoa n) = some (n : ℚ)

variable {parseFloat : Bytes → Option ℚ}

theorem readsTrue_formatBool (b : Bool) : readsTrue (formatBool b) = b := by
  cases b <;> decide +kernel

theorem rowTimestamp_gmtime (now : Nat) :
    rowTimestamp (gmtime now) = (now / 10 ^ 6 : Nat) * 10 ^ 6 := by
  unfold rowTimestamp gmtime
  rw [DateTime.seconds_ofSeconds]
  push_cast
  ring

theorem cell_cells (r : LogRow) :
    cell csvFields r.cells "timestamp" = some r.timestamp ∧
    cell csvFields r.cells "status" = some r.status ∧
    cell csvFields r.cells "latency_ms" = some (itoa r.latencyMs) ∧
    cell csvFields r.cells "circuit_rebuilt" = some (formatBool r.circuitRebuilt) ∧
    cell csvFields r.cells "rebuild_duration_ms" = some (itoa r.rebuildDurationMs) :=
  ⟨rfl, rfl, rfl, rfl, rfl⟩

/-- A row is read back, when its time is. -/
theorem loadRow_cells (hfloat : ReadsIntegers parseFloat) {timestamp status : Bytes}
    {latencyMs rebuildDurationMs : Int} {circuitRebuilt : Bool} {t : DateTime}
    (htime : strptime timestamp = some t) (hlatency : latencyMs.natAbs ≤ 2 ^ 53)
    (hrebuild : rebuildDurationMs.natAbs ≤ 2 ^ 53) :
    loadRow parseFloat csvFields
        (LogRow.cells ⟨timestamp, status, latencyMs, circuitRebuilt, rebuildDurationMs⟩) =
      some ⟨status, latencyMs, circuitRebuilt, rebuildDurationMs, rowTimestamp t⟩ := by
  obtain ⟨hcell, hstatus, hlatencyCell, hrebuilt, hrebuildCell⟩ :=
    cell_cells ⟨timestamp, status, latencyMs, circuitRebuilt, rebuildDurationMs⟩
  unfold loadRow
  rw [hcell, hstatus, hlatencyCell, hrebuilt, hrebuildCell]
  simp only [Option.bind_eq_bind, Option.bind_some, hfloat _ hlatency, hfloat _ hrebuild, htime,
    readsTrue_formatBool, Option.pure_def]

theorem loadRow_logged (hfloat : ReadsIntegers parseFloat) {e : Logged} (h : e.Plain) :
    loadRow parseFloat csvFields e.row.cells = some e.loaded := by
  have hrow : e.row = ⟨formatRowTime (gmtime e.now), e.status, truncate e.latencyMs,
    e.circuitRebuilt, truncate e.rebuildDurationMs⟩ := rfl
  rw [hrow, loadRow_cells hfloat (strptime_gmtime h.clocked) h.latency h.rebuild,
    rowTimestamp_gmtime]
  rfl

/-- The file is read back as what was logged. -/
theorem loadCsv_exportResults (hfloat : ReadsIntegers parseFloat) {entries : List Logged}
    (hne : entries ≠ []) (h : ∀ e ∈ entries, e.Plain) :
    ∃ text, exportResults (entries.map Logged.row) = some text ∧
      loadCsv parseFloat text = some (entries.map Logged.loaded) := by
  refine ⟨_, if_neg (by simpa using hne), ?_⟩
  have hrows : (entries.map Logged.row).map LogRow.cells =
      entries.map fun e => e.row.cells := List.map_map
  have hload : (entries.map fun e => e.row.cells).mapM (loadRow parseFloat csvFields) =
      some (entries.map Logged.loaded) := by
    clear hne hrows
    induction entries with
    | nil => rfl
    | cons e entries ih =>
      obtain ⟨he, hentries⟩ := List.forall_mem_cons.mp h
      rw [List.map_cons, List.mapM_cons, loadRow_logged hfloat he, ih hentries]
      rfl
  unfold loadCsv
  rw [Csv.read_write, hrows]
  dsimp only
  rw [List.filter_eq_self.mpr (by simp [LogRow.cells]), hload]

/-! ## The charts -/

/-- A second lost: a request was logged within the second that is kept. -/
theorem floor_bounds (now : Nat) : (((now / 10 ^ 6 : Nat) : Int) * 10 ^ 6 ≤ now) ∧
    (now : Int) < ((now / 10 ^ 6 : Nat) : Int) * 10 ^ 6 + 10 ^ 6 := by
  omega

theorem totalSeconds_lt {d d' : Int} (h : d < d' + 10 ^ 6) : totalSeconds d < totalSeconds d' + 1 := by
  have hone : totalSeconds (d' + 10 ^ 6) = totalSeconds d' + 1 := by
    unfold totalSeconds
    push_cast
    ring
  rw [← hone]
  exact lt_of_not_ge fun hle => absurd (totalSeconds_le.mp hle) (by omega)

/-- A request is less than a second later than the chart shows it. -/
theorem offset_loaded (e : Logged) (killTs : Int) :
    totalSeconds (e.loaded.ts - killTs) ≤ totalSeconds (e.exact.ts - killTs) ∧
      totalSeconds (e.exact.ts - killTs) < totalSeconds (e.loaded.ts - killTs) + 1 := by
  obtain ⟨hle, hlt⟩ := floor_bounds e.now
  rw [Logged.loaded_ts, Logged.exact_ts]
  exact ⟨totalSeconds_le.mpr (by omega), totalSeconds_lt (by omega)⟩

/-- The detection time of the chart is the true one, less a part of a
    second. -/
theorem detection_loaded (entries : List Logged) (killTs : Int) :
    computeDetectionTime (entries.map Logged.loaded) killTs ≤
      computeDetectionTime (entries.map Logged.exact) killTs ∧
    computeDetectionTime (entries.map Logged.exact) killTs <
      computeDetectionTime (entries.map Logged.loaded) killTs + 1 := by
  by_cases hfailed : ∃ e ∈ entries, e.loaded.failed = true
  · obtain ⟨e, he, hefailed⟩ := hfailed
    have hloaded := detection_clamped killTs
      ⟨e.loaded, List.mem_map_of_mem he, hefailed⟩
    have hexact := detection_clamped killTs ⟨e.exact, List.mem_map_of_mem he, hefailed⟩
    constructor
    · -- the first failure is no later when it is read back
      obtain ⟨r, hr, hrfailed, heq⟩ := hexact.1
      obtain ⟨e, he, rfl⟩ := List.mem_map.mp hr
      rw [heq]
      refine (hloaded.2 ⟨e.loaded, List.mem_map_of_mem he, hrfailed, rfl⟩).trans ?_
      exact max_le_max_right 0 (offset_loaded e killTs).1
    · -- and at most a second earlier
      obtain ⟨r, hr, hrfailed, heq⟩ := hloaded.1
      obtain ⟨e, he, rfl⟩ := List.mem_map.mp hr
      rw [heq]
      refine (hexact.2 ⟨e.exact, List.mem_map_of_mem he, hrfailed, rfl⟩).trans_lt ?_
      have hlt := (offset_loaded e killTs).2
      rw [max_lt_iff]
      constructor
      · exact hlt.trans_le (by gcongr; exact le_max_left _ _)
      · have := le_max_right (totalSeconds (e.loaded.ts - killTs)) 0
        linarith
  · have hnone : ¬∃ r ∈ entries.map Logged.loaded, r.failed = true := by
      rintro ⟨r, hr, hrfailed⟩
      obtain ⟨e, he, rfl⟩ := List.mem_map.mp hr
      exact hfailed ⟨e, he, hrfailed⟩
    have hnone' : ¬∃ r ∈ entries.map Logged.exact, r.failed = true := by
      rintro ⟨r, hr, hrfailed⟩
      obtain ⟨e, he, rfl⟩ := List.mem_map.mp hr
      exact hfailed ⟨e, he, hrfailed⟩
    rw [detection_of_no_failure hnone, detection_of_no_failure hnone']
    norm_num

/-- The bins count the rows. -/
theorem foldl_countBin (start : Int) (binSeconds : Nat) (rows : List Row) (bins : Int → Nat)
    (x : Int) : rows.foldl (countBin start binSeconds) bins x =
      bins x + rows.countP fun r => binOffset start binSeconds r == x := by
  induction rows generalizing bins with
  | nil => simp
  | cons r rows ih =>
    rw [List.foldl_cons, ih, List.countP_cons, countBin, Function.update_apply]
    by_cases hx : x = binOffset start binSeconds r
    · subst hx
      simp
      omega
    · rw [if_neg hx]
      have hne : (binOffset start binSeconds r == x) = false := by simpa using Ne.symm hx
      simp [hne]

@[simp] theorem truncate_intCast (n : Int) : truncate n = n := by
  simp [truncate]

/-- A bin of a second begins with the second. -/
theorem binOffset_loaded (first : Nat) (e : Logged) :
    binOffset ((first : Int) * 10 ^ 6) 1 e.loaded = (e.now / 10 ^ 6 : Nat) - (first : Int) := by
  have hseconds : totalSeconds (e.loaded.ts - (first : Int) * 10 ^ 6) / (1 : Nat) =
      (((e.now / 10 ^ 6 : Nat) - (first : Int) : Int) : ℚ) := by
    unfold totalSeconds
    rw [Logged.loaded_ts]
    push_cast
    ring
  unfold binOffset
  rw [hseconds, truncate_intCast]

/-- The seconds in which requests were logged. -/
def seconds (entries : List Logged) : Set Nat := {s | ∃ e ∈ entries, s = e.now / 10 ^ 6}

theorem exists_seconds {entries : List Logged} (hne : entries ≠ []) :
    ∃ first last, IsLeast (seconds entries) first ∧ IsGreatest (seconds entries) last := by
  have hmem (s : Nat) : s ∈ entries.map (fun e => e.now / 10 ^ 6) ↔ s ∈ seconds entries := by
    simp [seconds, eq_comm]
  cases hmin : (entries.map fun e => e.now / 10 ^ 6).min? with
  | none =>
    rw [List.min?_eq_none_iff, List.map_eq_nil_iff] at hmin
    exact absurd hmin hne
  | some first =>
    cases hmax : (entries.map fun e => e.now / 10 ^ 6).max? with
    | none =>
      rw [List.max?_eq_none_iff, List.map_eq_nil_iff] at hmax
      exact absurd hmax hne
    | some last =>
      obtain ⟨hfirst, hleast⟩ := List.min?_eq_some_iff.mp hmin
      obtain ⟨hlast, hgreatest⟩ := List.max?_eq_some_iff.mp hmax
      exact ⟨first, last, ⟨(hmem first).mp hfirst, fun s hs => hleast s ((hmem s).mpr hs)⟩,
        (hmem last).mp hlast, fun s hs => hgreatest s ((hmem s).mpr hs)⟩

/-- The timeline begins and ends with the seconds of the first and the last
    request, and has the number of requests of each second between. -/
theorem timeline_loaded {entries : List Logged} (hne : entries ≠ []) :
    ∃ first last, IsLeast (seconds entries) first ∧ IsGreatest (seconds entries) last ∧
      computeRpsTimeline (entries.map Logged.loaded) 1 = (List.range (last - first + 1),
        (List.range (last - first + 1)).map fun x =>
          ((entries.countP fun e => e.now / 10 ^ 6 == first + x : Nat) : ℚ)) := by
  obtain ⟨first, last, hfirst, hlast⟩ := exists_seconds hne
  refine ⟨first, last, hfirst, hlast, ?_⟩
  have hle : first ≤ last := hfirst.2 hlast.1
  have hmin : ((entries.map Logged.loaded).map (·.ts)).min? = some ((first : Int) * 10 ^ 6) := by
    rw [List.min?_eq_some_iff, List.map_map]
    obtain ⟨e, he, heq⟩ := hfirst.1
    refine ⟨List.mem_map.mpr ⟨e, he, ?_⟩, fun t ht => ?_⟩
    · rw [Function.comp_apply, Logged.loaded_ts, heq]
    · obtain ⟨e', he', rfl⟩ := List.mem_map.mp ht
      have hsecond : first ≤ e'.now / 10 ^ 6 := hfirst.2 ⟨e', he', rfl⟩
      rw [Function.comp_apply, Logged.loaded_ts]
      omega
  have hmax : ((entries.map Logged.loaded).map (binOffset ((first : Int) * 10 ^ 6) 1)).max? =
      some ((last : Int) - first) := by
    rw [List.max?_eq_some_iff, List.map_map]
    obtain ⟨e, he, heq⟩ := hlast.1
    -- (the composition is unfolded first: the bins are big terms)
    refine ⟨List.mem_map.mpr ⟨e, he, ?_⟩, fun t ht => ?_⟩
    · rw [Function.comp_apply, binOffset_loaded, heq]
    · obtain ⟨e', he', rfl⟩ := List.mem_map.mp ht
      have hsecond : e'.now / 10 ^ 6 ≤ last := hlast.2 ⟨e', he', rfl⟩
      rw [Function.comp_apply, binOffset_loaded]
      omega
  have hbins (x : Nat) : (entries.map Logged.loaded).foldl (countBin ((first : Int) * 10 ^ 6) 1)
      (fun _ => 0) x = entries.countP fun e => e.now / 10 ^ 6 == first + x := by
    have hbin : (fun r => binOffset ((first : Int) * 10 ^ 6) 1 r == (x : Int)) ∘ Logged.loaded =
        fun e => e.now / 10 ^ 6 == first + x := by
      funext e
      rw [Function.comp_apply, binOffset_loaded, Bool.eq_iff_iff, beq_iff_eq, beq_iff_eq]
      omega
    rw [foldl_countBin, Nat.zero_add, List.countP_map, hbin]
  unfold computeRpsTimeline
  rw [hmin]
  dsimp only
  rw [hmax, Option.getD_some, show ((last : Int) - first + 1).toNat = last - first + 1 by omega]
  simp only [hbins, Nat.cast_one, div_one]

theorem sum_indicator (a n : Nat) :
    ((List.range n).map fun x => if x = a then 1 else 0).sum = if a < n then 1 else 0 := by
  induction n with
  | zero => rfl
  | succ n ih =>
    rw [List.range_succ, List.map_append, List.sum_append, ih, List.map_singleton,
      List.sum_singleton]
    split_ifs <;> omega

/-- Every request is in one bin. -/
theorem sum_bins (entries : List Logged) (first n : Nat)
    (h : ∀ e ∈ entries, first ≤ e.now / 10 ^ 6 ∧ e.now / 10 ^ 6 < first + n) :
    ((List.range n).map fun x => entries.countP fun e => e.now / 10 ^ 6 == first + x).sum =
      entries.length := by
  induction entries with
  | nil => simp
  | cons e entries ih =>
    obtain ⟨⟨hfirst, hlast⟩, hentries⟩ := List.forall_mem_cons.mp h
    simp only [List.countP_cons]
    rw [List.sum_map_add, ih hentries, List.length_cons]
    congr 1
    -- one of the bins is the one of the request
    have hone : ((List.range n).map fun x => if (e.now / 10 ^ 6 == first + x) = true then 1 else 0) =
        (List.range n).map fun x => if x = e.now / 10 ^ 6 - first then 1 else 0 := by
      apply List.map_congr_left
      intro x _
      have hiff : (e.now / 10 ^ 6 == first + x) = true ↔ x = e.now / 10 ^ 6 - first := by
        rw [beq_iff_eq]
        omega
      simp only [hiff]
    rw [hone, sum_indicator, if_pos (by omega)]

/-- The rebuilds of the chart are those that were logged. -/
theorem rebuildOffsets_loaded (entries : List Logged) (killTs : Int) :
    computeRebuildOffsets (entries.map Logged.loaded) killTs =
      (entries.filter Logged.circuitRebuilt).map fun e =>
        (totalSeconds ((e.now / 10 ^ 6 : Nat) * 10 ^ 6 - killTs),
          (truncate e.rebuildDurationMs : ℚ)) := by
  unfold computeRebuildOffsets
  rw [List.filter_map, List.map_map]
  rfl

/-- What the charts of a run show, against what was logged. -/
structure Charted (entries : List Logged) (killTs : Int) (rows : List Row) : Prop where
  requests : rows = entries.map Logged.loaded
  loss : computeRequestLoss rows = entries.countP fun e => e.status != lit "success"
  /-- The detection time is short of the true one by less than a second. -/
  detection : computeDetectionTime rows killTs ≤
    computeDetectionTime (entries.map Logged.exact) killTs ∧
    computeDetectionTime (entries.map Logged.exact) killTs < computeDetectionTime rows killTs + 1
  rebuilds : computeRebuildOffsets rows killTs = (entries.filter Logged.circuitRebuilt).map fun e =>
    (totalSeconds ((e.now / 10 ^ 6 : Nat) * 10 ^ 6 - killTs), (truncate e.rebuildDurationMs : ℚ))
  /-- So is each offset of a rebuild. -/
  offsets : List.Forall₂ (fun e r => r.1 ≤ totalSeconds (e.now - killTs) ∧
      totalSeconds (e.now - killTs) < r.1 + 1)
    (entries.filter Logged.circuitRebuilt) (computeRebuildOffsets rows killTs)
  timeline : ∃ first last, IsLeast (seconds entries) first ∧ IsGreatest (seconds entries) last ∧
    computeRpsTimeline rows 1 = (List.range (last - first + 1),
      (List.range (last - first + 1)).map fun x =>
        ((entries.countP fun e => e.now / 10 ^ 6 == first + x : Nat) : ℚ))
  total : (computeRpsTimeline rows 1).2.sum = entries.length

/-- **The charts are those of the log**: the file that is written is read
    back, and of a request only the second and whole milliseconds are left.
    No request is lost or counted twice. -/
theorem charts_of_log (hfloat : ReadsIntegers parseFloat) {entries : List Logged}
    (hne : entries ≠ []) (h : ∀ e ∈ entries, e.Plain) (killTs : Int) :
    ∃ text rows, exportResults (entries.map Logged.row) = some text ∧
      loadCsv parseFloat text = some rows ∧ Charted entries killTs rows := by
  obtain ⟨text, htext, hload⟩ := loadCsv_exportResults hfloat hne h
  obtain ⟨first, last, hfirst, hlast, htimeline⟩ := timeline_loaded hne
  have hrebuilds := rebuildOffsets_loaded entries killTs
  refine ⟨text, _, htext, hload, rfl, ?_, detection_loaded entries killTs, hrebuilds, ?_,
    ⟨first, last, hfirst, hlast, htimeline⟩, ?_⟩
  · exact List.countP_map
  · rw [hrebuilds, List.forall₂_map_right_iff, List.forall₂_same]
    intro e _
    exact offset_loaded e killTs
  · have hle : first ≤ last := hfirst.2 hlast.1
    rw [htimeline, ← sum_bins entries first (last - first + 1), Nat.cast_list_sum, List.map_map]
    · rfl
    · intro e he
      have hfirst : first ≤ e.now / 10 ^ 6 := hfirst.2 ⟨e, he, rfl⟩
      have hlast : e.now / 10 ^ 6 ≤ last := hlast.2 ⟨e, he, rfl⟩
      omega

namespace Sample

/-- `float` of integers. -/
def readInteger (s : Bytes) : Option ℚ := (parseInt s).map fun n => (n : ℚ)

/-- Two requests, half a second apart, and one after a kill. -/
def entries : List Logged :=
  [⟨1750000000250000, lit "success", 41 / 2, false, 0⟩,
   ⟨1750000000750000, lit "success", 40, false, 0⟩,
   ⟨1750000002900000, lit "failed_rebuilt", 95, true, 60⟩]

end Sample

theorem charts_of_log_sample : ∃ text rows, exportResults (Sample.entries.map Logged.row) = some text ∧
    loadCsv Sample.readInteger text = some rows ∧
    Charted Sample.entries 1750000002400000 rows := by
  have hfloat : ReadsIntegers Sample.readInteger := by
    intro n _
    unfold Sample.readInteger
    rw [parseInt_itoa]
    rfl
  refine charts_of_log hfloat (by simp [Sample.entries]) ?_ _
  have hplain (e : Logged) (he : e ∈ Sample.entries) : e.Plain := by
    simp only [Sample.entries, List.mem_cons, List.not_mem_nil, or_false] at he
    rcases he with rfl | rfl | rfl <;>
      exact ⟨by unfold Clocked; decide, by decide +kernel, by decide +kernel⟩
  exact hplain

end HopVault.Python
