import RaftBench.Lib.Decimal
import RaftBench.Lib.HdrHistogram
import RaftBench.Braft.OpenLoop

/-!
# The client's own report

What `print_summary` makes of the latencies `record` has put into `g_measured`: the latency lines
it prints, and the raw histogram it writes under `--hdr_raw_out`, a header and one `value,count`
line for every bucket that holds a sample.
-/

namespace RaftBench.Braft

/-- `hdr_init(1, kHighestTrackableUs, 3, …)`. -/
abbrev LatencyHistogram := HdrHistogram 2048 kHighestTrackableUs

/-! ## What is recorded -/

/-- The bounds `record` puts on a latency. -/
def clampUs (latency : ℤ) : ℤ :=
  if latency < 1 then 1
  else if latency > kHighestTrackableUs then kHighestTrackableUs else latency

/-- The contents of `g_measured` after these latencies were recorded while measuring. -/
def recorded (latencies : List ℤ) : List ℤ :=
  (latencies.foldl OpenLoop.record { measuring := true }).measured

lemma measured_foldl_record {w : OpenLoop} (h : w.measuring = true) (latencies : List ℤ) :
    (latencies.foldl OpenLoop.record w).measured = w.measured ++ latencies.map clampUs := by
  induction latencies generalizing w with
  | nil => exact (List.append_nil _).symm
  | cons l latencies ih =>
      have hl : (w.record l).measured = w.measured ++ [clampUs l] := by
        simp only [OpenLoop.record, h, if_true, clampUs]
      have hmeasuring : (w.record l).measuring = true := h
      rw [List.foldl_cons, ih hmeasuring, hl, List.append_assoc]
      rfl

lemma recorded_eq (latencies : List ℤ) : recorded latencies = latencies.map clampUs :=
  measured_foldl_record rfl latencies

lemma trackable_recorded (latencies : List ℤ) :
    HdrHistogram.Trackable kHighestTrackableUs (recorded latencies) := by
  intro v hv
  rw [recorded_eq] at hv
  obtain ⟨l, -, rfl⟩ := List.mem_map.mp hv
  simp only [clampUs, kHighestTrackableUs]
  split_ifs <;> omega

/-! ## What is reported -/

/-- The latency lines of the summary. -/
structure LatencyLines where
  p50 : ℤ
  p90 : ℤ
  p99 : ℤ
  p999 : ℤ
  p9999 : ℤ
  max : ℤ
  deriving DecidableEq, Repr

def latencyLines (hdr : LatencyHistogram) (measured : List ℤ) : LatencyLines where
  p50 := hdr.valueAtPercentile measured 50
  p90 := hdr.valueAtPercentile measured 90
  p99 := hdr.valueAtPercentile measured 99
  p999 := hdr.valueAtPercentile measured (999 / 10)
  p9999 := hdr.valueAtPercentile measured (9999 / 100)
  max := hdr.max measured

/-- `fprintf(f, "%lld,%lld\n", …)`, without the line end. -/
def rawLine (run : ℤ × ℕ) : List Char := Decimal.print run.1 ++ ',' :: Decimal.print run.2

/-- The lines of the file written under `--hdr_raw_out`. -/
def hdrRawOut (hdr : LatencyHistogram) (measured : List ℤ) : List String :=
  "value,count\n" :: ((hdr.buckets measured).filter fun run => 0 < run.2).map
    fun run => String.ofList (rawLine run ++ ['\n'])

/-- An empty bucket is not iterated over, so the test on `iter.count` passes every time. -/
lemma hdrRawOut_eq (hdr : LatencyHistogram) (measured : List ℤ) :
    hdrRawOut hdr measured = "value,count\n" ::
      (hdr.buckets measured).map fun run => String.ofList (rawLine run ++ ['\n']) := by
  have hfilter : (hdr.buckets measured).filter (fun run => 0 < run.2) = hdr.buckets measured := by
    refine List.filter_eq_self.mpr fun run hrun => ?_
    exact decide_eq_true (HdrHistogram.mem_buckets hrun).2
  rw [hdrRawOut, hfilter]

end RaftBench.Braft
