import Mathlib.Algebra.Order.BigOperators.Group.List
import Mathlib.Algebra.Order.Ring.Nat
import Redog.Run
import Redog.Statistics

/-!
# Concurrent snapshots

Any number of calls of `snapshot` on the traffic counters, while others add to them. Each call
makes four atomic operations: it loads both totals and then swaps both baselines. Between two
of these the other calls can run.

The bytes a snapshot reports for a direction are those between the baseline it takes out and
the total it has loaded. As long as the baseline only moves forward the reported pieces are
disjoint. A call that has loaded its total early and swaps late moves the baseline back, and
the next snapshot reports bytes again that another one has reported before.

## Main results

* `foldl_alone`: a call that is not interrupted is `TrafficCounter::snapshot`.
* `always_bounded`: without stale swaps no byte is reported twice.
-/

namespace Redog

open Run

/-! ### Readings of a counter -/

/-- How far a call is with one of the counters. -/
inductive Reading
  /-- It has not loaded the total. -/
  | unread
  /-- It has loaded this total. -/
  | loaded (total : ℕ)
  /-- It has swapped the baseline and reports this number of bytes. -/
  | taken (bytes : ℕ)

/-- The bytes a call has taken, none before it has swapped the baseline. -/
def Reading.bytes : Reading → ℕ
  | .unread | .loaded _ => 0
  | .taken bytes => bytes

/-- The bytes taken so far are those up to the baseline. -/
structure Metered (total last : ℕ) (readings : List Reading) : Prop where
  loaded_le : ∀ v, .loaded v ∈ readings → v ≤ total
  last_le : last ≤ total
  sum_eq : (readings.map Reading.bytes).sum = last

/-- Replacing an entry changes the sum by the difference. -/
theorem sum_map_set (readings : List Reading) {i : ℕ} {reading : Reading}
    (hi : readings[i]? = some reading) (reading' : Reading) :
    ((readings.set i reading').map Reading.bytes).sum + reading.bytes =
      (readings.map Reading.bytes).sum + reading'.bytes := by
  induction readings generalizing i with
  | nil => cases hi
  | cons first readings ih =>
      cases i with
      | zero =>
          obtain rfl := Option.some.inj hi
          rw [List.set_cons_zero, List.map_cons, List.map_cons, List.sum_cons, List.sum_cons]
          omega
      | succ i =>
          have hrest := ih hi
          rw [List.set_cons_succ, List.map_cons, List.map_cons, List.sum_cons, List.sum_cons]
          omega

namespace Metered

variable {total last : ℕ} {readings : List Reading}

/-- The total may grow between the steps of a call, and the readings stay right. -/
theorem mono {total' : ℕ} (h : Metered total last readings) (hle : total ≤ total') :
    Metered total' last readings :=
  ⟨fun v hv => (h.loaded_le v hv).trans hle, h.last_le.trans hle, h.sum_eq⟩

/-- A call that is no further with the counter changes nothing. -/
theorem stay (h : Metered total last readings) {i : ℕ} {reading : Reading}
    (hi : readings[i]? = some reading) : Metered total last (readings.set i reading) := by
  obtain ⟨hlt, rfl⟩ := List.getElem?_eq_some_iff.mp hi
  rwa [List.set_getElem_self]

/-- A call that has not read anything yet may load the total, at any time. -/
theorem load (h : Metered total last readings) {i : ℕ} (hi : readings[i]? = some .unread) :
    Metered total last (readings.set i (.loaded total)) := by
  refine ⟨fun v hv => ?_, h.last_le, ?_⟩
  · rcases List.mem_or_eq_of_mem_set hv with hv | heq
    · exact h.loaded_le v hv
    · exact (Reading.loaded.inj heq).le
  · have hsum := sum_map_set readings hi (.loaded total)
    rw [← h.sum_eq]
    exact hsum

/-- A call swaps a baseline that is not beyond what it has loaded. -/
theorem swap (h : Metered total last readings) {i v : ℕ} (hi : readings[i]? = some (.loaded v))
    (hle : last ≤ v) : Metered total v (readings.set i (.taken (v - last))) := by
  refine ⟨fun w hw => ?_, h.loaded_le v (List.mem_of_getElem? hi), ?_⟩
  · rcases List.mem_or_eq_of_mem_set hw with hw | heq
    · exact h.loaded_le w hw
    · cases heq
  · have hsum := sum_map_set readings hi (.taken (v - last))
    rw [h.sum_eq] at hsum
    exact hsum.trans (Nat.add_sub_cancel' hle)

end Metered

/-! ### Calls of `snapshot` -/

/-- Where a call of `snapshot` is, between two atomic operations. -/
inductive SnapshotCall
  /-- Before it loads the upload total. -/
  | called
  /-- Before it loads the download total. -/
  | loadedUpload (upload : UInt64)
  /-- Before it swaps the upload baseline. -/
  | loaded (upload download : UInt64)
  /-- Before it swaps the download baseline. -/
  | swappedUpload (upload download lastUp : UInt64)
  /-- It has returned. -/
  | returned (snapshot : TrafficSnapshot)

namespace SnapshotCall

/-- The next atomic operation of a call. -/
def next (traffic : TrafficCounter) : SnapshotCall → SnapshotCall × TrafficCounter
  | .called => (.loadedUpload traffic.uploadTotal, traffic)
  | .loadedUpload upload => (.loaded upload traffic.downloadTotal, traffic)
  | .loaded upload download =>
      (.swappedUpload upload download traffic.lastUpload, { traffic with lastUpload := upload })
  | .swappedUpload upload download lastUp =>
      (.returned
        { uploadSpeed := saturatingSub upload lastUp
          downloadSpeed := saturatingSub download traffic.lastDownload
          uploadTotal := upload
          downloadTotal := download },
        { traffic with lastDownload := download })
  | .returned snapshot => (.returned snapshot, traffic)

/-- The upload speed a call has returned. -/
def uploadSpeed : SnapshotCall → ℕ
  | .returned snapshot => snapshot.uploadSpeed.toNat
  | _ => 0

/-- The download speed a call has returned. -/
def downloadSpeed : SnapshotCall → ℕ
  | .returned snapshot => snapshot.downloadSpeed.toNat
  | _ => 0

/-- How far the call is with the upload counter. -/
def upload : SnapshotCall → Reading
  | .called => .unread
  | .loadedUpload upload | .loaded upload _ => .loaded upload.toNat
  | .swappedUpload upload _ lastUp => .taken (upload.toNat - lastUp.toNat)
  | .returned snapshot => .taken snapshot.uploadSpeed.toNat

/-- How far the call is with the download counter. -/
def download : SnapshotCall → Reading
  | .called | .loadedUpload _ => .unread
  | .loaded _ download | .swappedUpload _ download _ => .loaded download.toNat
  | .returned snapshot => .taken snapshot.downloadSpeed.toNat

/-- The next operation of the call swaps no baseline for an older total. -/
def Fresh (traffic : TrafficCounter) : SnapshotCall → Prop
  | .loaded upload _ => traffic.lastUpload ≤ upload
  | .swappedUpload _ download _ => traffic.lastDownload ≤ download
  | .called | .loadedUpload _ | .returned _ => True

instance (traffic : TrafficCounter) : DecidablePred (Fresh traffic)
  | .loaded _ _ | .swappedUpload _ _ _ => inferInstanceAs (Decidable (_ ≤ _))
  | .called | .loadedUpload _ | .returned _ => .isTrue trivial

/-- A call reports at most the bytes it has taken from the upload counter, and none before it
returns. -/
theorem uploadSpeed_le (call : SnapshotCall) : call.uploadSpeed ≤ call.upload.bytes := by
  cases call with
  | returned snapshot => exact le_rfl
  | _ => exact Nat.zero_le _

/-- A call reports at most the bytes it has taken from the download counter, and none before it
returns. -/
theorem downloadSpeed_le (call : SnapshotCall) : call.downloadSpeed ≤ call.download.bytes := by
  cases call with
  | returned snapshot => exact le_rfl
  | _ => exact Nat.zero_le _

end SnapshotCall

/-- The counters and the calls on them. -/
structure Snapshots where
  traffic : TrafficCounter
  calls : List SnapshotCall

/-- What can happen next: a relay adds bytes to a total in one atomic operation, or one of the calls
makes its next one. -/
inductive TrafficEvent
  /-- `TrafficCounter::add_upload` -/
  | addUpload (bytes : UInt64)
  /-- `TrafficCounter::add_download` -/
  | addDownload (bytes : UInt64)
  /-- The call with this number makes its next atomic operation. -/
  | snapshot (i : ℕ)

namespace Snapshots

/-- New counters and calls that have not begun. -/
def start (calls : ℕ) : Snapshots where
  traffic := .new
  calls := List.replicate calls .called

/-- One step, of which at most one atomic operation touches the counter. -/
def next (snapshots : Snapshots) : TrafficEvent → Snapshots
  | .addUpload bytes => { snapshots with traffic := snapshots.traffic.addUpload bytes }
  | .addDownload bytes => { snapshots with traffic := snapshots.traffic.addDownload bytes }
  | .snapshot i =>
      match snapshots.calls[i]? with
      | none => snapshots
      | some call =>
          let (call, traffic) := call.next snapshots.traffic
          { traffic := traffic, calls := snapshots.calls.set i call }

/-- The totals stay below 2^64, so that the counters do not wrap around. -/
def Fits (snapshots : Snapshots) : TrafficEvent → Prop
  | .addUpload bytes => snapshots.traffic.uploadTotal.toNat + bytes.toNat < 2 ^ 64
  | .addDownload bytes => snapshots.traffic.downloadTotal.toNat + bytes.toNat < 2 ^ 64
  | .snapshot _ => True

/-- The returned speeds add up to no more than the totals. -/
def Bounded (snapshots : Snapshots) : Prop :=
  (snapshots.calls.map SnapshotCall.uploadSpeed).sum ≤ snapshots.traffic.uploadTotal.toNat ∧
    (snapshots.calls.map SnapshotCall.downloadSpeed).sum ≤
      snapshots.traffic.downloadTotal.toNat

/-- The step swaps no baseline for an older total. -/
def NoStaleSwap (snapshots : Snapshots) : TrafficEvent → Prop
  | .snapshot i => ∀ call ∈ snapshots.calls[i]?, call.Fresh snapshots.traffic
  | .addUpload _ | .addDownload _ => True

instance (snapshots : Snapshots) : DecidablePred snapshots.Fits
  | .addUpload _ | .addDownload _ => inferInstanceAs (Decidable (_ < _))
  | .snapshot _ => .isTrue trivial

instance (snapshots : Snapshots) : DecidablePred snapshots.NoStaleSwap
  | .addUpload _ | .addDownload _ => .isTrue trivial
  | .snapshot _ => inferInstanceAs (Decidable (∀ _ ∈ _, _))

/-- A step of a call that is there runs that call and keeps the others where they are. -/
theorem next_of_call {snapshots : Snapshots} {i : ℕ} {call : SnapshotCall}
    (hi : snapshots.calls[i]? = some call) :
    snapshots.next (.snapshot i) =
      { traffic := (call.next snapshots.traffic).2
        calls := snapshots.calls.set i (call.next snapshots.traffic).1 } := by
  rw [next]
  simp only [hi]

/-- A step of a call that does not exist changes neither the counters nor any call. -/
theorem next_of_none {snapshots : Snapshots} {i : ℕ} (hi : snapshots.calls[i]? = none) :
    snapshots.next (.snapshot i) = snapshots := by
  rw [next]
  simp only [hi]

/-- The step of the call at an index, when that call has just been put there. -/
theorem next_set {traffic : TrafficCounter} {calls : List SnapshotCall} {i : ℕ}
    {call : SnapshotCall} (hi : i < calls.length) :
    next { traffic := traffic, calls := calls.set i call } (.snapshot i) =
      { traffic := (call.next traffic).2, calls := calls.set i (call.next traffic).1 } := by
  rw [next_of_call (List.getElem?_set_self hi), List.set_set]

/-- The four operations of a call that is not interrupted are those of
`TrafficCounter::snapshot`. -/
theorem foldl_alone {traffic : TrafficCounter} {calls : List SnapshotCall} {i : ℕ}
    (hi : calls[i]? = some .called) :
    (List.replicate 4 (.snapshot i)).foldl next { traffic := traffic, calls := calls } =
      { traffic := traffic.snapshot.2
        calls := calls.set i (.returned traffic.snapshot.1) } := by
  have hlt : i < calls.length := (List.getElem?_eq_some_iff.mp hi).1
  rw [List.replicate_succ, List.foldl_cons, next_of_call hi, List.replicate_succ,
    List.foldl_cons, next_set hlt, List.replicate_succ, List.foldl_cons, next_set hlt,
    List.replicate_succ, List.foldl_cons, next_set hlt]
  rfl

/-! ### No byte twice -/

/-- The bytes taken in both directions are those up to the baselines. -/
structure Consistent (snapshots : Snapshots) : Prop where
  upload : Metered snapshots.traffic.uploadTotal.toNat snapshots.traffic.lastUpload.toNat
    (snapshots.calls.map SnapshotCall.upload)
  download : Metered snapshots.traffic.downloadTotal.toNat snapshots.traffic.lastDownload.toNat
    (snapshots.calls.map SnapshotCall.download)

/-- Consistent counters bound the reported bytes: their sum is at most the baselines, and these at
most the totals. -/
theorem Consistent.bounded {snapshots : Snapshots} (h : snapshots.Consistent) :
    snapshots.Bounded := by
  constructor
  · calc (snapshots.calls.map SnapshotCall.uploadSpeed).sum
        ≤ (snapshots.calls.map fun call => call.upload.bytes).sum :=
          List.sum_le_sum fun call _ => call.uploadSpeed_le
      _ = snapshots.traffic.lastUpload.toNat := by
          rw [← h.upload.sum_eq, List.map_map]
          rfl
      _ ≤ snapshots.traffic.uploadTotal.toNat := h.upload.last_le
  · calc (snapshots.calls.map SnapshotCall.downloadSpeed).sum
        ≤ (snapshots.calls.map fun call => call.download.bytes).sum :=
          List.sum_le_sum fun call _ => call.downloadSpeed_le
      _ = snapshots.traffic.lastDownload.toNat := by
          rw [← h.download.sum_eq, List.map_map]
          rfl
      _ ≤ snapshots.traffic.downloadTotal.toNat := h.download.last_le

/-- A step without a stale swap keeps the bytes taken those up to the baselines. -/
theorem Consistent.next {snapshots : Snapshots} (h : snapshots.Consistent)
    (event : TrafficEvent) (hfits : snapshots.Fits event)
    (hswap : snapshots.NoStaleSwap event) : (snapshots.next event).Consistent := by
  cases event with
  | addUpload bytes =>
      have hadd : (snapshots.traffic.uploadTotal + bytes).toNat =
          snapshots.traffic.uploadTotal.toNat + bytes.toNat := toNat_add_of_lt hfits
      exact ⟨h.upload.mono (Nat.le.intro hadd.symm), h.download⟩
  | addDownload bytes =>
      have hadd : (snapshots.traffic.downloadTotal + bytes).toNat =
          snapshots.traffic.downloadTotal.toNat + bytes.toNat := toNat_add_of_lt hfits
      exact ⟨h.upload, h.download.mono (Nat.le.intro hadd.symm)⟩
  | snapshot i =>
      cases hi : snapshots.calls[i]? with
      | none =>
          rw [next_of_none hi]
          exact h
      | some call =>
          have hfresh : call.Fresh snapshots.traffic := hswap call hi
          rw [next_of_call hi]
          have hup : (snapshots.calls.map SnapshotCall.upload)[i]? = some call.upload := by
            rw [List.getElem?_map, hi, Option.map_some]
          have hdown : (snapshots.calls.map SnapshotCall.download)[i]? =
              some call.download := by
            rw [List.getElem?_map, hi, Option.map_some]
          refine ⟨?_, ?_⟩
          · rw [List.map_set]
            cases call with
            | called => exact h.upload.load hup
            | loadedUpload upload => exact h.upload.stay hup
            | loaded upload download => exact h.upload.swap hup (UInt64.le_iff_toNat_le.mp hfresh)
            | swappedUpload upload download lastUp =>
                have hmetered := h.upload.stay hup
                rw [SnapshotCall.upload, ← toNat_saturatingSub] at hmetered
                exact hmetered
            | returned snapshot => exact h.upload.stay hup
          · rw [List.map_set]
            cases call with
            | called => exact h.download.stay hdown
            | loadedUpload upload => exact h.download.load hdown
            | loaded upload download => exact h.download.stay hdown
            | swappedUpload upload download lastUp =>
                have hmetered := h.download.swap hdown (UInt64.le_iff_toNat_le.mp hfresh)
                rw [← toNat_saturatingSub] at hmetered
                exact hmetered
            | returned snapshot => exact h.download.stay hdown

/-- Calls that have read nothing have taken nothing, so the baseline is still zero. -/
theorem metered_replicate (total calls : ℕ) :
    Metered total 0 (List.replicate calls .unread) := by
  refine ⟨fun v hv => ?_, Nat.zero_le _, ?_⟩
  · cases List.eq_of_mem_replicate hv
  · rw [List.map_replicate, List.sum_replicate]
    exact Nat.mul_zero calls

/-- Before the first step nothing has been taken. -/
theorem consistent_start (calls : ℕ) : (start calls).Consistent := by
  constructor
  · rw [start, List.map_replicate]
    exact metered_replicate _ calls
  · rw [start, List.map_replicate]
    exact metered_replicate _ calls

/-- **No byte is reported twice.** Whatever the order of the atomic operations, the returned
speeds add up to no more than the totals, in every state of a run in which no call swaps a
baseline for an older total. -/
theorem always_bounded {calls : ℕ} {events : List TrafficEvent}
    (hevents : EachStep (total next) (fun s event => s.Fits event ∧ s.NoStaleSwap event)
      (start calls) events) :
    Always (total next) Bounded (start calls) events := by
  have hstep : ∀ (s : Snapshots) (event : TrafficEvent) (s' : Snapshots), s.Consistent →
      s.Fits event ∧ s.NoStaleSwap event → total next s event = .ok s' → s'.Consistent := by
    rintro s event s' h ⟨hfits, hswap⟩ hs'
    obtain rfl := Except.ok.inj hs'
    exact h.next event hfits hswap
  exact always_of_eachStep hstep (fun _ h => h.bounded) (consistent_start calls) hevents

/-- Two snapshots, one inside the other; the outer one swaps both baselines first. -/
theorem always_bounded_sample :
    Always (total next) Bounded (start 2)
      [.addUpload 100, .snapshot 0, .snapshot 0, .snapshot 0, .snapshot 0, .addUpload 50,
        .snapshot 1, .snapshot 1, .snapshot 1, .snapshot 1] := by
  exact always_bounded (by decide)

/-- A call loads a total of 100 bytes and swaps the baseline after another call has taken 200.
The next call takes the second 100 bytes again. -/
theorem not_always_bounded :
    EachStep (total next) Fits (start 3)
        [.addUpload 100, .snapshot 0, .snapshot 0, .addUpload 100, .snapshot 1, .snapshot 1,
          .snapshot 1, .snapshot 1, .snapshot 0, .snapshot 0, .snapshot 2, .snapshot 2,
          .snapshot 2, .snapshot 2] ∧
      ¬ Always (total next) Bounded (start 3)
        [.addUpload 100, .snapshot 0, .snapshot 0, .addUpload 100, .snapshot 1, .snapshot 1,
          .snapshot 1, .snapshot 1, .snapshot 0, .snapshot 0, .snapshot 2, .snapshot 2,
          .snapshot 2, .snapshot 2] := by
  constructor
  · decide
  · intro h
    exact absurd h.foldl.1 (by decide)

end Snapshots

end Redog
