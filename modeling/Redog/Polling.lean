import Redog.Api

/-!
# Polling the traffic counters

The GUI polls GET /traffic for the bytes since its last reading and GET /connections for the
totals. Both handlers take a snapshot, and a snapshot moves the baseline the next speed is
measured from. So bytes that a snapshot for GET /connections has seen are missing from the
next reading of GET /traffic.

`Polling` keeps, next to the counters, what the readings should be compared with: the bytes
added so far, those added before the latest reading, and the sum of the readings.

## Main results

* `conserved_next_iff`: what a reading preserves.
* `always_conserved_iff`: the readings add up exactly as long as GET /connections does not
  move the baseline between them.
-/

namespace Redog

open Run

/-- Numbers of bytes in both directions. They are not bounded, so that they can be compared with the
counters of the code. -/
@[ext] structure Bytes where
  up : ℕ
  down : ℕ
deriving DecidableEq

/-- The bytes a response of GET /traffic reports. -/
def Response.bytes (response : Response) : Bytes :=
  let number : Option Json → ℕ
    | some (.number n) => n
    | _ => 0
  match response.body with
  | .json value => ⟨number (value.field "up"), number (value.field "down")⟩
  | _ => ⟨0, 0⟩

variable [Crates]

/-- The API state, with what the readings are compared with. -/
structure Polling where
  api : ApiState
  added : Bytes
  addedAtReading : Bytes
  readings : Bytes

/-- What can happen next: a relay adds the bytes it has copied, or a client asks for one of the two
readings. -/
inductive PollEvent
  /-- `TrafficCounter::add_upload` -/
  | addUpload (bytes : UInt64)
  /-- `TrafficCounter::add_download` -/
  | addDownload (bytes : UInt64)
  /-- A GET /traffic request. -/
  | getTraffic
  /-- A GET /connections request. -/
  | getConnections
deriving DecidableEq

namespace Polling

/-- Before the first byte: a new counter, nothing added and nothing read. -/
def start (api : ApiState) : Polling where
  api := { api with traffic := .new }
  added := ⟨0, 0⟩
  addedAtReading := ⟨0, 0⟩
  readings := ⟨0, 0⟩

/-- One step, with what it adds to the totals and, where it is a reading, what the reading
showed. -/
def next (polling : Polling) : PollEvent → Polling
  | .addUpload bytes =>
      { polling with
        api := { polling.api with traffic := polling.api.traffic.addUpload bytes }
        added := ⟨polling.added.up + bytes.toNat, polling.added.down⟩ }
  | .addDownload bytes =>
      { polling with
        api := { polling.api with traffic := polling.api.traffic.addDownload bytes }
        added := ⟨polling.added.up, polling.added.down + bytes.toNat⟩ }
  | .getTraffic =>
      let (response, api) := polling.api.getTraffic
      { polling with
        api := api
        addedAtReading := polling.added
        readings := ⟨polling.readings.up + response.bytes.up,
          polling.readings.down + response.bytes.down⟩ }
  | .getConnections => { polling with api := polling.api.getConnections.2 }

/-- The totals stay below 2^64, so that the counters do not wrap around. -/
def Fits (polling : Polling) : PollEvent → Prop
  | .addUpload bytes => polling.added.up + bytes.toNat < 2 ^ 64
  | .addDownload bytes => polling.added.down + bytes.toNat < 2 ^ 64
  | _ => True

/-- The readings add up to the bytes added before the latest one. -/
def Conserved (polling : Polling) : Prop :=
  polling.readings = polling.addedAtReading

/-- The step is no reading, or the baseline is where the latest reading has left it. -/
def BaselineKept (polling : Polling) : PollEvent → Prop
  | .getTraffic =>
      polling.api.traffic.lastUpload.toNat = polling.addedAtReading.up ∧
        polling.api.traffic.lastDownload.toNat = polling.addedAtReading.down
  | _ => True

/-- The counters count the bytes added, and the baseline is not beyond them. -/
structure Counts (polling : Polling) : Prop where
  upload : polling.api.traffic.uploadTotal.toNat = polling.added.up
  download : polling.api.traffic.downloadTotal.toNat = polling.added.down
  lastUpload : polling.api.traffic.lastUpload.toNat ≤ polling.added.up
  lastDownload : polling.api.traffic.lastDownload.toNat ≤ polling.added.down

/-- The numbers that a request for the traffic reads are the totals less the baseline. -/
theorem bytes_getTraffic (api : ApiState) :
    api.getTraffic.1.bytes = ⟨api.traffic.uploadTotal.toNat - api.traffic.lastUpload.toNat,
      api.traffic.downloadTotal.toNat - api.traffic.lastDownload.toNat⟩ := by
  rw [← uploadSpeed_snapshot, ← downloadSpeed_snapshot]
  rfl

/-- An event keeps what has been counted, as long as the totals fit their counters. -/
theorem Counts.next {polling : Polling} (h : polling.Counts) (event : PollEvent)
    (hfits : polling.Fits event) : (polling.next event).Counts := by
  cases event with
  | addUpload bytes =>
      have hfits : polling.added.up + bytes.toNat < 2 ^ 64 := hfits
      refine ⟨?_, h.download, ?_, h.lastDownload⟩
      · show (polling.api.traffic.uploadTotal + bytes).toNat = polling.added.up + bytes.toNat
        rw [toNat_add_of_lt (h.upload ▸ hfits), h.upload]
      · exact h.lastUpload.trans (Nat.le_add_right _ _)
  | addDownload bytes =>
      have hfits : polling.added.down + bytes.toNat < 2 ^ 64 := hfits
      refine ⟨h.upload, ?_, h.lastUpload, ?_⟩
      · show (polling.api.traffic.downloadTotal + bytes).toNat = polling.added.down + bytes.toNat
        rw [toNat_add_of_lt (h.download ▸ hfits), h.download]
      · exact h.lastDownload.trans (Nat.le_add_right _ _)
  | getTraffic => exact ⟨h.upload, h.download, h.upload.le, h.download.le⟩
  | getConnections => exact ⟨h.upload, h.download, h.upload.le, h.download.le⟩

/-- One step keeps the equation of the readings exactly when it is no reading, or a reading of the
baseline the client knows. -/
theorem conserved_next_iff {polling : Polling} (hcounts : polling.Counts)
    (h : polling.Conserved) (event : PollEvent) :
    (polling.next event).Conserved ↔ polling.BaselineKept event := by
  cases event with
  | addUpload bytes => exact iff_of_true h trivial
  | addDownload bytes => exact iff_of_true h trivial
  | getConnections => exact iff_of_true h trivial
  | getTraffic =>
      have hup := hcounts.lastUpload
      have hdown := hcounts.lastDownload
      have hreadings : (polling.next .getTraffic).readings =
          ⟨polling.addedAtReading.up +
              (polling.added.up - polling.api.traffic.lastUpload.toNat),
            polling.addedAtReading.down +
              (polling.added.down - polling.api.traffic.lastDownload.toNat)⟩ := by
        have hbytes := bytes_getTraffic polling.api
        rw [hcounts.upload, hcounts.download] at hbytes
        have h : polling.readings = polling.addedAtReading := h
        show Bytes.mk (polling.readings.up + polling.api.getTraffic.1.bytes.up)
          (polling.readings.down + polling.api.getTraffic.1.bytes.down) = _
        rw [hbytes, h]
      have hadded : (polling.next .getTraffic).addedAtReading = polling.added := rfl
      rw [Conserved, hreadings, hadded, Bytes.ext_iff, BaselineKept]
      dsimp only
      omega

/-- **When readings do not steal from each other.** As long as the totals fit, the readings
of GET /traffic add up to the bytes added before the latest one in every state of a run,
exactly when at each reading the baseline is where the reading before has left it. -/
theorem always_conserved_iff (api : ApiState) (events : List PollEvent)
    (hfits : EachStep (total next) Fits (start api) events) :
    Always (total next) Conserved (start api) events ↔
      EachStep (total next) BaselineKept (start api) events := by
  have hcounts : (start api).Counts := ⟨rfl, rfl, Nat.le_refl _, Nat.le_refl _⟩
  have hinv : ∀ (polling : Polling) (event : PollEvent), polling.Counts → polling.Fits event →
      (polling.next event).Counts := fun _ event h hfits => h.next event hfits
  have hstep : ∀ (polling : Polling) (event : PollEvent), polling.Counts → polling.Fits event →
      polling.Conserved → ((polling.next event).Conserved ↔ polling.BaselineKept event) :=
    fun _ event hcounts _ h => conserved_next_iff hcounts h event
  exact always_total_iff_of hinv hstep hcounts rfl hfits

end Polling

omit [Crates] in
/-- Ten bytes are uploaded, and both are polled. -/
theorem always_conserved_sample :
    letI := ipv4Crates
    Always (total Polling.next) Polling.Conserved (.start freshState)
        [.addUpload 10, .getTraffic, .getConnections] ↔
      EachStep (total Polling.next) Polling.BaselineKept (.start freshState)
        [.addUpload 10, .getTraffic, .getConnections] := by
  let _ := ipv4Crates
  refine Polling.always_conserved_iff freshState _ ⟨?_, fun s _ => ?_⟩
  · show 0 + 10 < 2 ^ 64
    decide
  · exact ⟨trivial, fun _ _ => ⟨trivial, fun _ _ => trivial⟩⟩

omit [Crates] in
/-- The same with the polls the other way round: the reading reports none of the bytes. -/
theorem reading_stolen :
    letI := ipv4Crates
    EachStep (total Polling.next) Polling.Fits (.start freshState)
        [.addUpload 10, .getConnections, .getTraffic] ∧
      ¬ Always (total Polling.next) Polling.Conserved (.start freshState)
        [.addUpload 10, .getConnections, .getTraffic] := by
  let _ := ipv4Crates
  refine ⟨⟨?_, fun s _ => ?_⟩, ?_⟩
  · show 0 + 10 < 2 ^ 64
    decide
  · exact ⟨trivial, fun _ _ => ⟨trivial, fun _ _ => trivial⟩⟩
  · intro h
    have hbytes : (0 : ℕ) = 10 := congrArg Bytes.up h.foldl
    omega

end Redog
