import Redog.Main
import Redog.Run
import Redog.Statistics

/-!
# Relays

Any number of `handle_tcp` runs on one tunnel, next to requests that close all connections.
A run matches its connection, waits for the adapter to connect, tracks the connection,
relays until one side ends or fails, and removes the connection from the table under the key
it was tracked with. It can be suspended while it connects and while it relays; between
these points its steps are taken one after the other.

`close_all` empties the table and leaves the relays alone. So the table is that of the
running relays exactly as long as the requests to close all connections find no relay
running. The record of a connection is filled before its key is known, with the id 0; a
listed id is that of the connection for the first connection a tunnel tracks and for no
other.

## Main results

* `always_tracksRunning_iff`: when the table is that of the running relays.
* `always_idsIdentify_iff`: when the listed ids identify connections.
-/

namespace Redog

open Run

variable [Crates] {A : Type} [ProxyAdapter A]

/-- `redog_tunnel::Tunnel` with its statistics: the counter of the bytes and the tracker of the
connections. -/
structure TrackedTunnel (A : Type) extends Tunnel A where
  traffic : TrafficCounter
  connections : ConnectionTracker

/-- A tunnel before its first connection, with nothing counted and nothing tracked. -/
def TrackedTunnel.new (tunnel : Tunnel A) : TrackedTunnel A where
  toTunnel := tunnel
  traffic := .new
  connections := .new

/-! ### Steps of `handle_tcp` -/

/-- Where a run of `handle_tcp` is: connecting, connected and not tracked yet, relaying under a key,
or finished. -/
inductive HandleTcp (A : Type)
  | connecting (metadata : Metadata) (m : MatchResult A)
  | connected (metadata : Metadata) (m : MatchResult A)
  | relaying (id : UInt64)
  | finished

/-- A tunnel and the runs of `handle_tcp` on it. -/
structure Relays (A : Type) where
  tunnel : TrackedTunnel A
  runs : List (HandleTcp A)

/-- What can happen next to the connections: one more is accepted, a run of `handle_tcp` goes on, or
all are closed through the API. -/
inductive RelayEvent
  /-- `handle_tcp` is called. -/
  | accept (metadata : Metadata)
  /-- `connect_stream` of a run returns. -/
  | connectEnd (run : ℕ) (ok : Bool)
  /-- A connected run tracks its connection and starts to relay. -/
  | track (run : ℕ) (start : String)
  /-- The relay of a run ends, with the bytes copied or with an error. -/
  | relayEnd (run : ℕ) (copied : Option (UInt64 × UInt64))
  /-- `DELETE /connections`. -/
  | closeAll
deriving DecidableEq

/-- The record `handle_tcp` makes of a connection. -/
def connectionInfo (metadata : Metadata) (m : MatchResult A) (start : String) : ConnectionInfo where
  id := 0
  destination := metadata.destination
  network := metadata.network.display
  inboundType := metadata.inboundType.display
  chains := [ProxyAdapter.name m.adapter]
  rule := m.ruleName
  rulePayload := m.rulePayload
  upload := 0
  download := 0
  start := start

/-- The counters after a relay: an error adds nothing. -/
def TrafficCounter.addCopied (traffic : TrafficCounter) :
    Option (UInt64 × UInt64) → TrafficCounter
  | some (tx, rx) => (traffic.addUpload tx).addDownload rx
  | none => traffic

namespace Relays

/-- A tunnel before its first connection, and so without runs. -/
def start (tunnel : Tunnel A) : Relays A where
  tunnel := .new tunnel
  runs := []

/-- One step. An event that cannot happen changes nothing. -/
def next (relays : Relays A) : RelayEvent → Relays A
  | .accept metadata =>
      let m := relays.tunnel.matchAdapter metadata
      { relays with runs := relays.runs ++ [.connecting metadata m] }
  | .connectEnd run ok =>
      match relays.runs[run]? with
      | some (.connecting metadata m) =>
          { relays with
            runs := relays.runs.set run (if ok then .connected metadata m else .finished) }
      | _ => relays
  | .track run start =>
      match relays.runs[run]? with
      | some (.connected metadata m) =>
          let (id, connections) :=
            relays.tunnel.connections.track (connectionInfo metadata m start)
          { tunnel := { relays.tunnel with connections := connections }
            runs := relays.runs.set run (.relaying id) }
      | _ => relays
  | .relayEnd run copied =>
      match relays.runs[run]? with
      | some (.relaying id) =>
          { tunnel := { relays.tunnel with
              traffic := relays.tunnel.traffic.addCopied copied
              connections := relays.tunnel.connections.untrack id }
            runs := relays.runs.set run .finished }
      | _ => relays
  | .closeAll =>
      { relays with
        tunnel := { relays.tunnel with connections := relays.tunnel.connections.closeAll.2 } }

/-- Some run relays under the key, as the table should say. -/
def Running (relays : Relays A) (id : UInt64) : Prop :=
  .relaying id ∈ relays.runs

/-! ### What a step does -/

omit [Crates] in
/-- What is in a list after one element has been replaced: the new one, and those at other
positions. -/
theorem mem_set_iff {α : Type} {l : List α} {i : ℕ} {t t' x : α} (h : l[i]? = some t) :
    x ∈ l.set i t' ↔ x = t' ∨ ∃ j, j ≠ i ∧ l[j]? = some x := by
  have hi : i < l.length := (List.getElem?_eq_some_iff.mp h).1
  simp only [List.mem_iff_getElem?, List.getElem?_set]
  constructor
  · rintro ⟨j, hj⟩
    by_cases hij : i = j
    · rw [if_pos hij, if_pos hi, Option.some.injEq] at hj
      exact .inl hj.symm
    · rw [if_neg hij] at hj
      exact .inr ⟨j, Ne.symm hij, hj⟩
  · rintro (rfl | ⟨j, hji, hj⟩)
    · exact ⟨i, by rw [if_pos rfl, if_pos hi]⟩
    · exact ⟨j, by rw [if_neg (Ne.symm hji), hj]⟩

omit [Crates] [ProxyAdapter A] in
/-- Which runs relay does not change with the state of a run that neither relayed before nor
does now. -/
theorem relaying_mem_set_iff {runs : List (HandleTcp A)} {run : ℕ} {t t' : HandleTcp A}
    {id : UInt64} (h : runs[run]? = some t) (ht : t ≠ .relaying id) (ht' : t' ≠ .relaying id) :
    .relaying id ∈ runs.set run t' ↔ .relaying id ∈ runs := by
  rw [mem_set_iff h, or_iff_right ht'.symm, List.mem_iff_getElem?]
  constructor
  · rintro ⟨j, -, hj⟩
    exact ⟨j, hj⟩
  · rintro ⟨j, hj⟩
    refine ⟨j, ?_, hj⟩
    rintro rfl
    exact ht (Option.some.inj (h.symm.trans hj))

/-- The end of an attempt to connect leaves the counters and the table alone, and no relay stops by
it. -/
theorem next_connectEnd_cases (relays : Relays A) (run : ℕ) (ok : Bool) :
    (relays.next (.connectEnd run ok)).tunnel = relays.tunnel ∧
      ∀ id, (relays.next (.connectEnd run ok)).Running id ↔ relays.Running id := by
  rw [next]
  split
  · rename_i metadata m hrun
    refine ⟨rfl, fun id => relaying_mem_set_iff hrun nofun ?_⟩
    cases ok <;> nofun
  · exact ⟨rfl, fun _ => Iff.rfl⟩

/-- Tracking: a connected run becomes a relaying one, under the key the counter shows. -/
theorem next_track_cases (relays : Relays A) (run : ℕ) (start : String) :
    (∃ metadata m, relays.runs[run]? = some (.connected metadata m) ∧
      (relays.next (.track run start)).tunnel.connections =
        (relays.tunnel.connections.track (connectionInfo metadata m start)).2 ∧
      ∀ id, (relays.next (.track run start)).Running id ↔
        id = relays.tunnel.connections.counter ∨ relays.Running id) ∨
    (∀ metadata m, relays.runs[run]? ≠ some (.connected metadata m)) ∧
      relays.next (.track run start) = relays := by
  rw [next]
  split
  · rename_i metadata m hrun
    refine .inl ⟨metadata, m, hrun, rfl, fun id => ?_⟩
    show .relaying id ∈ relays.runs.set run (.relaying relays.tunnel.connections.counter) ↔ _
    by_cases hid : id = relays.tunnel.connections.counter
    · subst hid
      exact iff_of_true ((mem_set_iff hrun).mpr (.inl rfl)) (.inl rfl)
    · rw [or_iff_right hid]
      exact relaying_mem_set_iff hrun nofun fun h => hid (HandleTcp.relaying.inj h).symm
  · rename_i hnot
    exact .inr ⟨fun metadata m h => hnot metadata m h, rfl⟩

/-- The end of a relay: a relaying run removes its key and is finished. -/
theorem next_relayEnd_cases (relays : Relays A) (run : ℕ) (copied : Option (UInt64 × UInt64)) :
    (∃ id, relays.runs[run]? = some (.relaying id) ∧
      (relays.next (.relayEnd run copied)).tunnel.connections =
        relays.tunnel.connections.untrack id ∧
      ∀ id', (relays.next (.relayEnd run copied)).Running id' ↔
        ∃ other, other ≠ run ∧ relays.runs[other]? = some (.relaying id')) ∨
    (∀ id, relays.runs[run]? ≠ some (.relaying id)) ∧
      relays.next (.relayEnd run copied) = relays := by
  rw [next]
  split
  · rename_i id hrun
    refine .inl ⟨id, hrun, rfl, fun id' => ?_⟩
    exact (mem_set_iff hrun).trans (or_iff_right nofun)
  · rename_i hnot
    exact .inr ⟨fun id h => hnot id h, rfl⟩

/-! ### The table and the running relays -/

/-- The keys of the table are those of the running relays. -/
def TracksRunning (relays : Relays A) : Prop :=
  ∀ id, id ∈ relays.tunnel.connections.connections ↔ relays.Running id

/-- The step keeps the table that of the running relays: no relay runs when all connections
are closed, and a relay that ends does not share its key with one that runs, as it can once
the counter has wrapped around. -/
def KeepsTracking (relays : Relays A) : RelayEvent → Prop
  | .relayEnd run _ => ∀ id, relays.runs[run]? = some (.relaying id) →
      ∀ other, other ≠ run → relays.runs[other]? ≠ some (.relaying id)
  | .closeAll => ∀ id, ¬ relays.Running id
  | _ => True

omit [ProxyAdapter A] in
/-- Whether the table agrees with the relays depends on its connections and on which relays run. -/
theorem TracksRunning.congr {relays relays' : Relays A} (h : relays.TracksRunning)
    (htunnel : relays'.tunnel.connections = relays.tunnel.connections)
    (hrunning : ∀ id, relays'.Running id ↔ relays.Running id) : relays'.TracksRunning := by
  intro id
  rw [htunnel, hrunning, h id]

omit [ProxyAdapter A] in
/-- A relay that ends may take its entry out exactly when no other one that runs has the same
key. -/
theorem keepsTracking_relayEnd_iff {relays : Relays A} {run : ℕ}
    {copied : Option (UInt64 × UInt64)} {id : UInt64}
    (hrun : relays.runs[run]? = some (.relaying id)) :
    relays.KeepsTracking (.relayEnd run copied) ↔
      ∀ other, other ≠ run → relays.runs[other]? ≠ some (.relaying id) := by
  constructor
  · exact fun hkeeps => hkeeps id hrun
  · intro hother id' hrun'
    obtain rfl : id = id' := HandleTcp.relaying.inj (Option.some.inj (hrun ▸ hrun'))
    exact hother

omit [ProxyAdapter A] in
/-- Removing the key of a relay that ends leaves the keys of the others, unless one of them
has the same key. -/
theorem TracksRunning.untrack_iff {relays relays' : Relays A} (h : relays.TracksRunning)
    {run : ℕ} {id : UInt64} (hrun : relays.runs[run]? = some (.relaying id))
    (htracker : relays'.tunnel.connections = relays.tunnel.connections.untrack id)
    (hrunning : ∀ id', relays'.Running id' ↔
      ∃ other, other ≠ run ∧ relays.runs[other]? = some (.relaying id')) :
    relays'.TracksRunning ↔
      ∀ other, other ≠ run → relays.runs[other]? ≠ some (.relaying id) := by
  constructor
  · intro hnext other hother hrunother
    have hmem := (hnext id).mpr ((hrunning id).mpr ⟨other, hother, hrunother⟩)
    rw [htracker, ConnectionTracker.mem_untrack] at hmem
    exact hmem.1 rfl
  · intro hother id'
    rw [htracker, ConnectionTracker.mem_untrack, hrunning, h id', Running,
      List.mem_iff_getElem?]
    constructor
    · rintro ⟨hne, other, hrunother⟩
      refine ⟨other, ?_, hrunother⟩
      rintro rfl
      exact hne (HandleTcp.relaying.inj (Option.some.inj (hrunother ▸ hrun)))
    · rintro ⟨other, hne, hrunother⟩
      refine ⟨?_, other, hrunother⟩
      rintro rfl
      exact hother other hne hrunother

/-- One step keeps the table in line with the runs exactly when it closes nothing that runs, and
ends no relay whose key another one has. -/
theorem tracksRunning_next_iff {relays : Relays A} (h : relays.TracksRunning)
    (event : RelayEvent) : (relays.next event).TracksRunning ↔ relays.KeepsTracking event := by
  cases event with
  | accept metadata =>
      refine iff_of_true (h.congr rfl fun id => ?_) trivial
      rw [Running, next, List.mem_append, List.mem_singleton]
      exact or_iff_left nofun
  | connectEnd run ok =>
      obtain ⟨htunnel, hrunning⟩ := relays.next_connectEnd_cases run ok
      exact iff_of_true (h.congr (congrArg _ htunnel) hrunning) trivial
  | track run start =>
      refine iff_of_true ?_ trivial
      rcases relays.next_track_cases run start with
        ⟨metadata, m, -, htracker, hrunning⟩ | ⟨-, hsame⟩
      · intro id
        rw [htracker, ConnectionTracker.mem_track, hrunning, h id]
      · rwa [hsame]
  | relayEnd run copied =>
      rcases relays.next_relayEnd_cases run copied with
        ⟨id, hrun, htracker, hrunning⟩ | ⟨hnot, hsame⟩
      · rw [keepsTracking_relayEnd_iff hrun]
        exact h.untrack_iff hrun htracker hrunning
      · rw [hsame]
        exact iff_of_true h fun id hrun => absurd hrun (hnot id)
  | closeAll =>
      constructor
      · intro hnext id hrunning
        exact ConnectionTracker.notMem_closeAll _ id ((hnext id).mpr hrunning)
      · exact fun hnone id => iff_of_false (ConnectionTracker.notMem_closeAll _ id) (hnone id)

/-- **When the table is that of the running relays.** In every state of a run the keys of
the table are those of the running relays, exactly when all connections are closed only
while no relay runs, and keys are not shared when a relay ends. -/
theorem always_tracksRunning_iff (tunnel : Tunnel A) (events : List RelayEvent) :
    Always (total next) TracksRunning (start tunnel) events ↔
      EachStep (total next) KeepsTracking (start tunnel) events := by
  have hstart : (start tunnel).TracksRunning := fun id =>
    iff_of_false (AList.notMem_empty id) List.not_mem_nil
  have hstep : ∀ (relays : Relays A) (event : RelayEvent), relays.TracksRunning →
      ((relays.next event).TracksRunning ↔ relays.KeepsTracking event) :=
    fun _ event h => tracksRunning_next_iff h event
  exact always_total_iff_self hstep hstart events

/-! ### Listed ids -/

/-- The step keeps the listed ids good: what it tracks is the first connection. -/
def TracksFirst (relays : Relays A) : RelayEvent → Prop
  | .track run _ => ∀ metadata m, relays.runs[run]? = some (.connected metadata m) →
      relays.tunnel.connections.counter = 0
  | _ => True

/-- The records are those of `handle_tcp`: their id is 0. -/
theorem allZero_next {relays : Relays A} (h : relays.tunnel.connections.AllZero)
    (event : RelayEvent) : (relays.next event).tunnel.connections.AllZero := by
  cases event with
  | accept metadata => exact h
  | connectEnd run ok => rwa [(relays.next_connectEnd_cases run ok).1]
  | track run start =>
      rcases relays.next_track_cases run start with ⟨metadata, m, -, htracker, -⟩ | ⟨-, hsame⟩
      · rw [htracker]
        exact h.track rfl
      · rwa [hsame]
  | relayEnd run copied =>
      rcases relays.next_relayEnd_cases run copied with ⟨id, -, htracker, -⟩ | ⟨-, hsame⟩
      · rw [htracker]
        exact h.untrack id
      · rwa [hsame]
  | closeAll => exact ConnectionTracker.allZero_closeAll _

/-- One step keeps the ids telling exactly when what it tracks, if anything, is the first
connection, since all ids are 0. -/
theorem idsIdentify_next_iff {relays : Relays A} (hzero : relays.tunnel.connections.AllZero)
    (h : relays.tunnel.connections.IdsIdentify) (event : RelayEvent) :
    (relays.next event).tunnel.connections.IdsIdentify ↔ relays.TracksFirst event := by
  rw [ConnectionTracker.idsIdentify_iff (allZero_next hzero event)]
  rw [ConnectionTracker.idsIdentify_iff hzero] at h
  cases event with
  | accept metadata => exact iff_of_true h trivial
  | connectEnd run ok =>
      rw [(relays.next_connectEnd_cases run ok).1]
      exact iff_of_true h trivial
  | track run start =>
      rcases relays.next_track_cases run start with
        ⟨metadata, m, hrun, htracker, -⟩ | ⟨hnot, hsame⟩
      · simp only [htracker, ConnectionTracker.mem_track]
        constructor
        · exact fun hnext _ _ _ => hnext _ (.inl rfl)
        · rintro hfirst id (rfl | hid)
          · exact hfirst metadata m hrun
          · exact h id hid
      · rw [hsame]
        exact iff_of_true h fun metadata m hrun => absurd hrun (hnot metadata m)
  | relayEnd run copied =>
      refine iff_of_true ?_ trivial
      rcases relays.next_relayEnd_cases run copied with ⟨id, -, htracker, -⟩ | ⟨-, hsame⟩
      · intro id' hid'
        rw [htracker, ConnectionTracker.mem_untrack] at hid'
        exact h id' hid'.2
      · rwa [hsame]
  | closeAll =>
      exact iff_of_true (fun id hid => absurd hid (ConnectionTracker.notMem_closeAll _ id)) trivial

/-- **When the listed ids identify connections.** In every state of a run the listed ids
identify connections, exactly when nothing but the first connection of the tunnel is ever
tracked. -/
theorem always_idsIdentify_iff (tunnel : Tunnel A) (events : List RelayEvent) :
    Always (total next) (fun relays => relays.tunnel.connections.IdsIdentify) (start tunnel)
        events ↔
      EachStep (total next) TracksFirst (start tunnel) events := by
  have hstart : (start tunnel).tunnel.connections.IdsIdentify :=
    (ConnectionTracker.idsIdentify_iff ConnectionTracker.allZero_new).mpr fun id hid =>
      absurd hid (AList.notMem_empty id)
  have hstep : ∀ (relays : Relays A) (event : RelayEvent),
      relays.tunnel.connections.AllZero → relays.tunnel.connections.IdsIdentify →
        ((relays.next event).tunnel.connections.IdsIdentify ↔ relays.TracksFirst event) :=
    fun relays event hzero h => idsIdentify_next_iff hzero h event
  have hinv : ∀ (relays : Relays A) (event : RelayEvent),
      relays.tunnel.connections.AllZero → (relays.next event).tunnel.connections.AllZero :=
    fun relays event hzero => allZero_next hzero event
  exact always_total_iff hinv hstep ConnectionTracker.allZero_new hstart events

/-! ### Two runs -/

/-- A connection is accepted, connected and tracked. -/
def openConnection (run : ℕ) : List RelayEvent :=
  [.accept googleMetadata, .connectEnd run true, .track run "2024-01-01T00:00:00Z"]

end Relays

omit [Crates] in
/-- All connections are closed while one is relayed: it is missing from the table. -/
theorem running_not_tracked :
    letI := ipv4Crates
    ¬ Always (total Relays.next) Relays.TracksRunning (Relays.start (.new mainProxies []))
      (Relays.openConnection 0 ++ [.closeAll]) := by
  let _ := ipv4Crates
  intro h
  have hrunning : HandleTcp.relaying 0 ∈ [(HandleTcp.relaying 0 : HandleTcp Outbound)] :=
    List.mem_singleton_self _
  exact AList.notMem_empty 0 ((h.foldl 0).mpr hrunning)

omit [Crates] in
/-- Two connections are tracked: both are listed with the id 0. -/
theorem ids_not_distinct :
    letI := ipv4Crates
    ¬ Always (total Relays.next) (fun relays => relays.tunnel.connections.IdsIdentify)
      (Relays.start (.new mainProxies []))
      (Relays.openConnection 0 ++ Relays.openConnection 1) := by
  let _ := ipv4Crates
  intro h
  have hids : [(0 : UInt64), 0].Nodup := h.foldl.distinct
  exact absurd hids (by decide)

end Redog
