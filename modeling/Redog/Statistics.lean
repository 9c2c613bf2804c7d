import Mathlib.Data.List.AList
import Redog.Core

/-!
# Statistics

The traffic counters and the table of connections, as the relays update them and the API
reads them. The counters are atomic 64-bit integers and wrap around.

A snapshot reports the bytes since the previous snapshot, whoever took that, and makes the
totals the new baseline. The table hands out its keys itself, from a counter, and keeps the
record of a connection as it is given: the `id` field of the record is whatever the caller
wrote there. `ConnectionTracker.IdsIdentify` says that a listed `id` is good for removing
the connection it is listed for.

## Main results

* `uploadSpeed_snapshot`, `downloadSpeed_snapshot`: what a snapshot reports.
* `ConnectionTracker.idsIdentify_iff`: with records whose `id` is 0 only the key 0 will do.
-/

namespace Redog

/-! ### Traffic -/

/-- `TrafficCounter`: the bytes relayed in both directions so far, and what they were at the last
snapshot. -/
structure TrafficCounter where
  uploadTotal : UInt64
  downloadTotal : UInt64
  lastUpload : UInt64
  lastDownload : UInt64
deriving DecidableEq

/-- `TrafficSnapshot`: the totals, and how far they have grown since the snapshot before. -/
structure TrafficSnapshot where
  uploadSpeed : UInt64
  downloadSpeed : UInt64
  uploadTotal : UInt64
  downloadTotal : UInt64

/-- `u64::saturating_sub`: the difference, or zero where it would be negative. -/
def saturatingSub (a b : UInt64) : UInt64 :=
  if b ≤ a then a - b else 0

namespace TrafficCounter

/-- `TrafficCounter::new`: nothing relayed yet, and nothing at the last snapshot. -/
def new : TrafficCounter := ⟨0, 0, 0, 0⟩

/-- `TrafficCounter::add_upload`: the total grows by the bytes and wraps around at 64 bits. -/
def addUpload (traffic : TrafficCounter) (bytes : UInt64) : TrafficCounter :=
  { traffic with uploadTotal := traffic.uploadTotal + bytes }

/-- `TrafficCounter::add_download`: the total grows by the bytes and wraps around at 64 bits. -/
def addDownload (traffic : TrafficCounter) (bytes : UInt64) : TrafficCounter :=
  { traffic with downloadTotal := traffic.downloadTotal + bytes }

/-- `TrafficCounter::snapshot`, executed atomically: the speeds are the growth since the last one,
and the totals become the baseline of the next. -/
def snapshot (traffic : TrafficCounter) : TrafficSnapshot × TrafficCounter :=
  ({ uploadSpeed := saturatingSub traffic.uploadTotal traffic.lastUpload
     downloadSpeed := saturatingSub traffic.downloadTotal traffic.lastDownload
     uploadTotal := traffic.uploadTotal
     downloadTotal := traffic.downloadTotal },
    { traffic with
      lastUpload := traffic.uploadTotal
      lastDownload := traffic.downloadTotal })

end TrafficCounter

/-- The baseline is at the totals, so the next snapshot starts from them. -/
def TrafficCounter.AtBaseline (traffic : TrafficCounter) : Prop :=
  traffic.lastUpload = traffic.uploadTotal ∧ traffic.lastDownload = traffic.downloadTotal

/-- A snapshot leaves the counters as they are when the baseline is at the totals. -/
theorem TrafficCounter.snapshot_eq_self_iff (traffic : TrafficCounter) :
    traffic.snapshot.2 = traffic ↔ traffic.AtBaseline := by
  constructor
  · intro h
    exact ⟨(congrArg lastUpload h).symm, (congrArg lastDownload h).symm⟩
  · rcases traffic with ⟨upload, download, lastUp, lastDown⟩
    rintro ⟨hup, hdown⟩
    obtain rfl : lastUp = upload := hup
    obtain rfl : lastDown = download := hdown
    rfl

/-- On natural numbers the saturating difference is the truncated difference, so both read the
same. -/
theorem toNat_saturatingSub (a b : UInt64) : (saturatingSub a b).toNat = a.toNat - b.toNat := by
  rw [saturatingSub]
  split_ifs with h
  · exact UInt64.toNat_sub_of_le a b h
  · have hlt : a.toNat < b.toNat := UInt64.not_le.mp h
    rw [Nat.sub_eq_zero_of_le hlt.le]
    rfl

/-- A sum that fits does not wrap around. -/
theorem toNat_add_of_lt {a b : UInt64} (h : a.toNat + b.toNat < 2 ^ 64) :
    (a + b).toNat = a.toNat + b.toNat := by
  rw [UInt64.toNat_add, Nat.mod_eq_of_lt h]

/-- The upload speed of a snapshot is what has come in since the baseline, or zero below it. -/
theorem uploadSpeed_snapshot (traffic : TrafficCounter) :
    traffic.snapshot.1.uploadSpeed.toNat =
      traffic.uploadTotal.toNat - traffic.lastUpload.toNat :=
  toNat_saturatingSub _ _

/-- The download speed of a snapshot is what has come in since the baseline, or zero below it. -/
theorem downloadSpeed_snapshot (traffic : TrafficCounter) :
    traffic.snapshot.1.downloadSpeed.toNat =
      traffic.downloadTotal.toNat - traffic.lastDownload.toNat :=
  toNat_saturatingSub _ _

/-! ### Connections -/

/-- `ConnectionInfo`. `start` is the time as it is serialised. -/
structure ConnectionInfo where
  id : UInt64
  destination : String
  network : String
  inboundType : String
  chains : List String
  rule : String
  rulePayload : String
  upload : UInt64
  download : UInt64
  start : String
deriving DecidableEq

/-- `ConnectionTracker`; the order of the entries is the order of iteration. -/
structure ConnectionTracker where
  connections : AList fun _ : UInt64 => ConnectionInfo
  counter : UInt64

namespace ConnectionTracker

/-- `ConnectionTracker::new`: no connection is tracked, and the first key will be 0. -/
def new : ConnectionTracker := ⟨∅, 0⟩

/-- `ConnectionTracker::track`: the record goes under the next key, which is returned. The field
`id` of the record is not set. -/
def track (tracker : ConnectionTracker) (info : ConnectionInfo) : UInt64 × ConnectionTracker :=
  let id := tracker.counter
  (id, ⟨tracker.connections.insert id info, tracker.counter + 1⟩)

/-- `ConnectionTracker::untrack`: the record under the key goes, if there is one. -/
def untrack (tracker : ConnectionTracker) (id : UInt64) : ConnectionTracker :=
  { tracker with connections := tracker.connections.erase id }

/-- `ConnectionTracker::list`: the records without their keys, in the order of the map. -/
def list (tracker : ConnectionTracker) : List ConnectionInfo :=
  tracker.connections.entries.map Sigma.snd

/-- `ConnectionTracker::len`: how many connections are tracked, one for each key of the map. -/
def len (tracker : ConnectionTracker) : ℕ :=
  tracker.connections.entries.length

/-- `ConnectionTracker::close_all`: all records go, and their number is returned. The counter of the
keys is kept. -/
def closeAll (tracker : ConnectionTracker) : ℕ × ConnectionTracker :=
  (tracker.len, { tracker with connections := ∅ })

/-! ### Listed ids -/

/-- The listed ids are distinct, and each is good for removing its connection and no other
one. -/
structure IdsIdentify (tracker : ConnectionTracker) : Prop where
  distinct : (tracker.list.map ConnectionInfo.id).Nodup
  removes : ∀ c ∈ tracker.list, (c :: (tracker.untrack c.id).list).Perm tracker.list

/-- Every record has the id 0, as none of them is told its key. -/
def AllZero (tracker : ConnectionTracker) : Prop :=
  ∀ c ∈ tracker.list, c.id = 0

/-- After a connection is untracked the list is that of the entries without its key. -/
theorem list_untrack (tracker : ConnectionTracker) (id : UInt64) :
    (tracker.untrack id).list = (tracker.connections.entries.kerase id).map Sigma.snd := rfl

/-- Untracking a connection adds none: what is listed afterwards was listed before. -/
theorem untrack_subset (tracker : ConnectionTracker) (id : UInt64) :
    (tracker.untrack id).list ⊆ tracker.list :=
  (List.Sublist.map _ (List.kerase_sublist id _)).subset

/-- Removing a key that is not there changes nothing, so one that removes a record is. -/
theorem mem_connections_of_removes {tracker : ConnectionTracker} {c : ConnectionInfo}
    {id : UInt64} (h : (c :: (tracker.untrack id).list).Perm tracker.list) :
    id ∈ tracker.connections := by
  by_contra hid
  have hsame : (tracker.untrack id).list = tracker.list := by
    rw [list_untrack, List.kerase_of_notMem_keys hid, list]
  have hlen := h.length_eq
  rw [hsame, List.length_cons] at hlen
  omega

/-- A table whose keys are all 0 has at most one entry. -/
theorem entries_cases {tracker : ConnectionTracker} (h : ∀ id ∈ tracker.connections, id = 0) :
    tracker.connections.entries = [] ∨ ∃ c, tracker.connections.entries = [⟨0, c⟩] := by
  have hkeys : ∀ e ∈ tracker.connections.entries, e.1 = 0 := fun e he =>
    h e.1 (List.mem_map_of_mem he)
  have hnodup := tracker.connections.nodupKeys
  rcases hentries : tracker.connections.entries with - | ⟨⟨id, c⟩, - | ⟨⟨id', c'⟩, rest⟩⟩
  · exact .inl rfl
  · rw [hentries] at hkeys
    obtain rfl : id = 0 := hkeys _ List.mem_cons_self
    exact .inr ⟨c, rfl⟩
  · rw [hentries] at hkeys hnodup
    obtain rfl : id = 0 := hkeys _ List.mem_cons_self
    obtain rfl : id' = 0 := hkeys _ (List.mem_cons_of_mem _ List.mem_cons_self)
    have hnot := (List.nodup_cons.mp hnodup).1
    exact absurd List.mem_cons_self hnot

/-- Distinct ids that are all 0 are those of one record at most. -/
theorem length_entries_le_one {tracker : ConnectionTracker} (hzero : tracker.AllZero)
    (hdistinct : (tracker.list.map ConnectionInfo.id).Nodup) :
    tracker.connections.entries.length ≤ 1 := by
  have hids : tracker.list.map ConnectionInfo.id = List.replicate tracker.list.length 0 := by
    rw [List.eq_replicate_iff, List.length_map]
    exact ⟨rfl, List.forall_mem_map.mpr hzero⟩
  rwa [hids, List.nodup_replicate, list, List.length_map] at hdistinct

/-- A tracker without connections lists none, so their identifiers cannot mislead. -/
theorem idsIdentify_of_entries_eq_nil {tracker : ConnectionTracker}
    (h : tracker.connections.entries = []) : tracker.IdsIdentify := by
  have hlist : tracker.list = [] := by rw [list, h, List.map_nil]
  refine ⟨?_, ?_⟩
  · rw [hlist, List.map_nil]
    exact List.nodup_nil
  · rw [hlist]
    exact List.forall_mem_nil _

/-- A single record is listed with the right id if that is its key. -/
theorem idsIdentify_of_entries_eq_singleton {tracker : ConnectionTracker} {c : ConnectionInfo}
    (h : tracker.connections.entries = [⟨c.id, c⟩]) : tracker.IdsIdentify := by
  have hlist : tracker.list = [c] := by rw [list, h, List.map_singleton]
  have hrest : (tracker.untrack c.id).list = [] := by
    rw [list_untrack, h, List.kerase_cons_eq (by rfl), List.map_nil]
  refine ⟨?_, ?_⟩
  · rw [hlist, List.map_singleton]
    exact List.nodup_singleton _
  · rw [hlist, List.forall_mem_singleton, hrest]

/-- **When a listed id is good.** Where every record has the id 0, the listed ids identify
connections exactly when no key but 0 is in use. -/
theorem idsIdentify_iff {tracker : ConnectionTracker} (hzero : tracker.AllZero) :
    tracker.IdsIdentify ↔ ∀ id ∈ tracker.connections, id = 0 := by
  constructor
  · intro h id hid
    have hlen := length_entries_le_one hzero h.distinct
    obtain ⟨⟨key, c⟩, hc, rfl⟩ := List.mem_map.mp (AList.mem_keys.mp hid)
    have hlist : c ∈ tracker.list := List.mem_map_of_mem hc
    have hkey : (0 : UInt64) ∈ tracker.connections := by
      have hremoves := h.removes c hlist
      rw [hzero c hlist] at hremoves
      exact mem_connections_of_removes hremoves
    obtain ⟨⟨key', c'⟩, hc', hkey'⟩ := List.mem_map.mp (AList.mem_keys.mp hkey)
    rcases hentries : tracker.connections.entries with - | ⟨e, - | ⟨e', rest⟩⟩
    · rw [hentries] at hc
      cases hc
    · rw [hentries, List.mem_singleton] at hc hc'
      rw [hc, ← hc', hkey']
    · rw [hentries, List.length_cons, List.length_cons] at hlen
      omega
  · intro h
    rcases entries_cases h with hnil | ⟨c, hone⟩
    · exact idsIdentify_of_entries_eq_nil hnil
    · have hmem : c ∈ tracker.list := by
        rw [list, hone]
        exact List.mem_singleton_self c
      rw [← hzero c hmem] at hone
      exact idsIdentify_of_entries_eq_singleton hone

/-! ### Steps -/

/-- Tracking a connection registers it under the counter, and leaves every other key as it was. -/
theorem mem_track {tracker : ConnectionTracker} {info : ConnectionInfo} {id : UInt64} :
    id ∈ (tracker.track info).2.connections ↔ id = tracker.counter ∨ id ∈ tracker.connections :=
  AList.mem_insert _

/-- Untracking takes out the connection under one key and keeps those under the others. -/
theorem mem_untrack {tracker : ConnectionTracker} {id id' : UInt64} :
    id' ∈ (tracker.untrack id).connections ↔ id' ≠ id ∧ id' ∈ tracker.connections :=
  AList.mem_erase

/-- After all connections are closed none is registered, under whatever identifier. -/
theorem notMem_closeAll (tracker : ConnectionTracker) (id : UInt64) :
    id ∉ tracker.closeAll.2.connections :=
  AList.notMem_empty id

/-- A new tracker has no connections, so all of those it lists have the identifier zero. -/
theorem allZero_new : new.AllZero :=
  List.forall_mem_nil _

/-- A connection that is tracked with the identifier zero keeps it, and so do those listed
before. -/
theorem AllZero.track {tracker : ConnectionTracker} (h : tracker.AllZero)
    {info : ConnectionInfo} (hinfo : info.id = 0) : (tracker.track info).2.AllZero := by
  have hentries : (tracker.track info).2.list =
      info :: (tracker.untrack tracker.counter).list := rfl
  rw [AllZero, hentries, List.forall_mem_cons]
  exact ⟨hinfo, fun c hc => h c (untrack_subset _ _ hc)⟩

/-- Untracking a connection changes none of the others, so their identifiers stay zero. -/
theorem AllZero.untrack {tracker : ConnectionTracker} (h : tracker.AllZero) (id : UInt64) :
    (tracker.untrack id).AllZero := by
  exact fun c hc => h c (untrack_subset _ _ hc)

/-- After all connections are closed none is listed, and so none has an identifier but zero. -/
theorem allZero_closeAll (tracker : ConnectionTracker) : tracker.closeAll.2.AllZero :=
  List.forall_mem_nil _

end ConnectionTracker

end Redog
