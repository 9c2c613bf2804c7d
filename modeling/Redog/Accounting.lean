import Mathlib.Algebra.Ring.Nat
import Redog.Relays

/-!
# Accounting for relayed bytes

`handle_tcp` adds the bytes of a relay to the counters once the relay has ended. It takes
their numbers from the result of `copy_bidirectional`, which has them only when both
directions came to an end. After an I/O error there are none, and the bytes copied before it
are added nowhere.

`Ledger` keeps, next to the tunnel and its runs, the relays that have ended: what each of
them copied, whether it told or not.

## Main results

* `counts_foldl`: the counters after a run.
* `accounted_iff`: when the counters have grown by the bytes copied.
-/

namespace Redog

/-! ### Relays that have ended -/

/-- A relay: the bytes it copied from the client and to it, and whether it ended without an
error. -/
structure Relay where
  tx : UInt64
  rx : UInt64
  ok : Bool
deriving DecidableEq

/-- What `copy_bidirectional` returns: the bytes copied, or an error. -/
def Relay.result (relay : Relay) : Option (UInt64 × UInt64) :=
  if relay.ok then some (relay.tx, relay.rx) else none

/-- The bytes the relays copied in one direction. -/
def totalBytes (bytes : Relay → UInt64) (relays : List Relay) : ℕ :=
  (relays.map fun relay => (bytes relay).toNat).sum

section Totals

variable (bytes : Relay → UInt64)

/-- The total of a list of relays is what the first of them copied and the total of the others. -/
theorem totalBytes_cons (relay : Relay) (relays : List Relay) :
    totalBytes bytes (relay :: relays) = (bytes relay).toNat + totalBytes bytes relays :=
  List.sum_cons

/-- The relays that told their bytes and those that did not copied all bytes. -/
theorem totalBytes_filter (relays : List Relay) :
    totalBytes bytes (relays.filter (·.ok)) + totalBytes bytes (relays.filter (!·.ok)) =
      totalBytes bytes relays := by
  induction relays with
  | nil => rfl
  | cons relay relays ih =>
      rw [List.filter_cons, List.filter_cons, totalBytes_cons]
      cases relay.ok with
      | true =>
          have htold : (!true) ≠ true := by decide
          rw [if_pos rfl, if_neg htold, totalBytes_cons]
          omega
      | false =>
          have htold : (!false) = true := by decide
          rw [if_neg Bool.false_ne_true, if_pos htold, totalBytes_cons]
          omega

/-- The relays that told their bytes copied all of them when the others copied nothing. -/
theorem totalBytes_filter_ok_iff (relays : List Relay) :
    totalBytes bytes (relays.filter (·.ok)) = totalBytes bytes relays ↔
      ∀ relay ∈ relays, relay.ok = false → bytes relay = 0 := by
  rw [← totalBytes_filter bytes relays, left_eq_add, totalBytes,
    List.sum_eq_zero_iff_forall_eq_nat]
  simp only [List.forall_mem_map, List.mem_filter, Bool.not_eq_true', and_imp]
  refine forall₂_congr fun relay _ => imp_congr_right fun _ => ?_
  exact UInt64.toNat_inj (b := 0)

/-- A counter that does not overflow counts the bytes of the relays that told them. -/
theorem toNat_foldl_addCopied {count : TrafficCounter → UInt64}
    (hcount : ∀ (traffic : TrafficCounter) (relay : Relay), relay.ok →
      count (traffic.addCopied relay.result) = count traffic + bytes relay)
    (relays : List Relay) (traffic : TrafficCounter)
    (hfits : (count traffic).toNat + totalBytes bytes relays < 2 ^ 64) :
    (count ((relays.map Relay.result).foldl TrafficCounter.addCopied traffic)).toNat =
      (count traffic).toNat + totalBytes bytes (relays.filter (·.ok)) := by
  induction relays generalizing traffic with
  | nil => rfl
  | cons relay relays ih =>
      rw [totalBytes_cons] at hfits
      rw [List.map_cons, List.foldl_cons, List.filter_cons]
      cases hok : relay.ok with
      | true =>
          have hadd : (count (traffic.addCopied relay.result)).toNat =
              (count traffic).toNat + (bytes relay).toNat := by
            rw [hcount traffic relay hok, toNat_add_of_lt (by omega)]
          rw [if_pos rfl, totalBytes_cons, ih _ (by omega), hadd]
          omega
      | false =>
          have hresult : relay.result = none := by
            rw [Relay.result, hok]
            rfl
          rw [if_neg Bool.false_ne_true, hresult]
          exact ih traffic (by omega)

end Totals

/-! ### The ledger -/

variable [Crates] {A : Type} [ProxyAdapter A]

/-- A tunnel and its runs, with the relays that have ended. -/
structure Ledger (A : Type) where
  relays : Relays A
  ended : List Relay

/-- What happens next: what happens to `Relays`, where a relay ends after copying bytes. -/
inductive LedgerEvent
  | accept (metadata : Metadata)
  | connectEnd (run : ℕ) (ok : Bool)
  | track (run : ℕ) (start : String)
  | relayEnd (run : ℕ) (relay : Relay)
  | closeAll
deriving DecidableEq

/-- The event as the tunnel sees it. -/
def LedgerEvent.event : LedgerEvent → RelayEvent
  | .accept metadata => .accept metadata
  | .connectEnd run ok => .connectEnd run ok
  | .track run start => .track run start
  | .relayEnd run relay => .relayEnd run relay.result
  | .closeAll => .closeAll

/-- The relay that ends, if one does. -/
def LedgerEvent.ends (relays : Relays A) : LedgerEvent → Option Relay
  | .relayEnd run relay =>
      match relays.runs[run]? with
      | some (.relaying _) => some relay
      | _ => none
  | _ => none

namespace Ledger

/-- A tunnel before any of its runs, with nothing entered under the runs that have ended. -/
def start (tunnel : TrackedTunnel A) : Ledger A where
  relays := ⟨tunnel, []⟩
  ended := []

/-- One step of the relays. Where it ends a run, what that run had carried is entered behind the
runs that ended before it. -/
def next (ledger : Ledger A) (event : LedgerEvent) : Ledger A where
  relays := ledger.relays.next event.event
  ended := ledger.ended ++ (event.ends ledger.relays).toList

/-- The counters have grown by the bytes that the ended relays copied. -/
def Accounted (tunnel : TrackedTunnel A) (ledger : Ledger A) : Prop :=
  ledger.relays.tunnel.traffic.uploadTotal.toNat =
      tunnel.traffic.uploadTotal.toNat + totalBytes Relay.tx ledger.ended ∧
    ledger.relays.tunnel.traffic.downloadTotal.toNat =
      tunnel.traffic.downloadTotal.toNat + totalBytes Relay.rx ledger.ended

/-- The totals with these bytes stay below 2^64. -/
def Fits (tunnel : TrackedTunnel A) (ledger : Ledger A) : Prop :=
  tunnel.traffic.uploadTotal.toNat + totalBytes Relay.tx ledger.ended < 2 ^ 64 ∧
    tunnel.traffic.downloadTotal.toNat + totalBytes Relay.rx ledger.ended < 2 ^ 64

/-- A relay that ends is all that changes the counters. -/
theorem traffic_next (ledger : Ledger A) (event : LedgerEvent) :
    (ledger.next event).relays.tunnel.traffic =
      ((event.ends ledger.relays).toList.map Relay.result).foldl TrafficCounter.addCopied
        ledger.relays.tunnel.traffic := by
  have hnext : (ledger.next event).relays = ledger.relays.next event.event := rfl
  rw [hnext]
  cases event with
  | accept metadata => rfl
  | connectEnd run ok =>
      rw [LedgerEvent.event, (ledger.relays.next_connectEnd_cases run ok).1]
      rfl
  | track run start =>
      rw [LedgerEvent.event, Relays.next]
      split <;> rfl
  | relayEnd run relay =>
      rw [LedgerEvent.event, Relays.next, LedgerEvent.ends]
      cases ledger.relays.runs[run]? with
      | none => rfl
      | some t => cases t <;> rfl
  | closeAll => rfl

/-- The counters of the ledger are the first ones with what the ended relays told. -/
def Counts (tunnel : TrackedTunnel A) (ledger : Ledger A) : Prop :=
  ledger.relays.tunnel.traffic =
    (ledger.ended.map Relay.result).foldl TrafficCounter.addCopied tunnel.traffic

/-- One step keeps the account: bytes come in only at the end of a run that relays, and there the
run is entered with the same bytes. -/
theorem Counts.next {tunnel : TrackedTunnel A} {ledger : Ledger A} (h : ledger.Counts tunnel)
    (event : LedgerEvent) : (ledger.next event).Counts tunnel := by
  have hended : (ledger.next event).ended =
      ledger.ended ++ (event.ends ledger.relays).toList := rfl
  rw [Counts, traffic_next, hended, List.map_append, List.foldl_append, h]

/-- After any run the counters of the tunnel are those at its start and what the relays that have
ended copied since, modulo 2^64. -/
theorem counts_foldl (tunnel : TrackedTunnel A) (events : List LedgerEvent) :
    (events.foldl Ledger.next (start tunnel)).Counts tunnel := by
  have hstart : (start tunnel).Counts tunnel := rfl
  generalize start tunnel = ledger at hstart
  induction events generalizing ledger with
  | nil => exact hstart
  | cons event events ih => exact ih _ (hstart.next event)

/-- **When all relayed bytes are accounted for.** Whatever runs there are and in whatever order
they end, the counters have grown by the bytes that the ended relays copied exactly when the
relays that ended with an error copied nothing. Once all runs have ended these are all
relays there were. -/
theorem accounted_iff (tunnel : TrackedTunnel A) (events : List LedgerEvent)
    (hfits : (events.foldl next (start tunnel)).Fits tunnel) :
    (events.foldl next (start tunnel)).Accounted tunnel ↔
      ∀ relay ∈ (events.foldl next (start tunnel)).ended,
        relay.ok = false → relay.tx = 0 ∧ relay.rx = 0 := by
  have hcounts := counts_foldl tunnel events
  generalize events.foldl next (start tunnel) = ledger at hfits hcounts ⊢
  have htx : ∀ (traffic : TrafficCounter) (relay : Relay), relay.ok →
      (traffic.addCopied relay.result).uploadTotal = traffic.uploadTotal + relay.tx := by
    intro traffic relay hok
    rw [Relay.result, if_pos hok]
    rfl
  have hrx : ∀ (traffic : TrafficCounter) (relay : Relay), relay.ok →
      (traffic.addCopied relay.result).downloadTotal = traffic.downloadTotal + relay.rx := by
    intro traffic relay hok
    rw [Relay.result, if_pos hok]
    rfl
  rw [Accounted, hcounts, toNat_foldl_addCopied Relay.tx htx _ _ hfits.1,
    toNat_foldl_addCopied Relay.rx hrx _ _ hfits.2, Nat.add_left_cancel_iff,
    Nat.add_left_cancel_iff, totalBytes_filter_ok_iff, totalBytes_filter_ok_iff]
  constructor
  · rintro ⟨hup, hdown⟩ relay hrelay hok
    exact ⟨hup relay hrelay hok, hdown relay hrelay hok⟩
  · intro h
    exact ⟨fun relay hrelay hok => (h relay hrelay hok).1,
      fun relay hrelay hok => (h relay hrelay hok).2⟩

/-- A connection is accepted, connected, tracked and relayed. -/
def oneRelay (relay : Relay) : List LedgerEvent :=
  [.accept googleMetadata, .connectEnd 0 true, .track 0 "2024-01-01T00:00:00Z",
    .relayEnd 0 relay]

end Ledger

omit [Crates] in
/-- A relay that ends without an error. -/
theorem accounted_sample :
    letI := ipv4Crates
    ((Ledger.oneRelay ⟨10, 20, true⟩).foldl Ledger.next
        (.start (.new (.new mainProxies [])))).Accounted (.new (.new mainProxies [])) ↔
      ∀ relay ∈ ((Ledger.oneRelay ⟨10, 20, true⟩).foldl Ledger.next
          (.start (.new (.new mainProxies [])))).ended,
        relay.ok = false → relay.tx = 0 ∧ relay.rx = 0 := by
  let _ := ipv4Crates
  exact Ledger.accounted_iff _ _ ⟨by decide, by decide⟩

omit [Crates] in
/-- A relay that fails after ten bytes: the run has ended, and the bytes are missing. -/
theorem not_accounted :
    letI := ipv4Crates
    let ledger := (Ledger.oneRelay ⟨10, 20, false⟩).foldl Ledger.next
      (.start (.new (.new mainProxies [])))
    ledger.relays.runs = [.finished] ∧ ledger.Fits (.new (.new mainProxies [])) ∧
      ¬ ledger.Accounted (.new (.new mainProxies [])) := by
  let _ := ipv4Crates
  refine ⟨rfl, ⟨by decide, by decide⟩, ?_⟩
  rintro ⟨hup, -⟩
  exact absurd hup (by decide)

end Redog
