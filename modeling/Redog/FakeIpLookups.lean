import Mathlib.Data.Finset.Dedup
import Redog.FakeIpStable

/-!
# Concurrent FakeIP lookups

Any number of calls of `lookup` on one pool. Each takes four locks one after the other: it
reads `hostToIp`, and when the host is not there it moves the allocator, writes `ipToHost`
and writes `hostToIp`. Between two of these steps the other calls can run.

A call that misses decides to allocate long before it makes its address known. Another call
for the same host that reads `hostToIp` in the meantime misses too and gets another address.
Without such a race the calls agree, as long as the pool has room for the hosts.

## Main results

* `exec_alone`: a call that is not interrupted is `FakeIpPool::lookup`.
* `always_agree`: calls that do not race agree.
-/

namespace Redog

open Rust Lru Run

/-- Where a call of `lookup` is, between two locks. -/
inductive LookupCall
  /-- Before it reads `hostToIp`. -/
  | called (host : String)
  /-- The host was not there. -/
  | missed (host : String)
  /-- It has an address. -/
  | allocated (host : String) (ip : Ipv4Addr)
  /-- It has written `ipToHost`. -/
  | reversed (host : String) (ip : Ipv4Addr)
  /-- It has returned, after a hit or after writing `hostToIp`. -/
  | returned (host : String) (ip : Ipv4Addr)
deriving DecidableEq

namespace LookupCall

/-- The host the call is for, which stays the same from its first step to its last. -/
def host : LookupCall → String
  | .called host | .missed host => host
  | .allocated host _ | .reversed host _ | .returned host _ => host

/-- The call has missed `host` and has not made an address known. -/
def InFlight (host : String) : LookupCall → Prop
  | .called _ | .returned _ _ => False
  | .missed host' | .allocated host' _ | .reversed host' _ => host' = host

/-- The next step of a call: it takes one lock, does what it holds it for, and releases it. -/
def next (pool : FakeIpPool) : LookupCall → Checked (LookupCall × FakeIpPool)
  | .called host =>
      match pool.hostToIp.get host with
      | (some ip, hostToIp) => return (.returned host ip, { pool with hostToIp := hostToIp })
      | (none, hostToIp) => return (.missed host, { pool with hostToIp := hostToIp })
  | .missed host => do
      let (ip, pool) ← pool.allocate
      return (.allocated host ip, pool)
  | .allocated host ip =>
      return (.reversed host ip, { pool with ipToHost := pool.ipToHost.put ip host })
  | .reversed host ip =>
      return (.returned host ip, { pool with hostToIp := pool.hostToIp.put host ip })
  | .returned host ip => return (.returned host ip, pool)

end LookupCall

/-- A pool and the calls on it. -/
structure Lookups where
  pool : FakeIpPool
  calls : List LookupCall

namespace Lookups

/-- The calls for the hosts are made. -/
def start (pool : FakeIpPool) (hosts : List String) : Lookups where
  pool := pool
  calls := hosts.map .called

/-- The call with this number takes its next step. -/
def step (lookups : Lookups) (i : ℕ) : Checked Lookups :=
  match lookups.calls[i]? with
  | none => return lookups
  | some call => do
      let (call, pool) ← call.next lookups.pool
      return { pool := pool, calls := lookups.calls.set i call }

end Lookups

/-! ### What a step does -/

/-- A call whose host is in the cache returns after its first step. -/
theorem LookupCall.next_hit {pool : FakeIpPool} {host : String} {ip : Ipv4Addr}
    (h : pool.hostToIp.peek host = some ip) :
    (called host).next pool =
      .ok (.returned host ip, { pool with hostToIp := (pool.hostToIp.get host).2 }) := by
  have hget : pool.hostToIp.get host = (some ip, (pool.hostToIp.get host).2) := by
    rw [← h, ← Cache.fst_get]
  rw [next]
  split
  · next ip' cache heq =>
      obtain ⟨hip, rfl⟩ := Prod.mk.inj (heq.symm.trans hget)
      obtain rfl := Option.some.inj hip
      rfl
  · next heq => cases heq.symm.trans hget

/-- A call whose host is not in the cache goes on to allocate an address. -/
theorem LookupCall.next_miss {pool : FakeIpPool} {host : String}
    (h : pool.hostToIp.peek host = none) :
    (called host).next pool = .ok (.missed host, pool) := by
  have hget : pool.hostToIp.get host = (none, pool.hostToIp) := by
    rw [Cache.get, h]
  rw [next, hget]
  rfl

namespace Lookups

/-- A step of one of the calls changes the pool and this call, and no other call. -/
theorem step_eq_ok {lookups lookups' : Lookups} {i : ℕ} (h : lookups.step i = .ok lookups') :
    lookups' = lookups ∨ ∃ call call' pool', lookups.calls[i]? = some call ∧
      call.next lookups.pool = .ok (call', pool') ∧
      lookups' = { pool := pool', calls := lookups.calls.set i call' } := by
  rw [step] at h
  split at h
  · exact .inl (Except.ok.inj h).symm
  · next call hcall =>
      cases hnext : call.next lookups.pool with
      | error e =>
          rw [hnext] at h
          cases h
      | ok result =>
          obtain ⟨call', pool'⟩ := result
          rw [hnext] at h
          exact .inr ⟨call, call', pool', hcall, hnext, (Except.ok.inj h).symm⟩

/-- The step of a call at a known position. -/
theorem step_of_next {pool pool' : FakeIpPool} {calls : List LookupCall} {i : ℕ}
    {call call' : LookupCall} (hi : calls[i]? = some call)
    (hnext : call.next pool = .ok (call', pool')) :
    step { pool := pool, calls := calls } i =
      .ok { pool := pool', calls := calls.set i call' } := by
  rw [step]
  simp only [hi, hnext, bind, Except.bind, pure, Except.pure]

/-- The step of a call that has just been put to its position. -/
theorem step_set {pool pool' : FakeIpPool} {calls : List LookupCall} {i : ℕ}
    {call call' : LookupCall} (hi : i < calls.length)
    (hnext : call.next pool = .ok (call', pool')) :
    step { pool := pool, calls := calls.set i call } i =
      .ok { pool := pool', calls := calls.set i call' } := by
  rw [step_of_next (List.getElem?_set_self hi) hnext, List.set_set]

/-- The four steps of a call that is not interrupted are those of `FakeIpPool::lookup`. -/
theorem exec_alone {pool pool' : FakeIpPool} {calls : List LookupCall} {i : ℕ} {host : String}
    {ip : Ipv4Addr} (hi : calls[i]? = some (.called host))
    (hlookup : pool.lookup host = .ok (ip, pool')) :
    exec step { pool := pool, calls := calls } (List.replicate 4 i) =
      .ok { pool := pool', calls := calls.set i (.returned host ip) } := by
  have hlt : i < calls.length := (List.getElem?_eq_some_iff.mp hi).1
  cases hip : pool.hostToIp.peek host with
  | some ip' =>
      rw [FakeIpPool.lookup_hit hip] at hlookup
      obtain ⟨rfl, rfl⟩ := Prod.mk.inj (Except.ok.inj hlookup)
      -- a hit returns at once and the other steps change nothing
      refine exec_cons_eq_ok_iff.mpr ⟨_, step_of_next hi (LookupCall.next_hit hip), ?_⟩
      refine exec_cons_eq_ok_iff.mpr ⟨_, step_set hlt rfl, ?_⟩
      refine exec_cons_eq_ok_iff.mpr ⟨_, step_set hlt rfl, ?_⟩
      exact exec_cons_eq_ok_iff.mpr ⟨_, step_set hlt rfl, rfl⟩
  | none =>
      rw [FakeIpPool.lookup_miss hip] at hlookup
      cases halloc : pool.allocate with
      | error e =>
          rw [halloc] at hlookup
          cases hlookup
      | ok allocated =>
          obtain ⟨ip', allocated⟩ := allocated
          rw [halloc] at hlookup
          obtain ⟨rfl, rfl⟩ := Prod.mk.inj (Except.ok.inj hlookup)
          have hallocated : (LookupCall.missed host).next pool =
              .ok (.allocated host ip', allocated) := by
            rw [LookupCall.next, halloc]
            rfl
          refine exec_cons_eq_ok_iff.mpr ⟨_, step_of_next hi (LookupCall.next_miss hip), ?_⟩
          refine exec_cons_eq_ok_iff.mpr ⟨_, step_set hlt hallocated, ?_⟩
          refine exec_cons_eq_ok_iff.mpr ⟨_, step_set hlt rfl, ?_⟩
          exact exec_cons_eq_ok_iff.mpr ⟨_, step_set hlt rfl, rfl⟩

/-! ### Agreement -/

/-- Calls for the same host that have returned have returned the same address. -/
def Agree (lookups : Lookups) : Prop :=
  ∀ host ip ip', .returned host ip ∈ lookups.calls → .returned host ip' ∈ lookups.calls →
    ip = ip'

/-- The step starts no race: a call that misses does so while no other call for the same host
is on its way to allocate an address. -/
def NoRace (lookups : Lookups) (i : ℕ) : Prop :=
  ∀ host, lookups.calls[i]? = some (.called host) →
    lookups.pool.hostToIp.peek host = none →
      ∀ call ∈ lookups.calls, ¬ call.InFlight host

/-- The pool remembers the hosts of the calls that have returned, and for every host it does
not remember at most one call is on its way to allocate an address. -/
structure Consistent (hosts : Finset String) (lookups : Lookups) : Prop where
  room : hosts.card ≤ lookups.pool.hostToIp.cap
  known : ∀ call ∈ lookups.calls, call.host ∈ hosts
  recent : ∀ host ip, .returned host ip ∈ lookups.calls →
    lookups.pool.hostToIp.Recent host ip (hosts.erase host)
  missing : ∀ (i : ℕ) (call : LookupCall) (host : String), lookups.calls[i]? = some call →
    call.InFlight host → lookups.pool.hostToIp.peek host = none
  alone : ∀ (i : ℕ) (call : LookupCall) (j : ℕ) (call' : LookupCall) (host : String),
    lookups.calls[i]? = some call → call.InFlight host →
      lookups.calls[j]? = some call' → call'.InFlight host → i = j

/-- When all calls are in a consistent state, the two caches agree on the hosts. -/
theorem Consistent.agree {hosts : Finset String} {lookups : Lookups}
    (h : lookups.Consistent hosts) : lookups.Agree := by
  intro host ip ip' hip hip'
  have hpeek := (h.recent host ip hip).peek_eq
  exact Option.some.inj (hpeek.symm.trans (h.recent host ip' hip').peek_eq)

/-- A call moves on. It must be remembered if it has returned, and be the only one for its
host if it goes on to allocate; the other calls must find their hosts as before. -/
theorem Consistent.set {hosts : Finset String} {lookups : Lookups}
    (h : lookups.Consistent hosts) {i : ℕ} {call call' : LookupCall} {pool' : FakeIpPool}
    (hi : lookups.calls[i]? = some call) (hhost : call'.host = call.host)
    (hcap : pool'.hostToIp.cap = lookups.pool.hostToIp.cap)
    (hnew : ∀ host ip, call' = .returned host ip →
      pool'.hostToIp.Recent host ip (hosts.erase host))
    (hrecent : ∀ host ip, .returned host ip ∈ lookups.calls →
      pool'.hostToIp.Recent host ip (hosts.erase host))
    (hflight : ∀ host, call'.InFlight host → pool'.hostToIp.peek host = none ∧
      ∀ (j : ℕ) (other : LookupCall), j ≠ i → lookups.calls[j]? = some other →
        ¬ other.InFlight host)
    (hmissing : ∀ (j : ℕ) (other : LookupCall) (host : String), j ≠ i →
      lookups.calls[j]? = some other → other.InFlight host → pool'.hostToIp.peek host = none) :
    Consistent hosts { pool := pool', calls := lookups.calls.set i call' } := by
  have hlt : i < lookups.calls.length := (List.getElem?_eq_some_iff.mp hi).1
  have hself : (lookups.calls.set i call')[i]? = some call' := by
    rw [List.getElem?_set_self hlt]
  have hother : ∀ {j : ℕ}, j ≠ i → (lookups.calls.set i call')[j]? = lookups.calls[j]? :=
    fun hne => List.getElem?_set_ne hne.symm
  refine ⟨hcap ▸ h.room, fun other hmem => ?_, fun host ip hmem => ?_, ?_, ?_⟩
  · rcases List.mem_or_eq_of_mem_set hmem with hmem | rfl
    · exact h.known other hmem
    · rw [hhost]
      exact h.known call (List.mem_of_getElem? hi)
  · rcases List.mem_or_eq_of_mem_set hmem with hmem | heq
    · exact hrecent host ip hmem
    · exact hnew host ip heq.symm
  · intro j other host hj hin
    by_cases hji : j = i
    · subst hji
      obtain rfl := Option.some.inj (hself.symm.trans hj)
      exact (hflight host hin).1
    · exact hmissing j other host hji ((hother hji).symm.trans hj) hin
  · intro j other k other' host hj hin hk hin'
    by_cases hji : j = i
    · by_cases hki : k = i
      · rw [hji, hki]
      · subst hji
        obtain rfl := Option.some.inj (hself.symm.trans hj)
        exact absurd hin' ((hflight host hin).2 k other' hki ((hother hki).symm.trans hk))
    · by_cases hki : k = i
      · subst hki
        obtain rfl := Option.some.inj (hself.symm.trans hk)
        exact absurd hin ((hflight host hin').2 j other hji ((hother hji).symm.trans hj))
      · exact h.alone j other k other' host ((hother hji).symm.trans hj) hin
          ((hother hki).symm.trans hk) hin'

/-- A step that starts no race keeps the calls consistent. -/
theorem Consistent.step {hosts : Finset String} {lookups lookups' : Lookups} {i : ℕ}
    (h : lookups.Consistent hosts) (hrace : lookups.NoRace i)
    (hstep : lookups.step i = .ok lookups') : lookups'.Consistent hosts := by
  obtain rfl | ⟨call, call', pool', hi, hnext, rfl⟩ := step_eq_ok hstep
  · exact h
  have hmem := List.mem_of_getElem? hi
  have hroom : ∀ host ip, .returned host ip ∈ lookups.calls →
      (hosts.erase host).card < lookups.pool.hostToIp.cap := fun host ip hreturned =>
    (Finset.card_erase_lt_of_mem (h.known _ hreturned)).trans_le h.room
  have hmissing : ∀ (j : ℕ) (other : LookupCall) (host : String), j ≠ i →
      lookups.calls[j]? = some other → other.InFlight host →
        lookups.pool.hostToIp.peek host = none :=
    fun j other host _ hj hin => h.missing j other host hj hin
  cases call with
  | called host =>
      cases hip : lookups.pool.hostToIp.peek host with
      | some ip =>
          rw [LookupCall.next_hit hip] at hnext
          obtain ⟨rfl, rfl⟩ := Prod.mk.inj (Except.ok.inj hnext)
          refine h.set hi rfl (Cache.cap_get _ _) ?_ ?_ nofun ?_
          · rintro _ _ ⟨⟩
            exact Cache.recent_get_self hip _
          · intro other ip' hother
            by_cases hsame : other = host
            · subst hsame
              obtain rfl := Option.some.inj (hip.symm.trans (h.recent other ip' hother).peek_eq)
              exact Cache.recent_get_self hip _
            · exact (h.recent other ip' hother).get (Ne.symm hsame)
                (Finset.mem_erase.mpr ⟨Ne.symm hsame, h.known _ hmem⟩) (hroom other ip' hother)
          · intro j other host' hji hj hin
            rw [Cache.peek_get]
            exact hmissing j other host' hji hj hin
      | none =>
          rw [LookupCall.next_miss hip] at hnext
          obtain ⟨rfl, rfl⟩ := Prod.mk.inj (Except.ok.inj hnext)
          refine h.set hi rfl rfl nofun h.recent ?_ hmissing
          rintro _ rfl
          exact ⟨hip, fun j other _ hj => hrace host hi hip other (List.mem_of_getElem? hj)⟩
  | missed host =>
      cases halloc : lookups.pool.allocate with
      | error e =>
          rw [LookupCall.next, halloc] at hnext
          cases hnext
      | ok result =>
          obtain ⟨ip, allocated⟩ := result
          obtain ⟨offset, rfl⟩ := FakeIpPool.allocate_eq_ok halloc
          rw [LookupCall.next, halloc] at hnext
          obtain ⟨rfl, rfl⟩ := Prod.mk.inj (Except.ok.inj hnext)
          refine h.set hi rfl rfl nofun h.recent ?_ hmissing
          rintro _ rfl
          exact ⟨h.missing i _ host hi rfl, fun j other hji hj hin =>
            hji (h.alone j other i _ host hj hin hi rfl)⟩
  | allocated host ip =>
      obtain ⟨rfl, rfl⟩ := Prod.mk.inj (Except.ok.inj hnext)
      refine h.set hi rfl rfl nofun h.recent ?_ hmissing
      rintro _ rfl
      exact ⟨h.missing i _ host hi rfl, fun j other hji hj hin =>
        hji (h.alone j other i _ host hj hin hi rfl)⟩
  | reversed host ip =>
      obtain ⟨rfl, rfl⟩ := Prod.mk.inj (Except.ok.inj hnext)
      have hmiss := h.missing i _ host hi rfl
      refine h.set hi rfl (Cache.cap_put _ _ _) ?_ ?_ nofun ?_
      · rintro _ _ ⟨⟩
        exact Cache.recent_put_self _ host ip _
      · intro other ip' hother
        have hrecent := h.recent other ip' hother
        have hne : host ≠ other := by
          rintro rfl
          rw [hrecent.peek_eq] at hmiss
          cases hmiss
        exact hrecent.put hne (Finset.mem_erase.mpr ⟨hne, h.known _ hmem⟩)
          (hroom other ip' hother)
      · intro j other host' hji hj hin
        have hne : host' ≠ host := by
          rintro rfl
          exact hji (h.alone j other i _ host' hj hin hi rfl)
        rw [Cache.peek_put, if_neg hne, hmissing j other host' hji hj hin, ite_self]
  | returned host ip =>
      obtain ⟨rfl, rfl⟩ := Prod.mk.inj (Except.ok.inj hnext)
      refine h.set hi rfl rfl ?_ h.recent nofun hmissing
      rintro _ _ ⟨⟩
      exact h.recent host ip hmem

/-- Before the first step no call has missed or returned. -/
theorem consistent_start {pool : FakeIpPool} {hosts : List String}
    (hroom : hosts.toFinset.card ≤ pool.hostToIp.cap) :
    (start pool hosts).Consistent hosts.toFinset := by
  have hcalled : ∀ call ∈ (start pool hosts).calls, ∃ host ∈ hosts, call = .called host := by
    intro call hcall
    obtain ⟨host, hhost, rfl⟩ := List.mem_map.mp hcall
    exact ⟨host, hhost, rfl⟩
  refine ⟨hroom, fun call hcall => ?_, fun host ip hcall => ?_, ?_, ?_⟩
  · obtain ⟨host, hhost, rfl⟩ := hcalled call hcall
    exact List.mem_toFinset.mpr hhost
  · obtain ⟨_, _, heq⟩ := hcalled _ hcall
    cases heq
  · intro i call host hi hin
    obtain ⟨_, _, rfl⟩ := hcalled call (List.mem_of_getElem? hi)
    exact hin.elim
  · intro i call j call' host hi hin
    obtain ⟨_, _, rfl⟩ := hcalled call (List.mem_of_getElem? hi)
    exact hin.elim

/-- **Calls that do not race agree.** Whatever the order of their steps, calls for the same
host return the same address, in a pool with room for the hosts, if no call misses while
another one for its host is on its way to allocate. -/
theorem always_agree {pool : FakeIpPool} {hosts : List String}
    (hroom : hosts.toFinset.card ≤ pool.hostToIp.cap) {order : List ℕ}
    (hrace : EachStep step NoRace (start pool hosts) order) :
    Always step Agree (start pool hosts) order := by
  have hstep : ∀ (s : Lookups) (i : ℕ) (s' : Lookups), s.Consistent hosts.toFinset →
      s.NoRace i → s.step i = .ok s' → s'.Consistent hosts.toFinset :=
    fun _ _ _ h hrace hstep => h.step hrace hstep
  have hagree : ∀ s : Lookups, s.Consistent hosts.toFinset → s.Agree := fun _ h => h.agree
  exact always_of_eachStep hstep hagree (consistent_start hroom) hrace

/-- A step that does not start a lookup cannot start a race. -/
theorem noRace_of_ne {lookups : Lookups} {i : ℕ}
    (h : ∀ host, lookups.calls[i]? ≠ some (.called host)) : lookups.NoRace i :=
  fun host hi => absurd hi (h host)

/-- Two calls for one host, the second after the first has returned. -/
theorem always_agree_smallPool :
    Always step Agree (start FakeIpPool.smallPool ["a.example", "a.example"])
      [0, 0, 0, 0, 1] := by
  refine always_agree (by decide) ⟨?_, fun s₁ h₁ => ?_⟩
  · rintro host - - call hcall
    obtain rfl | rfl := List.mem_pair.mp hcall <;> exact id
  obtain rfl := Except.ok.inj h₁
  refine ⟨noRace_of_ne nofun, fun s₂ h₂ => ?_⟩
  obtain rfl := Except.ok.inj h₂
  refine ⟨noRace_of_ne nofun, fun s₃ h₃ => ?_⟩
  obtain rfl := Except.ok.inj h₃
  refine ⟨noRace_of_ne nofun, fun s₄ h₄ => ?_⟩
  obtain rfl := Except.ok.inj h₄
  refine ⟨?_, fun _ _ => trivial⟩
  rintro host - - call hcall
  obtain rfl | rfl := List.mem_pair.mp hcall <;> exact id

/-- The pool of `FakeIpPool::new("10.0.0.0/29", 8)`: six addresses for up to eight hosts. -/
def sixPool : FakeIpPool where
  ipToHost := newLruCache 8
  hostToIp := newLruCache 8
  network := 0x0A000000
  mask := 0xFFFFFFF8
  poolSize := 8
  offset := 1

/-- Two calls for one host miss one after the other. Each allocates its own address. -/
theorem not_always_agree :
    FakeIpPool.new "10.0.0.0/29" 8 = .ok (.ok sixPool) ∧ sixPool.usable = 6 ∧
      ¬ Always step Agree (start sixPool ["a.example", "a.example"])
        [0, 1, 0, 1, 0, 0, 1, 1] := by
  have hcidr : FakeIpPool.parseCidr "10.0.0.0/29" = .ok (.ofU32 0x0A000000, 29) := by
    decide +kernel
  have hnew : FakeIpPool.new "10.0.0.0/29" 8 = .ok (.ok sixPool) := by
    rw [FakeIpPool.new, hcidr]
    rfl
  refine ⟨hnew, rfl, fun h => ?_⟩
  obtain ⟨last, hexec, hcalls⟩ : ∃ last, exec step (start sixPool ["a.example", "a.example"])
      [0, 1, 0, 1, 0, 0, 1, 1] = .ok last ∧
        last.calls = [.returned "a.example" (.ofU32 0x0A000002),
          .returned "a.example" (.ofU32 0x0A000003)] := ⟨_, rfl, rfl⟩
  have hagree := always_iff_exec.mp h _ List.prefix_rfl last hexec "a.example"
    (.ofU32 0x0A000002) (.ofU32 0x0A000003)
  rw [hcalls] at hagree
  exact absurd (hagree (by simp) (by simp)) (by decide)

end Lookups

end Redog
