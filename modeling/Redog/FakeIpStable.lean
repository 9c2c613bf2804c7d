import Mathlib.Data.Finset.Dedup
import Redog.FakeIp

/-!
# Stable FakeIP answers

A host keeps its address for as long as `hostToIp` remembers it, and that is decided by the
order in which the hosts are looked up alone: reverse lookups use the other cache, and the
allocator is asked only when a host is not remembered. So the address stays the same while
fewer other hosts are looked up than the cache has room for.

## Main results

* `lookup_stable`: the next lookup of a host returns the same address.
-/

namespace Redog

open Rust Lru

namespace FakeIpPool

/-! ### What a lookup leaves behind -/

/-- An allocation moves the offset and nothing else. -/
theorem allocate_eq_ok {pool pool' : FakeIpPool} {ip : Ipv4Addr}
    (h : pool.allocate = .ok (ip, pool')) : ∃ offset, pool' = { pool with offset := offset } := by
  rw [allocate] at h
  cases hbase : u32Add pool.network (pool.offset % pool.usable) with
  | error e =>
      rw [hbase] at h
      cases h
  | ok base =>
      rw [hbase] at h
      cases hnum : u32Add base 1 with
      | error e =>
          simp only [bind, Except.bind, hnum] at h
          cases h
      | ok num =>
          cases hnext : u32Add pool.offset 1 with
          | error e =>
              simp only [bind, Except.bind, hnum, hnext] at h
              cases h
          | ok next =>
              simp only [bind, Except.bind, hnum, hnext] at h
              obtain ⟨-, rfl⟩ := Prod.mk.inj (Except.ok.inj h)
              exact ⟨_, rfl⟩

/-- A lookup reads the address of the host, or it writes one. -/
theorem lookup_eq_ok {pool pool' : FakeIpPool} {host : String} {ip : Ipv4Addr}
    (h : pool.lookup host = .ok (ip, pool')) :
    (pool.hostToIp.peek host = some ip ∧ pool'.hostToIp = (pool.hostToIp.get host).2) ∨
      (pool.hostToIp.peek host = none ∧ pool'.hostToIp = pool.hostToIp.put host ip) := by
  cases hip : pool.hostToIp.peek host with
  | some ip' =>
      rw [lookup_hit hip] at h
      obtain ⟨rfl, rfl⟩ := Prod.mk.inj (Except.ok.inj h)
      exact .inl ⟨rfl, rfl⟩
  | none =>
      rw [lookup_miss hip] at h
      cases halloc : pool.allocate with
      | error e =>
          rw [halloc] at h
          cases h
      | ok allocated =>
          obtain ⟨ip', allocated⟩ := allocated
          obtain ⟨offset, rfl⟩ := allocate_eq_ok halloc
          rw [halloc] at h
          obtain ⟨rfl, rfl⟩ := Prod.mk.inj (Except.ok.inj h)
          exact .inr ⟨rfl, rfl⟩

/-- A lookup does not change how many hosts the cache can hold. -/
theorem cap_of_lookup {pool pool' : FakeIpPool} {host : String} {ip : Ipv4Addr}
    (h : pool.lookup host = .ok (ip, pool')) : pool'.hostToIp.cap = pool.hostToIp.cap := by
  rcases lookup_eq_ok h with ⟨-, heq⟩ | ⟨-, heq⟩
  · rw [heq, Cache.cap_get]
  · rw [heq, Cache.cap_put]

/-- The host just looked up is the most recent one. -/
theorem recent_of_lookup {pool pool' : FakeIpPool} {host : String} {ip : Ipv4Addr}
    (h : pool.lookup host = .ok (ip, pool')) (used : Finset String) :
    pool'.hostToIp.Recent host ip used := by
  rcases lookup_eq_ok h with ⟨hip, heq⟩ | ⟨-, heq⟩
  · rw [heq]
    exact Cache.recent_get_self hip used
  · rw [heq]
    exact Cache.recent_put_self _ host ip used

/-! ### Runs -/

/-- The hosts passed to `lookup`, in order. -/
def lookedUp (calls : List Call) : List String :=
  calls.filterMap fun
    | .lookup host => some host
    | .reverseLookup _ => none

/-- A call that succeeds leaves `hostToIp` as it is, or it is a lookup. -/
theorem step_eq_ok {pool pool' : FakeIpPool} {call : Call} (h : pool.step call = .ok pool') :
    pool'.hostToIp = pool.hostToIp ∨
      ∃ host ip, call = .lookup host ∧ pool.lookup host = .ok (ip, pool') := by
  cases call with
  | reverseLookup ip =>
      obtain rfl := Except.ok.inj h
      exact .inl rfl
  | lookup host =>
      cases hlookup : pool.lookup host with
      | error e =>
          rw [step, hlookup] at h
          cases h
      | ok answer =>
          obtain ⟨ip, pool''⟩ := answer
          rw [step, hlookup] at h
          obtain rfl : pool'' = pool' := Except.ok.inj h
          exact .inr ⟨host, ip, rfl, hlookup⟩

/-- No call changes how many hosts the cache can hold. -/
theorem cap_of_step {pool pool' : FakeIpPool} {call : Call} (h : pool.step call = .ok pool') :
    pool'.hostToIp.cap = pool.hostToIp.cap := by
  rcases step_eq_ok h with heq | ⟨host, ip, -, hlookup⟩
  · rw [heq]
  · exact cap_of_lookup hlookup

/-- A call keeps the address of a host while fewer other hosts are in use than the cache has
room for. -/
theorem recent_step {pool pool' : FakeIpPool} {host : String} {ip : Ipv4Addr} {call : Call}
    {used : Finset String} (h : pool.hostToIp.Recent host ip used)
    (hcap : used.card < pool.hostToIp.cap) (hstep : pool.step call = .ok pool')
    (hused : ∀ other, call = .lookup other → other ≠ host → other ∈ used) :
    pool'.hostToIp.Recent host ip used := by
  rcases step_eq_ok hstep with heq | ⟨other, ip', hcall, hlookup⟩
  · rwa [heq]
  by_cases hsame : other = host
  · subst hsame
    rcases lookup_eq_ok hlookup with ⟨hip, -⟩ | ⟨hmiss, -⟩
    · obtain rfl := Option.some.inj (hip.symm.trans h.peek_eq)
      exact recent_of_lookup hlookup used
    · rw [h.peek_eq] at hmiss
      cases hmiss
  · have hother := hused other hcall hsame
    rcases lookup_eq_ok hlookup with ⟨-, heq⟩ | ⟨-, heq⟩
    · rw [heq]
      exact h.get hsame hother hcap
    · rw [heq]
      exact h.put hsame hother hcap

/-- A run keeps the address of a host while fewer other hosts are looked up than the cache has
room for. -/
theorem recent_exec {pool pool' : FakeIpPool} {host : String} {ip : Ipv4Addr}
    {calls : List Call} {used : Finset String} (h : pool.hostToIp.Recent host ip used)
    (hcap : used.card < pool.hostToIp.cap) (hexec : Run.exec step pool calls = .ok pool')
    (hused : ∀ other ∈ lookedUp calls, other ≠ host → other ∈ used) :
    pool'.hostToIp.Recent host ip used := by
  have hstep : ∀ call ∈ calls, ∀ t t' : FakeIpPool,
      t.hostToIp.Recent host ip used ∧ used.card < t.hostToIp.cap → t.step call = .ok t' →
        t'.hostToIp.Recent host ip used ∧ used.card < t'.hostToIp.cap := by
    rintro call hcall t t' ⟨hrecent, hroom⟩ ht
    refine ⟨recent_step hrecent hroom ht fun other heq => ?_, by rwa [cap_of_step ht]⟩
    exact hused other (List.mem_filterMap.mpr ⟨call, hcall, by rw [heq]⟩)
  exact (Run.exec_keeps hstep ⟨h, hcap⟩ hexec).1

/-- No run changes how many hosts the cache can hold. -/
theorem cap_of_exec {pool pool' : FakeIpPool} {calls : List Call}
    (hexec : Run.exec step pool calls = .ok pool') :
    pool'.hostToIp.cap = pool.hostToIp.cap := by
  have hstep : ∀ call ∈ calls, ∀ t t' : FakeIpPool, t.hostToIp.cap = pool.hostToIp.cap →
      t.step call = .ok t' → t'.hostToIp.cap = pool.hostToIp.cap :=
    fun _ _ _ _ hcap ht => (cap_of_step ht).trans hcap
  exact Run.exec_keeps hstep rfl hexec

/-- The number of hosts a pool remembers: a zero capacity is replaced by 64. -/
theorem cap_of_new {cidr : String} {capacity : ℕ} {pool : FakeIpPool}
    (h : FakeIpPool.new cidr capacity = .ok (.ok pool)) :
    pool.hostToIp.cap = if capacity = 0 then 64 else capacity := by
  rw [FakeIpPool.new] at h
  cases hcidr : parseCidr cidr with
  | error e =>
      rw [hcidr] at h
      cases h
  | ok parsed =>
      obtain ⟨ip, prefixLen⟩ := parsed
      rw [hcidr] at h
      cases hmask : netmask prefixLen with
      | error e =>
          simp only [hmask, bind, Except.bind] at h
          cases h
      | ok mask =>
          cases hsize : rangeSize prefixLen with
          | error e =>
              simp only [hmask, hsize, bind, Except.bind] at h
              cases h
          | ok size =>
              simp only [hmask, hsize, bind, Except.bind] at h
              obtain rfl := Except.ok.inj (Except.ok.inj h)
              show (newLruCache capacity : Cache String Ipv4Addr).cap = _
              rw [newLruCache]
              split_ifs <;> rfl

/-- **Answers are stable while a host is in use.** After a lookup has returned an address for
a host, the next lookup of the host returns the same one, as long as fewer other hosts than
the pool remembers are looked up in between. -/
theorem lookup_stable {cidr : String} {capacity : ℕ} {pool pool₁ pool₂ pool₃ : FakeIpPool}
    {before since : List Call} {host : String} {ip : Ipv4Addr}
    (hnew : FakeIpPool.new cidr capacity = .ok (.ok pool))
    (hbefore : Run.exec step pool before = .ok pool₁)
    (hlookup : pool₁.lookup host = .ok (ip, pool₂))
    (hsince : Run.exec step pool₂ since = .ok pool₃)
    (hfew : ((lookedUp since).toFinset.erase host).card <
      if capacity = 0 then 64 else capacity) :
    ∃ pool₄, pool₃.lookup host = .ok (ip, pool₄) := by
  have hcap : pool₂.hostToIp.cap = if capacity = 0 then 64 else capacity := by
    rw [cap_of_lookup hlookup, cap_of_exec hbefore, cap_of_new hnew]
  have hused : ∀ other ∈ lookedUp since, other ≠ host →
      other ∈ (lookedUp since).toFinset.erase host :=
    fun other hother hne => Finset.mem_erase.mpr ⟨hne, List.mem_toFinset.mpr hother⟩
  have hrecent := recent_exec (recent_of_lookup hlookup _) (by rwa [hcap]) hsince hused
  exact ⟨_, lookup_hit hrecent.peek_eq⟩

/-- In the small pool a host keeps its address when the allocator comes back to it for another
host. -/
theorem lookup_stable_smallPool :
    ∃ pool, Run.exec step smallPool [.lookup "a.example", .lookup "b.example",
        .lookup "c.example"] = .ok pool ∧
      ∃ pool', pool.lookup "a.example" = .ok (smallPool.nextAddr, pool') := by
  have hfirst : smallPool.lookup "a.example" =
      .ok (smallPool.nextAddr, smallPool.afterMiss "a.example") := rfl
  have hsince : Run.exec step (smallPool.afterMiss "a.example")
      [.lookup "b.example", .lookup "c.example"] =
        .ok (((smallPool.afterMiss "a.example").afterMiss "b.example").afterMiss
          "c.example") := rfl
  have hstart : Run.exec step smallPool [] = .ok smallPool := rfl
  exact ⟨_, hsince, lookup_stable new_smallPool hstart hfirst hsince (by decide)⟩

end FakeIpPool

end Redog
