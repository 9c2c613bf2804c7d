import Mathlib.Data.Nat.ModEq
import Redog.FakeIp

/-!
# The range of a FakeIP pool

The prefix length of a pool is any number the configuration has. It decides on the mask, the
number of addresses and how the allocator wraps around. With a length between 1 and 31 the
allocator goes through the addresses behind the network address, all of them in the range,
and comes back to one only after all others. Without a prefix, or with one longer than an
address, the pool is not built but panics, and the range of a single address has no address
behind the network address.

## Main results

* `worksFor_iff`: which ranges give a pool that works.
* `reverseLookup_recent`: an address is not given to another host before the allocator has
  gone through all others.
-/

namespace Redog

open Rust Lru

namespace FakeIpPool

/-! ### Pools in their range -/

/-- The allocator stays inside the range of the pool. -/
structure InRange (pool : FakeIpPool) extends Allocates pool where
  contains_of_le : ∀ ip : Ipv4Addr, pool.network.toNat ≤ ip.toU32.toNat →
    ip.toU32.toNat ≤ pool.network.toNat + pool.usable.toNat → pool.contains (.v4 ip)

/-- With a prefix length between 1 and 31 the allocator stays inside the range. -/
theorem Fresh.inRange {pool : FakeIpPool} {capacity : ℕ} {ip : Ipv4Addr} {bits : ℕ}
    (h : pool.Fresh capacity ip bits) (hlow : 1 ≤ bits) (hhigh : bits ≤ 31) : pool.InRange := by
  have hrange := h.network_add_le (by omega)
  have hpow : 2 ^ 1 ≤ 2 ^ bits := Nat.pow_le_pow_right (by omega) hlow
  have husable : pool.usable.toNat < 2 ^ bits := by
    rw [toNat_usable, h.poolSize_eq]
    exact max_lt (by omega) (by omega)
  refine ⟨⟨by omega, by rw [h.offset_eq]; decide⟩, fun ip' hge hle => ?_⟩
  have hdiv : ip'.toU32.toNat / 2 ^ bits = ip.toU32.toNat / 2 ^ bits := by
    rw [h.network_eq] at hge hle
    refine Nat.div_eq_of_lt_le ?_ ?_
    · rwa [Nat.mul_comm]
    · rw [Nat.add_mul, Nat.one_mul, Nat.mul_comm (_ / _)]
      omega
  rw [contains, decide_eq_true_iff, ← UInt32.toNat_inj, UInt32.toNat_and, h.mask_eq,
    and_highBits ip'.toU32.toNat_lt (by omega), hdiv, h.network_eq]

/-- The next address of a pool whose offset is in range is an address of its range. -/
theorem InRange.contains_nextAddr {pool : FakeIpPool} (h : pool.InRange) :
    pool.contains (.v4 pool.nextAddr) := by
  have hmod := Nat.mod_lt pool.offset.toNat pool.usable_pos
  have haddr := h.toAllocates.toNat_nextAddr
  exact h.contains_of_le _ (by omega) (by omega)

/-- A pool with the same range that allocates is in range too. -/
theorem InRange.congr {pool pool' : FakeIpPool} (h : pool.InRange) (halloc : pool'.Allocates)
    (hnetwork : pool'.network = pool.network) (hmask : pool'.mask = pool.mask)
    (hsize : pool'.poolSize = pool.poolSize) : pool'.InRange := by
  refine ⟨halloc, fun ip hge hle => ?_⟩
  rw [usable, hsize, ← usable, hnetwork] at hle
  rw [hnetwork] at hge
  have hcontains := h.contains_of_le ip hge hle
  rw [contains, decide_eq_true_iff] at hcontains ⊢
  rw [hmask, hnetwork, hcontains]

/-- Every address the pool remembers is in its range. -/
def RemembersInRange (pool : FakeIpPool) : Prop :=
  ∀ host ip, pool.hostToIp.peek host = some ip → pool.contains (.v4 ip)

/-- Every lookup returns an address in the range of the pool. -/
def LookupsInRange (pool : FakeIpPool) : Prop :=
  ∀ host, ∃ ip pool', pool.lookup host = .ok (ip, pool') ∧ pool'.contains (.v4 ip)

/-- A pool that is in range, and remembers only addresses of its range, gives no others away. -/
theorem InRange.lookupsInRange {pool : FakeIpPool} (h : pool.InRange)
    (hremembers : pool.RemembersInRange) : pool.LookupsInRange := by
  intro host
  rcases h.toAllocates.lookup_cases host with ⟨ip, hip, hlookup⟩ | ⟨-, hlookup⟩
  · exact ⟨ip, _, hlookup, hremembers host ip hip⟩
  · exact ⟨pool.nextAddr, _, hlookup, h.contains_nextAddr⟩

/-- A call of a pool that allocates leaves the range as it is. -/
theorem Allocates.step_isOk {pool : FakeIpPool} (h : pool.Allocates) (call : Call) :
    ∃ pool', pool.step call = .ok pool' ∧ pool'.Allocates ∧ pool'.network = pool.network ∧
      pool'.mask = pool.mask ∧ pool'.poolSize = pool.poolSize := by
  rcases h.step_cases call with ⟨ip, -, hstep⟩ | ⟨host, ip, -, -, hstep⟩ | ⟨host, -, -, hstep⟩
  · exact ⟨_, hstep, ⟨h.range_lt, h.offset_lt⟩, rfl, rfl, rfl⟩
  · exact ⟨_, hstep, ⟨h.range_lt, h.offset_lt⟩, rfl, rfl, rfl⟩
  · exact ⟨_, hstep, h.afterMiss host, rfl, rfl, rfl⟩

/-- Every call of a pool in range succeeds, and the pool stays in range. -/
theorem InRange.step_isOk {pool : FakeIpPool} (h : pool.InRange)
    (hremembers : pool.RemembersInRange) (call : Call) :
    ∃ pool', pool.step call = .ok pool' ∧ pool'.InRange ∧ pool'.RemembersInRange := by
  obtain ⟨pool', hstep, halloc, hnetwork, hmask, hsize⟩ := h.toAllocates.step_isOk call
  refine ⟨pool', hstep, h.congr halloc hnetwork hmask hsize, fun other ip' hother => ?_⟩
  suffices hcontains : pool.contains (.v4 ip') by
    rwa [contains, hmask, hnetwork]
  rcases h.toAllocates.step_cases call with
    ⟨ip, -, heq⟩ | ⟨host, ip, -, -, heq⟩ | ⟨host, -, -, heq⟩
  · obtain rfl := Except.ok.inj (hstep.symm.trans heq)
    exact hremembers other ip' hother
  · obtain rfl := Except.ok.inj (hstep.symm.trans heq)
    have hother' : (pool.hostToIp.get host).2.peek other = some ip' := hother
    rw [Cache.peek_get] at hother'
    exact hremembers other ip' hother'
  · obtain rfl := Except.ok.inj (hstep.symm.trans heq)
    have hother' : (pool.hostToIp.put host pool.nextAddr).peek other = some ip' := hother
    rw [Cache.peek_put] at hother'
    split_ifs at hother' with hsame
    · obtain rfl := Option.some.inj hother'
      exact h.contains_nextAddr
    · exact hremembers other ip' hother'

/-! ### Ranges that work -/

/-- The range is refused, or it gives a pool whose lookups return addresses in the range in
every state it gets into. -/
def WorksFor (cidr : String) (capacity : ℕ) : Prop :=
  ∃ result, FakeIpPool.new cidr capacity = .ok result ∧
    ∀ pool, result = .ok pool → ∀ calls, Run.Always step LookupsInRange pool calls

/-- In a pool in range the lookups are in range in every state. -/
theorem InRange.always_lookupsInRange {pool : FakeIpPool} (h : pool.InRange)
    (hremembers : pool.RemembersInRange) (calls : List Call) :
    Run.Always step LookupsInRange pool calls := by
  have hstep : ∀ (pool : FakeIpPool) (call : Call) (pool' : FakeIpPool),
      pool.InRange ∧ pool.RemembersInRange → True → pool.step call = .ok pool' →
        pool'.InRange ∧ pool'.RemembersInRange := by
    rintro pool call pool' ⟨h, hremembers⟩ - hpool'
    obtain ⟨t, ht, hinv⟩ := h.step_isOk hremembers call
    obtain rfl := Except.ok.inj (hpool'.symm.trans ht)
    exact hinv
  have hlookups : ∀ pool : FakeIpPool, pool.InRange ∧ pool.RemembersInRange →
      pool.LookupsInRange := fun _ hinv => hinv.1.lookupsInRange hinv.2
  exact Run.always_of_eachStep hstep hlookups ⟨h, hremembers⟩
    (Run.eachStep_of_forall (fun _ _ => trivial) pool calls)

/-- Without a prefix, or with one longer than an address, a shift or a difference is out of
range. -/
theorem new_panics {cidr : String} {ip : Ipv4Addr} {prefixLen : UInt32} (capacity : ℕ)
    (hcidr : parseCidr cidr = .ok (ip, prefixLen)) (hlen : prefixLen = 0 ∨ 32 < prefixLen) :
    FakeIpPool.new cidr capacity = .error .arithmeticOverflow := by
  rcases hlen with rfl | hlen
  · have hsize : rangeSize 0 = .error .arithmeticOverflow := by decide
    simp only [FakeIpPool.new, hcidr, netmask, hsize, if_pos, bind, Except.bind, pure,
      Except.pure]
  · have hne : prefixLen ≠ 0 := by
      rintro rfl
      exact absurd hlen (by decide)
    have hsub : u32Sub 32 prefixLen = .error .arithmeticOverflow :=
      if_neg (UInt32.not_le.mpr hlen)
    simp only [FakeIpPool.new, hcidr, netmask, hsub, if_neg hne, bind, Except.bind]

/-- The range of a single address has one usable address, and its mask has all bits set. -/
theorem new_single {cidr : String} {ip : Ipv4Addr} (capacity : ℕ)
    (hcidr : parseCidr cidr = .ok (ip, 32)) :
    ∃ pool, FakeIpPool.new cidr capacity = .ok (.ok pool) ∧ pool.hostToIp.peek "" = none ∧
      pool.usable.toNat = 1 ∧ pool.mask.toNat = 2 ^ 32 - 2 ^ 0 ∧ pool.offset = 1 := by
  have hmask : netmask 32 = .ok 0xFFFFFFFF := by decide
  have hsize : rangeSize 32 = .ok 1 := by decide
  have hnew : FakeIpPool.new cidr capacity = .ok (.ok
      { ipToHost := newLruCache capacity
        hostToIp := newLruCache capacity
        network := ip.toU32 &&& 0xFFFFFFFF
        mask := 0xFFFFFFFF
        poolSize := 1
        offset := 1 }) := by
    simp only [FakeIpPool.new, hcidr, hmask, hsize, bind, Except.bind, pure, Except.pure]
  refine ⟨_, hnew, peek_newLruCache capacity "", ?_, rfl, rfl⟩
  rw [toNat_usable]
  rfl

/-- Its allocator hands out the address after it, which is outside the range or does not
exist. -/
theorem not_lookupsInRange_of_single {pool : FakeIpPool} (hmiss : pool.hostToIp.peek "" = none)
    (husable : pool.usable.toNat = 1) (hmask : pool.mask.toNat = 2 ^ 32 - 2 ^ 0)
    (hoffset : pool.offset = 1) : ¬ pool.LookupsInRange := by
  intro h
  obtain ⟨ip, pool', hlookup, hcontains⟩ := h ""
  by_cases hlast : pool.network.toNat + 1 < 2 ^ 32
  · have halloc : pool.Allocates := ⟨by omega, by rw [hoffset]; decide⟩
    rw [halloc.lookup_miss hmiss] at hlookup
    obtain ⟨rfl, rfl⟩ := Prod.mk.inj (Except.ok.inj hlookup)
    have haddr := halloc.toNat_nextAddr
    have hcontains : (pool.nextAddr.toU32 &&& pool.mask) = pool.network :=
      of_decide_eq_true hcontains
    rw [← UInt32.toNat_inj, UInt32.toNat_and, hmask,
      and_highBits pool.nextAddr.toU32.toNat_lt (Nat.zero_le _), Nat.pow_zero, Nat.div_one,
      Nat.one_mul] at hcontains
    omega
  · have hpanic : pool.allocate = .error .arithmeticOverflow := by
      have hmod : pool.offset % pool.usable = 0 := by
        rw [← UInt32.toNat_inj, UInt32.toNat_mod, husable, Nat.mod_one]
        rfl
      have hzero : (0 : UInt32).toNat = 0 := rfl
      rw [allocate, hmod, u32Add_eq_ok (by rw [hzero]; exact pool.network.toNat_lt)]
      simp only [bind, Except.bind, UInt32.add_zero]
      rw [u32Add, UInt32.toNat_one, if_neg hlast]
    rw [FakeIpPool.lookup_miss hmiss, hpanic] at hlookup
    cases hlookup

/-- **Which ranges give a pool that works.** A range is refused, or its pool hands out
addresses of the range in every state, exactly when a prefix length it parses with is between
1 and 31. -/
theorem worksFor_iff (cidr : String) (capacity : ℕ) :
    WorksFor cidr capacity ↔
      ∀ ip prefixLen, parseCidr cidr = .ok (ip, prefixLen) → 1 ≤ prefixLen ∧ prefixLen ≤ 31 := by
  constructor
  · rintro ⟨result, hnew, hworks⟩ ip prefixLen hcidr
    by_contra hlen
    by_cases hsingle : prefixLen = 32
    · subst hsingle
      obtain ⟨pool, hpool, hmiss, husable, hmask, hoffset⟩ := new_single capacity hcidr
      obtain rfl := Except.ok.inj (hnew.symm.trans hpool)
      exact not_lookupsInRange_of_single hmiss husable hmask hoffset (hworks pool rfl [])
    · have hbad : prefixLen = 0 ∨ 32 < prefixLen := by
        simp only [UInt32.le_iff_toNat_le, UInt32.lt_iff_toNat_lt, ← UInt32.toNat_inj]
          at hlen hsingle ⊢
        have h32 : (32 : UInt32).toNat = 32 := rfl
        have h31 : (31 : UInt32).toNat = 31 := rfl
        rw [UInt32.toNat_one, h31] at hlen
        rw [UInt32.toNat_zero, h32]
        omega
      rw [new_panics capacity hcidr hbad] at hnew
      cases hnew
  · intro hlen
    cases hcidr : parseCidr cidr with
    | error e =>
        refine ⟨.error e, ?_, nofun⟩
        rw [FakeIpPool.new, hcidr]
        rfl
    | ok parsed =>
        obtain ⟨ip, prefixLen⟩ := parsed
        obtain ⟨hlow, hhigh⟩ := hlen ip prefixLen hcidr
        obtain ⟨pool, hnew, hfresh⟩ := new_eq_ok capacity hcidr hlow hhigh
        have hlow' : 1 ≤ prefixLen.toNat := UInt32.le_iff_toNat_le.mp hlow
        have hhigh' : prefixLen.toNat ≤ 31 := UInt32.le_iff_toNat_le.mp hhigh
        refine ⟨.ok pool, hnew, ?_⟩
        rintro pool' hpool' calls
        obtain rfl := Except.ok.inj hpool'
        refine (hfresh.inRange (by omega) (by omega)).always_lookupsInRange ?_ calls
        intro host ip' hip'
        rw [hfresh.hostToIp_eq, peek_newLruCache] at hip'
        cases hip'

/-- The range of all addresses panics, and the address handed out for a range of one address
is not in it. -/
theorem not_worksFor : ¬ WorksFor "0.0.0.0/0" 64 ∧ ¬ WorksFor "10.0.0.0/32" 64 := by
  have hall : parseCidr "0.0.0.0/0" = .ok (.ofU32 0, 0) := by decide +kernel
  have hone : parseCidr "10.0.0.0/32" = .ok (.ofU32 0x0A000000, 32) := by decide +kernel
  constructor
  · rintro ⟨result, hnew, -⟩
    rw [new_panics 64 hall (.inl rfl)] at hnew
    cases hnew
  · rintro ⟨result, hnew, hworks⟩
    obtain ⟨pool, hpool, hmiss, husable, hmask, hoffset⟩ := new_single 64 hone
    obtain rfl := Except.ok.inj (hnew.symm.trans hpool)
    exact not_lookupsInRange_of_single hmiss husable hmask hoffset (hworks pool rfl [])

/-! ### Addresses that come back -/

/-- The call allocates an address: it is a lookup of a host that is not remembered. -/
def allocatesFor (pool : FakeIpPool) : Call → Bool
  | .lookup host => (pool.hostToIp.peek host).isNone
  | .reverseLookup _ => false

/-- The allocator comes back to the address after `left` others. -/
structure ComesBack (pool : FakeIpPool) (ip : Ipv4Addr) (left : ℕ) : Prop
    extends Allocates pool where
  addr_eq : ip.toU32.toNat =
    pool.network.toNat + (pool.offset.toNat + left) % pool.usable.toNat + 1
  left_lt : left < pool.usable.toNat

/-- The allocator comes back to an address just allocated after all others. -/
theorem Allocates.comesBack {pool pool' : FakeIpPool} (h : pool.Allocates)
    (hnetwork : pool'.network = pool.network) (hsize : pool'.poolSize = pool.poolSize)
    (hoffset : pool'.offset = (pool.offset + 1) % pool.usable) :
    pool'.ComesBack pool.nextAddr (pool.usable.toNat - 1) := by
  have husable : pool'.usable = pool.usable := by rw [usable, usable, hsize]
  have hpos := pool.usable_pos
  refine ⟨h.next hnetwork hsize hoffset, ?_, ?_⟩
  · rw [h.toNat_nextAddr, hnetwork, husable, hoffset, UInt32.toNat_mod, UInt32.toNat_add,
      UInt32.toNat_one, Nat.mod_eq_of_lt h.offset_lt, Nat.mod_add_mod,
      Nat.add_assoc pool.offset.toNat, Nat.add_sub_cancel' hpos, Nat.add_mod_right]
  · rw [husable]
    exact Nat.sub_lt hpos Nat.one_pos

/-- While others are left, the next address is another one. -/
theorem ComesBack.nextAddr_ne {pool : FakeIpPool} {ip : Ipv4Addr} {left : ℕ}
    (h : pool.ComesBack ip (left + 1)) : ip ≠ pool.nextAddr := by
  rintro rfl
  have haddr := h.addr_eq
  rw [h.toAllocates.toNat_nextAddr] at haddr
  have hmod : pool.offset.toNat + 0 ≡ pool.offset.toNat + (left + 1)
      [MOD pool.usable.toNat] := by
    rw [Nat.ModEq, Nat.add_zero]
    omega
  have hleft := Nat.ModEq.add_left_cancel rfl hmod
  rw [Nat.ModEq, Nat.zero_mod, Nat.mod_eq_of_lt h.left_lt] at hleft
  omega

/-- The allocation of another address leaves one less. -/
theorem ComesBack.next {pool pool' : FakeIpPool} {ip : Ipv4Addr} {left : ℕ}
    (h : pool.ComesBack ip (left + 1)) (hnetwork : pool'.network = pool.network)
    (hsize : pool'.poolSize = pool.poolSize)
    (hoffset : pool'.offset = (pool.offset + 1) % pool.usable) : pool'.ComesBack ip left := by
  have husable : pool'.usable = pool.usable := by rw [usable, usable, hsize]
  refine ⟨h.toAllocates.next hnetwork hsize hoffset, ?_, ?_⟩
  · rw [h.addr_eq, hnetwork, husable, hoffset, UInt32.toNat_mod, UInt32.toNat_add,
      UInt32.toNat_one, Nat.mod_eq_of_lt h.offset_lt, Nat.mod_add_mod,
      Nat.add_assoc pool.offset.toNat 1 left, Nat.add_comm 1 left]
  · rw [husable]
    exact Nat.lt_of_succ_lt h.left_lt

/-- The allocator comes back to the address `ip` of `host` after `left` others, and no other
host has taken it over. -/
structure Held (pool : FakeIpPool) (ip : Ipv4Addr) (host : String) (left : ℕ) : Prop
    extends ComesBack pool ip left where
  peek_eq : pool.ipToHost.peek ip = none ∨ pool.ipToHost.peek ip = some host

/-- An address just allocated comes back after all others. -/
theorem Allocates.held_afterMiss {pool : FakeIpPool} (h : pool.Allocates) (host : String) :
    (pool.afterMiss host).Held pool.nextAddr host (pool.usable.toNat - 1) :=
  ⟨h.comesBack rfl rfl rfl, .inr (Cache.peek_put_self _ _ _)⟩

/-- The allocation of another address takes nothing over. -/
theorem Held.afterMiss {pool : FakeIpPool} {ip : Ipv4Addr} {host : String} {left : ℕ}
    (h : pool.Held ip host (left + 1)) (other : String) :
    (pool.afterMiss other).Held ip host left := by
  have hne := h.nextAddr_ne
  have hpeek : (pool.afterMiss other).ipToHost.peek ip =
      if pool.ipToHost.victim pool.nextAddr = some ip then none else pool.ipToHost.peek ip := by
    show (pool.ipToHost.put pool.nextAddr other).peek ip = _
    rw [Cache.peek_put, if_neg hne]
  refine ⟨h.toComesBack.next rfl rfl rfl, ?_⟩
  rw [hpeek]
  split_ifs
  · exact .inl rfl
  · exact h.peek_eq

/-- A call brings the address nearer by what it allocates. -/
theorem Held.step {pool pool' : FakeIpPool} {ip : Ipv4Addr} {host : String} {left : ℕ}
    {call : Call} (h : pool.Held ip host left) (hstep : pool.step call = .ok pool')
    (hleft : (pool.allocatesFor call).toNat ≤ left) :
    pool'.Held ip host (left - (pool.allocatesFor call).toNat) := by
  rcases h.toAllocates.step_cases call with
    ⟨ip', rfl, heq⟩ | ⟨other, ip', rfl, hhit, heq⟩ | ⟨other, rfl, hmiss, heq⟩
  · obtain rfl := Except.ok.inj (hstep.symm.trans heq)
    refine ⟨⟨⟨h.range_lt, h.offset_lt⟩, h.addr_eq, h.left_lt⟩, ?_⟩
    rw [Cache.peek_get]
    exact h.peek_eq
  · obtain rfl := Except.ok.inj (hstep.symm.trans heq)
    rw [allocatesFor, hhit]
    exact ⟨⟨⟨h.range_lt, h.offset_lt⟩, h.addr_eq, h.left_lt⟩, h.peek_eq⟩
  · obtain rfl := Except.ok.inj (hstep.symm.trans heq)
    rw [allocatesFor, hmiss] at hleft ⊢
    obtain ⟨left, rfl⟩ : ∃ n, left = n + 1 := Nat.exists_eq_succ_of_ne_zero (by
      rintro rfl
      cases hleft)
    exact h.afterMiss other

/-- The number of addresses the calls allocate. -/
def allocations (pool : FakeIpPool) (calls : List Call) : ℕ :=
  Run.count step allocatesFor pool calls

/-- The address stays that of its host for as many allocations as are left. -/
theorem Held.exec {pool pool' : FakeIpPool} {ip : Ipv4Addr} {host : String} {left : ℕ}
    {calls : List Call} (h : pool.Held ip host left)
    (hexec : Run.exec FakeIpPool.step pool calls = .ok pool')
    (hleft : pool.allocations calls ≤ left) : ∃ left', pool'.Held ip host left' := by
  induction calls generalizing pool left with
  | nil =>
      obtain rfl : pool = pool' := Except.ok.inj hexec
      exact ⟨left, h⟩
  | cons call calls ih =>
      obtain ⟨t, ht, hexec⟩ := Run.exec_cons_eq_ok_iff.mp hexec
      rw [allocations, Run.count_cons ht, ← allocations] at hleft
      exact ih (h.step ht (by omega)) hexec (by omega)

/-- A run leaves the range as it is. -/
theorem Allocates.exec {pool pool' : FakeIpPool} {calls : List Call} (h : pool.Allocates)
    (hexec : Run.exec step pool calls = .ok pool') :
    pool'.Allocates ∧ pool'.poolSize = pool.poolSize := by
  have hstep : ∀ call ∈ calls, ∀ t t' : FakeIpPool,
      t.Allocates ∧ t.poolSize = pool.poolSize → t.step call = .ok t' →
        t'.Allocates ∧ t'.poolSize = pool.poolSize := by
    rintro call - t t' ⟨halloc, hsize⟩ ht
    obtain ⟨u, hu, halloc', -, -, hsize'⟩ := halloc.step_isOk call
    obtain rfl := Except.ok.inj (ht.symm.trans hu)
    exact ⟨halloc', hsize'.trans hsize⟩
  exact Run.exec_keeps hstep ⟨h, rfl⟩ hexec

/-- **Addresses are not recycled early.** A lookup that misses allocates an address. As long
as fewer addresses are allocated after it than the pool has, reversing the address gives its
host or nothing, and never another host. -/
theorem reverseLookup_recent {cidr : String} {capacity : ℕ} {addr : Ipv4Addr}
    {prefixLen : UInt32} {pool pool₁ pool₂ pool₃ : FakeIpPool} {before since : List Call}
    {host : String} {ip : Ipv4Addr} (hcidr : parseCidr cidr = .ok (addr, prefixLen))
    (hlow : 1 ≤ prefixLen) (hhigh : prefixLen ≤ 31)
    (hnew : FakeIpPool.new cidr capacity = .ok (.ok pool))
    (hbefore : Run.exec step pool before = .ok pool₁)
    (hmiss : pool₁.hostToIp.peek host = none)
    (hlookup : pool₁.lookup host = .ok (ip, pool₂))
    (hsince : Run.exec step pool₂ since = .ok pool₃)
    (hfew : pool₂.allocations since < max (2 ^ (32 - prefixLen.toNat) - 2) 1) :
    (pool₃.reverseLookup ip).1 = none ∨ (pool₃.reverseLookup ip).1 = some host := by
  have hlow' : 1 ≤ prefixLen.toNat := UInt32.le_iff_toNat_le.mp hlow
  have hhigh' : prefixLen.toNat ≤ 31 := UInt32.le_iff_toNat_le.mp hhigh
  obtain ⟨pool', hnew', hfresh⟩ := new_eq_ok capacity hcidr hlow hhigh
  obtain rfl := Except.ok.inj (Except.ok.inj (hnew.symm.trans hnew'))
  have halloc := (hfresh.inRange (by omega) (by omega)).toAllocates
  obtain ⟨halloc₁, hsize₁⟩ := halloc.exec hbefore
  rw [halloc₁.lookup_miss hmiss] at hlookup
  obtain ⟨rfl, rfl⟩ := Prod.mk.inj (Except.ok.inj hlookup)
  have husable : pool₁.usable.toNat = max (2 ^ (32 - prefixLen.toNat) - 2) 1 := by
    rw [toNat_usable, hsize₁, hfresh.poolSize_eq]
  obtain ⟨left, hheld⟩ := (halloc₁.held_afterMiss host).exec hsince (by omega)
  rw [show (pool₃.reverseLookup pool₁.nextAddr).1 = (pool₃.ipToHost.get pool₁.nextAddr).1 from
    rfl, Cache.fst_get]
  exact hheld.peek_eq

/-- In a pool of two addresses the first host keeps its address while the second gets
its own. -/
theorem reverseLookup_recent_smallPool :
    ∃ pool, Run.exec step smallPool [.lookup "a.example", .lookup "b.example"] = .ok pool ∧
      ((pool.reverseLookup smallPool.nextAddr).1 = none ∨
        (pool.reverseLookup smallPool.nextAddr).1 = some "a.example") := by
  have hfirst : smallPool.lookup "a.example" =
      .ok (smallPool.nextAddr, smallPool.afterMiss "a.example") := rfl
  have hsecond : Run.exec step (smallPool.afterMiss "a.example") [.lookup "b.example"] =
      .ok ((smallPool.afterMiss "a.example").afterMiss "b.example") := rfl
  have hstart : Run.exec step smallPool [] = .ok smallPool := rfl
  exact ⟨_, hsecond, reverseLookup_recent parseCidr_smallPool (by decide) (by decide)
    new_smallPool hstart rfl hfirst hsecond (by decide)⟩

end FakeIpPool

end Redog
