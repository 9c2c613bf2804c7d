import Redog.Checked
import Redog.Lru
import Redog.Net
import Redog.Run

/-!
# The FakeIP pool

The pool hands out addresses of a private range for host names and remembers the mapping
in both directions, in two caches of the same capacity. Its purpose is that an address can
be turned back into its host: the two caches should be each other's inverse on the hosts
the pool still answers for.

The caches are separate, each with its own order of use, and the allocator starts over at
the end of the range. A `lookup` that hits uses only `hostToIp`, so the orders drift apart
and a later miss can evict the address of a host that is still remembered; and when the
allocator comes back to an address still in use, the new host takes it over in `ipToHost`
alone. `KeepsMapping` names exactly the calls that do neither.

## Main results

* `FakeIpPool.roundTrips_iff`: in a usable pool the mapping is bidirectional exactly when
  `ipToHost` inverts `hostToIp`.
* `FakeIpPool.always_roundTrips_iff`: along a run the mapping is bidirectional in every
  state exactly when every call of the run satisfies `KeepsMapping`.
-/

namespace Redog

open Rust Lru

/-! ### The code -/

/-- `redog_common::LruCache::new`: a zero capacity is replaced by 64. -/
def newLruCache {K V : Type} [DecidableEq K] (capacity : ℕ) : Cache K V :=
  if h : capacity = 0 then .empty 64 (by omega) else .empty capacity (by omega)

/-- The pool: the two caches, the range, and the offset of the allocator. -/
structure FakeIpPool where
  ipToHost : Cache Ipv4Addr String
  hostToIp : Cache String Ipv4Addr
  network : UInt32
  mask : UInt32
  poolSize : UInt32
  offset : UInt32

namespace FakeIpPool

/-- The part of `FakeIpPool::new` that reads the CIDR text. -/
def parseCidr (cidr : String) : Except String (Ipv4Addr × UInt32) :=
  match split '/' cidr with
  | [addr, len] =>
      match Ipv4Addr.parse addr with
      | none => .error "invalid IP: invalid IPv4 address syntax"
      | some ip =>
          match parseU32 len with
          | .error e => .error ("invalid prefix length: " ++ e.text)
          | .ok prefixLen => .ok (ip, prefixLen)
  | _ => .error ("invalid CIDR: " ++ cidr)

/-- The network mask of a prefix length. -/
def netmask (prefixLen : UInt32) : Checked UInt32 :=
  if prefixLen = 0 then return 0
  else do
    let shift ← u32Sub 32 prefixLen
    let bit ← u32Shl 1 shift
    let hosts ← u32Sub bit 1
    return ~~~hosts

/-- The number of addresses of a prefix length. -/
def rangeSize (prefixLen : UInt32) : Checked UInt32 := do
  let shift ← u32Sub 32 prefixLen
  u32Shl 1 shift

/-- `FakeIpPool::new`: the range of the text, with its mask and its size, two empty caches and the
offset at one. -/
def new (cidr : String) (capacity : ℕ) : Checked (Except String FakeIpPool) :=
  match parseCidr cidr with
  | .error e => return .error e
  | .ok (ip, prefixLen) => do
      let mask ← netmask prefixLen
      let poolSize ← rangeSize prefixLen
      return .ok
        { ipToHost := newLruCache capacity
          hostToIp := newLruCache capacity
          network := ip.toU32 &&& mask
          mask := mask
          poolSize := poolSize
          offset := 1 }

/-- The number of addresses `allocate` goes through: network and broadcast are skipped. -/
def usable (pool : FakeIpPool) : UInt32 :=
  max (if pool.poolSize < 2 then 0 else pool.poolSize - 2) 1

/-- `FakeIpPool::allocate`: the address at the offset. The offset moves on and wraps around at the
number of usable addresses. -/
def allocate (pool : FakeIpPool) : Checked (Ipv4Addr × FakeIpPool) := do
  let base ← u32Add pool.network (pool.offset % pool.usable)
  let ipNum ← u32Add base 1
  let next ← u32Add pool.offset 1
  return (.ofU32 ipNum, { pool with offset := next % pool.usable })

/-- `FakeIpPool::lookup`: the address the host has, or a new one that both caches are told of. -/
def lookup (pool : FakeIpPool) (host : String) : Checked (Ipv4Addr × FakeIpPool) :=
  match pool.hostToIp.get host with
  | (some ip, hostToIp) => return (ip, { pool with hostToIp := hostToIp })
  | (none, _) => do
      let (ip, pool) ← pool.allocate
      return (ip, { pool with
        ipToHost := pool.ipToHost.put ip host
        hostToIp := pool.hostToIp.put host ip })

/-- `FakeIpPool::reverse_lookup`: the host the address was handed out for. Asking counts as a use of
the entry. -/
def reverseLookup (pool : FakeIpPool) (ip : Ipv4Addr) : Option String × FakeIpPool :=
  let (host, ipToHost) := pool.ipToHost.get ip
  (host, { pool with ipToHost := ipToHost })

/-- `FakeIpPool::contains`: whether the address is one of the network. An address of IPv6 never
is. -/
def contains (pool : FakeIpPool) : IpAddr → Bool
  | .v4 ip => ip.toU32 &&& pool.mask = pool.network
  | .v6 _ => false

/-- A call of the pool from outside, with what it asks for. -/
inductive Call
  | lookup (host : String)
  | reverseLookup (ip : Ipv4Addr)

/-- The pool after a call, unless the call panics. -/
def step (pool : FakeIpPool) : Call → Checked FakeIpPool
  | .lookup host => do return (← pool.lookup host).2
  | .reverseLookup ip => return (pool.reverseLookup ip).2

/-! ### The allocator -/

/-- The address the next allocation hands out. -/
def nextAddr (pool : FakeIpPool) : Ipv4Addr :=
  .ofU32 (pool.network + pool.offset % pool.usable + 1)

/-- The addresses the allocator goes through are inside the address space. -/
structure Allocates (pool : FakeIpPool) : Prop where
  range_lt : pool.network.toNat + pool.usable.toNat < 2 ^ 32
  offset_lt : pool.offset.toNat + 1 < 2 ^ 32

/-- The number of usable addresses: all of the range but two, and one at least. -/
theorem toNat_usable (pool : FakeIpPool) :
    pool.usable.toNat = max (pool.poolSize.toNat - 2) 1 := by
  have htwo : (2 : UInt32).toNat = 2 := rfl
  rw [usable, u32_toNat_max, UInt32.toNat_one]
  split_ifs with hsize
  · rw [UInt32.lt_iff_toNat_lt, htwo] at hsize
    rw [UInt32.toNat_zero, Nat.sub_eq_zero_of_le hsize.le]
  · rw [UInt32.toNat_sub_of_le _ _ (UInt32.not_lt.mp hsize), htwo]

/-- A pool always has a usable address to give away. -/
theorem usable_pos (pool : FakeIpPool) : 0 < pool.usable.toNat := by
  rw [toNat_usable]
  exact Nat.lt_of_lt_of_le Nat.one_pos (le_max_right _ _)

/-- The address handed out is the one after the offset. -/
theorem Allocates.toNat_nextAddr {pool : FakeIpPool} (h : pool.Allocates) :
    pool.nextAddr.toU32.toNat =
      pool.network.toNat + pool.offset.toNat % pool.usable.toNat + 1 := by
  have hrange := h.range_lt
  have hmod := Nat.mod_lt pool.offset.toNat pool.usable_pos
  have hbase : (pool.network + pool.offset % pool.usable).toNat =
      pool.network.toNat + pool.offset.toNat % pool.usable.toNat := by
    rw [UInt32.toNat_add, UInt32.toNat_mod, Nat.mod_eq_of_lt (by omega)]
  rw [nextAddr, Ipv4Addr.toU32_ofU32, UInt32.toNat_add, hbase, UInt32.toNat_one,
    Nat.mod_eq_of_lt (by omega)]

/-- An allocation hands out `nextAddr` and moves the offset and nothing else. -/
theorem Allocates.allocate_eq {pool : FakeIpPool} (h : pool.Allocates) :
    pool.allocate = .ok (pool.nextAddr,
      { pool with offset := (pool.offset + 1) % pool.usable }) := by
  have hrange := h.range_lt
  have hoffset := h.offset_lt
  have hmod := Nat.mod_lt pool.offset.toNat pool.usable_pos
  have hbase : (pool.network + pool.offset % pool.usable).toNat =
      pool.network.toNat + pool.offset.toNat % pool.usable.toNat := by
    rw [UInt32.toNat_add, UInt32.toNat_mod, Nat.mod_eq_of_lt (by omega)]
  rw [allocate, u32Add_eq_ok (by rw [UInt32.toNat_mod]; omega),
    u32Add_eq_ok (by rw [UInt32.toNat_one]; exact hoffset)]
  simp only [bind, Except.bind]
  rw [u32Add_eq_ok (by rw [hbase, UInt32.toNat_one]; omega)]
  rfl

/-- An allocation leaves the allocator inside the address space. -/
theorem Allocates.next {pool pool' : FakeIpPool} (h : pool.Allocates)
    (hnetwork : pool'.network = pool.network) (hsize : pool'.poolSize = pool.poolSize)
    (hoffset : pool'.offset = (pool.offset + 1) % pool.usable) : pool'.Allocates := by
  have husable : pool'.usable = pool.usable := by rw [usable, usable, hsize]
  have hrange := h.range_lt
  have hmod := Nat.mod_lt (pool.offset + 1).toNat pool.usable_pos
  refine ⟨?_, ?_⟩
  · rwa [hnetwork, husable]
  · rw [hoffset, UInt32.toNat_mod]
    omega

/-! ### Pools that never overflow -/

/-- The range of the pool lies inside the address space and has room for two hosts, and
the allocator stays inside it. -/
structure Usable (pool : FakeIpPool) : Prop where
  four_le : 4 ≤ pool.poolSize.toNat
  range_le : pool.network.toNat + pool.poolSize.toNat ≤ 2 ^ 32
  size_le : pool.poolSize.toNat ≤ 2 ^ 31
  offset_lt : pool.offset.toNat < pool.poolSize.toNat - 2

/-- The mask and the size of a prefix length between 1 and 31. -/
theorem netmask_rangeSize : ∀ n < 32, 1 ≤ n →
    netmask (UInt32.ofNat n) = .ok (UInt32.ofNat (2 ^ 32 - 2 ^ (32 - n))) ∧
      rangeSize (UInt32.ofNat n) = .ok (UInt32.ofNat (2 ^ (32 - n))) := by
  decide

/-- Clearing the low bits rounds down to a multiple. -/
theorem and_highBits {a j : ℕ} (ha : a < 2 ^ 32) (hj : j ≤ 32) :
    a &&& (2 ^ 32 - 2 ^ j) = 2 ^ j * (a / 2 ^ j) := by
  have hpow : 1 ≤ 2 ^ j := Nat.one_le_two_pow
  have hle : 2 ^ j ≤ 2 ^ 32 := Nat.pow_le_pow_right (by omega) hj
  have hmask : 2 ^ 32 - 2 ^ j = 2 ^ 32 - ((2 ^ j - 1) + 1) := by omega
  refine Nat.eq_of_testBit_eq fun i => ?_
  rw [Nat.testBit_and, hmask, Nat.testBit_two_pow_sub_succ (by omega),
    Nat.testBit_two_pow_sub_one, Nat.testBit_two_pow_mul, Nat.testBit_div_two_pow]
  by_cases hi : j ≤ i
  · rw [Nat.sub_add_cancel hi]
    by_cases h32 : i < 32
    · simp [hi, h32]
    · have hzero : a.testBit i = false :=
        Nat.testBit_lt_two_pow (ha.trans_le (Nat.pow_le_pow_right (by omega) (by omega)))
      simp [hzero]
  · simp [hi, Nat.lt_of_not_le hi]

/-- A pool as it is built from an address and the number of bits behind the prefix. -/
structure Fresh (pool : FakeIpPool) (capacity : ℕ) (ip : Ipv4Addr) (bits : ℕ) : Prop where
  ipToHost_eq : pool.ipToHost = newLruCache capacity
  hostToIp_eq : pool.hostToIp = newLruCache capacity
  network_eq : pool.network.toNat = 2 ^ bits * (ip.toU32.toNat / 2 ^ bits)
  mask_eq : pool.mask.toNat = 2 ^ 32 - 2 ^ bits
  poolSize_eq : pool.poolSize.toNat = 2 ^ bits
  offset_eq : pool.offset = 1

/-- A new cache holds nothing, whatever capacity it is asked for. -/
theorem peek_newLruCache {K V : Type} [DecidableEq K] (capacity : ℕ) (k : K) :
    (newLruCache capacity : Cache K V).peek k = none := by
  rw [newLruCache]
  split <;> rfl

/-- With a prefix length between 1 and 31 a pool is built. -/
theorem new_eq_ok {cidr : String} {ip : Ipv4Addr} {prefixLen : UInt32} (capacity : ℕ)
    (hcidr : parseCidr cidr = .ok (ip, prefixLen)) (hlow : 1 ≤ prefixLen)
    (hhigh : prefixLen ≤ 31) :
    ∃ pool, FakeIpPool.new cidr capacity = .ok (.ok pool) ∧
      pool.Fresh capacity ip (32 - prefixLen.toNat) := by
  have hlow' : 1 ≤ prefixLen.toNat := UInt32.le_iff_toNat_le.mp hlow
  have hhigh' : prefixLen.toNat ≤ 31 := UInt32.le_iff_toNat_le.mp hhigh
  obtain ⟨hmask, hsize⟩ := netmask_rangeSize prefixLen.toNat (by omega) hlow'
  rw [UInt32.ofNat_toNat] at hmask hsize
  have hpow : 1 ≤ 2 ^ (32 - prefixLen.toNat) := Nat.one_le_two_pow
  have hpow' : 2 ^ (32 - prefixLen.toNat) ≤ 2 ^ 31 :=
    Nat.pow_le_pow_right (by omega) (by omega)
  have hnew : FakeIpPool.new cidr capacity = .ok (.ok
      { ipToHost := newLruCache capacity
        hostToIp := newLruCache capacity
        network := ip.toU32 &&& UInt32.ofNat (2 ^ 32 - 2 ^ (32 - prefixLen.toNat))
        mask := UInt32.ofNat (2 ^ 32 - 2 ^ (32 - prefixLen.toNat))
        poolSize := UInt32.ofNat (2 ^ (32 - prefixLen.toNat))
        offset := 1 }) := by
    simp only [FakeIpPool.new, hcidr, hmask, hsize, bind, Except.bind, pure, Except.pure]
  have htoNat : (UInt32.ofNat (2 ^ 32 - 2 ^ (32 - prefixLen.toNat))).toNat =
      2 ^ 32 - 2 ^ (32 - prefixLen.toNat) := by
    rw [UInt32.toNat_ofNat', Nat.mod_eq_of_lt (by omega)]
  refine ⟨_, hnew, rfl, rfl, ?_, htoNat, ?_, rfl⟩
  · show (ip.toU32 &&& _).toNat = _
    rw [UInt32.toNat_and, htoNat, and_highBits ip.toU32.toNat_lt (by omega)]
  · show (UInt32.ofNat _).toNat = _
    rw [UInt32.toNat_ofNat', Nat.mod_eq_of_lt (by omega)]

/-- The range of a pool lies inside the address space. -/
theorem Fresh.network_add_le {pool : FakeIpPool} {capacity : ℕ} {ip : Ipv4Addr} {bits : ℕ}
    (h : pool.Fresh capacity ip bits) (hbits : bits ≤ 32) :
    pool.network.toNat + 2 ^ bits ≤ 2 ^ 32 := by
  have hdiv : ip.toU32.toNat / 2 ^ bits < 2 ^ (32 - bits) := by
    rw [Nat.div_lt_iff_lt_mul (Nat.two_pow_pos bits), ← Nat.pow_add, Nat.sub_add_cancel hbits]
    exact ip.toU32.toNat_lt
  calc pool.network.toNat + 2 ^ bits = 2 ^ bits * (ip.toU32.toNat / 2 ^ bits + 1) := by
        rw [h.network_eq, Nat.mul_add, Nat.mul_one]
    _ ≤ 2 ^ bits * 2 ^ (32 - bits) := Nat.mul_le_mul_left _ hdiv
    _ = 2 ^ 32 := by rw [← Nat.pow_add, Nat.add_sub_cancel' hbits]

/-- A new pool with a prefix length between 1 and 30 is usable and remembers nothing. -/
theorem usable_of_new {cidr : String} {capacity : ℕ} {ip : Ipv4Addr} {prefixLen : UInt32}
    {pool : FakeIpPool} (hcidr : parseCidr cidr = .ok (ip, prefixLen))
    (hlow : 1 ≤ prefixLen) (hhigh : prefixLen ≤ 30)
    (hnew : FakeIpPool.new cidr capacity = .ok (.ok pool)) :
    pool.Usable ∧ ∀ host, pool.hostToIp.peek host = none := by
  have hlow' : 1 ≤ prefixLen.toNat := UInt32.le_iff_toNat_le.mp hlow
  have hhigh' : prefixLen.toNat ≤ 30 := UInt32.le_iff_toNat_le.mp hhigh
  have hhigh31 : prefixLen ≤ 31 := UInt32.le_iff_toNat_le.mpr (Nat.le_succ_of_le hhigh')
  obtain ⟨pool', hnew', hfresh⟩ := new_eq_ok capacity hcidr hlow hhigh31
  obtain rfl := Except.ok.inj (Except.ok.inj (hnew.symm.trans hnew'))
  have hrange := hfresh.network_add_le (by omega)
  have hpow : 2 ^ 2 ≤ 2 ^ (32 - prefixLen.toNat) := Nat.pow_le_pow_right (by omega) (by omega)
  have hpow' : 2 ^ (32 - prefixLen.toNat) ≤ 2 ^ 31 :=
    Nat.pow_le_pow_right (by omega) (by omega)
  refine ⟨⟨?_, ?_, ?_, ?_⟩, fun host => ?_⟩
  · rw [hfresh.poolSize_eq]
    omega
  · rwa [hfresh.poolSize_eq]
  · rwa [hfresh.poolSize_eq]
  · rw [hfresh.poolSize_eq, hfresh.offset_eq, UInt32.toNat_one]
    omega
  · rw [hfresh.hostToIp_eq, peek_newLruCache]

/-- In a usable pool all addresses of the range but two are given away. -/
theorem Usable.toNat_usable {pool : FakeIpPool} (h : pool.Usable) :
    pool.usable.toNat = pool.poolSize.toNat - 2 := by
  have hfour := h.four_le
  rw [FakeIpPool.toNat_usable, max_eq_left (by omega)]

/-- A usable pool allocates without a panic. -/
theorem Usable.allocates {pool : FakeIpPool} (h : pool.Usable) : pool.Allocates := by
  have hfour := h.four_le
  have hrange := h.range_le
  have hsize := h.size_le
  have hoff := h.offset_lt
  have hus := h.toNat_usable
  exact ⟨by omega, by omega⟩

/-! ### The two directions -/

/-- `ipToHost` inverts `hostToIp`: every host the pool answers for is found again from its
address. -/
def Inverse (pool : FakeIpPool) : Prop :=
  ∀ host ip, pool.hostToIp.peek host = some ip → pool.ipToHost.peek ip = some host

/-- Looking a host up and then reversing the address gives the host, for every host. -/
def RoundTrips (pool : FakeIpPool) : Prop :=
  ∀ host, ∃ ip pool', pool.lookup host = .ok (ip, pool') ∧
    (pool'.reverseLookup ip).1 = some host

/-- The call keeps the two directions together. A `lookup` that misses must not hand out
an address a remembered host still has, nor forget the address of a host that stays
remembered; other calls always keep them. -/
def KeepsMapping (pool : FakeIpPool) : Call → Prop
  | .lookup host => pool.hostToIp.peek host = none →
      ∀ other ip, other ≠ host → pool.hostToIp.peek other = some ip →
        pool.hostToIp.victim host ≠ some other →
        ip ≠ pool.nextAddr ∧ pool.ipToHost.victim pool.nextAddr ≠ some ip
  | .reverseLookup _ => True

/-- A host that is in the cache gets the address that it has there, and becomes the most recently
used. -/
theorem lookup_hit {pool : FakeIpPool} {host : String} {ip : Ipv4Addr}
    (h : pool.hostToIp.peek host = some ip) :
    pool.lookup host = .ok (ip, { pool with hostToIp := (pool.hostToIp.get host).2 }) := by
  have hfst := pool.hostToIp.fst_get host
  rw [h] at hfst
  rw [lookup]
  split
  · next ip' cache heq =>
      rw [heq] at hfst
      obtain rfl : ip' = ip := Option.some.inj hfst
      simp [heq, pure, Except.pure]
  · next heq => simp [heq] at hfst

/-- The pool after a lookup of a host it does not remember. -/
def afterMiss (pool : FakeIpPool) (host : String) : FakeIpPool :=
  { pool with
    offset := (pool.offset + 1) % pool.usable
    ipToHost := pool.ipToHost.put pool.nextAddr host
    hostToIp := pool.hostToIp.put host pool.nextAddr }

/-- A lookup that misses allocates and writes both caches. -/
theorem lookup_miss {pool : FakeIpPool} {host : String}
    (h : pool.hostToIp.peek host = none) :
    pool.lookup host = do
      let (ip, pool) ← pool.allocate
      return (ip, { pool with
        ipToHost := pool.ipToHost.put ip host
        hostToIp := pool.hostToIp.put host ip }) := by
  have hfst := pool.hostToIp.fst_get host
  rw [h] at hfst
  rw [lookup]
  split
  · next heq => simp [heq] at hfst
  · rfl

/-- A host that is not in the cache gets the next address, and both caches learn of it. -/
theorem Allocates.lookup_miss {pool : FakeIpPool} (h : pool.Allocates) {host : String}
    (hmiss : pool.hostToIp.peek host = none) :
    pool.lookup host = .ok (pool.nextAddr, pool.afterMiss host) := by
  rw [FakeIpPool.lookup_miss hmiss, h.allocate_eq]
  rfl

/-- A pool that allocates does so after a miss as well. -/
theorem Allocates.afterMiss {pool : FakeIpPool} (h : pool.Allocates) (host : String) :
    (pool.afterMiss host).Allocates :=
  h.next rfl rfl rfl

/-- A usable pool is usable after a miss as well. -/
theorem Usable.afterMiss {pool : FakeIpPool} (h : pool.Usable) (host : String) :
    (pool.afterMiss host).Usable := by
  refine ⟨h.four_le, h.range_le, h.size_le, ?_⟩
  show ((pool.offset + 1) % pool.usable).toNat < pool.poolSize.toNat - 2
  rw [UInt32.toNat_mod, ← h.toNat_usable]
  exact Nat.mod_lt _ pool.usable_pos

/-- The ways a lookup can go in a pool that allocates. -/
theorem Allocates.lookup_cases {pool : FakeIpPool} (h : pool.Allocates) (host : String) :
    (∃ ip, pool.hostToIp.peek host = some ip ∧
      pool.lookup host = .ok (ip, { pool with hostToIp := (pool.hostToIp.get host).2 })) ∨
    (pool.hostToIp.peek host = none ∧
      pool.lookup host = .ok (pool.nextAddr, pool.afterMiss host)) := by
  cases hip : pool.hostToIp.peek host with
  | some ip => exact .inl ⟨ip, rfl, lookup_hit hip⟩
  | none => exact .inr ⟨rfl, h.lookup_miss hip⟩

/-- Every call of a pool that allocates succeeds: a reverse lookup and a lookup that hits
use a cache, and a lookup that misses allocates. -/
theorem Allocates.step_cases {pool : FakeIpPool} (h : pool.Allocates) (call : Call) :
    (∃ ip, call = .reverseLookup ip ∧
      pool.step call = .ok { pool with ipToHost := (pool.ipToHost.get ip).2 }) ∨
    (∃ host ip, call = .lookup host ∧ pool.hostToIp.peek host = some ip ∧
      pool.step call = .ok { pool with hostToIp := (pool.hostToIp.get host).2 }) ∨
    (∃ host, call = .lookup host ∧ pool.hostToIp.peek host = none ∧
      pool.step call = .ok (pool.afterMiss host)) := by
  cases call with
  | reverseLookup ip => exact .inl ⟨ip, rfl, rfl⟩
  | lookup host =>
      rcases h.lookup_cases host with ⟨ip, hip, hlookup⟩ | ⟨hmiss, hlookup⟩
      · refine .inr (.inl ⟨host, ip, rfl, hip, ?_⟩)
        rw [step, hlookup]
        rfl
      · refine .inr (.inr ⟨host, rfl, hmiss, ?_⟩)
        rw [step, hlookup]
        rfl

/-- In a usable pool the mapping is bidirectional exactly when `ipToHost` inverts
`hostToIp`: a miss always round-trips, since it has just written both caches. -/
theorem roundTrips_iff {pool : FakeIpPool} (hu : pool.Usable) :
    pool.RoundTrips ↔ pool.Inverse := by
  constructor
  · intro h host ip hip
    obtain ⟨ip', pool', hlookup, hrev⟩ := h host
    rw [lookup_hit hip] at hlookup
    obtain ⟨rfl, rfl⟩ := Prod.mk.inj (Except.ok.inj hlookup)
    simpa [reverseLookup] using hrev
  · intro h host
    rcases hu.allocates.lookup_cases host with ⟨ip, hip, hlookup⟩ | ⟨-, hlookup⟩
    · refine ⟨ip, _, hlookup, ?_⟩
      simpa [reverseLookup] using h host ip hip
    · refine ⟨pool.nextAddr, _, hlookup, ?_⟩
      simp [reverseLookup, afterMiss]

/-- Every call of a usable pool succeeds and leaves it usable. -/
theorem Usable.step_isOk {pool : FakeIpPool} (hu : pool.Usable) (call : Call) :
    ∃ pool', pool.step call = .ok pool' ∧ pool'.Usable := by
  have hsame : ∀ ipToHost hostToIp,
      { pool with ipToHost := ipToHost, hostToIp := hostToIp : FakeIpPool }.Usable :=
    fun _ _ => ⟨hu.four_le, hu.range_le, hu.size_le, hu.offset_lt⟩
  rcases hu.allocates.step_cases call with
    ⟨ip, -, hstep⟩ | ⟨host, ip, -, -, hstep⟩ | ⟨host, -, -, hstep⟩
  · exact ⟨_, hstep, hsame _ _⟩
  · exact ⟨_, hstep, hsame _ _⟩
  · exact ⟨_, hstep, hu.afterMiss host⟩

/-- A lookup that misses keeps the two directions inverse exactly when it satisfies
`KeepsMapping`. -/
theorem inverse_afterMiss_iff {pool : FakeIpPool} (hinv : pool.Inverse) {host : String}
    (hmiss : pool.hostToIp.peek host = none) :
    (pool.afterMiss host).Inverse ↔ pool.KeepsMapping (.lookup host) := by
  constructor
  · intro h _ other ip hne hother hkept
    have hother' : (pool.hostToIp.put host pool.nextAddr).peek other = some ip := by
      rw [Cache.peek_put, if_neg hne, if_neg hkept, hother]
    have hback : (pool.ipToHost.put pool.nextAddr host).peek ip = some other :=
      h other ip hother'
    rw [Cache.peek_put] at hback
    by_cases hreuse : ip = pool.nextAddr
    · rw [if_pos hreuse] at hback
      exact absurd (Option.some.inj hback).symm hne
    · rw [if_neg hreuse] at hback
      refine ⟨hreuse, fun hvictim => ?_⟩
      rw [if_pos hvictim] at hback
      cases hback
  · intro h other ip hother
    have hother' : (pool.hostToIp.put host pool.nextAddr).peek other = some ip := hother
    show (pool.ipToHost.put pool.nextAddr host).peek ip = some other
    rw [Cache.peek_put] at hother' ⊢
    by_cases hne : other = host
    · rw [if_pos hne] at hother'
      rw [if_pos (Option.some.inj hother').symm, hne]
    · rw [if_neg hne] at hother'
      by_cases hkept : pool.hostToIp.victim host = some other
      · rw [if_pos hkept] at hother'
        cases hother'
      · rw [if_neg hkept] at hother'
        obtain ⟨hreuse, hvictim⟩ := h hmiss other ip hne hother' hkept
        rw [if_neg hreuse, if_neg hvictim]
        exact hinv other ip hother'

/-- One call keeps the two directions inverse exactly when it satisfies `KeepsMapping`. -/
theorem inverse_step_iff {pool pool' : FakeIpPool} {call : Call} (hu : pool.Usable)
    (hinv : pool.Inverse) (hstep : pool.step call = .ok pool') :
    pool'.Inverse ↔ pool.KeepsMapping call := by
  rcases hu.allocates.step_cases call with
    ⟨ip, rfl, heq⟩ | ⟨host, ip, rfl, hip, heq⟩ | ⟨host, rfl, hmiss, heq⟩
  · obtain rfl := Except.ok.inj (hstep.symm.trans heq)
    refine iff_of_true (fun host ip' h => ?_) trivial
    simpa using hinv host ip' h
  · obtain rfl := Except.ok.inj (hstep.symm.trans heq)
    refine iff_of_true (fun other ip' h => hinv other ip' ?_) ?_
    · simpa using h
    · intro hmiss
      rw [hip] at hmiss
      cases hmiss
  · obtain rfl := Except.ok.inj (hstep.symm.trans heq)
    exact inverse_afterMiss_iff hinv hmiss

/-- **When the mapping is bidirectional.** Along a run of a pool with a prefix length
between 1 and 30, every host round-trips in every state exactly when every call of the run
satisfies `KeepsMapping`. -/
theorem always_roundTrips_iff {cidr : String} {capacity : ℕ} {ip : Ipv4Addr}
    {prefixLen : UInt32} {pool : FakeIpPool} (hcidr : parseCidr cidr = .ok (ip, prefixLen))
    (hlow : 1 ≤ prefixLen) (hhigh : prefixLen ≤ 30)
    (hnew : FakeIpPool.new cidr capacity = .ok (.ok pool)) (calls : List Call) :
    Run.Always step RoundTrips pool calls ↔ Run.EachStep step KeepsMapping pool calls := by
  obtain ⟨hu, hempty⟩ := usable_of_new hcidr hlow hhigh hnew
  have hinv : pool.Inverse := fun host ip h => by
    rw [hempty host] at h
    cases h
  have hok : ∀ s a, Usable s → ∃ s', step s a = .ok s' ∧ Usable s' :=
    fun s a hs => hs.step_isOk a
  refine Run.always_iff_eachStep hok ?_ hu ((roundTrips_iff hu).mpr hinv) calls
  intro s a s' hs hrt hstep
  obtain ⟨t, ht, htu⟩ := hs.step_isOk a
  obtain rfl : s' = t := Except.ok.inj (hstep.symm.trans ht)
  rw [roundTrips_iff htu]
  exact inverse_step_iff hs ((roundTrips_iff hs).mp hrt) hstep

/-- The pool of `FakeIpPool::new("10.0.0.0/30", 8)`: two addresses for up to eight hosts. -/
def smallPool : FakeIpPool where
  ipToHost := newLruCache 8
  hostToIp := newLruCache 8
  network := 0x0A000000
  mask := 0xFFFFFFFC
  poolSize := 4
  offset := 1

/-- The range of the small pool is read as its first address and the length of its prefix. -/
theorem parseCidr_smallPool :
    parseCidr "10.0.0.0/30" = .ok (.ofU32 0x0A000000, 30) := by
  decide +kernel

/-- The small pool is what the constructor makes of its range. -/
theorem new_smallPool : FakeIpPool.new "10.0.0.0/30" 8 = .ok (.ok smallPool) := by
  rw [FakeIpPool.new, parseCidr_smallPool]
  rfl

/-- The first lookup of the small pool and its reversal are a good run. -/
theorem always_roundTrips_smallPool :
    Run.Always step RoundTrips smallPool
      [.lookup "a.example", .reverseLookup (.ofU32 0x0A000002)] := by
  refine (always_roundTrips_iff parseCidr_smallPool (by decide) (by decide) new_smallPool
    _).mpr ⟨?_, fun _ _ => ⟨trivial, fun _ _ => trivial⟩⟩
  intro _ other ip _ h
  cases h

/-- What reversing gives for the address of `host` after the calls. -/
def reversedAfter (pool : FakeIpPool) (calls : List Call) (host : String) :
    Checked (Option String) := do
  let pool ← Run.exec step pool calls
  let (ip, pool) ← pool.lookup host
  return (pool.reverseLookup ip).1

/-- Where every call of a run keeps the round trip, the reverse lookup after the run gives the
host. -/
theorem reversedAfter_eq {pool : FakeIpPool} {calls : List Call} {host : String}
    {answer : Option String} (h : Run.Always step RoundTrips pool calls)
    (hanswer : pool.reversedAfter calls host = .ok answer) : answer = some host := by
  rw [reversedAfter] at hanswer
  cases hexec : Run.exec step pool calls with
  | error e =>
      rw [hexec] at hanswer
      cases hanswer
  | ok pool' =>
      obtain ⟨ip, pool'', hlookup, hrev⟩ :=
        Run.always_iff_exec.mp h calls List.prefix_rfl pool' hexec host
      rw [hexec] at hanswer
      simp only [bind, Except.bind, hlookup, pure, Except.pure, Except.ok.injEq] at hanswer
      rw [← hanswer, hrev]

/-- Three hosts in the small pool: the third one is given the address of the first, which
is still remembered. Looking the first one up and reversing then names the third. -/
theorem not_always_roundTrips :
    FakeIpPool.new "10.0.0.0/30" 8 = .ok (.ok smallPool) ∧
      smallPool.reversedAfter
          [.lookup "a.example", .lookup "b.example", .lookup "c.example"] "a.example" =
        .ok (some "c.example") ∧
      ¬ Run.Always step RoundTrips smallPool
          [.lookup "a.example", .lookup "b.example", .lookup "c.example"] := by
  have hanswer : smallPool.reversedAfter
      [.lookup "a.example", .lookup "b.example", .lookup "c.example"] "a.example" =
        .ok (some "c.example") := by
    decide +kernel
  refine ⟨new_smallPool, hanswer, fun h => ?_⟩
  exact absurd (reversedAfter_eq h hanswer) (by decide)

end FakeIpPool

end Redog
