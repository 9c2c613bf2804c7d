import Mathlib.Data.List.Rotate
import Redog.FakeIpRange

/-!
# The cycle of the FakeIP allocator

The offset of the allocator starts at 1 and is reduced when it is read and when it is moved.
So an allocation from any offset hands out one of the usable addresses, and the allocations
after it go through the others in order before that one comes again.

## Main results

* `allocateMany_eq`: which addresses consecutive allocations hand out.
* `allocateMany_cycle`: as many allocations as there are usable addresses hand out each of
  them once.
-/

namespace Redog

open Rust

/-- The residues from any start on, once around. -/
theorem map_add_mod_range_perm (start n : ℕ) :
    ((List.range n).map fun i => (start + i) % n).Perm (List.range n) := by
  have hrotate : (List.range n).rotate start =
      (List.range n).map fun i => (start + i) % n := by
    refine List.ext_getElem (by simp) fun i h _ => ?_
    rw [List.getElem_rotate, List.getElem_range, List.length_range, List.getElem_map,
      List.getElem_range, Nat.add_comm]
  rw [← hrotate]
  exact List.rotate_perm _ _

namespace FakeIpPool

/-- Consecutive calls of `FakeIpPool::allocate`, with the addresses they return. -/
def allocateMany : ℕ → FakeIpPool → Checked (List Ipv4Addr × FakeIpPool)
  | 0, pool => return ([], pool)
  | n + 1, pool => do
      let (ip, pool) ← pool.allocate
      let (ips, pool) ← allocateMany n pool
      return (ip :: ips, pool)

/-- The states a pool gets into by lookups and reverse lookups, and by allocations of lookups
that are still under way. -/
inductive Reachable (start : FakeIpPool) : FakeIpPool → Prop
  | start : Reachable start start
  | call {pool pool' : FakeIpPool} {call : Call} :
      Reachable start pool → pool.step call = .ok pool' → Reachable start pool'
  | allocate {pool pool' : FakeIpPool} {ip : Ipv4Addr} :
      Reachable start pool → pool.allocate = .ok (ip, pool') → Reachable start pool'

/-- An allocation leaves the range as it is. -/
theorem Allocates.allocate_keeps {pool pool' : FakeIpPool} {ip : Ipv4Addr}
    (h : pool.Allocates) (hpool' : pool.allocate = .ok (ip, pool')) :
    pool'.Allocates ∧ pool'.network = pool.network ∧ pool'.poolSize = pool.poolSize := by
  rw [h.allocate_eq] at hpool'
  obtain ⟨-, rfl⟩ := Prod.mk.inj (Except.ok.inj hpool')
  exact ⟨h.next rfl rfl rfl, rfl, rfl⟩

/-- The range is the same in all states a pool gets into. -/
theorem Reachable.allocates {start pool : FakeIpPool} (hreach : Reachable start pool)
    (h : start.Allocates) :
    pool.Allocates ∧ pool.network = start.network ∧ pool.poolSize = start.poolSize := by
  induction hreach with
  | start => exact ⟨h, rfl, rfl⟩
  | call _ hstep ih =>
      obtain ⟨halloc, hnetwork, hsize⟩ := ih
      obtain ⟨t, ht, halloc', hnetwork', -, hsize'⟩ := halloc.step_isOk _
      obtain rfl := Except.ok.inj (hstep.symm.trans ht)
      exact ⟨halloc', hnetwork'.trans hnetwork, hsize'.trans hsize⟩
  | allocate _ hpool' ih =>
      obtain ⟨halloc, hnetwork, hsize⟩ := ih
      obtain ⟨halloc', hnetwork', hsize'⟩ := halloc.allocate_keeps hpool'
      exact ⟨halloc', hnetwork'.trans hnetwork, hsize'.trans hsize⟩

/-- Consecutive allocations hand out the addresses from the offset on, around the cycle. -/
theorem Allocates.allocateMany_eq {pool : FakeIpPool} (h : pool.Allocates) (n : ℕ) :
    ∃ ips pool', pool.allocateMany n = .ok (ips, pool') ∧
      ips.map (·.toU32.toNat) = (List.range n).map fun i =>
        pool.network.toNat + 1 + (pool.offset.toNat + i) % pool.usable.toNat := by
  induction n generalizing pool with
  | zero => exact ⟨[], pool, rfl, rfl⟩
  | succ n ih =>
      have hnext : { pool with offset := (pool.offset + 1) % pool.usable }.Allocates :=
        h.next rfl rfl rfl
      obtain ⟨ips, pool', hpool', hips⟩ := ih hnext
      refine ⟨pool.nextAddr :: ips, pool', ?_, ?_⟩
      · rw [allocateMany, h.allocate_eq]
        simp only [bind, Except.bind, hpool']
        rfl
      · have hoffset : ((pool.offset + 1) % pool.usable).toNat =
            (pool.offset.toNat + 1) % pool.usable.toNat := by
          rw [UInt32.toNat_mod, UInt32.toNat_add, UInt32.toNat_one,
            Nat.mod_eq_of_lt h.offset_lt]
        rw [List.map_cons, hips, List.range_succ_eq_map, List.map_cons, List.map_map,
          h.toNat_nextAddr]
        refine congrArg₂ List.cons (Nat.add_right_comm _ _ _)
          (List.map_congr_left fun i _ => ?_)
        show pool.network.toNat + 1 + (((pool.offset + 1) % pool.usable).toNat + i) %
          pool.usable.toNat = pool.network.toNat + 1 + (pool.offset.toNat + (i + 1)) %
          pool.usable.toNat
        rw [hoffset, Nat.mod_add_mod, Nat.add_assoc pool.offset.toNat, Nat.add_comm 1 i]

/-- **The allocator is a full cycle.** In every state of a pool with a prefix length between 1
and 31, as many consecutive allocations as there are usable addresses succeed and hand out
each of the addresses behind the network address once. -/
theorem allocateMany_cycle {cidr : String} {capacity : ℕ} {ip : Ipv4Addr}
    {prefixLen : UInt32} {start pool : FakeIpPool}
    (hcidr : parseCidr cidr = .ok (ip, prefixLen)) (hlow : 1 ≤ prefixLen)
    (hhigh : prefixLen ≤ 31) (hnew : FakeIpPool.new cidr capacity = .ok (.ok start))
    (hreach : Reachable start pool) :
    ∃ ips pool', pool.allocateMany (max (2 ^ (32 - prefixLen.toNat) - 2) 1) =
        .ok (ips, pool') ∧
      (ips.map (·.toU32.toNat)).Perm (List.range' (start.network.toNat + 1)
        (max (2 ^ (32 - prefixLen.toNat) - 2) 1)) := by
  have hlow' : 1 ≤ prefixLen.toNat := UInt32.le_iff_toNat_le.mp hlow
  have hhigh' : prefixLen.toNat ≤ 31 := UInt32.le_iff_toNat_le.mp hhigh
  obtain ⟨start', hnew', hfresh⟩ := new_eq_ok capacity hcidr hlow hhigh
  obtain rfl := Except.ok.inj (Except.ok.inj (hnew.symm.trans hnew'))
  obtain ⟨halloc, hnetwork, hsize⟩ :=
    hreach.allocates (hfresh.inRange (by omega) (by omega)).toAllocates
  have husable : max (2 ^ (32 - prefixLen.toNat) - 2) 1 = pool.usable.toNat := by
    rw [toNat_usable, hsize, hfresh.poolSize_eq]
  rw [husable]
  obtain ⟨ips, pool', hpool', hips⟩ := halloc.allocateMany_eq pool.usable.toNat
  refine ⟨ips, pool', hpool', ?_⟩
  rw [hips, ← hnetwork, List.range'_eq_map_range]
  have hcycle := (map_add_mod_range_perm pool.offset.toNat pool.usable.toNat).map
    (pool.network.toNat + 1 + ·)
  rwa [List.map_map] at hcycle

/-- In a pool of two addresses, after a lookup. -/
theorem allocateMany_cycle_smallPool :
    ∃ ips pool', (smallPool.afterMiss "a.example").allocateMany (max (2 ^ (32 - 30) - 2) 1) =
        .ok (ips, pool') ∧
      (ips.map (·.toU32.toNat)).Perm (List.range' (0x0A000000 + 1)
        (max (2 ^ (32 - 30) - 2) 1)) := by
  have hstep : smallPool.step (.lookup "a.example") =
      .ok (smallPool.afterMiss "a.example") := rfl
  exact allocateMany_cycle parseCidr_smallPool (by decide) (by decide) new_smallPool
    (.call .start hstep)

end FakeIpPool

end Redog
