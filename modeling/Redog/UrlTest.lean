import Mathlib.Order.Bounds.Defs
import Redog.Adapters
import Redog.Checked
import Redog.Run

/-!
# Test groups

A test group measures the delay of each of its members from time to time and switches to the
fastest one, unless the gain over the member in use is within a tolerance. A failed probe
counts as the largest delay there is, and the comparison adds the tolerance to the smallest
delay at the width of the delays.

When all probes fail, or the tolerance is large, that sum does not fit: a debug build panics,
and a release build compares with the wrapped sum. The sum is compared with the delay of the
member in use, and wrapping makes it smaller only. So a release build may switch without a
gain, but never fails to switch for one.

## Main results

* `eachStep_realGain_iff`: a debug build switches for a real gain, and does not panic, in
  exactly the runs each round of which has a probe whose sum fits.
* `checkAll_wrapping`: after any rounds of a release build the member in use is at most the
  tolerance slower than the fastest.
-/

namespace Redog

open Rust Run

/-- `u16::MAX`, the delay of a failed probe. -/
def maxDelay : UInt16 := 65535

/-- `URLTest`, with what its rounds read and write. -/
structure URLTest (A : Type) where
  name : String
  proxies : List A
  tolerance : UInt16
  fastest : ℕ
  delays : List UInt16

namespace URLTest

variable {A : Type}

/-- `URLTest::new`: the group starts with its first member, and with the largest delay for every
member. -/
def new (name : String) (proxies : List A) (tolerance : UInt16) : URLTest A where
  name := name
  proxies := proxies
  tolerance := tolerance
  fastest := 0
  delays := List.replicate proxies.length maxDelay

/-- `URLTest::current`: the name of the chosen member, `DIRECT` where there is none at that
index. -/
def current [ProxyAdapter A] (group : URLTest A) : String :=
  ((group.proxies[group.fastest]?).map ProxyAdapter.name).getD "DIRECT"

/-- `URLTest::fastest_proxy`; `none` when a group without members panics. -/
def fastestProxy (group : URLTest A) : Option A :=
  chosen group.proxies group.fastest

/-- The results of a round: the delay `test_delay` has measured for each member. -/
def results (group : URLTest A) (measured : ℕ → UInt16) : List (ℕ × UInt16) :=
  (List.range group.proxies.length).map fun idx => (idx, measured idx)

/-- `URLTest::check_all`, with the addition of the build. -/
def checkAll (add : UInt16 → UInt16 → Checked UInt16) (group : URLTest A)
    (measured : ℕ → UInt16) : Checked (URLTest A) := do
  let results := group.results measured
  let delays ← results.foldlM (fun delays e => setIndex delays e.1 e.2) group.delays
  let currentDelay := (delays[group.fastest]?).getD maxDelay
  match results.minOn? Prod.snd with
  | some (newFastest, newDelay) => do
      let sum ← add newDelay group.tolerance
      if sum < currentDelay then return { group with delays := delays, fastest := newFastest }
      else return { group with delays := delays }
  | none => return { group with delays := delays }

/-! ### One round -/

/-- A group with members whose index and delays fit them. -/
structure Valid (group : URLTest A) (proxies : List A) (tolerance : UInt16) : Prop where
  proxies_eq : group.proxies = proxies
  tolerance_eq : group.tolerance = tolerance
  fastest_lt : group.fastest < proxies.length
  length_delays : group.delays.length = proxies.length

/-- A new group is valid when it has members: its index is the first, and each member has a
delay. -/
theorem valid_new (name : String) {proxies : List A} (hne : proxies ≠ []) (tolerance : UInt16) :
    (new name proxies tolerance).Valid proxies tolerance :=
  ⟨rfl, rfl, List.length_pos_iff.mpr hne, List.length_replicate⟩

/-- Writing a delay for each index overwrites them all. -/
theorem foldlM_setIndex (measured : ℕ → UInt16) (delays : List UInt16) :
    ((List.range delays.length).map fun idx => (idx, measured idx)).foldlM
      (fun delays e => setIndex delays e.1 e.2) delays =
        .ok ((List.range delays.length).map measured) := by
  have hpart : ∀ n ≤ delays.length,
      ((List.range n).map fun idx => (idx, measured idx)).foldlM
        (fun delays e => setIndex delays e.1 e.2) delays =
          .ok ((List.range n).map measured ++ delays.drop n) := by
    intro n hn
    induction n with
    | zero => rfl
    | succ n ih =>
        have hlen : ((List.range n).map measured).length = n := by
          rw [List.length_map, List.length_range]
        rw [List.range_succ, List.map_append, List.foldlM_append, ih (by omega),
          List.map_singleton]
        simp only [bind, Except.bind, List.foldlM_cons, List.foldlM_nil, pure, Except.pure]
        rw [setIndex_eq_ok (by rw [List.length_append, hlen, List.length_drop]; omega),
          List.set_append_right _ _ hlen.le, hlen, Nat.sub_self,
          List.drop_eq_getElem_cons (by omega), List.set_cons_zero, List.map_append,
          List.map_singleton, List.append_assoc, List.singleton_append]
  rw [hpart _ le_rfl, List.drop_length, List.append_nil]

/-- The delay of the member chosen by a round is the smallest, and that of the member in use
before is the one just measured. -/
theorem checkAll_eq (add : UInt16 → UInt16 → Checked UInt16) {group : URLTest A}
    {proxies : List A} {tolerance : UInt16} (h : group.Valid proxies tolerance)
    (measured : ℕ → UInt16) :
    ∃ best < proxies.length, (∀ idx < proxies.length, measured best ≤ measured idx) ∧
      group.checkAll add measured = do
        let sum ← add (measured best) tolerance
        return { group with
          delays := (List.range proxies.length).map measured
          fastest := if sum < measured group.fastest then best else group.fastest } := by
  have hne : group.results measured ≠ [] := by
    rw [results, Ne, List.map_eq_nil_iff, List.range_eq_nil, h.proxies_eq]
    have hlt := h.fastest_lt
    omega
  have hresults : ∀ idx < proxies.length, (idx, measured idx) ∈ group.results measured := by
    intro idx hidx
    rw [results, h.proxies_eq]
    exact List.mem_map_of_mem (List.mem_range.mpr hidx)
  have hmin : (group.results measured).minOn? Prod.snd =
      some ((group.results measured).minOn Prod.snd hne) := List.minOn?_eq_some_minOn hne
  have hbest : (group.results measured).minOn Prod.snd hne ∈ group.results measured :=
    List.minOn_mem
  obtain ⟨best, hrange, hpair⟩ := List.mem_map.mp hbest
  rw [List.mem_range, h.proxies_eq] at hrange
  refine ⟨best, hrange, fun idx hidx => ?_, ?_⟩
  · have hle := List.apply_minOn_le_of_mem (f := Prod.snd) (hresults idx hidx)
    rwa [← hpair] at hle
  · have hdelays := foldlM_setIndex measured group.delays
    rw [h.length_delays] at hdelays
    have hcurrent : ((List.range proxies.length).map measured)[group.fastest]? =
        some (measured group.fastest) := by
      rw [List.getElem?_map, List.getElem?_range h.fastest_lt, Option.map_some]
    rw [checkAll, hmin, ← hpair]
    simp only [results, h.proxies_eq, hdelays, hcurrent, h.tolerance_eq, bind, Except.bind,
      Option.getD_some]
    cases add (measured best) tolerance with
    | error e => rfl
    | ok sum =>
        simp only
        split_ifs <;> rfl

/-! ### Debug builds -/

/-- The delays a round has measured. -/
def measuredDelays (group : URLTest A) (measured : ℕ → UInt16) : Set ℕ :=
  {delay | ∃ idx < group.proxies.length, (measured idx).toNat = delay}

/-- The round goes through, and the group switches exactly when the smallest delay and the
tolerance together are less than the delay of the member in use. -/
def RealGain (group : URLTest A) (measured : ℕ → UInt16) : Prop :=
  ∃ group', group.checkAll u16Add measured = .ok group' ∧
    ∃ least, IsLeast (group.measuredDelays measured) least ∧
      (group'.fastest ≠ group.fastest ↔
        least + group.tolerance.toNat < (measured group.fastest).toNat)

/-- Some delay of the round and the tolerance fit into 16 bits together. -/
def SomeSumFits (proxies : List A) (tolerance : UInt16) (measured : ℕ → UInt16) : Prop :=
  ∃ idx < proxies.length, (measured idx).toNat + tolerance.toNat < 2 ^ 16

/-- A round that writes a delay for each member and an index among them leaves the group valid. -/
theorem Valid.next {group : URLTest A} {proxies : List A} {tolerance : UInt16}
    (h : group.Valid proxies tolerance) (measured : ℕ → UInt16) {idx : ℕ}
    (hidx : idx < proxies.length) :
    { group with delays := (List.range proxies.length).map measured, fastest := idx }.Valid
      proxies tolerance :=
  ⟨h.proxies_eq, h.tolerance_eq, hidx, by rw [List.length_map, List.length_range]⟩

/-- A round with a sum that fits goes through and leaves the group valid. -/
theorem checkAll_isOk {group : URLTest A} {proxies : List A} {tolerance : UInt16}
    (h : group.Valid proxies tolerance) {measured : ℕ → UInt16}
    (hfits : SomeSumFits proxies tolerance measured) :
    ∃ group', group.checkAll u16Add measured = .ok group' ∧ group'.Valid proxies tolerance := by
  obtain ⟨best, hbest, hle, hround⟩ := checkAll_eq u16Add h measured
  obtain ⟨idx, hidx, hsum⟩ := hfits
  have hmin : (measured best).toNat ≤ (measured idx).toNat := hle idx hidx
  rw [hround, u16Add, if_pos (by omega)]
  refine ⟨_, rfl, h.next measured ?_⟩
  split_ifs
  · exact hbest
  · exact h.fastest_lt

/-- **When a round of a debug build does what it should.** -/
theorem realGain_iff {group : URLTest A} {proxies : List A} {tolerance : UInt16}
    (h : group.Valid proxies tolerance) (measured : ℕ → UInt16) :
    group.RealGain measured ↔ SomeSumFits proxies tolerance measured := by
  obtain ⟨best, hbest, hle, hround⟩ := checkAll_eq u16Add h measured
  have hmin : ∀ idx < proxies.length, (measured best).toNat ≤ (measured idx).toNat :=
    fun idx hidx => hle idx hidx
  constructor
  · rintro ⟨group', hgroup', -⟩
    rw [hround, u16Add] at hgroup'
    split_ifs at hgroup' with hfits
    · exact ⟨best, hbest, hfits⟩
    · cases hgroup'
  · rintro ⟨idx, hidx, hsum⟩
    have hbound := hmin idx hidx
    have hfits : (measured best).toNat + tolerance.toNat < 2 ^ 16 := by omega
    have hadd : (measured best + tolerance).toNat = (measured best).toNat + tolerance.toNat := by
      rw [UInt16.toNat_add, Nat.mod_eq_of_lt hfits]
    rw [u16Add, if_pos hfits] at hround
    refine ⟨_, hround, (measured best).toNat, ⟨⟨best, ?_, rfl⟩, ?_⟩, ?_⟩
    · rwa [h.proxies_eq]
    · rintro delay ⟨idx, hidx, rfl⟩
      rw [h.proxies_eq] at hidx
      exact hmin idx hidx
    · rw [h.tolerance_eq, ← hadd, ← UInt16.lt_iff_toNat_lt]
      show (if measured best + tolerance < measured group.fastest then best
        else group.fastest) ≠ group.fastest ↔ _
      split_ifs with hlt
      · refine iff_of_true ?_ hlt
        rintro rfl
        rw [UInt16.lt_iff_toNat_lt, hadd] at hlt
        omega
      · exact iff_of_false (fun hne => hne rfl) hlt

/-- **When a debug build switches for a real gain.** In a run of rounds of a group with
members every round does exactly when each of them has a delay that fits into 16 bits with
the tolerance. -/
theorem eachStep_realGain_iff (name : String) {proxies : List A} (hne : proxies ≠ [])
    (tolerance : UInt16) (rounds : List (ℕ → UInt16)) :
    EachStep (checkAll u16Add) RealGain (new name proxies tolerance) rounds ↔
      ∀ measured ∈ rounds, SomeSumFits proxies tolerance measured := by
  have hInv : ∀ (group : URLTest A) (measured : ℕ → UInt16), group.Valid proxies tolerance →
      SomeSumFits proxies tolerance measured →
      ∃ group', group.checkAll u16Add measured = .ok group' ∧ group'.Valid proxies tolerance :=
    fun _ _ h hfits => checkAll_isOk h hfits
  have hstep : ∀ (group : URLTest A) (measured : ℕ → UInt16), group.Valid proxies tolerance →
      (group.RealGain measured ↔ SomeSumFits proxies tolerance measured) :=
    fun _ measured h => realGain_iff h measured
  exact eachStep_iff_forall hInv hstep (valid_new name hne tolerance)

/-- Two members of which the second is faster by more than a tolerance of 50. -/
def secondFaster (idx : ℕ) : UInt16 :=
  if idx = 0 then 200 else 100

/-- The group switches to the faster one. -/
theorem eachStep_realGain_sample :
    EachStep (checkAll u16Add) RealGain (new "auto" [Adapter.direct, .reject] 50)
      [secondFaster] := by
  refine (eachStep_realGain_iff "auto" (List.cons_ne_nil _ _) 50 _).mpr ?_
  rw [List.forall_mem_singleton]
  exact ⟨0, Nat.zero_lt_two, by decide⟩

/-- All probes fail: a debug build panics. A release build goes back to the first member,
which is no faster. -/
theorem failedProbes_overflow :
    (new "auto" [Adapter.direct, .reject] 50).checkAll u16Add (fun _ => maxDelay) =
        .error .arithmeticOverflow ∧
      ¬ (new "auto" [Adapter.direct, .reject] 50).RealGain (fun _ => maxDelay) ∧
      (exec (checkAll u16WrappingAdd) (new "auto" [Adapter.direct, .reject] 50)
        [secondFaster]).map fastest = .ok 1 ∧
      (exec (checkAll u16WrappingAdd) (new "auto" [Adapter.direct, .reject] 50)
        [secondFaster, fun _ => maxDelay]).map fastest = .ok 0 := by
  have hpanic : (new "auto" [Adapter.direct, .reject] 50).checkAll u16Add (fun _ => maxDelay) =
      .error .arithmeticOverflow := rfl
  refine ⟨hpanic, ?_, rfl, rfl⟩
  rintro ⟨group', hgroup', -⟩
  rw [hpanic] at hgroup'
  cases hgroup'

/-! ### Release builds -/

/-- What holds of a group after a round: the index is one of a member, which is the member
used and shown, the delays are those of the round, and the delay of the member is at most the
tolerance more than any other. -/
structure NearFastest [ProxyAdapter A] (group : URLTest A) (proxies : List A)
    (tolerance : UInt16) (measured : ℕ → UInt16) : Prop where
  used : ∃ proxy, proxies[group.fastest]? = some proxy ∧
    group.fastestProxy = some proxy ∧ group.current = ProxyAdapter.name proxy
  delays_eq : group.delays = (List.range proxies.length).map measured
  delay_le : ∀ idx < proxies.length,
    (measured group.fastest).toNat ≤ (measured idx).toNat + tolerance.toNat

/-- A round of a release build goes through, and keeps the member in use or moves to the
fastest one. The wrapped sum is at most the exact one. -/
theorem checkAll_wrapping_step [ProxyAdapter A] {group : URLTest A} {proxies : List A}
    {tolerance : UInt16} (h : group.Valid proxies tolerance) (measured : ℕ → UInt16) :
    ∃ group', group.checkAll u16WrappingAdd measured = .ok group' ∧
      group'.Valid proxies tolerance ∧ group'.NearFastest proxies tolerance measured := by
  obtain ⟨best, hbest, hle, hround⟩ := checkAll_eq u16WrappingAdd h measured
  have hmin : ∀ idx < proxies.length, (measured best).toNat ≤ (measured idx).toNat :=
    fun idx hidx => hle idx hidx
  set idx' := if measured best + tolerance < measured group.fastest then best
    else group.fastest with hidx'
  have hlt : idx' < proxies.length := by
    rw [hidx']
    split_ifs
    · exact hbest
    · exact h.fastest_lt
  refine ⟨_, hround, h.next measured hlt, ⟨proxies[idx'], ?_, ?_, ?_⟩, rfl, fun idx hidx => ?_⟩
  · exact List.getElem?_eq_getElem hlt
  · show chosen group.proxies idx' = some proxies[idx']
    rw [chosen, h.proxies_eq, List.getElem?_eq_getElem hlt, Option.some_or]
  · show ((group.proxies[idx']?).map ProxyAdapter.name).getD "DIRECT" = _
    rw [h.proxies_eq, List.getElem?_eq_getElem hlt, Option.map_some, Option.getD_some]
  · show (measured idx').toNat ≤ (measured idx).toNat + tolerance.toNat
    have hbound := hmin idx hidx
    rw [hidx']
    split_ifs with hswitch
    · omega
    · have hwrap : (measured best + tolerance).toNat ≤
          (measured best).toNat + tolerance.toNat := by
        rw [UInt16.toNat_add]
        exact Nat.mod_le _ _
      have hkeep : (measured group.fastest).toNat ≤ (measured best + tolerance).toNat :=
        UInt16.le_iff_toNat_le.mp (UInt16.not_lt.mp hswitch)
      omega

/-- Rounds of a release build go through. -/
theorem exec_wrapping [ProxyAdapter A] {group : URLTest A} {proxies : List A}
    {tolerance : UInt16} (h : group.Valid proxies tolerance) (rounds : List (ℕ → UInt16)) :
    ∃ group', exec (checkAll u16WrappingAdd) group rounds = .ok group' ∧
      group'.Valid proxies tolerance := by
  induction rounds generalizing group with
  | nil => exact ⟨group, rfl, h⟩
  | cons measured rounds ih =>
      obtain ⟨t, ht, hvalid, -⟩ := checkAll_wrapping_step h measured
      obtain ⟨group', hexec, hgroup'⟩ := ih hvalid
      exact ⟨group', exec_cons_eq_ok_iff.mpr ⟨t, ht, hexec⟩, hgroup'⟩

/-- **Near the fastest after every round.** After any rounds of a release build on a group
with members the member in use is at most the tolerance slower than the fastest. -/
theorem checkAll_wrapping [ProxyAdapter A] (name : String) {proxies : List A}
    (hne : proxies ≠ []) (tolerance : UInt16) (rounds : List (ℕ → UInt16))
    (measured : ℕ → UInt16) :
    ∃ group, exec (checkAll u16WrappingAdd) (new name proxies tolerance)
        (rounds ++ [measured]) = .ok group ∧
      group.fastest < proxies.length ∧ group.NearFastest proxies tolerance measured := by
  obtain ⟨group, hexec, hvalid⟩ := exec_wrapping (valid_new name hne tolerance) rounds
  obtain ⟨group', hround, hvalid', hnear⟩ := checkAll_wrapping_step hvalid measured
  refine ⟨group', exec_append_eq_ok_iff.mpr ⟨group, hexec, ?_⟩, hvalid'.fastest_lt, hnear⟩
  exact exec_cons_eq_ok_iff.mpr ⟨group', hround, rfl⟩

/-- One round of two members, the second of which is the faster one. -/
theorem checkAll_wrapping_sample :
    ∃ group, exec (checkAll u16WrappingAdd) (new "auto" [Adapter.direct, .reject] 50)
        ([] ++ [secondFaster]) = .ok group ∧
      group.fastest < 2 ∧ group.NearFastest [Adapter.direct, .reject] 50 secondFaster :=
  checkAll_wrapping "auto" (List.cons_ne_nil _ _) 50 [] secondFaster

end URLTest

end Redog
