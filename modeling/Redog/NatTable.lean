import Mathlib.Data.List.AList
import Redog.Checked
import Redog.Run

/-!
# The NAT table

The sessions of UDP clients. A session is put into the table by `insert`, which replaces one
under the same key, and every `get` that finds it notes the time. `cleanup` drops the sessions
that have not been used for the timeout, and only then does a session expire: between two
cleanups it is found however old it is.

What a call should return can be read off the calls before it, without the table: `Live` says
which session a history leaves behind.

## Main results

* `Follows`: the table holds the sessions that the history leaves behind.
* `history_correct`: every call returns what the history before it says.
-/

namespace Redog

open Rust Run

/-! ### The code -/

/-- `UdpSession`: where the datagrams of a key go, and when the session was last used. -/
structure UdpSession (D : Type) where
  datagram : D
  lastActive : ℕ
deriving DecidableEq

/-- `NatTable`, without the token that ends its cleanup loop. -/
structure NatTable (D : Type) where
  table : AList fun _ : String => UdpSession D
  timeout : ℕ

/-- `DashMap::retain`: the entries that pass stay, and none of them is changed. -/
def retain {K V : Type} (p : K → V → Bool) (map : AList fun _ : K => V) :
    AList fun _ : K => V where
  entries := map.entries.filter fun e => p e.1 e.2
  nodupKeys := map.nodupKeys.sublist List.filter_sublist

namespace NatTable

variable {D : Type}

/-- `NatTable::new`: a table without sessions that drops those unused for as long as the timeout. -/
def new (timeout : ℕ) : NatTable D := ⟨∅, timeout⟩

/-- `NatTable::get`: the datagram of the session, if there is one. Asking for it counts as a use. -/
def get (nat : NatTable D) (now : ℕ) (key : String) : Option D × NatTable D :=
  match nat.table.lookup key with
  | some session =>
      (some session.datagram,
        { nat with table := nat.table.insert key { session with lastActive := now } })
  | none => (none, nat)

/-- `NatTable::insert`: a session that was used just now takes the place of the one under the
key. -/
def insert (nat : NatTable D) (now : ℕ) (key : String) (datagram : D) : NatTable D :=
  { nat with table := nat.table.insert key ⟨datagram, now⟩ }

/-- `NatTable::remove`: the session goes, whether it has expired or not. -/
def remove (nat : NatTable D) (key : String) : NatTable D :=
  { nat with table := nat.table.erase key }

/-- `NatTable::len`: how many sessions there are, those that have expired among them. -/
def len (nat : NatTable D) : ℕ := nat.table.entries.length

/-- The test of `cleanup`: `last_active.elapsed() < timeout`. -/
def unexpired (nat : NatTable D) (now : ℕ) (session : UdpSession D) : Bool :=
  now - session.lastActive < nat.timeout

/-- The second step of `cleanup`, which drops the expired sessions and counts nothing. -/
def retainUnexpired (nat : NatTable D) (now : ℕ) : NatTable D :=
  { nat with table := retain (fun _ session => nat.unexpired now session) nat.table }

/-- `NatTable::cleanup`, executed atomically: the expired sessions go, and their number is the
difference of two counts. -/
def cleanup (nat : NatTable D) (now : ℕ) : Checked (ℕ × NatTable D) := do
  let before := nat.len
  let nat := nat.retainUnexpired now
  let removed ← usizeSub before nat.len
  return (removed, nat)

end NatTable

/-! ### Calls -/

/-- A call on the table, without the moment it is made at. -/
inductive NatCall (D : Type)
  | insert (key : String) (datagram : D)
  | get (key : String)
  | remove (key : String)
  | cleanup

/-- What a call returns: nothing, the datagram it found or did not find, or how many sessions it
dropped. -/
inductive NatResult (D : Type)
  | done
  | found (datagram : Option D)
  | removed (n : ℕ)

/-- A call at a time, with what it has returned. -/
structure NatEvent (D : Type) where
  now : ℕ
  call : NatCall D
  result : NatResult D

variable {D : Type}

/-- A call on the table at a moment, with what it returns. A cleanup is one step here. -/
def NatTable.call (nat : NatTable D) (now : ℕ) : NatCall D → Checked (NatResult D × NatTable D)
  | .insert key datagram => return (.done, nat.insert now key datagram)
  | .get key =>
      let (datagram, nat) := nat.get now key
      return (.found datagram, nat)
  | .remove key => return (.done, nat.remove key)
  | .cleanup => do
      let (removed, nat) ← nat.cleanup now
      return (.removed removed, nat)

/-- A table with the calls made on it, the latest first. -/
structure NatHistory (D : Type) where
  nat : NatTable D
  history : List (NatEvent D)

namespace NatHistory

/-- An empty table, with no call in its history. -/
def start (timeout : ℕ) : NatHistory D := ⟨.new timeout, []⟩

/-- A call is made at a time. -/
def step (s : NatHistory D) (call : ℕ × NatCall D) : Checked (NatHistory D) := do
  let (result, nat) ← s.nat.call call.1 call.2
  return ⟨nat, ⟨call.1, call.2, result⟩ :: s.history⟩

end NatHistory

/-! ### What a history says -/

namespace NatEvent

/-- The call puts a session under the key, or finds one there. -/
def Uses (key : String) (e : NatEvent D) : Prop :=
  (∃ datagram, e.call = .insert key datagram) ∨
    e.call = .get key ∧ ∃ datagram, e.result = .found (some datagram)

/-- The time of the latest use of the key. -/
def LastUse (key : String) (t : ℕ) : List (NatEvent D) → Prop :=
  Since (fun e _ => ¬ e.Uses key) (fun e _ => e.Uses key ∧ e.now = t)

/-- The call neither replaces nor removes the session of the key, and is no cleanup that finds
it unused for the timeout. -/
structure Spares (timeout : ℕ) (key : String) (e : NatEvent D) (earlier : List (NatEvent D)) :
    Prop where
  not_insert : ∀ datagram, e.call ≠ .insert key datagram
  not_remove : e.call ≠ .remove key
  not_expired : e.call = .cleanup → ∀ t, LastUse key t earlier → e.now - t < timeout

/-- The latest session put under the key is still there. -/
def Live (timeout : ℕ) (key : String) (datagram : D) : List (NatEvent D) → Prop :=
  Since (Spares timeout key) fun e _ => e.call = .insert key datagram

/-- The call has returned what the history before it says. -/
def Correct (timeout : ℕ) (earlier : List (NatEvent D)) (e : NatEvent D) : Prop :=
  match e.call with
  | .insert _ _ | .remove _ => e.result = .done
  | .get key => ∃ answer, e.result = .found answer ∧
      ∀ datagram, answer = some datagram ↔ Live timeout key datagram earlier
  | .cleanup => ∃ keys : List String, e.result = .removed keys.length ∧ keys.Nodup ∧
      ∀ key, key ∈ keys ↔ (∃ datagram, Live timeout key datagram earlier) ∧
        ¬ ∃ datagram, Live timeout key datagram (e :: earlier)

/-- A session has been used when it was put there. -/
theorem exists_lastUse {timeout : ℕ} {key : String} {datagram : D}
    {history : List (NatEvent D)} (h : Live timeout key datagram history) :
    ∃ t, LastUse key t history := by
  induction history with
  | nil => exact absurd h not_since_nil
  | cons e history ih =>
      by_cases huses : e.Uses key
      · exact ⟨e.now, since_cons.mpr (.inl ⟨huses, rfl⟩)⟩
      · rcases since_cons.mp h with hinsert | ⟨-, hlive⟩
        · exact absurd (.inl ⟨datagram, hinsert⟩) huses
        · obtain ⟨t, ht⟩ := ih hlive
          exact ⟨t, since_cons.mpr (.inr ⟨huses, ht⟩)⟩

/-- A key has been used last at one time only. -/
theorem LastUse.unique {key : String} {t t' : ℕ} {history : List (NatEvent D)}
    (h : LastUse key t history) (h' : LastUse key t' history) : t = t' := by
  induction history with
  | nil => exact absurd h not_since_nil
  | cons e history ih =>
      rcases since_cons.mp h with ⟨huses, rfl⟩ | ⟨hnot, ht⟩
      · rcases since_cons.mp h' with ⟨-, rfl⟩ | ⟨hnot, -⟩
        · rfl
        · exact absurd huses hnot
      · rcases since_cons.mp h' with ⟨huses, -⟩ | ⟨-, ht'⟩
        · exact absurd huses hnot
        · exact ih ht ht'

end NatEvent

/-! ### What the table holds -/

/-- What is retained is what was there and satisfies the condition. -/
theorem lookup_retain_eq_some_iff {V : Type} {p : String → V → Bool}
    {map : AList fun _ : String => V} {key : String} {v : V} :
    (retain p map).lookup key = some v ↔ map.lookup key = some v ∧ p key v := by
  rw [← Option.mem_def, ← Option.mem_def, AList.mem_lookup_iff, AList.mem_lookup_iff]
  exact List.mem_filter

namespace NatTable

/-- Finding a session is like putting it there again. -/
theorem get_of_lookup {nat : NatTable D} {now : ℕ} {key : String} {session : UdpSession D}
    (h : nat.table.lookup key = some session) :
    nat.get now key = (some session.datagram, nat.insert now key session.datagram) := by
  rw [get, h]
  rfl

/-- A key that is not there is not found, and nothing changes. -/
theorem get_of_lookup_eq_none {nat : NatTable D} {now : ℕ} {key : String}
    (h : nat.table.lookup key = none) : nat.get now key = (none, nat) := by
  rw [get, h]

/-- Dropping expired sessions does not make the table longer. -/
theorem len_retainUnexpired_le (nat : NatTable D) (now : ℕ) :
    (nat.retainUnexpired now).len ≤ nat.len :=
  List.length_filter_le _ _

/-- A cleanup on its own succeeds: it drops the expired sessions and returns how many there were. -/
theorem cleanup_eq (nat : NatTable D) (now : ℕ) :
    nat.cleanup now =
      .ok (nat.len - (nat.retainUnexpired now).len, nat.retainUnexpired now) := by
  rw [cleanup, usizeSub_eq_ok (nat.len_retainUnexpired_le now)]
  rfl

/-- The keys of the sessions that a cleanup drops. -/
def expiredKeys (nat : NatTable D) (now : ℕ) : List String :=
  (nat.table.entries.filter fun e => !nat.unexpired now e.2).map Sigma.fst

/-- The number a cleanup returns is that of the expired keys. -/
theorem length_expiredKeys (nat : NatTable D) (now : ℕ) :
    (nat.expiredKeys now).length = nat.len - (nat.retainUnexpired now).len := by
  have hsum := List.length_eq_length_filter_add (l := nat.table.entries)
    fun e => nat.unexpired now e.2
  rw [expiredKeys, List.length_map]
  show _ = nat.table.entries.length -
    (nat.table.entries.filter fun e => nat.unexpired now e.2).length
  omega

/-- No expired key is counted twice, as no key is twice in the table. -/
theorem nodup_expiredKeys (nat : NatTable D) (now : ℕ) : (nat.expiredKeys now).Nodup :=
  nat.table.keys_nodup.sublist (List.filter_sublist.map Sigma.fst)

/-- The expired keys are those of the sessions whose last use is too long ago. -/
theorem mem_expiredKeys_iff {nat : NatTable D} {now : ℕ} {key : String} :
    key ∈ nat.expiredKeys now ↔
      ∃ session, nat.table.lookup key = some session ∧ nat.unexpired now session = false := by
  constructor
  · intro h
    obtain ⟨⟨key, session⟩, he, rfl⟩ := List.mem_map.mp h
    obtain ⟨hmem, hexpired⟩ := List.mem_filter.mp he
    refine ⟨session, AList.mem_lookup_iff.mpr hmem, ?_⟩
    simpa using hexpired
  · rintro ⟨session, hlookup, hexpired⟩
    refine List.mem_map.mpr ⟨⟨key, session⟩, List.mem_filter.mpr
      ⟨AList.mem_lookup_iff.mp hlookup, ?_⟩, rfl⟩
    simpa using hexpired

end NatTable

/-! ### The table follows the history -/

namespace NatEvent

/-- An event that spares a key does not change whether its session lives. -/
theorem live_cons_of_spares {timeout : ℕ} {key : String} {datagram : D} {e : NatEvent D}
    {history : List (NatEvent D)} (h : e.Spares timeout key history) :
    Live timeout key datagram (e :: history) ↔ Live timeout key datagram history := by
  rw [Live, since_cons]
  constructor
  · rintro (hinsert | ⟨-, hlive⟩)
    · exact absurd hinsert (h.not_insert datagram)
    · exact hlive
  · exact fun hlive => .inr ⟨h, hlive⟩

/-- After an event that uses the key, its time is that of the last use. -/
theorem lastUse_cons_of_uses {key : String} {t : ℕ} {e : NatEvent D}
    {history : List (NatEvent D)} (h : e.Uses key) :
    LastUse key t (e :: history) ↔ e.now = t := by
  rw [LastUse, since_cons]
  constructor
  · rintro (⟨-, ht⟩ | ⟨hnot, -⟩)
    · exact ht
    · exact absurd h hnot
  · exact fun ht => .inl ⟨h, ht⟩

/-- An event that does not use the key does not change the time of the last use. -/
theorem lastUse_cons_of_not_uses {key : String} {t : ℕ} {e : NatEvent D}
    {history : List (NatEvent D)} (h : ¬ e.Uses key) :
    LastUse key t (e :: history) ↔ LastUse key t history := by
  rw [LastUse, since_cons]
  constructor
  · rintro (⟨huses, -⟩ | ⟨-, ht⟩)
    · exact absurd huses h
    · exact ht
  · exact fun ht => .inr ⟨h, ht⟩

end NatEvent

namespace NatTable

open NatEvent

/-- The table holds the sessions that the history leaves behind, with the times of their
latest use. -/
structure Follows (nat : NatTable D) (history : List (NatEvent D)) : Prop where
  lookup_iff : ∀ key datagram t, nat.table.lookup key = some ⟨datagram, t⟩ ↔
    Live nat.timeout key datagram history ∧ LastUse key t history

namespace Follows

variable {nat : NatTable D} {history : List (NatEvent D)}

/-- A table that follows its history holds the sessions that live, and no others. -/
theorem live_iff (h : nat.Follows history) {key : String} {datagram : D} :
    Live nat.timeout key datagram history ↔
      ∃ t, nat.table.lookup key = some ⟨datagram, t⟩ := by
  constructor
  · intro hlive
    obtain ⟨t, ht⟩ := exists_lastUse hlive
    exact ⟨t, (h.lookup_iff key datagram t).mpr ⟨hlive, ht⟩⟩
  · rintro ⟨t, hlookup⟩
    exact ((h.lookup_iff key datagram t).mp hlookup).1

/-- A call that neither uses a key nor ends its session leaves what is said of it. -/
theorem frame (h : nat.Follows history) (nat' : NatTable D) {e : NatEvent D} {key : String}
    (htimeout : nat'.timeout = nat.timeout)
    (hlookup : nat'.table.lookup key = nat.table.lookup key)
    (hspares : e.Spares nat.timeout key history) (huses : ¬ e.Uses key) (datagram : D) (t : ℕ) :
    nat'.table.lookup key = some ⟨datagram, t⟩ ↔
      Live nat'.timeout key datagram (e :: history) ∧ LastUse key t (e :: history) := by
  rw [htimeout, hlookup, live_cons_of_spares hspares, lastUse_cons_of_not_uses huses]
  exact h.lookup_iff key datagram t

/-- A table follows its history after an insertion: the new session lives, and the others are as
before. -/
theorem insert (h : nat.Follows history) (now : ℕ) (key : String) (datagram : D)
    (result : NatResult D) :
    (nat.insert now key datagram).Follows (⟨now, .insert key datagram, result⟩ :: history) := by
  refine ⟨fun other datagram' t => ?_⟩
  by_cases hkey : other = key
  · subst hkey
    have huses : NatEvent.Uses other ⟨now, .insert other datagram, result⟩ :=
      .inl ⟨datagram, rfl⟩
    have hlookup : (nat.insert now other datagram).table.lookup other = some ⟨datagram, now⟩ :=
      AList.lookup_insert _
    rw [hlookup, lastUse_cons_of_uses huses, Live, since_cons]
    constructor
    · intro heq
      obtain ⟨rfl, rfl⟩ := UdpSession.mk.inj (Option.some.inj heq)
      exact ⟨.inl rfl, rfl⟩
    · rintro ⟨heq | ⟨hspares, -⟩, rfl⟩
      · obtain ⟨-, rfl⟩ := NatCall.insert.inj heq
        rfl
      · exact absurd rfl (hspares.not_insert datagram)
  · have hspares : NatEvent.Spares nat.timeout other ⟨now, .insert key datagram, result⟩
        history := by
      refine ⟨fun datagram'' heq => ?_, by rintro ⟨⟩, by rintro ⟨⟩⟩
      exact hkey (NatCall.insert.inj heq).1.symm
    refine h.frame (nat.insert now key datagram) rfl (AList.lookup_insert_ne hkey) hspares ?_
      datagram' t
    rintro (⟨datagram'', heq⟩ | ⟨heq, -⟩)
    · exact hkey (NatCall.insert.inj heq).1.symm
    · cases heq

/-- A table follows its history after a removal: the session does not live any more, and the others
are as before. -/
theorem remove (h : nat.Follows history) (now : ℕ) (key : String) (result : NatResult D) :
    (nat.remove key).Follows (⟨now, .remove key, result⟩ :: history) := by
  refine ⟨fun other datagram t => ?_⟩
  by_cases hkey : other = key
  · subst hkey
    have hlookup : (nat.remove other).table.lookup other = none := AList.lookup_erase _ _
    rw [hlookup, Live, since_cons]
    refine iff_of_false (Option.some_ne_none _).symm ?_
    rintro ⟨heq | ⟨hspares, -⟩, -⟩
    · cases heq
    · exact hspares.not_remove rfl
  · have hspares : NatEvent.Spares nat.timeout other ⟨now, .remove key, result⟩ history := by
      refine ⟨by rintro _ ⟨⟩, fun heq => ?_, by rintro ⟨⟩⟩
      exact hkey (NatCall.remove.inj heq).symm
    refine h.frame (nat.remove key) rfl (AList.lookup_erase_ne hkey) hspares ?_ datagram t
    rintro (⟨datagram', heq⟩ | ⟨heq, -⟩) <;> cases heq

/-- Asking for a key spares the sessions of all keys. -/
theorem spares_get (now : ℕ) (key other : String) (answer : Option D) :
    NatEvent.Spares nat.timeout other ⟨now, .get key, .found answer⟩ history :=
  ⟨by rintro _ ⟨⟩, by rintro ⟨⟩, by rintro ⟨⟩⟩

/-- A table follows its history after a session was found: it has been used just now. -/
theorem get_some (h : nat.Follows history) (now : ℕ) {key : String} {session : UdpSession D}
    (hsession : nat.table.lookup key = some session) :
    (nat.insert now key session.datagram).Follows
      (⟨now, .get key, .found (some session.datagram)⟩ :: history) := by
  refine ⟨fun other datagram t => ?_⟩
  by_cases hkey : other = key
  · subst hkey
    have huses : NatEvent.Uses other ⟨now, .get other, .found (some session.datagram)⟩ :=
      .inr ⟨rfl, session.datagram, rfl⟩
    have hlookup : (nat.insert now other session.datagram).table.lookup other =
        some ⟨session.datagram, now⟩ := AList.lookup_insert _
    have hlive : Live (nat.insert now other session.datagram).timeout other datagram
        (⟨now, .get other, .found (some session.datagram)⟩ :: history) ↔ _ :=
      live_cons_of_spares (spares_get now other other (some session.datagram))
    rw [hlookup, lastUse_cons_of_uses huses, hlive]
    refine ⟨fun heq => ?_, ?_⟩
    · obtain ⟨rfl, rfl⟩ := UdpSession.mk.inj (Option.some.inj heq)
      exact ⟨h.live_iff.mpr ⟨session.lastActive, hsession⟩, rfl⟩
    · rintro ⟨hlive, rfl⟩
      obtain ⟨t', ht'⟩ := h.live_iff.mp hlive
      obtain rfl := Option.some.inj (hsession.symm.trans ht')
      rfl
  · refine h.frame (nat.insert now key session.datagram) rfl (AList.lookup_insert_ne hkey)
      (spares_get _ _ _ _) ?_ datagram t
    rintro (⟨datagram', heq⟩ | ⟨heq, -⟩)
    · cases heq
    · exact hkey (NatCall.get.inj heq).symm

/-- A table follows its history after a key was not found. -/
theorem get_none (h : nat.Follows history) (now : ℕ) (key : String) :
    nat.Follows (⟨now, .get key, .found none⟩ :: history) := by
  refine ⟨fun other datagram t => h.frame nat rfl rfl (spares_get _ _ _ _) ?_ datagram t⟩
  rintro (⟨datagram', heq⟩ | ⟨-, datagram', heq⟩)
  · cases heq
  · cases heq

/-- A table follows its history after a cleanup: the sessions that were used recently enough live
on. -/
theorem cleanup (h : nat.Follows history) (now : ℕ) (result : NatResult D) :
    (nat.retainUnexpired now).Follows (⟨now, .cleanup, result⟩ :: history) := by
  refine ⟨fun key datagram t => ?_⟩
  have hunused : ¬ NatEvent.Uses key (⟨now, .cleanup, result⟩ : NatEvent D) := by
    rintro (⟨datagram', heq⟩ | ⟨heq, -⟩) <;> cases heq
  have hlookup : (nat.retainUnexpired now).table.lookup key = some ⟨datagram, t⟩ ↔
      nat.table.lookup key = some ⟨datagram, t⟩ ∧ now - t < nat.timeout := by
    rw [retainUnexpired, lookup_retain_eq_some_iff, unexpired, decide_eq_true_iff]
  have hlive : Live (nat.retainUnexpired now).timeout key datagram
      (⟨now, .cleanup, result⟩ :: history) ↔ _ := since_cons
  rw [hlookup, h.lookup_iff, lastUse_cons_of_not_uses hunused, hlive]
  constructor
  · rintro ⟨⟨hlive, ht⟩, hage⟩
    refine ⟨.inr ⟨⟨by rintro _ ⟨⟩, by rintro ⟨⟩, fun _ t' ht' => ?_⟩, hlive⟩, ht⟩
    rwa [ht'.unique ht]
  · rintro ⟨heq | ⟨hspares, hlive⟩, ht⟩
    · cases heq
    · exact ⟨⟨hlive, ht⟩, hspares.not_expired rfl t ht⟩

end Follows

end NatTable

namespace NatHistory

open NatEvent

/-- The calls have returned what the history says, and the table follows it. -/
structure Explained (timeout : ℕ) (s : NatHistory D) : Prop where
  timeout_eq : s.nat.timeout = timeout
  follows : s.nat.Follows s.history
  correct : ∀ later e earlier, s.history = later ++ e :: earlier → e.Correct timeout earlier

/-- The history stays explained when a call is added whose result is correct and that leaves the
table as the history says. -/
theorem Explained.cons {timeout : ℕ} {s : NatHistory D} (h : s.Explained timeout)
    {nat : NatTable D} {e : NatEvent D} (htimeout : nat.timeout = s.nat.timeout)
    (hfollows : nat.Follows (e :: s.history)) (hcorrect : e.Correct timeout s.history) :
    Explained timeout ⟨nat, e :: s.history⟩ := by
  refine ⟨htimeout.trans h.timeout_eq, hfollows, fun later e' earlier heq => ?_⟩
  rcases later with - | ⟨e'', later⟩
  · obtain ⟨rfl, rfl⟩ := List.cons.inj heq
    exact hcorrect
  · exact h.correct later e' earlier (List.cons.inj heq).2

/-- A cleanup returns the number of sessions that it ends. -/
theorem Explained.correct_cleanup {timeout : ℕ} {s : NatHistory D} (h : s.Explained timeout)
    (now : ℕ) : Correct timeout s.history ⟨now, .cleanup,
      .removed (s.nat.len - (s.nat.retainUnexpired now).len)⟩ := by
  have hafter := h.follows.cleanup now
    (.removed (s.nat.len - (s.nat.retainUnexpired now).len))
  refine ⟨s.nat.expiredKeys now, ?_, s.nat.nodup_expiredKeys now, fun key => ?_⟩
  · rw [s.nat.length_expiredKeys now]
  have hlookup : ∀ datagram t,
      (s.nat.retainUnexpired now).table.lookup key = some ⟨datagram, t⟩ ↔
        s.nat.table.lookup key = some ⟨datagram, t⟩ ∧ s.nat.unexpired now ⟨datagram, t⟩ :=
    fun _ _ => lookup_retain_eq_some_iff
  rw [NatTable.mem_expiredKeys_iff, ← h.timeout_eq]
  constructor
  · rintro ⟨⟨datagram, t⟩, hsession, hexpired⟩
    refine ⟨⟨datagram, h.follows.live_iff.mpr ⟨t, hsession⟩⟩, ?_⟩
    rintro ⟨datagram', hlive⟩
    obtain ⟨t', ht'⟩ := hafter.live_iff.mp hlive
    obtain ⟨hsession', hunexpired⟩ := (hlookup datagram' t').mp ht'
    obtain ⟨rfl, rfl⟩ := UdpSession.mk.inj (Option.some.inj (hsession.symm.trans hsession'))
    rw [hexpired] at hunexpired
    cases hunexpired
  · rintro ⟨⟨datagram, hlive⟩, hdead⟩
    obtain ⟨t, ht⟩ := h.follows.live_iff.mp hlive
    refine ⟨⟨datagram, t⟩, ht, ?_⟩
    by_contra hunexpired
    exact hdead ⟨datagram, hafter.live_iff.mpr
      ⟨t, (hlookup datagram t).mpr ⟨ht, eq_true_of_ne_false hunexpired⟩⟩⟩

/-- A call succeeds and returns what the history before it says. -/
theorem Explained.step {timeout : ℕ} {s : NatHistory D} (h : s.Explained timeout)
    (call : ℕ × NatCall D) : ∃ s', s.step call = .ok s' ∧ s'.Explained timeout := by
  obtain ⟨now, call⟩ := call
  cases call with
  | insert key datagram =>
      exact ⟨_, rfl, h.cons rfl (h.follows.insert now key datagram .done) rfl⟩
  | remove key => exact ⟨_, rfl, h.cons rfl (h.follows.remove now key .done) rfl⟩
  | get key =>
      have hanswer : ∀ datagram, Live timeout key datagram s.history ↔
          ∃ t, s.nat.table.lookup key = some ⟨datagram, t⟩ := fun datagram => by
        rw [← h.timeout_eq]
        exact h.follows.live_iff
      cases hsession : s.nat.table.lookup key with
      | some session =>
          refine ⟨⟨s.nat.insert now key session.datagram,
            ⟨now, .get key, .found (some session.datagram)⟩ :: s.history⟩, ?_, ?_⟩
          · rw [NatHistory.step, NatTable.call, NatTable.get_of_lookup hsession]
            rfl
          · refine h.cons rfl (h.follows.get_some now hsession)
              ⟨some session.datagram, rfl, fun datagram => ?_⟩
            rw [hanswer, hsession]
            constructor
            · intro heq
              obtain rfl := Option.some.inj heq
              exact ⟨session.lastActive, rfl⟩
            · rintro ⟨t, heq⟩
              obtain rfl := Option.some.inj heq
              rfl
      | none =>
          refine ⟨⟨s.nat, ⟨now, .get key, .found none⟩ :: s.history⟩, ?_, ?_⟩
          · rw [NatHistory.step, NatTable.call, NatTable.get_of_lookup_eq_none hsession]
            rfl
          · refine h.cons rfl (h.follows.get_none now key) ⟨none, rfl, fun datagram => ?_⟩
            rw [hanswer, hsession]
            refine iff_of_false (Option.some_ne_none _).symm ?_
            rintro ⟨t, heq⟩
            cases heq
  | cleanup =>
      refine ⟨⟨s.nat.retainUnexpired now, ⟨now, .cleanup,
        .removed (s.nat.len - (s.nat.retainUnexpired now).len)⟩ :: s.history⟩, ?_, ?_⟩
      · rw [NatHistory.step, NatTable.call, NatTable.cleanup_eq]
        rfl
      · exact h.cons rfl (h.follows.cleanup now _) (h.correct_cleanup now)

/-- An empty table follows the empty history. -/
theorem explained_start (timeout : ℕ) : (start timeout : NatHistory D).Explained timeout := by
  refine ⟨rfl, ⟨fun key datagram t => ?_⟩, fun later e earlier heq => ?_⟩
  · refine iff_of_false ?_ fun h => not_since_nil h.1
    show (∅ : AList _).lookup key ≠ _
    rw [AList.lookup_empty]
    exact (Option.some_ne_none _).symm
  · cases later <;> cases heq

/-- The history is that of the calls made. -/
theorem history_exec {s s' : NatHistory D} {calls : List (ℕ × NatCall D)}
    (h : exec step s calls = .ok s') :
    s'.history.map (fun e => (e.now, e.call)) =
      calls.reverse ++ s.history.map fun e => (e.now, e.call) := by
  induction calls generalizing s with
  | nil =>
      obtain rfl : s = s' := Except.ok.inj h
      rfl
  | cons call calls ih =>
      obtain ⟨t, hstep, h⟩ := exec_cons_eq_ok_iff.mp h
      rw [ih h, List.reverse_cons, List.append_assoc, List.singleton_append]
      cases hcall : s.nat.call call.1 call.2 with
      | error e =>
          rw [step, hcall] at hstep
          cases hstep
      | ok result =>
          rw [step, hcall] at hstep
          obtain rfl := Except.ok.inj hstep
          rfl

/-- **Sessions live exactly as long as they are used.** Every run of calls succeeds. Each `get`
in it returns the datagram of the latest insertion that neither a removal nor a cleanup has
ended since, and each `cleanup` the number of sessions that it ends. -/
theorem history_correct (timeout : ℕ) (calls : List (ℕ × NatCall D)) :
    ∃ s, exec step (start timeout) calls = .ok s ∧
      s.history.map (fun e => (e.now, e.call)) = calls.reverse ∧
      ∀ later e earlier, s.history = later ++ e :: earlier → e.Correct timeout earlier := by
  suffices hrun : ∀ s₀ : NatHistory D, s₀.Explained timeout →
      ∃ s, exec step s₀ calls = .ok s ∧ s.Explained timeout by
    obtain ⟨s, hexec, h⟩ := hrun _ (explained_start timeout)
    refine ⟨s, hexec, ?_, h.correct⟩
    rw [history_exec hexec]
    exact List.append_nil _
  induction calls with
  | nil => exact fun s₀ h => ⟨s₀, rfl, h⟩
  | cons call calls ih =>
      intro s₀ h
      obtain ⟨s₁, hstep, h₁⟩ := h.step call
      obtain ⟨s, hexec, h⟩ := ih s₁ h₁
      exact ⟨s, exec_cons_eq_ok_iff.mpr ⟨s₁, hstep, hexec⟩, h⟩

end NatHistory

end Redog
