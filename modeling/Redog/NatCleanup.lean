import Redog.NatTable

/-!
# Cleaning up among other tasks

`cleanup` counts what it drops by the length of the table before and after. Other tasks use
the table in between. What they remove is counted as dropped. What they add makes the count
too small, and the subtraction underflows when they have added more than was removed.

## Main results

* `exec_alone`: a cleanup that is not interrupted is `NatTable::cleanup`.
* `cleanup_isOk_iff`: when the count of a cleanup does not underflow.
-/

namespace Redog

open Rust Run

variable {D : Type}

/-- Where a call of `cleanup` is, between its steps. -/
inductive CleanupCall
  /-- Before it reads the length. -/
  | called
  /-- Before it drops the expired sessions. -/
  | counted (before : ℕ)
  /-- Before it reads the length again. -/
  | retained (before : ℕ)
  /-- It has returned. -/
  | returned (removed : ℕ)

/-- A table with a call of `cleanup` on it, and the sessions put into the table and removed
from it between the two readings of its length. -/
structure Cleaning (D : Type) where
  nat : NatTable D
  cleanup : CleanupCall
  added : ℕ
  removed : ℕ

/-- What can happen next while a cleanup is under way: its own next step, or a call of another
task. -/
inductive CleaningEvent (D : Type)
  /-- The next step of the cleanup. -/
  | cleanup (now : ℕ)
  /-- Calls of other tasks. -/
  | insert (now : ℕ) (key : String) (datagram : D)
  | get (now : ℕ) (key : String)
  | remove (key : String)

namespace Cleaning

/-- The cleanup is called and has not counted the sessions yet, nor has any other task been
counted. -/
def start (nat : NatTable D) : Cleaning D := ⟨nat, .called, 0, 0⟩

/-- Sessions are added and removed. They count between the two readings of the length. -/
def count (s : Cleaning D) (added removed : ℕ) : Cleaning D :=
  match s.cleanup with
  | .called | .returned _ => s
  | .counted _ | .retained _ =>
      { s with added := s.added + added, removed := s.removed + removed }

/-- One step. Each step of the cleanup is atomic, and between two of them the other tasks may call
what they like. -/
def step (s : Cleaning D) : CleaningEvent D → Checked (Cleaning D)
  | .cleanup now =>
      match s.cleanup with
      | .called => return { s with cleanup := .counted s.nat.len }
      | .counted before =>
          return { s.count 0 (s.nat.expiredKeys now).length with
            nat := s.nat.retainUnexpired now
            cleanup := .retained before }
      | .retained before => do
          let removed ← usizeSub before s.nat.len
          return { s with cleanup := .returned removed }
      | .returned _ => return s
  | .insert now key datagram =>
      return { s.count (if (s.nat.table.lookup key).isSome then 0 else 1) 0 with
        nat := s.nat.insert now key datagram }
  | .get now key => return { s with nat := (s.nat.get now key).2 }
  | .remove key =>
      return { s.count 0 (if (s.nat.table.lookup key).isSome then 1 else 0) with
        nat := s.nat.remove key }

/-- The steps of a cleanup that is not interrupted are those of `NatTable::cleanup`. -/
theorem exec_alone {nat nat' : NatTable D} {now removed : ℕ}
    (h : nat.cleanup now = .ok (removed, nat')) :
    ∃ s, exec step (start nat) (List.replicate 3 (.cleanup now)) = .ok s ∧ s.nat = nat' ∧
      s.cleanup = .returned removed := by
  rw [NatTable.cleanup_eq] at h
  obtain ⟨rfl, rfl⟩ := Prod.mk.inj (Except.ok.inj h)
  refine ⟨⟨nat.retainUnexpired now, .returned (nat.len - (nat.retainUnexpired now).len),
    0 + 0, 0 + (nat.expiredKeys now).length⟩, ?_, rfl, rfl⟩
  refine exec_cons_eq_ok_iff.mpr ⟨_, rfl, exec_cons_eq_ok_iff.mpr ⟨_, rfl,
    exec_cons_eq_ok_iff.mpr ⟨_, ?_, rfl⟩⟩⟩
  rw [step]
  show (usizeSub nat.len (nat.retainUnexpired now).len >>= _) = _
  rw [usizeSub_eq_ok (nat.len_retainUnexpired_le now)]
  rfl

/-- What the cleanup has returned is at most the number of sessions removed between the two
readings. -/
def Counts (s : Cleaning D) : Prop :=
  ∀ n, s.cleanup = .returned n → n ≤ s.removed

/-- The step is not the last one of the cleanup, or no more sessions have been added than
removed between the two readings. -/
def NoneGained (s : Cleaning D) : CleaningEvent D → Prop
  | .cleanup _ => ∀ before, s.cleanup = .retained before → s.added ≤ s.removed
  | .insert _ _ _ | .get _ _ | .remove _ => True

/-- The length between the two readings is the first one, but for what has been added and removed
since. -/
def Balanced (s : Cleaning D) : Prop :=
  match s.cleanup with
  | .called => s.added = 0 ∧ s.removed = 0
  | .counted before | .retained before => s.nat.len + s.removed = before + s.added
  | .returned removed => removed ≤ s.removed

/-- A call that is balanced has counted all that was added and removed beside it. -/
theorem Balanced.counts {s : Cleaning D} (h : s.Balanced) : s.Counts := by
  intro n hn
  rwa [Balanced, hn] at h

end Cleaning

namespace NatTable

/-- The number of sessions is the number of keys. -/
theorem len_eq_length_keys (nat : NatTable D) : nat.len = nat.table.keys.length :=
  (List.length_map _).symm

/-- A removal makes the table shorter by one exactly when the key was there. -/
theorem len_remove (nat : NatTable D) (key : String) :
    (nat.remove key).len + (if (nat.table.lookup key).isSome then 1 else 0) = nat.len := by
  rw [len_eq_length_keys, len_eq_length_keys, remove, AList.keys_erase]
  split_ifs with hkey
  · have hmem := AList.mem_keys.mp (AList.lookup_isSome.mp hkey)
    have hpos := List.length_pos_of_mem hmem
    rw [List.length_erase_of_mem hmem]
    omega
  · have hmem : key ∉ nat.table.keys := fun hmem =>
      hkey (AList.lookup_isSome.mpr (AList.mem_keys.mpr hmem))
    rw [List.erase_of_not_mem hmem, Nat.add_zero]

/-- An insertion makes the table longer by one exactly when the key was not there. -/
theorem len_insert (nat : NatTable D) (now : ℕ) (key : String) (datagram : D) :
    (nat.insert now key datagram).len =
      nat.len + if (nat.table.lookup key).isSome then 0 else 1 := by
  have hlen : (nat.insert now key datagram).len = (nat.remove key).len + 1 := rfl
  have hremove := nat.len_remove key
  split_ifs at hremove ⊢ <;> omega

/-- Using a session does not change the number of sessions. -/
theorem len_get (nat : NatTable D) (now : ℕ) (key : String) :
    (nat.get now key).2.len = nat.len := by
  cases h : nat.table.lookup key with
  | none => rw [get_of_lookup_eq_none h]
  | some session =>
      rw [get_of_lookup h, len_insert, h]
      rfl

end NatTable

namespace Cleaning

/-- Another task changes the table and the sessions it adds and removes are counted. -/
theorem Balanced.count {s : Cleaning D} (h : s.Balanced) {nat : NatTable D}
    (added removed : ℕ) (hlen : nat.len + removed = s.nat.len + added) :
    { s.count added removed with nat := nat }.Balanced := by
  obtain ⟨table, cleanup, sofar, gone⟩ := s
  cases cleanup with
  | called => exact h
  | returned n => exact h
  | counted before =>
      have h : table.len + gone = before + sofar := h
      show nat.len + (gone + removed) = before + (sofar + added)
      have hlen : nat.len + removed = table.len + added := hlen
      omega
  | retained before =>
      have h : table.len + gone = before + sofar := h
      show nat.len + (gone + removed) = before + (sofar + added)
      have hlen : nat.len + removed = table.len + added := hlen
      omega

/-- What adds and removes nothing does not change the counts. -/
theorem count_zero (s : Cleaning D) : s.count 0 0 = s := by
  rw [count]
  split <;> rfl

/-- The last step of a cleanup compares the two counts. It panics where the second is larger than
the first. -/
theorem step_retained {s : Cleaning D} {before : ℕ} (hbefore : s.cleanup = .retained before)
    (now : ℕ) : s.step (.cleanup now) =
      (do
        let removed ← usizeSub before s.nat.len
        return { s with cleanup := .returned removed }) := by
  rw [Cleaning.step, hbefore]

/-- A step that goes well keeps the balance. -/
theorem Balanced.step {s s' : Cleaning D} (h : s.Balanced) {event : CleaningEvent D}
    (hstep : s.step event = .ok s') : s'.Balanced := by
  cases event with
  | insert now key datagram =>
      obtain rfl := Except.ok.inj hstep
      exact h.count _ 0 (s.nat.len_insert now key datagram)
  | get now key =>
      obtain rfl := Except.ok.inj hstep
      have hlen : (s.nat.get now key).2.len + 0 = s.nat.len + 0 := s.nat.len_get now key
      have hcount := h.count 0 0 hlen
      rwa [count_zero] at hcount
  | remove key =>
      obtain rfl := Except.ok.inj hstep
      exact h.count 0 _ (s.nat.len_remove key)
  | cleanup now =>
      obtain ⟨nat, cleanup, added, removed⟩ := s
      cases cleanup with
      | called =>
          obtain rfl := Except.ok.inj hstep
          obtain ⟨rfl, rfl⟩ : added = 0 ∧ removed = 0 := h
          exact rfl
      | counted before =>
          obtain rfl := Except.ok.inj hstep
          have h : nat.len + removed = before + added := h
          have hlen := nat.length_expiredKeys now
          have hle := nat.len_retainUnexpired_le now
          show (nat.retainUnexpired now).len + (removed + (nat.expiredKeys now).length) =
            before + added
          omega
      | retained before =>
          have h : nat.len + removed = before + added := h
          rw [step_retained rfl] at hstep
          by_cases hle : nat.len ≤ before
          · rw [usizeSub_eq_ok hle] at hstep
            obtain rfl := Except.ok.inj hstep
            show before - nat.len ≤ removed
            omega
          · rw [usizeSub_eq_error (not_le.mp hle)] at hstep
            cases hstep
      | returned n =>
          obtain rfl := Except.ok.inj hstep
          exact h

/-- A step goes well exactly when it does not end a cleanup with more sessions added than
removed. -/
theorem step_isOk_iff {s : Cleaning D} (h : s.Balanced) (event : CleaningEvent D) :
    (∃ s', s.step event = .ok s') ↔ s.NoneGained event := by
  cases event with
  | insert now key datagram => exact iff_of_true ⟨_, rfl⟩ trivial
  | get now key => exact iff_of_true ⟨_, rfl⟩ trivial
  | remove key => exact iff_of_true ⟨_, rfl⟩ trivial
  | cleanup now =>
      obtain ⟨nat, cleanup, added, removed⟩ := s
      cases cleanup with
      | called => exact iff_of_true ⟨_, rfl⟩ (by rintro _ ⟨⟩)
      | counted before => exact iff_of_true ⟨_, rfl⟩ (by rintro _ ⟨⟩)
      | returned n => exact iff_of_true ⟨_, rfl⟩ (by rintro _ ⟨⟩)
      | retained before =>
          have h : nat.len + removed = before + added := h
          rw [step_retained rfl]
          constructor
          · rintro ⟨s', hs'⟩ _ -
            show added ≤ removed
            by_contra hgained
            have hlt : before < nat.len := by omega
            rw [usizeSub_eq_error hlt] at hs'
            cases hs'
          · intro hnone
            have hle : added ≤ removed := hnone before rfl
            rw [usizeSub_eq_ok (by omega : nat.len ≤ before)]
            exact ⟨_, rfl⟩

/-- **When the count of a cleanup does not underflow.** Whatever the other tasks do between the
steps of a cleanup, it returns without an underflow, and no more than the number of sessions
removed, exactly when no more sessions have been added than removed between the two readings
of the length. -/
theorem cleanup_isOk_iff (nat : NatTable D) (events : List (CleaningEvent D)) :
    (∃ s, exec step (start nat) events = .ok s ∧ s.Counts) ↔
      EachStep step NoneGained (start nat) events := by
  have hstart : (start nat).Balanced := ⟨rfl, rfl⟩
  have hrun : (∃ s, exec step (start nat) events = .ok s ∧ s.Balanced) ↔ _ :=
    exec_isOk_iff (fun s event h => step_isOk_iff h event)
      (fun s event s' h hstep => h.step hstep) hstart
  rw [← hrun]
  constructor
  · rintro ⟨s, hexec, -⟩
    exact ⟨s, hexec, exec_keeps (fun event _ s s' h hstep => h.step hstep) hstart hexec⟩
  · rintro ⟨s, hexec, h⟩
    exact ⟨s, hexec, h.counts⟩

/-- A session comes into an empty table between the two readings: 0 - 1. -/
theorem not_cleanup_isOk :
    exec step (start (NatTable.new 120 : NatTable Unit))
        [.cleanup 0, .insert 0 "10.0.0.1:5353" (), .cleanup 0, .cleanup 0] =
      .error .arithmeticOverflow ∧
    ¬ ∃ s, exec step (start (NatTable.new 120 : NatTable Unit))
        [.cleanup 0, .insert 0 "10.0.0.1:5353" (), .cleanup 0, .cleanup 0] = .ok s ∧
      s.Counts := by
  have hpanic : exec step (start (NatTable.new 120 : NatTable Unit))
      [.cleanup 0, .insert 0 "10.0.0.1:5353" (), .cleanup 0, .cleanup 0] =
        .error .arithmeticOverflow := rfl
  refine ⟨hpanic, ?_⟩
  rintro ⟨s, hexec, -⟩
  cases hexec.symm.trans hpanic

end Cleaning

end Redog
