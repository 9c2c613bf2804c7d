import Redog.Checked
import Redog.Core
import Redog.Run

/-!
# Restarting a listener

`run_listener_with_restart` starts a listener again when it fails, after a pause that doubles
from one failure to the next. The number of failures is kept for as long as the proxy runs
and is never set back, however long the listener has worked in between. So a listener
survives ten failures and not an eleventh one.

## Main results

* `Restart.exec_listening`: the pauses of a listener, and when it is given up.
-/

namespace Redog

open Rust Run

/-- How often a listener is started anew before it is given up. -/
def MAX_LISTENER_RETRIES : UInt32 := 10

/-- The delay before the first retry, in milliseconds. -/
def LISTENER_RETRY_BASE_DELAY_MS : UInt64 := 500

/-- `u64::saturating_pow`: the power, or the largest number of 64 bits where it is larger. -/
def saturatingPow (b : UInt64) (n : UInt32) : UInt64 :=
  .ofNat (min (Nat.pow b.toNat n.toNat) 18446744073709551615)

/-- `a * b` at `u64`, with the check of a debug build: the product, or a panic where it does not
fit. -/
def u64Mul (a b : UInt64) : Checked UInt64 :=
  if a.toNat * b.toNat < 18446744073709551616 then .ok (a * b) else .error .arithmeticOverflow

/-- Where a run of `run_listener_with_restart` is, with the failures counted so far. -/
inductive Restart
  /-- In `make_listener`. -/
  | listening (retries : UInt32)
  /-- In the pause after a failure. -/
  | pausing (retries : UInt32) (delay : UInt64)
  /-- Behind the loop. -/
  | stopped (retries : UInt32)
deriving DecidableEq

/-- What can happen to it: the listener it has made returns, or the pause after an error is over. -/
inductive RestartEvent
  /-- `make_listener` returns. -/
  | returned (result : Except Error Unit)
  /-- The pause is over. -/
  | woken

namespace Restart

/-- The failures counted so far, in whatever state the listener is. -/
def retries : Restart → UInt32
  | listening retries | pausing retries _ | stopped retries => retries

/-- The listener returns an error: after too many of them it is given up, and otherwise it pauses,
twice as long as the time before. -/
def failed (retries : UInt32) : Checked Restart := do
  let retries ← u32Add retries 1
  if retries > MAX_LISTENER_RETRIES then return .stopped retries
  else
    let delay ← u64Mul LISTENER_RETRY_BASE_DELAY_MS (saturatingPow 2 (← u32Sub retries 1))
    return .pausing retries delay

/-- One step. An event that cannot happen changes nothing. -/
def step (s : Restart) : RestartEvent → Checked Restart
  | .returned (.ok ()) =>
      match s with
      | listening retries => return .stopped retries
      | _ => return s
  | .returned (.error _) =>
      match s with
      | listening retries => failed retries
      | _ => return s
  | .woken =>
      match s with
      | pausing retries _ => return .listening retries
      | _ => return s

/-- The event is a failure of the listener. -/
def isFailure (s : Restart) : RestartEvent → Bool
  | .returned (.error _) =>
      match s with
      | listening _ => true
      | _ => false
  | _ => false

/-- The pause that an event begins, in a list of one at most. -/
def pauseOf (s : Restart) (event : RestartEvent) : List UInt64 :=
  if s.isFailure event then
    match s.step event with
    | .ok (pausing _ delay) => [delay]
    | _ => []
  else []

/-- The pauses made in a run, in the order they are made. -/
def pauses : Restart → List RestartEvent → List UInt64
  | _, [] => []
  | s, event :: events =>
      s.pauseOf event ++
        match s.step event with
        | .ok s' => pauses s' events
        | .error _ => []

/-! ### The failures of a listener -/

/-- The pauses after the failures of a listener, in milliseconds. -/
def delays : List UInt64 :=
  [500, 1000, 2000, 4000, 8000, 16000, 32000, 64000, 128000, 256000]

/-- A listener that is not given up has failed at most ten times. -/
def Valid : Restart → Prop
  | listening retries => retries.toNat ≤ 10
  | pausing retries _ => retries.toNat ≤ 10
  | stopped retries => retries.toNat ≤ 11

/-- The first ten failures begin the next pause, and the eleventh one none. -/
theorem failed_cases {retries : UInt32} (h : retries.toNat ≤ 10) :
    (∃ delay retries', failed retries = .ok (pausing retries' delay) ∧
      retries'.toNat = retries.toNat + 1 ∧ retries'.toNat ≤ 10 ∧
      delays.take retries'.toNat = delays.take retries.toNat ++ [delay]) ∨
    retries.toNat = 10 ∧ failed retries = .ok (stopped 11) := by
  have htable : ∀ n < 10, failed (.ofNat n) = .ok (pausing (.ofNat (n + 1)) (delays.getD n 0)) ∧
      (UInt32.ofNat (n + 1)).toNat = n + 1 ∧
      delays.take (n + 1) = delays.take n ++ [delays.getD n 0] := by
    decide +kernel
  rcases Nat.lt_or_eq_of_le h with hlt | heq
  · obtain ⟨hfailed, hnext, hdelays⟩ := htable retries.toNat hlt
    rw [UInt32.ofNat_toNat] at hfailed
    refine .inl ⟨_, _, hfailed, hnext, ?_, ?_⟩
    · rw [hnext]
      exact hlt
    · rw [hnext, hdelays]
  · have hretries : retries = 10 := UInt32.toNat_inj.mp heq
    subst hretries
    exact .inr ⟨rfl, by decide +kernel⟩

/-- A failure is counted, and begins the next pause unless it is the eleventh one. Nothing else
is counted or begins a pause. -/
theorem step_cases {s : Restart} (h : s.Valid) (event : RestartEvent) :
    ∃ s', s.step event = .ok s' ∧ s'.Valid ∧
      s'.retries.toNat = s.retries.toNat + (s.isFailure event).toNat ∧
      delays.take s'.retries.toNat = delays.take s.retries.toNat ++ s.pauseOf event := by
  have hidle : ∀ {s' : Restart}, s.step event = .ok s' → s.isFailure event = false →
      s'.Valid → s'.retries = s.retries →
      ∃ s', s.step event = .ok s' ∧ s'.Valid ∧
        s'.retries.toNat = s.retries.toNat + (s.isFailure event).toNat ∧
        delays.take s'.retries.toNat = delays.take s.retries.toNat ++ s.pauseOf event := by
    intro s' hstep hfailure hvalid hretries
    refine ⟨s', hstep, hvalid, ?_, ?_⟩
    · rw [hretries, hfailure, Bool.toNat_false, Nat.add_zero]
    · rw [hretries, pauseOf, hfailure, if_neg Bool.false_ne_true, List.append_nil]
  cases s with
  | listening retries =>
      rcases event with ⟨⟨error⟩ | ⟨⟨⟩⟩⟩ | _
      · rcases failed_cases h with ⟨delay, retries', hfailed, hnext, hle, hdelays⟩ | ⟨hten, hfailed⟩
        · refine ⟨pausing retries' delay, hfailed, hle, hnext, hdelays.trans ?_⟩
          simp only [pauseOf, isFailure, if_true, step, hfailed]
          rfl
        · have hretries : retries = 10 := UInt32.toNat_inj.mp hten
          subst hretries
          refine ⟨stopped 11, hfailed, le_rfl, rfl, ?_⟩
          simp only [pauseOf, isFailure, if_true, step, hfailed]
          rfl
      · exact hidle rfl rfl (Nat.le_succ_of_le h) rfl
      · exact hidle rfl rfl h rfl
  | pausing retries delay =>
      rcases event with ⟨⟨error⟩ | ⟨⟨⟩⟩⟩ | _
      · exact hidle rfl rfl h rfl
      · exact hidle rfl rfl h rfl
      · exact hidle rfl rfl h rfl
  | stopped retries =>
      rcases event with ⟨⟨error⟩ | ⟨⟨⟩⟩⟩ | _
      · exact hidle rfl rfl h rfl
      · exact hidle rfl rfl h rfl
      · exact hidle rfl rfl h rfl

/-- The listener is still started again, now or after its pause. -/
def isAlive : Restart → Bool
  | listening _ | pausing _ _ => true
  | stopped _ => false

/-- A listener that only ends in errors is given up after the eleventh one. -/
theorem eq_or_eq_stopped {s s' : Restart} (h : s.Valid) {event : RestartEvent}
    (herror : ∀ u, event ≠ .returned (.ok u)) (hstep : s.step event = .ok s')
    (hdead : s'.isAlive = false) : s' = s ∨ s' = stopped 11 := by
  rcases event with ⟨⟨error⟩ | u⟩ | _
  · cases s with
    | listening retries =>
        rcases failed_cases h with ⟨delay, retries', hfailed, -⟩ | ⟨-, hfailed⟩
        · obtain rfl := Except.ok.inj (hstep.symm.trans hfailed)
          cases hdead
        · exact .inr (Except.ok.inj (hstep.symm.trans hfailed))
    | pausing retries delay => exact .inl (Except.ok.inj hstep).symm
    | stopped retries => exact .inl (Except.ok.inj hstep).symm
  · exact absurd rfl (herror u)
  · cases s with
    | listening retries => exact .inl (Except.ok.inj hstep).symm
    | pausing retries delay =>
        obtain rfl := Except.ok.inj hstep
        cases hdead
    | stopped retries => exact .inl (Except.ok.inj hstep).symm

/-- Only a listener that has been given up has failed eleven times. -/
theorem Valid.eq_stopped {s : Restart} (h : s.Valid) (hretries : s.retries.toNat = 11) :
    s = stopped 11 := by
  cases s with
  | listening retries =>
      have hle : retries.toNat ≤ 10 := h
      have heleven : retries.toNat = 11 := hretries
      omega
  | pausing retries delay =>
      have hle : retries.toNat ≤ 10 := h
      have heleven : retries.toNat = 11 := hretries
      omega
  | stopped retries =>
      have heleven : retries = 11 := UInt32.toNat_inj.mp hretries
      rw [heleven]

/-- What a run adds to the failures and to the pauses. -/
theorem exec_cases {s : Restart} (h : s.Valid) (events : List RestartEvent) :
    ∃ s', exec step s events = .ok s' ∧ s'.Valid ∧
      s'.retries.toNat = s.retries.toNat + count step isFailure s events ∧
      delays.take s'.retries.toNat = delays.take s.retries.toNat ++ pauses s events := by
  induction events generalizing s with
  | nil => exact ⟨s, rfl, h, rfl, (List.append_nil _).symm⟩
  | cons event events ih =>
      obtain ⟨t, ht, hvalid, hretries, hdelays⟩ := step_cases h event
      obtain ⟨s', hs', hvalid', hretries', hdelays'⟩ := ih hvalid
      refine ⟨s', exec_cons_eq_ok_iff.mpr ⟨t, ht, hs'⟩, hvalid', ?_, ?_⟩
      · rw [hretries', hretries, count_cons ht, Nat.add_assoc]
      · rw [hdelays', hdelays, pauses, ht, List.append_assoc]

/-- **The life of a listener.** Whatever happens to a listener, and for however long it works
between two failures: no operation on its counters overflows, it fails at most eleven times in
all, the pauses after its failures are 500 ms, 1 s, 2 s, up to 256 s, and after the eleventh
failure it is not started again. -/
theorem exec_listening (events : List RestartEvent) :
    ∃ s, exec step (listening 0) events = .ok s ∧
      count step isFailure (listening 0) events ≤ 11 ∧
      pauses (listening 0) events =
        delays.take (count step isFailure (listening 0) events) ∧
      (count step isFailure (listening 0) events = 11 → s = stopped 11) := by
  have hstart : (listening 0).Valid := Nat.zero_le 10
  obtain ⟨s, hexec, hvalid, hretries, hpauses⟩ := exec_cases hstart events
  have hcount : s.retries.toNat = count step isFailure (listening 0) events :=
    hretries.trans (Nat.zero_add _)
  refine ⟨s, hexec, ?_, ?_, ?_⟩
  · rw [← hcount]
    cases s with
    | listening retries => exact Nat.le_succ_of_le hvalid
    | pausing retries delay => exact Nat.le_succ_of_le hvalid
    | stopped retries => exact hvalid
  · rw [← hcount, hpauses]
    rfl
  · exact fun heleven => hvalid.eq_stopped (hcount.trans heleven)

end Restart

end Redog
