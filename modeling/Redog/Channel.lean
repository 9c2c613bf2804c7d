import Mathlib.Data.List.Basic

/-!
# Bounded channels

A channel from any number of senders to one receiver, with room for a fixed number of
messages. A sender waits while there is no room, and the receiver while there is no message.
That there is never more in a channel than there is room for is a field of it.

What a channel is for is said without it: it carries what has been sent to the receiver in
the order it was sent in, every message once (`Carries`).

## Main results

* `send_eq_some_iff`, `recv_eq_some_iff`: when a message goes in, and which one comes out.
* `Carries.send`, `Carries.recv`: what is sent and not yet received is in the channel.
-/

/-- A channel with room for `cap` messages: those in it, the earliest first. -/
structure Channel (α : Type) (cap : ℕ) where
  queue : List α
  length_le : queue.length ≤ cap

namespace Channel

variable {α : Type} {cap : ℕ}

/-- A new channel, with no value in it and so within any capacity. -/
def empty : Channel α cap := ⟨[], Nat.zero_le cap⟩

/-- A message is sent; `none` when the sender has to wait. -/
def send (channel : Channel α cap) (message : α) : Option (Channel α cap) :=
  if h : channel.queue.length < cap then
    some ⟨channel.queue ++ [message], by
      rw [List.length_append]
      exact h⟩
  else none

/-- A message is received; `none` when there is none. -/
def recv (channel : Channel α cap) : Option (α × Channel α cap) :=
  match h : channel.queue with
  | [] => none
  | message :: queue =>
      some (message, ⟨queue, Nat.le_of_succ_le (by
        have hle := channel.length_le
        rwa [h] at hle)⟩)

/-- A message can be sent exactly when there is room for it; it is the last one then. -/
theorem send_eq_some_iff {channel channel' : Channel α cap} {message : α} :
    channel.send message = some channel' ↔
      channel.queue.length < cap ∧ channel'.queue = channel.queue ++ [message] := by
  rcases channel' with ⟨queue', hle'⟩
  rw [send]
  split_ifs with h
  · rw [Option.some.injEq, mk.injEq, and_iff_right h, eq_comm]
  · exact iff_of_false nofun fun h' => h h'.1

/-- The message received is the first one in the channel. -/
theorem recv_eq_some_iff {channel channel' : Channel α cap} {message : α} :
    channel.recv = some (message, channel') ↔ channel.queue = message :: channel'.queue := by
  rcases channel with ⟨queue, hle⟩
  rcases channel' with ⟨queue', hle'⟩
  cases queue with
  | nil => exact iff_of_false nofun nofun
  | cons first queue =>
      rw [recv, Option.some.injEq, Prod.mk.injEq, mk.injEq, List.cons.injEq]

/-- There is room for a message as long as the queue is shorter than the capacity. -/
theorem exists_send {channel : Channel α cap} (h : channel.queue.length < cap) (message : α) :
    ∃ channel', channel.send message = some channel' ∧
      channel'.queue = channel.queue ++ [message] := by
  rw [send, dif_pos h]
  exact ⟨_, rfl, rfl⟩

/-- Nothing can be received exactly when nothing is queued. -/
theorem recv_eq_none_iff {channel : Channel α cap} : channel.recv = none ↔ channel.queue = [] := by
  rcases channel with ⟨queue, hle⟩
  cases queue with
  | nil => exact iff_of_true rfl rfl
  | cons first queue => exact iff_of_false nofun nofun

/-- Of the messages that have been sent the receiver has received the first ones, and the
others are in the channel, all in their order. -/
def Carries (channel : Channel α cap) (sent received : List α) : Prop :=
  sent = received ++ channel.queue

/-- An empty channel carries nothing: what was received is what was sent. -/
theorem carries_empty : (empty : Channel α cap).Carries [] [] := rfl

/-- A message that is sent is the last of those that are still to be received. -/
theorem Carries.send {channel channel' : Channel α cap} {sent received : List α} {message : α}
    (h : channel.Carries sent received) (hsend : channel.send message = some channel') :
    channel'.Carries (sent ++ [message]) received := by
  obtain ⟨-, hqueue⟩ := send_eq_some_iff.mp hsend
  rw [Carries, h, hqueue, List.append_assoc]

/-- The message that is received is the first of those that were sent and not received yet. -/
theorem Carries.recv {channel channel' : Channel α cap} {sent received : List α} {message : α}
    (h : channel.Carries sent received) (hrecv : channel.recv = some (message, channel')) :
    channel'.Carries sent (received ++ [message]) := by
  rw [Carries, h, recv_eq_some_iff.mp hrecv, List.append_assoc, List.singleton_append]

/-- A channel that is empty has carried everything. -/
theorem Carries.eq_of_queue_eq_nil {channel : Channel α cap} {sent received : List α}
    (h : channel.Carries sent received) (hqueue : channel.queue = []) : sent = received := by
  rw [h, hqueue, List.append_nil]

end Channel
