import Redog.Channel
import Redog.Listener
import Redog.Restart

/-!
# From the listeners to the tunnel

`main` starts its listeners, each of which is restarted when it fails. A listener spawns a
handler for every socket it accepts, and a handler that gets a connection out of its socket
sends it through a channel to `main`. There a loop receives one connection after the other,
waits for one of 4096 permits, and spawns `handle_tcp`, which gives the permit back at its
end. The loop, and with it the proxy, ends when the channel is empty and nobody is left who
could send: no listener that is still started again, and no handler at work.

A handler and `handle_tcp` are taken here by what they end with, and the tasks may take their
steps in any order. `sent` is the history of the channel.

## Main results

* `exec_bounded`: the number of connections in the channel and in the tunnel.
* `exec_delivered`: every connection is handed to the tunnel once, in the order it was sent.
* `exists_drained`: the proxy can always work off what has been sent.
* `exited_spec`: what has happened when the proxy ends.
-/

namespace Redog

open Rust Run

/-- `MAX_CONCURRENT_CONNECTIONS`: how many permits there are, and so how many relays can run at a
time. -/
def MAX_CONCURRENT_CONNECTIONS : ℕ := 4096

/-- A task that a listener has spawned for a socket. -/
inductive Handler (C : Type)
  | handshaking
  | sending (conn : C)
  | sent (conn : C)
  | failed (error : Error)

/-- A task that runs `handle_tcp`, which holds its permit until it has finished. -/
inductive TunnelTask (C : Type)
  | running (conn : C)
  | finished (conn : C)

/-- Where the loop of `main` is: it waits for a connection, holds one and waits for a permit, or has
ended. -/
inductive MainLoop (C : Type)
  | receiving
  | acquiring (conn : C)
  | exited

/-- The tasks of the proxy and what they share. -/
structure Dispatch (C : Type) where
  listeners : List Restart
  handlers : List (Handler C)
  channel : Channel C 256
  loop : MainLoop C
  permits : ℕ
  tasks : List (TunnelTask C)
  sent : List C

/-- What can happen next, at a listener, at one of its handlers, at the loop of `main` or at one of
the relays it has spawned. -/
inductive DispatchEvent (C : Type)
  /-- A listener accepts a socket and spawns a handler. -/
  | accept (listener : ℕ)
  /-- A listener cannot bind its address or accept a socket. It ends in no other way. -/
  | fail (listener : ℕ) (error : Error)
  /-- The pause of a listener is over. -/
  | wake (listener : ℕ)
  /-- The handshake of a handler ends. -/
  | handled (handler : ℕ) (result : Except Error C)
  /-- A handler sends its connection. -/
  | send (handler : ℕ)
  /-- The loop receives a connection, or learns that there will be none. -/
  | receive
  /-- The loop gets a permit and spawns `handle_tcp`. -/
  | acquire
  /-- A run of `handle_tcp` ends, and its permit is dropped. -/
  | finish (task : ℕ)

variable {C : Type}

/-- The handler behind its handshake: it goes on to send its connection, or ends with the error. -/
def Handler.ofResult : Except Error C → Handler C
  | .ok conn => sending conn
  | .error e => failed e

/-- The connection a handler has sent, none while it waits or after an error. -/
def Handler.sent? : Handler C → Option C
  | sent conn => some conn
  | _ => none

/-- The handler still has its sender, so the channel is not closed yet. -/
def Handler.isAlive : Handler C → Bool
  | handshaking | sending _ => true
  | sent _ | failed _ => false

/-- The handler waits to send, its handshake having succeeded. -/
def Handler.isSending : Handler C → Bool
  | sending _ => true
  | _ => false

/-- The connection that the task was spawned with. -/
def TunnelTask.conn : TunnelTask C → C
  | running conn | finished conn => conn

/-- The task has not finished, so it still holds its permit. -/
def TunnelTask.isRunning : TunnelTask C → Bool
  | running _ => true
  | finished _ => false

/-- The connection the loop holds while it waits for a permit, in a list of one at most. -/
def MainLoop.held : MainLoop C → List C
  | acquiring conn => [conn]
  | receiving | exited => []

namespace Dispatch

/-- The proxy as it starts, with the number of its listeners. -/
def start (listeners : ℕ) : Dispatch C where
  listeners := List.replicate listeners (.listening 0)
  handlers := []
  channel := .empty
  loop := .receiving
  permits := MAX_CONCURRENT_CONNECTIONS
  tasks := []
  sent := []

/-- Somebody has a sender of the channel. -/
def HasSender (s : Dispatch C) : Prop :=
  (∃ l ∈ s.listeners, l.isAlive) ∨ ∃ h ∈ s.handlers, h.isAlive

instance (s : Dispatch C) : Decidable s.HasSender := inferInstanceAs (Decidable (_ ∨ _))

/-- One step of the proxy at work. An event that cannot happen changes nothing. -/
def perform (s : Dispatch C) : DispatchEvent C → Checked (Dispatch C)
  | .accept i =>
      match s.listeners[i]? with
      | some (.listening _) => return { s with handlers := s.handlers ++ [.handshaking] }
      | _ => return s
  | .fail i error =>
      match s.listeners[i]? with
      | some l => do
          let l ← l.step (.returned (.error error))
          return { s with listeners := s.listeners.set i l }
      | none => return s
  | .wake i =>
      match s.listeners[i]? with
      | some l => do
          let l ← l.step .woken
          return { s with listeners := s.listeners.set i l }
      | none => return s
  | .handled i result =>
      match s.handlers[i]? with
      | some .handshaking => return { s with handlers := s.handlers.set i (.ofResult result) }
      | _ => return s
  | .send i =>
      match s.handlers[i]? with
      | some (.sending conn) =>
          match s.channel.send conn with
          | some channel => return { s with
              handlers := s.handlers.set i (.sent conn)
              channel := channel
              sent := s.sent ++ [conn] }
          | none => return s
      | _ => return s
  | .receive =>
      match s.loop, s.channel.recv with
      | .receiving, some (conn, channel) =>
          return { s with channel := channel, loop := .acquiring conn }
      | .receiving, none => return if s.HasSender then s else { s with loop := .exited }
      | _, _ => return s
  | .acquire =>
      match s.loop, s.permits with
      | .acquiring conn, permits + 1 => return { s with
          permits := permits
          loop := .receiving
          tasks := s.tasks ++ [.running conn] }
      | _, _ => return s
  | .finish i =>
      match s.tasks[i]? with
      | some (.running conn) => return { s with
          permits := s.permits + 1
          tasks := s.tasks.set i (.finished conn) }
      | _ => return s

/-- One step. The end of `main` ends all tasks. -/
def step (s : Dispatch C) (event : DispatchEvent C) : Checked (Dispatch C) :=
  match s.loop with
  | .exited => return s
  | _ => s.perform event

/-! ### What a step does -/

/-- The ways in which a step changes the proxy. -/
inductive Change (s : Dispatch C) : Dispatch C → Prop
  | none : Change s s
  | accepted : Change s { s with handlers := s.handlers ++ [.handshaking] }
  | listener {i : ℕ} {l l' : Restart} {event : RestartEvent} (h : s.listeners[i]? = some l)
      (hstep : l.step event = .ok l') (herror : ∀ u, event ≠ .returned (.ok u)) :
      Change s { s with listeners := s.listeners.set i l' }
  | handled {i : ℕ} {result : Except Error C} (h : s.handlers[i]? = some .handshaking) :
      Change s { s with handlers := s.handlers.set i (.ofResult result) }
  | sent {i : ℕ} {conn : C} {channel : Channel C 256}
      (h : s.handlers[i]? = some (.sending conn)) (hsend : s.channel.send conn = some channel) :
      Change s { s with
        handlers := s.handlers.set i (.sent conn)
        channel := channel
        sent := s.sent ++ [conn] }
  | received {conn : C} {channel : Channel C 256} (h : s.loop = .receiving)
      (hrecv : s.channel.recv = some (conn, channel)) :
      Change s { s with channel := channel, loop := .acquiring conn }
  | exited (h : s.loop = .receiving) (hrecv : s.channel.recv = Option.none)
      (hsender : ¬ s.HasSender) : Change s { s with loop := .exited }
  | acquired {conn : C} {permits : ℕ} (h : s.loop = .acquiring conn)
      (hpermits : s.permits = permits + 1) :
      Change s { s with
        permits := permits
        loop := .receiving
        tasks := s.tasks ++ [.running conn] }
  | finished {i : ℕ} {conn : C} (h : s.tasks[i]? = some (.running conn)) :
      Change s { s with permits := s.permits + 1, tasks := s.tasks.set i (.finished conn) }

/-- The listeners are as their restarts leave them. -/
def ListenersValid (s : Dispatch C) : Prop :=
  ∀ l ∈ s.listeners, l.Valid ∧ (l.isAlive = false → l = .stopped 11)

/-- A step of a proxy at work never panics, and changes it in one of these ways. -/
theorem perform_cases {s : Dispatch C} (h : s.ListenersValid) (event : DispatchEvent C) :
    ∃ s', s.perform event = .ok s' ∧ s.Change s' := by
  have hlistener : ∀ {i : ℕ} {l : Restart} (event : RestartEvent), s.listeners[i]? = some l →
      (∀ u, event ≠ .returned (.ok u)) → ∃ l', l.step event = .ok l' ∧
        s.Change { s with listeners := s.listeners.set i l' } := by
    intro i l event hl herror
    obtain ⟨l', hstep, -⟩ := Restart.step_cases (h l (List.mem_of_getElem? hl)).1 event
    exact ⟨l', hstep, .listener hl hstep herror⟩
  cases event with
  | accept i =>
      rw [perform]
      split
      · exact ⟨_, rfl, .accepted⟩
      · exact ⟨s, rfl, .none⟩
  | fail i error =>
      rw [perform]
      split
      · rename_i l hl
        obtain ⟨l', hstep, hchange⟩ := hlistener (.returned (.error error)) hl nofun
        rw [hstep]
        exact ⟨_, rfl, hchange⟩
      · exact ⟨s, rfl, .none⟩
  | wake i =>
      rw [perform]
      split
      · rename_i l hl
        obtain ⟨l', hstep, hchange⟩ := hlistener .woken hl nofun
        rw [hstep]
        exact ⟨_, rfl, hchange⟩
      · exact ⟨s, rfl, .none⟩
  | handled i result =>
      rw [perform]
      split
      · rename_i hh
        exact ⟨_, rfl, .handled hh⟩
      · exact ⟨s, rfl, .none⟩
  | send i =>
      rw [perform]
      split
      · rename_i conn hh
        split
        · rename_i channel hsend
          exact ⟨_, rfl, .sent hh hsend⟩
        · exact ⟨s, rfl, .none⟩
      · exact ⟨s, rfl, .none⟩
  | receive =>
      rw [perform]
      split
      · rename_i conn channel hloop hrecv
        exact ⟨_, rfl, .received hloop hrecv⟩
      · rename_i hloop hrecv
        by_cases hsender : s.HasSender
        · rw [if_pos hsender]
          exact ⟨s, rfl, .none⟩
        · rw [if_neg hsender]
          exact ⟨_, rfl, .exited hloop hrecv hsender⟩
      · exact ⟨s, rfl, .none⟩
  | acquire =>
      rw [perform]
      split
      · rename_i conn permits hloop hpermits
        exact ⟨_, rfl, .acquired hloop hpermits⟩
      · exact ⟨s, rfl, .none⟩
  | finish i =>
      rw [perform]
      split
      · rename_i conn ht
        exact ⟨_, rfl, .finished ht⟩
      · exact ⟨s, rfl, .none⟩

/-- A step never panics. It changes nothing behind the loop. -/
theorem step_cases {s : Dispatch C} (h : s.ListenersValid) (event : DispatchEvent C) :
    ∃ s', s.step event = .ok s' ∧ s.Change s' ∧ (s.loop = .exited → s' = s) := by
  rw [step]
  split
  · exact ⟨s, rfl, .none, fun _ => rfl⟩
  · rename_i hloop
    obtain ⟨s', hperform, hchange⟩ := perform_cases h event
    exact ⟨s', hperform, hchange, fun hexited => absurd hexited hloop⟩

/-! ### What every step keeps -/

/-- How many runs of `handle_tcp` there are. -/
def running (s : Dispatch C) : ℕ :=
  s.tasks.countP TunnelTask.isRunning

/-- The connections the loop has taken from the channel: those it has handed to the tunnel,
and the one it holds. -/
def taken (s : Dispatch C) : List C :=
  s.tasks.map TunnelTask.conn ++ s.loop.held

/-- What holds in every state of the proxy. -/
structure Consistent (s : Dispatch C) : Prop where
  listeners : s.ListenersValid
  permits : s.permits + s.running = MAX_CONCURRENT_CONNECTIONS
  carries : s.channel.Carries s.sent s.taken
  sent : s.sent.Perm (s.handlers.filterMap Handler.sent?)
  exited : s.loop = .exited → ¬ s.HasSender ∧ s.channel.queue = []

/-- A list around one of its elements, also when the element is replaced. -/
theorem exists_around {α : Type} {l : List α} {i : ℕ} {a : α} (h : l[i]? = some a) :
    ∃ pre post, l = pre ++ a :: post ∧ ∀ b, l.set i b = pre ++ b :: post := by
  obtain ⟨hi, rfl⟩ := List.getElem?_eq_some_iff.mp h
  refine ⟨l.take i, l.drop (i + 1), ?_, fun b => List.set_eq_take_append_cons_drop.trans ?_⟩
  · rw [← List.drop_eq_getElem_cons hi, List.take_append_drop]
  · rw [if_pos hi]

/-- Before anything has happened all queues are empty and no permit is taken. -/
theorem consistent_start (listeners : ℕ) : (start listeners : Dispatch C).Consistent where
  listeners := by
    intro l hl
    obtain rfl := List.eq_of_mem_replicate hl
    exact ⟨Nat.zero_le 10, nofun⟩
  permits := rfl
  carries := Channel.carries_empty
  sent := .nil
  exited := nofun

/-- A step of one listener keeps the others as they are, and its own state valid. -/
theorem ListenersValid.set {s : Dispatch C} (h : s.ListenersValid) {i : ℕ} {l l' : Restart}
    {event : RestartEvent} (hl : s.listeners[i]? = some l) (hstep : l.step event = .ok l')
    (herror : ∀ u, event ≠ .returned (.ok u)) :
    ({ s with listeners := s.listeners.set i l' } : Dispatch C).ListenersValid := by
  obtain ⟨hvalid, hstopped⟩ := h l (List.mem_of_getElem? hl)
  intro l'' hl''
  rcases List.mem_or_eq_of_mem_set hl'' with hl'' | rfl
  · exact h l'' hl''
  · obtain ⟨t, ht, hvalid', -⟩ := Restart.step_cases hvalid event
    obtain rfl := Except.ok.inj (hstep.symm.trans ht)
    refine ⟨hvalid', fun hdead => ?_⟩
    rcases Restart.eq_or_eq_stopped hvalid herror hstep hdead with rfl | hgiven
    · exact hstopped hdead
    · exact hgiven

/-- Every step keeps what holds of the listeners, the handlers, the channel and the loop, as long as
a loop that has ended is left alone. -/
theorem Consistent.change {s s' : Dispatch C} (h : s.Consistent) (hchange : s.Change s')
    (hloop : s.loop = .exited → s' = s) : s'.Consistent := by
  by_cases hexited : s.loop = .exited
  · rwa [hloop hexited]
  cases hchange with
  | none => exact h
  | accepted =>
      refine ⟨h.listeners, h.permits, h.carries, ?_, fun hs => absurd hs hexited⟩
      rw [List.filterMap_append]
      exact h.sent.trans (List.append_nil _ ▸ .refl _)
  | listener hl hstep herror =>
      exact ⟨h.listeners.set hl hstep herror, h.permits, h.carries, h.sent,
        fun hs => absurd hs hexited⟩
  | @handled i result hh =>
      obtain ⟨pre, post, hsplit, hset⟩ := exists_around hh
      have hresult : (Handler.ofResult result).sent? = none := by cases result <;> rfl
      refine ⟨h.listeners, h.permits, h.carries, ?_, fun hs => absurd hs hexited⟩
      have hsent := h.sent
      rw [hsplit, List.filterMap_append, List.filterMap_cons_none rfl] at hsent
      rwa [hset, List.filterMap_append, List.filterMap_cons_none hresult]
  | @sent i conn channel hh hsend =>
      obtain ⟨pre, post, hsplit, hset⟩ := exists_around hh
      refine ⟨h.listeners, h.permits, h.carries.send hsend, ?_, fun hs => absurd hs hexited⟩
      have hsent := h.sent
      rw [hsplit, List.filterMap_append, List.filterMap_cons_none rfl] at hsent
      have hhandlers : (s.handlers.set i (.sent conn)).filterMap Handler.sent? =
          pre.filterMap Handler.sent? ++ conn :: post.filterMap Handler.sent? := by
        rw [hset, List.filterMap_append]
        rfl
      rw [hhandlers]
      exact (List.perm_append_singleton conn _).trans
        ((hsent.cons conn).trans List.perm_middle.symm)
  | received hs hrecv =>
      have hcarries := h.carries.recv hrecv
      rw [taken, hs, MainLoop.held, List.append_nil] at hcarries
      exact ⟨h.listeners, h.permits, hcarries, h.sent, nofun⟩
  | exited hs hrecv hsender =>
      have hcarries := h.carries
      rw [taken, hs] at hcarries
      exact ⟨h.listeners, h.permits, hcarries, h.sent,
        fun _ => ⟨hsender, Channel.recv_eq_none_iff.mp hrecv⟩⟩
  | @acquired conn permits hs hpermits =>
      have hcarries := h.carries
      rw [taken, hs, MainLoop.held] at hcarries
      refine ⟨h.listeners, ?_, ?_, h.sent, nofun⟩
      · have hcount := h.permits
        have htasks : (s.tasks ++ [TunnelTask.running conn]).countP TunnelTask.isRunning =
            s.running + 1 := List.countP_append
        rw [hpermits, Nat.add_assoc, Nat.add_comm 1] at hcount
        rwa [running, htasks]
      · rwa [taken, List.map_append, MainLoop.held, List.append_nil]
  | @finished i conn ht =>
      obtain ⟨pre, post, hsplit, hset⟩ := exists_around ht
      have hcount := h.permits
      have hcarries := h.carries
      rw [running, hsplit, List.countP_append, List.countP_cons_of_pos rfl] at hcount
      rw [taken, hsplit, List.map_append, List.map_cons] at hcarries
      refine ⟨h.listeners, ?_, ?_, h.sent, fun hs => absurd hs hexited⟩
      · have htasks : (s.tasks.set i (.finished conn)).countP TunnelTask.isRunning =
            pre.countP TunnelTask.isRunning + post.countP TunnelTask.isRunning := by
          rw [hset]
          exact List.countP_append
        rw [running, htasks]
        rwa [← Nat.add_assoc (pre.countP _), ← Nat.add_assoc, Nat.add_right_comm] at hcount
      · rwa [taken, hset, List.map_append, List.map_cons]

/-- What holds in every state of the proxy, and that it never panics. -/
theorem exec_consistent (listeners : ℕ) (events : List (DispatchEvent C)) :
    ∃ s, exec step (start listeners) events = .ok s ∧ s.Consistent := by
  have hstep : ∀ (s : Dispatch C) (event : DispatchEvent C), s.Consistent →
      ∃ s', s.step event = .ok s' ∧ s'.Consistent := by
    intro s event h
    obtain ⟨s', hs', hchange, hloop⟩ := step_cases h.listeners event
    exact ⟨s', hs', h.change hchange hloop⟩
  exact exec_isOk hstep (consistent_start listeners) events

/-- **How much is under way.** Whatever the listeners, the handlers and the tunnel do, no step
panics, at most 4096 runs of `handle_tcp` are under way, one for each permit that is given
out, and at most 256 connections wait for one in the channel. -/
theorem exec_bounded (listeners : ℕ) (events : List (DispatchEvent C)) :
    ∃ s, exec step (start listeners) events = .ok s ∧
      s.permits + s.running = MAX_CONCURRENT_CONNECTIONS ∧
      s.running ≤ MAX_CONCURRENT_CONNECTIONS ∧ s.channel.queue.length ≤ 256 := by
  obtain ⟨s, hexec, h⟩ := exec_consistent listeners events
  exact ⟨s, hexec, h.permits, Nat.le.intro ((Nat.add_comm _ _).trans h.permits),
    s.channel.length_le⟩

/-- **No connection is lost or handed over twice.** The connections that handlers have sent
are, each once and in the order they were sent in, those that `handle_tcp` was spawned for,
then the one the loop holds, then those in the channel. -/
theorem exec_delivered {listeners : ℕ} {events : List (DispatchEvent C)} {s : Dispatch C}
    (hexec : exec step (start listeners) events = .ok s) :
    s.sent.Perm (s.handlers.filterMap Handler.sent?) ∧
      s.sent = s.tasks.map TunnelTask.conn ++ s.loop.held ++ s.channel.queue := by
  obtain ⟨s', hexec', h⟩ := exec_consistent listeners events
  obtain rfl := Except.ok.inj (hexec.symm.trans hexec')
  exact ⟨h.sent, h.carries⟩

/-- Two connections that come in over one listener; the later one is the first to be sent. -/
def twoConnections : List (DispatchEvent String) :=
  [.accept 0, .accept 0, .handled 1 (.ok "b"), .handled 0 (.ok "a"), .send 1, .send 0,
    .receive, .acquire, .receive]

/-- Two connections on their way through the queue: one has been handed to the tunnel, one is held
by the loop. -/
theorem exec_delivered_two : ∃ s, exec step (start 1) twoConnections = .ok s ∧
    s.sent.Perm (s.handlers.filterMap Handler.sent?) ∧
    s.sent = s.tasks.map TunnelTask.conn ++ s.loop.held ++ s.channel.queue :=
  ⟨_, rfl, exec_delivered (rfl : exec step (start 1) twoConnections = .ok _)⟩

/-! ### Progress -/

/-- The event is one of the loop, or of a connection that has got through its handshake. -/
def Drains : DispatchEvent C → Prop
  | .send _ | .receive | .acquire | .finish _ => True
  | .accept _ | .fail _ _ | .wake _ | .handled _ _ => False

/-- Nothing that has got through its handshake waits on its way to the tunnel. -/
def Drained (s : Dispatch C) : Prop :=
  (∀ h ∈ s.handlers, h.isSending = false) ∧ s.sent = s.tasks.map TunnelTask.conn

/-- The steps that connections on their way still need, to the end of `handle_tcp`. -/
def backlog (s : Dispatch C) : ℕ :=
  4 * s.handlers.countP Handler.isSending + 3 * s.channel.queue.length +
    2 * s.loop.held.length + s.running

/-- A run of `handle_tcp` that ends makes the backlog smaller. -/
theorem exists_drain_finish {s : Dispatch C} (hloop : s.loop ≠ .exited)
    (hrunning : 0 < s.running) :
    ∃ event s', Drains event ∧ s.step event = .ok s' ∧ s'.backlog < s.backlog := by
  obtain ⟨task, hmem, htask⟩ := List.countP_pos_iff.mp hrunning
  cases task with
  | finished conn => cases htask
  | running conn =>
      obtain ⟨i, hi⟩ := List.mem_iff_getElem?.mp hmem
      obtain ⟨pre, post, hsplit, hset⟩ := exists_around hi
      have hbefore : s.running = pre.countP TunnelTask.isRunning +
          (post.countP TunnelTask.isRunning + 1) := by
        rw [running, hsplit, List.countP_append, List.countP_cons_of_pos rfl]
      have hafter : (s.tasks.set i (.finished conn)).countP TunnelTask.isRunning =
          pre.countP TunnelTask.isRunning + post.countP TunnelTask.isRunning := by
        rw [hset]
        exact List.countP_append
      refine ⟨.finish i, { s with
        permits := s.permits + 1
        tasks := s.tasks.set i (.finished conn) }, trivial, ?_, ?_⟩
      · cases hs : s.loop with
        | exited => exact absurd hs hloop
        | receiving => simp only [step, hs, perform, hi]; rfl
        | acquiring held => simp only [step, hs, perform, hi]; rfl
      · simp only [backlog, running] at hbefore ⊢
        rw [hafter]
        omega

/-- A handler that sends makes the backlog smaller. -/
theorem exists_drain_send {s : Dispatch C} (hloop : s.loop = .receiving)
    (hqueue : s.channel.queue = []) {h : Handler C} (hmem : h ∈ s.handlers)
    (hsending : h.isSending = true) :
    ∃ event s', Drains event ∧ s.step event = .ok s' ∧ s'.backlog < s.backlog := by
  cases h with
  | handshaking | sent conn | failed error => cases hsending
  | sending conn =>
      obtain ⟨i, hi⟩ := List.mem_iff_getElem?.mp hmem
      obtain ⟨pre, post, hsplit, hset⟩ := exists_around hi
      have hroom : s.channel.queue.length < 256 := by
        rw [hqueue]
        exact Nat.zero_lt_succ 255
      obtain ⟨channel, hsend, hchannel⟩ := Channel.exists_send hroom conn
      have hbefore : s.handlers.countP Handler.isSending = pre.countP Handler.isSending +
          (post.countP Handler.isSending + 1) := by
        rw [hsplit, List.countP_append, List.countP_cons_of_pos rfl]
      have hafter : (s.handlers.set i (.sent conn)).countP Handler.isSending =
          pre.countP Handler.isSending + post.countP Handler.isSending := by
        rw [hset]
        exact List.countP_append
      refine ⟨.send i, { s with
        handlers := s.handlers.set i (.sent conn)
        channel := channel
        sent := s.sent ++ [conn] }, trivial, ?_, ?_⟩
      · simp only [step, hloop, perform, hi, hsend]
        rfl
      · simp only [backlog, running, hafter, hbefore, hchannel, List.length_append,
          List.length_singleton]
        omega

/-- With an empty channel and a loop that holds nothing, everything sent has been handed over. -/
theorem Consistent.sent_eq {s : Dispatch C} (h : s.Consistent) (hqueue : s.channel.queue = [])
    (hheld : s.loop.held = []) : s.sent = s.tasks.map TunnelTask.conn := by
  rw [h.carries.eq_of_queue_eq_nil hqueue, taken, hheld, List.append_nil]

/-- **No deadlock.** As long as a connection that has got through its handshake has not been
handed to the tunnel, some step on its way can be taken. -/
theorem drained_or_exists_drain {s : Dispatch C} (h : s.Consistent) :
    s.Drained ∨ ∃ event s', Drains event ∧ s.step event = .ok s' ∧ s'.backlog < s.backlog := by
  cases hloop : s.loop with
  | exited =>
      obtain ⟨hsender, hqueue⟩ := h.exited hloop
      refine .inl ⟨fun handler hmem => ?_, h.sent_eq hqueue (congrArg MainLoop.held hloop)⟩
      rw [← Bool.not_eq_true]
      intro hsending
      refine hsender (.inr ⟨handler, hmem, ?_⟩)
      cases handler with
      | sending conn => rfl
      | handshaking | sent conn | failed error => cases hsending
  | acquiring conn =>
      cases hpermits : s.permits with
      | zero =>
          -- All permits are given out, so there are runs that can end.
          have hrunning := h.permits
          rw [hpermits, Nat.zero_add] at hrunning
          refine .inr (exists_drain_finish (by rw [hloop]; nofun) ?_)
          rw [hrunning]
          exact Nat.zero_lt_succ 4095
      | succ permits =>
          refine .inr ⟨.acquire, { s with
            permits := permits
            loop := .receiving
            tasks := s.tasks ++ [.running conn] }, trivial, ?_, ?_⟩
          · simp only [step, hloop, perform, hpermits]
            rfl
          · have htasks : (s.tasks ++ [TunnelTask.running conn]).countP TunnelTask.isRunning =
                s.running + 1 := List.countP_append
            simp only [backlog, running, hloop, MainLoop.held, List.length_singleton,
              List.length_nil] at htasks ⊢
            rw [htasks]
            omega
  | receiving =>
      cases hrecv : s.channel.recv with
      | some received =>
          obtain ⟨conn, channel⟩ := received
          have hqueue := Channel.recv_eq_some_iff.mp hrecv
          refine .inr ⟨.receive, { s with channel := channel, loop := .acquiring conn },
            trivial, ?_, ?_⟩
          · simp only [step, hloop, perform, hrecv]
            rfl
          · simp only [backlog, running, hloop, hqueue, MainLoop.held, List.length_cons,
              List.length_nil]
            omega
      | none =>
          have hqueue := Channel.recv_eq_none_iff.mp hrecv
          by_cases hsending : ∃ handler ∈ s.handlers, handler.isSending = true
          · obtain ⟨handler, hmem, hsending⟩ := hsending
            exact .inr (exists_drain_send hloop hqueue hmem hsending)
          · refine .inl ⟨fun handler hmem => ?_,
              h.sent_eq hqueue (congrArg MainLoop.held hloop)⟩
            rw [← Bool.not_eq_true]
            exact fun hs => hsending ⟨handler, hmem, hs⟩

/-- **Everything sent gets through.** In every state the proxy can reach, some number of steps
of the loop, of handlers that send and of runs of `handle_tcp` that end hands every connection
that has got through its handshake to the tunnel. No listener and no further client takes part
in them. -/
theorem exists_drained {listeners : ℕ} {events : List (DispatchEvent C)} {s : Dispatch C}
    (hexec : exec step (start listeners) events = .ok s) :
    ∃ more s', (∀ event ∈ more, Drains event) ∧ exec step s more = .ok s' ∧ s'.Drained := by
  obtain ⟨t, ht, h⟩ := exec_consistent listeners events
  obtain rfl := Except.ok.inj (hexec.symm.trans ht)
  clear hexec ht
  -- On the steps that are still needed.
  induction hn : s.backlog using Nat.strong_induction_on generalizing s with
  | _ n ih =>
      rcases drained_or_exists_drain h with hdrained | ⟨event, t, hdrains, hstep, hlt⟩
      · exact ⟨[], s, List.forall_mem_nil _, rfl, hdrained⟩
      · obtain ⟨t', ht', hchange, hloop⟩ := step_cases h.listeners event
        obtain rfl := Except.ok.inj (hstep.symm.trans ht')
        obtain ⟨more, s', hmore, hexec, hs'⟩ := ih t.backlog (hn ▸ hlt) (h.change hchange hloop) rfl
        exact ⟨event :: more, s', List.forall_mem_cons.mpr ⟨hdrains, hmore⟩,
          exec_cons_eq_ok_iff.mpr ⟨t, hstep, hexec⟩, hs'⟩

/-- The same two connections get through: from there the proxy can work off all it has accepted. -/
theorem exists_drained_two : ∃ s, exec step (start 1) twoConnections = .ok s ∧
    ∃ more s', (∀ event ∈ more, Drains event) ∧ exec step s more = .ok s' ∧ s'.Drained :=
  ⟨_, rfl, exists_drained (rfl : exec step (start 1) twoConnections = .ok _)⟩

/-! ### The end -/

/-- **When the proxy ends.** Once `main` has returned, every listener has failed eleven times
and been given up, every handler has sent its connection or failed, and every connection that
was sent has been handed to the tunnel. -/
theorem exited_spec {listeners : ℕ} {events : List (DispatchEvent C)} {s : Dispatch C}
    (hexec : exec step (start listeners) events = .ok s) (hexited : s.loop = .exited) :
    (∀ l ∈ s.listeners, l = .stopped 11) ∧ (∀ h ∈ s.handlers, h.isAlive = false) ∧
      s.sent = s.tasks.map TunnelTask.conn := by
  obtain ⟨t, ht, h⟩ := exec_consistent listeners events
  obtain rfl := Except.ok.inj (hexec.symm.trans ht)
  obtain ⟨hsender, hqueue⟩ := h.exited hexited
  obtain ⟨hlisteners, hhandlers⟩ := not_or.mp hsender
  refine ⟨fun l hl => ?_, fun handler hmem => ?_,
    h.sent_eq hqueue (congrArg MainLoop.held hexited)⟩
  · refine (h.listeners l hl).2 ?_
    rw [← Bool.not_eq_true]
    exact fun halive => hlisteners ⟨l, hl, halive⟩
  · rw [← Bool.not_eq_true]
    exact fun halive => hhandlers ⟨handler, hmem, halive⟩

/-- A connection comes in, and then the listener is given up. -/
def lastConnection : List (DispatchEvent String) :=
  [.accept 0, .handled 0 (.ok "a"), .send 0, .receive, .acquire] ++
    (List.replicate 11 [.fail 0 (.other "Address already in use"), .wake 0]).flatten ++
    [.receive]

/-- The listener fails eleven times, and its last connection is still handed to the tunnel before
the loop ends. -/
theorem exited_spec_last : ∃ s, exec step (start 1) lastConnection = .ok s ∧
    s.loop = .exited ∧ (∀ l ∈ s.listeners, l = .stopped 11) ∧
    (∀ h ∈ s.handlers, h.isAlive = false) ∧ s.sent = s.tasks.map TunnelTask.conn :=
  ⟨_, rfl, rfl, exited_spec (rfl : exec step (start 1) lastConnection = .ok _) rfl⟩

end Dispatch

end Redog
