import Redog.Api
import Redog.Relays

/-!
# The running program

The connections and the control plane at work together: any number of `handle_tcp` runs, the
requests to the API, the health checks that move the choice of a test group, and the reloads
that replace the rules or the proxies. All of them share one tunnel and the cells of its groups,
and their steps come in any order.

A group without members panics when it is asked. As long as the configurations have none, no
request and no connection panics, whatever has been chosen by then. What the API lists of
connections is never more than the relays that run, and it is what was decided when they were
accepted, even if the mode, the rules, the proxies and the choices of groups have all changed
since.

The arithmetic of the health checks is that of a release build, which wraps around. In a debug
build a check can panic while it holds the lock of the choice.

## Main results

* `Adapter.Populated.outbound`, `Adapter.Populated.passedOn`: groups with members answer.
* `exec_populated`: nothing panics in any run.
* `exec_listed`: what is listed is running.
* `exec_decided`: what is listed is what was decided.
-/

namespace Redog

open Run

/-! ### Groups with members -/

namespace Adapter

/-- Every group in it has a member. -/
inductive Populated : Adapter → Prop
  | direct : Populated direct
  | reject : Populated reject
  | selector (cell : ℕ) (name : String) {proxies : List Adapter} (hne : proxies ≠ [])
      (hproxies : ∀ proxy ∈ proxies, Populated proxy) : Populated (selector cell name proxies)
  | urlTest (cell : ℕ) (name : String) {proxies : List Adapter} (hne : proxies ≠ [])
      (hproxies : ∀ proxy ∈ proxies, Populated proxy) : Populated (urlTest cell name proxies)

/-- Whatever the index, there is a choice, and it is one of the members. -/
theorem exists_chosen {α : Type} {proxies : List α} (hne : proxies ≠ []) (idx : ℕ) :
    ∃ proxy ∈ proxies, chosen proxies idx = some proxy := by
  rw [chosen]
  rcases h : proxies[idx]? with - | proxy
  · exact ⟨proxies.head hne, List.head_mem hne, by rw [Option.none_or, List.head?_eq_some_head hne]⟩
  · exact ⟨proxy, List.mem_of_getElem? h, by rw [Option.some_or]⟩

/-- If every member has an answer, so has the choice. -/
theorem exists_chosen_join {α : Type} {proxies : List Adapter} {answer : Adapter → Option α}
    (hne : proxies ≠ []) (hproxies : ∀ proxy ∈ proxies, ∃ a, answer proxy = some a) (idx : ℕ) :
    ∃ a, (chosen (proxies.map answer) idx).join = some a := by
  have hanswers : proxies.map answer ≠ [] := mt List.map_eq_nil_iff.mp hne
  obtain ⟨chosenAnswer, hmem, hchosen⟩ := exists_chosen hanswers idx
  obtain ⟨proxy, hproxy, rfl⟩ := List.mem_map.mp hmem
  obtain ⟨a, ha⟩ := hproxies proxy hproxy
  exact ⟨a, by rw [hchosen, Option.join_some, ha]⟩

/-- Every question that is passed on ends at a built-in adapter. -/
theorem Populated.passedOn {proxy : Adapter} (h : proxy.Populated) (value : Adapter → Bool)
    (cells : Cells) : ∃ b, Adapter.passedOn value cells proxy = some b := by
  induction h with
  | direct => exact ⟨_, rfl⟩
  | reject => exact ⟨_, rfl⟩
  | selector cell name hne _ ih =>
      rw [Adapter.passedOn, passedOnAll_eq]
      exact exists_chosen_join hne ih _
  | urlTest cell name hne _ ih =>
      rw [Adapter.passedOn, passedOnAll_eq]
      exact exists_chosen_join hne ih _

/-- Every connection through a populated adapter ends at a built-in one too, by the same descent. -/
theorem Populated.outbound {proxy : Adapter} (h : proxy.Populated) (cells : Cells) :
    ∃ a, Adapter.outbound cells proxy = some a := by
  induction h with
  | direct => exact ⟨_, rfl⟩
  | reject => exact ⟨_, rfl⟩
  | selector cell name hne _ ih =>
      rw [Adapter.outbound, outbounds_eq]
      exact exists_chosen_join hne ih _
  | urlTest cell name hne _ ih =>
      rw [Adapter.outbound, outbounds_eq]
      exact exists_chosen_join hne ih _

end Adapter

/-- Every group that is registered, or is in one that is, has a member. -/
def Populated (proxies : ProxyMap Adapter) : Prop :=
  ∀ e ∈ proxies.entries, e.2.Populated

/-- An adapter that is found in a populated map is populated. -/
theorem Populated.lookup {proxies : ProxyMap Adapter} (h : Populated proxies) {name : String}
    {proxy : Adapter} (hproxy : proxies.lookup name = some proxy) : proxy.Populated :=
  h ⟨name, proxy⟩ (AList.mem_lookup_iff.mp hproxy)

/-- A new DIRECT adapter takes the place of one that is missing. -/
theorem populated_getD {found : Option Adapter}
    (h : ∀ proxy, found = some proxy → proxy.Populated) : (found.getD .direct).Populated := by
  cases found with
  | none => exact .direct
  | some proxy => exact h proxy rfl

/-- The adapter for direct connections is populated, whether it is taken from the map or built
anew. -/
theorem Populated.directAdapter {proxies : ProxyMap Adapter} (h : Populated proxies) :
    (directAdapter proxies).Populated :=
  populated_getD fun _ => h.lookup

/-- The first adapter of a map with some property, or the built-in one when there is none, is
populated. -/
theorem Populated.find {proxies : ProxyMap Adapter} (h : Populated proxies)
    (p : Adapter → Bool) :
    (((proxies.entries.map Sigma.snd).find? p).getD .direct).Populated := by
  refine populated_getD fun proxy hfind => ?_
  obtain ⟨e, he, rfl⟩ := List.mem_map.mp (List.mem_of_find?_eq_some hfind)
  exact h e he

/-- A selector next to the built-in adapters. -/
def groupProxies : ProxyMap Adapter :=
  ((∅ : ProxyMap Adapter).insert "DIRECT" .direct).insert "Proxy"
    (.selector 0 "Proxy" [.direct, .reject])

/-- The map of the example is populated: its selector has a member. -/
theorem populated_groupProxies : Populated groupProxies := by
  intro e he
  rcases List.mem_cons.mp he with rfl | he
  · refine .selector 0 "Proxy" (List.cons_ne_nil _ _) fun proxy hproxy => ?_
    rcases List.mem_pair.mp hproxy with rfl | rfl
    · exact .direct
    · exact .reject
  · obtain rfl := List.mem_singleton.mp he
    exact .direct

variable [Crates]

/-- The adapter that a rule leads to is from the map, so it is populated. -/
theorem Populated.ruleLoop {proxies : ProxyMap Adapter} (h : Populated proxies)
    {metadata : Metadata} {rules : List Rule} {m : MatchResult Adapter}
    (hm : ruleLoop proxies metadata rules = some m) : m.adapter.Populated := by
  rw [ruleLoop_eq, Option.bind_eq_some_iff] at hm
  obtain ⟨rule, -, hrule⟩ := hm
  rw [Rule.result, Option.map_eq_some_iff] at hrule
  obtain ⟨proxy, hproxy, rfl⟩ := hrule
  exact h.lookup hproxy

/-- What the tunnel chooses for a connection has members, whatever the mode. -/
theorem Populated.matchAdapter {tunnel : Tunnel Adapter} (h : Populated tunnel.proxies)
    (metadata : Metadata) : (tunnel.matchAdapter metadata).adapter.Populated := by
  rw [Tunnel.matchAdapter]
  split
  · exact h.directAdapter
  · exact h.find _
  · rw [ruleMatch]
    rcases hloop : Redog.ruleLoop tunnel.proxies metadata tunnel.rules with - | m
    · exact h.directAdapter
    · exact h.ruleLoop hloop

/-! ### Connections -/

/-- The run relays, so its connection is tracked and its bytes will be counted. -/
def HandleTcp.isRelaying {A : Type} : HandleTcp A → Bool
  | .relaying _ => true
  | _ => false

/-- The key of a run that relays. -/
def HandleTcp.key {A : Type} : HandleTcp A → Option UInt64
  | .relaying id => some id
  | _ => none

namespace Relays

variable {A : Type} [ProxyAdapter A] {relays : Relays A}

/-- A connection leaves the configuration alone: no step of it touches the mode, the rules or the
map. -/
theorem next_toTunnel (relays : Relays A) (event : RelayEvent) :
    (relays.next event).tunnel.toTunnel = relays.tunnel.toTunnel := by
  cases event with
  | accept metadata => rfl
  | closeAll => rfl
  | connectEnd run ok => rw [(relays.next_connectEnd_cases run ok).1]
  | track run start =>
      rw [next]
      split
      · rfl
      · rfl
  | relayEnd run copied =>
      rw [next]
      split
      · rfl
      · rfl

/-- What is in the table is running. -/
def Listed (relays : Relays A) : Prop :=
  ∀ id ∈ relays.tunnel.connections.connections, relays.Running id

/-- A step of a run keeps what is known of the list: an entry is put in when its relay starts, and
taken out when it ends. -/
theorem Listed.next (h : relays.Listed) (event : RelayEvent) : (relays.next event).Listed := by
  cases event with
  | accept metadata => exact fun id hid => List.mem_append_left _ (h id hid)
  | connectEnd run ok =>
      obtain ⟨htunnel, hrunning⟩ := relays.next_connectEnd_cases run ok
      intro id hid
      rw [htunnel] at hid
      exact (hrunning id).mpr (h id hid)
  | track run start =>
      rcases relays.next_track_cases run start with ⟨metadata, m, -, htable, hrunning⟩ | ⟨-, hsame⟩
      · intro id hid
        rw [htable, ConnectionTracker.mem_track] at hid
        exact (hrunning id).mpr (hid.imp_right (h id))
      · rwa [hsame]
  | relayEnd run copied =>
      rcases relays.next_relayEnd_cases run copied with ⟨id, hrun, htable, hrunning⟩ | ⟨-, hsame⟩
      · intro id' hid'
        rw [htable, ConnectionTracker.mem_untrack] at hid'
        obtain ⟨other, hother⟩ := List.mem_iff_getElem?.mp (h id' hid'.2)
        refine (hrunning id').mpr ⟨other, ?_, hother⟩
        rintro rfl
        exact hid'.1 (HandleTcp.relaying.inj (Option.some.inj (hother.symm.trans hrun)))
      · rwa [hsame]
  | closeAll => exact fun id hid => absurd hid (ConnectionTracker.notMem_closeAll _ id)

omit [ProxyAdapter A] in
/-- There are no more entries than running relays, since no two have the same key. -/
theorem Listed.length_le (h : relays.Listed) :
    relays.tunnel.connections.list.length ≤ relays.runs.countP HandleTcp.isRelaying := by
  have hsubset : relays.tunnel.connections.connections.keys ⊆
      relays.runs.filterMap HandleTcp.key := fun id hid =>
    List.mem_filterMap.mpr ⟨.relaying id, h id (AList.mem_keys.mpr hid), rfl⟩
  have hkeys : (relays.runs.filterMap HandleTcp.key).length =
      relays.runs.countP HandleTcp.isRelaying := by
    rw [List.length_filterMap_eq_countP]
    refine List.countP_congr fun run _ => ?_
    cases run with
    | connecting | connected | relaying | finished => rfl
  calc relays.tunnel.connections.list.length
      = relays.tunnel.connections.connections.keys.length := by
        rw [ConnectionTracker.list, AList.keys, List.keys, List.length_map, List.length_map]
    _ ≤ (relays.runs.filterMap HandleTcp.key).length :=
        (List.subperm_of_subset relays.tunnel.connections.connections.nodupKeys hsubset).length_le
    _ = relays.runs.countP HandleTcp.isRelaying := hkeys

/-- Where the decisions of the connections come from, and what the table says of them. -/
structure Sources (relays : Relays A) (Decided : Metadata → MatchResult A → Prop) : Prop where
  connecting : ∀ metadata m, .connecting metadata m ∈ relays.runs → Decided metadata m
  connected : ∀ metadata m, .connected metadata m ∈ relays.runs → Decided metadata m
  listed : ∀ c ∈ relays.tunnel.connections.list, ∃ metadata m start,
    Decided metadata m ∧ c = connectionInfo metadata m start

variable {Decided : Metadata → MatchResult A → Prop}

/-- What is known of where the decisions come from may be weakened. -/
theorem Sources.mono (h : relays.Sources Decided) {Decided' : Metadata → MatchResult A → Prop}
    (himp : ∀ metadata m, Decided metadata m → Decided' metadata m) : relays.Sources Decided' where
  connecting metadata m hm := himp metadata m (h.connecting metadata m hm)
  connected metadata m hm := himp metadata m (h.connected metadata m hm)
  listed c hc := by
    obtain ⟨metadata, m, start, hm, hc⟩ := h.listed c hc
    exact ⟨metadata, m, start, himp metadata m hm, hc⟩

/-- A step keeps what is known of the decisions: only an accepted connection brings a new one, and
that is made by the tunnel. -/
theorem Sources.next (h : relays.Sources Decided) {event : RelayEvent}
    (haccept : ∀ metadata, event = .accept metadata →
      Decided metadata (relays.tunnel.matchAdapter metadata)) :
    (relays.next event).Sources Decided := by
  cases event with
  | accept metadata =>
      refine ⟨fun other m hm => ?_, fun other m hm => ?_, h.listed⟩
      · rcases List.mem_append.mp hm with hm | hm
        · exact h.connecting other m hm
        · obtain ⟨rfl, rfl⟩ := HandleTcp.connecting.inj (List.mem_singleton.mp hm)
          exact haccept _ rfl
      · rcases List.mem_append.mp hm with hm | hm
        · exact h.connected other m hm
        · cases List.mem_singleton.mp hm
  | connectEnd run ok =>
      rw [Relays.next]
      split
      · rename_i metadata m hrun
        have hold := h.connecting metadata m (List.mem_of_getElem? hrun)
        refine ⟨fun other m' hm => ?_, fun other m' hm => ?_, h.listed⟩
        · rcases List.mem_or_eq_of_mem_set hm with hm | hm
          · exact h.connecting other m' hm
          · cases ok <;> cases hm
        · rcases List.mem_or_eq_of_mem_set hm with hm | hm
          · exact h.connected other m' hm
          · cases ok with
            | true =>
                obtain ⟨rfl, rfl⟩ := HandleTcp.connected.inj hm
                exact hold
            | false => cases hm
      · exact h
  | track run start =>
      rw [Relays.next]
      split
      · rename_i metadata m hrun
        refine ⟨fun other m' hm => ?_, fun other m' hm => ?_, fun c hc => ?_⟩
        · rcases List.mem_or_eq_of_mem_set hm with hm | hm
          · exact h.connecting other m' hm
          · cases hm
        · rcases List.mem_or_eq_of_mem_set hm with hm | hm
          · exact h.connected other m' hm
          · cases hm
        · rcases List.mem_cons.mp hc with rfl | hc
          · exact ⟨metadata, m, start, h.connected metadata m (List.mem_of_getElem? hrun), rfl⟩
          · exact h.listed c (ConnectionTracker.untrack_subset _ _ hc)
      · exact h
  | relayEnd run copied =>
      rw [Relays.next]
      split
      · refine ⟨fun other m' hm => ?_, fun other m' hm => ?_, fun c hc => ?_⟩
        · rcases List.mem_or_eq_of_mem_set hm with hm | hm
          · exact h.connecting other m' hm
          · cases hm
        · rcases List.mem_or_eq_of_mem_set hm with hm | hm
          · exact h.connected other m' hm
          · cases hm
        · exact h.listed c (ConnectionTracker.untrack_subset _ _ hc)
      · exact h
  | closeAll => exact ⟨h.connecting, h.connected, fun c hc => absurd hc List.not_mem_nil⟩

end Relays

/-! ### The program -/

/-- The tunnel with its connections, and the cells of its groups. -/
structure Daemon where
  relays : Relays Adapter
  cells : Cells

/-- A group without members has been asked. -/
inductive Panic
  | emptyGroup

variable [Axum]

/-- What can happen to the daemon next: a request to its API, a step of one of its connections, a
round of health checks, or a reload of one of its two cells. -/
inductive DaemonEvent
  /-- A request to the API. -/
  | request (request : Request)
  /-- Something that happens to a connection. -/
  | relay (event : RelayEvent)
  /-- A round of health checks moves the choice of a test group. -/
  | healthCheck (cell idx : ℕ)
  /-- `Tunnel::update_proxies` -/
  | updateProxies (proxies : ProxyMap Adapter)
  /-- `Tunnel::update_rules` -/
  | updateRules (rules : List Rule)

namespace Daemon

/-- A tunnel before its first connection, with the choices its groups start with. -/
def start (tunnel : Tunnel Adapter) (cells : Cells) : Daemon := ⟨.start tunnel, cells⟩

/-- What the API works on: the tunnel the connections share, and the cells of the groups. -/
def api (daemon : Daemon) : ApiState := ⟨daemon.relays.tunnel, daemon.cells⟩

/-- The program with other adapters, rules or mode. The statistics and the connections stay. -/
def withTunnel (daemon : Daemon) (tunnel : Tunnel Adapter) : Daemon :=
  let tracked := { daemon.relays.tunnel with toTunnel := tunnel }
  { daemon with relays := { daemon.relays with tunnel := tracked } }

/-- The program after a request, which can have changed anything but the runs of the connections. -/
def withApi (daemon : Daemon) (state : ApiState) : Daemon where
  relays := { daemon.relays with tunnel := state.toTrackedTunnel }
  cells := state.cells

/-- `handle_tcp` asks the adapter it has matched to connect at once. This panics when a group
on the way has no members. -/
def panics (daemon : Daemon) : RelayEvent → Bool
  | .accept metadata =>
      ((daemon.relays.tunnel.matchAdapter metadata).adapter.outbound daemon.cells).isNone
  | _ => false

/-- One step of the daemon. It fails where the thread that takes it would panic, at an adapter whose
name needs a member that a group does not have. -/
def step (secret : Option String) (daemon : Daemon) : DaemonEvent → Except Panic Daemon
  | .request request =>
      let served := daemon.api.serve secret request
      if served.1.isSome then return daemon.withApi served.2 else throw .emptyGroup
  | .relay event =>
      if daemon.panics event then throw .emptyGroup
      else return { daemon with relays := daemon.relays.next event }
  | .healthCheck cell idx =>
      return { daemon with cells := Function.update daemon.cells cell idx }
  | .updateProxies proxies =>
      return daemon.withTunnel (daemon.relays.tunnel.updateProxies proxies)
  | .updateRules rules => return daemon.withTunnel (daemon.relays.tunnel.updateRules rules)

end Daemon

/-! ### Requests -/

namespace ApiState

omit [Crates] [Axum] in
/-- An adapter that is populated can be described, since each group in it has a member to be
shown. -/
theorem proxyJson_isSome {proxy : Adapter} (h : proxy.Populated) (cells : Cells) :
    ∃ value, proxyJson cells proxy = some value := by
  obtain ⟨alive, halive⟩ := h.passedOn (fun _ => true) cells
  obtain ⟨udp, hudp⟩ : ∃ udp, proxy.supportUdp cells = some udp := h.passedOn _ cells
  have halive : proxy.alive cells = some alive := halive
  exact ⟨_, by rw [proxyJson, halive, hudp]; rfl⟩

omit [Axum] in
/-- The list of all proxies is answered when every group has a member. -/
theorem getProxies_isSome {state : ApiState} (h : Populated state.proxies) :
    ∃ response, state.getProxies = some response := by
  have hentries : ∀ entries : List (Sigma fun _ : String => Adapter),
      (∀ e ∈ entries, e.2.Populated) → ∃ values, entries.mapM (fun e =>
        (proxyJson state.cells e.2).map fun value => (e.1, value)) = some values := by
    intro entries hpopulated
    induction entries with
    | nil => exact ⟨[], rfl⟩
    | cons e entries ih =>
        obtain ⟨he, hrest⟩ := List.forall_mem_cons.mp hpopulated
        obtain ⟨value, hvalue⟩ := proxyJson_isSome he state.cells
        obtain ⟨values, hvalues⟩ := ih hrest
        exact ⟨(e.1, value) :: values, by rw [List.mapM_cons, hvalue, hvalues]; rfl⟩
  obtain ⟨values, hvalues⟩ := hentries _ h
  exact ⟨_, by rw [getProxies, hvalues]; rfl⟩

omit [Axum] in
/-- A single proxy is described, or not found, when every group has a member. -/
theorem getProxy_isSome {state : ApiState} (h : Populated state.proxies) (name : String) :
    ∃ response, state.getProxy name = some response := by
  rw [getProxy]
  split
  · rename_i proxy hproxy
    obtain ⟨value, hvalue⟩ := proxyJson_isSome (h.lookup hproxy) state.cells
    exact ⟨value.response, by rw [hvalue]; rfl⟩
  · exact ⟨_, rfl⟩

/-- Every GET request is answered when every group has a member: no handler panics. -/
theorem serveGet_isSome {state : ApiState} (h : Populated state.proxies) (route : Route) :
    ∃ response, (state.serveGet route).1 = some response := by
  cases route with
  | proxies => exact getProxies_isSome h
  | proxy segment =>
      simp only [serveGet]
      split
      · exact getProxy_isSome h _
      · exact ⟨_, rfl⟩
  | root | version | traffic | configs | rules | connections | unregistered => exact ⟨_, rfl⟩

/-- No handler panics as long as every group has members. -/
theorem serve_isSome {state : ApiState} (h : Populated state.proxies) (secret : Option String)
    (request : Request) : (state.serve secret request).1.isSome := by
  obtain ⟨response, hget⟩ := serveGet_isSome h request.route
  rw [serve]
  split
  · rfl
  · rw [hget]
    rfl
  · simp only [hget]
    rfl
  · rfl

/-- What no request changes, and what becomes of the table of connections. -/
structure Served (state state' : ApiState) : Prop where
  proxies : state'.proxies = state.proxies
  rules : state'.rules = state.rules
  connections : state'.connections = state.connections ∨
    state'.connections = state.connections.closeAll.2

/-- A GET request changes nothing but the baseline of the counters. -/
theorem served_get (state : ApiState) (route : Route) : Served state (state.serveGet route).2 := by
  cases route with
  | proxy segment =>
      simp only [serveGet]
      split
      · exact ⟨rfl, rfl, .inl rfl⟩
      · exact ⟨rfl, rfl, .inl rfl⟩
  | root | version | traffic | configs | proxies | rules | connections | unregistered =>
      exact ⟨rfl, rfl, .inl rfl⟩

omit [Axum] in
/-- A new mode changes nothing but the mode. -/
theorem served_patch (state : ApiState) (mode : Option String) :
    Served state (state.patchConfigs mode).2 := by
  unfold patchConfigs
  split
  · split
    · exact ⟨rfl, rfl, .inl rfl⟩
    · exact ⟨rfl, rfl, .inl rfl⟩
  · exact ⟨rfl, rfl, .inl rfl⟩

omit [Axum] in
/-- The selection of a member changes nothing but the cell of its selector. -/
theorem served_change (state : ApiState) (groupName name : String) :
    Served state (state.changeProxy groupName name).2 := by
  rw [changeProxy]
  split
  · split
    · exact ⟨rfl, rfl, .inl rfl⟩
    · exact ⟨rfl, rfl, .inl rfl⟩
  · exact ⟨rfl, rfl, .inl rfl⟩
  · exact ⟨rfl, rfl, .inl rfl⟩

/-- A request with another method changes the mode, a cell or the table of connections, and nothing
else. -/
theorem served_other (state : ApiState) (request : Request) :
    Served state (state.serveOther request).2 := by
  rw [serveOther]
  split
  · split
    · exact served_patch state _
    · exact ⟨rfl, rfl, .inl rfl⟩
  · split
    · exact served_change state _ _
    · exact ⟨rfl, rfl, .inl rfl⟩
    · exact ⟨rfl, rfl, .inl rfl⟩
  · exact ⟨rfl, rfl, .inr rfl⟩
  · exact ⟨rfl, rfl, .inl rfl⟩
  · exact ⟨rfl, rfl, .inl rfl⟩

/-- What a request can change, whatever its method and its route. -/
theorem served_serve (secret : Option String) (state : ApiState) (request : Request) :
    Served state (state.serve secret request).2 := by
  rw [serve]
  split
  · exact ⟨rfl, rfl, .inl rfl⟩
  · exact served_get state request.route
  · exact served_get state request.route
  · exact served_other state request

end ApiState

/-! ### Nothing panics -/

namespace Daemon

/-- The proxies of the tunnel after a step that has gone well. -/
theorem proxies_step {secret : Option String} {daemon daemon' : Daemon} {event : DaemonEvent}
    (h : step secret daemon event = .ok daemon') :
    daemon'.relays.tunnel.proxies = daemon.relays.tunnel.proxies ∨
      event = .updateProxies daemon'.relays.tunnel.proxies := by
  cases event with
  | request request =>
      simp only [step] at h
      split_ifs at h
      obtain rfl := Except.ok.inj h
      exact .inl (ApiState.served_serve secret daemon.api request).proxies
  | relay event =>
      simp only [step] at h
      split_ifs at h
      obtain rfl := Except.ok.inj h
      exact .inl (congrArg Tunnel.proxies (daemon.relays.next_toTunnel event))
  | healthCheck cell idx =>
      obtain rfl := Except.ok.inj h
      exact .inl rfl
  | updateProxies proxies =>
      obtain rfl := Except.ok.inj h
      exact .inr rfl
  | updateRules rules =>
      obtain rfl := Except.ok.inj h
      exact .inl rfl

/-- With members in every group a step goes well. -/
theorem step_isOk (secret : Option String) {daemon : Daemon}
    (h : Populated daemon.relays.tunnel.proxies) (event : DaemonEvent) :
    ∃ daemon', step secret daemon event = .ok daemon' := by
  cases event with
  | request request =>
      have hserved : (daemon.api.serve secret request).1.isSome :=
        ApiState.serve_isSome h secret request
      exact ⟨_, by rw [step]; exact if_pos hserved⟩
  | relay event =>
      have hquiet : ¬ daemon.panics event := by
        cases event with
        | accept metadata =>
            obtain ⟨a, ha⟩ := (h.matchAdapter metadata).outbound daemon.cells
            rw [panics, ha]
            exact Bool.false_ne_true
        | connectEnd | track | relayEnd | closeAll => exact Bool.false_ne_true
      exact ⟨_, by rw [step]; exact if_neg hquiet⟩
  | healthCheck cell idx => exact ⟨_, rfl⟩
  | updateProxies proxies => exact ⟨_, rfl⟩
  | updateRules rules => exact ⟨_, rfl⟩

/-- **Nothing panics.** As long as the groups of the proxies at the start, and of those that are
loaded later, have members, every request is answered and every connection finds an adapter,
whatever is selected, measured and loaded in between. -/
theorem exec_populated (secret : Option String) {tunnel : Tunnel Adapter} (cells : Cells)
    (hstart : Populated tunnel.proxies) {events : List DaemonEvent}
    (hloaded : ∀ proxies, .updateProxies proxies ∈ events → Populated proxies) :
    ∃ daemon, exec (step secret) (start tunnel cells) events = .ok daemon ∧
      Populated daemon.relays.tunnel.proxies := by
  suffices hrun : ∀ daemon : Daemon, Populated daemon.relays.tunnel.proxies →
      ∃ daemon', exec (step secret) daemon events = .ok daemon' ∧
        Populated daemon'.relays.tunnel.proxies from hrun _ hstart
  induction events with
  | nil => exact fun daemon h => ⟨daemon, rfl, h⟩
  | cons event events ih =>
      intro daemon h
      obtain ⟨daemon', hstep⟩ := step_isOk secret h event
      have hnext : Populated daemon'.relays.tunnel.proxies := by
        rcases proxies_step hstep with heq | heq
        · rwa [heq]
        · exact hloaded _ (heq ▸ List.mem_cons_self)
      have hrest : ∀ proxies, .updateProxies proxies ∈ events → Populated proxies :=
        fun proxies hmem => hloaded proxies (List.mem_cons_of_mem _ hmem)
      obtain ⟨last, hexec, hlast⟩ := ih hrest daemon' hnext
      exact ⟨last, exec_cons_eq_ok_iff.mpr ⟨daemon', hstep, hexec⟩, hlast⟩

/-- A connection is relayed, and the mode is switched. -/
def busyEvents : letI := jsonAxum; List DaemonEvent :=
  letI := jsonAxum
  [.relay (.accept googleMetadata), .request globalRequest, .relay (.connectEnd 0 true),
    .healthCheck 0 1, .relay (.track 0 "2024-01-01T00:00:00Z")]

omit [Crates] [Axum] in
/-- A run with a reload that brings a populated map. -/
theorem exec_populated_busy :
    letI := ipv4Crates
    letI := jsonAxum
    ∃ daemon, exec (step none) (start (.new groupProxies []) fun _ => 0)
        (busyEvents ++ [.updateProxies groupProxies]) = .ok daemon ∧
      Populated daemon.relays.tunnel.proxies := by
  let _ := ipv4Crates
  let _ := jsonAxum
  refine exec_populated none _ populated_groupProxies fun proxies hproxies => ?_
  rcases List.mem_append.mp hproxies with hproxies | hproxies
  · simp [busyEvents] at hproxies
  · obtain rfl := DaemonEvent.updateProxies.inj (List.mem_singleton.mp hproxies)
    exact populated_groupProxies

/-! ### What is listed -/

/-- What a step does to the connections: requests and reloads leave the runs alone, and of the
table they can only make an empty one. -/
theorem relays_step {secret : Option String} {daemon daemon' : Daemon} {event : DaemonEvent}
    (h : step secret daemon event = .ok daemon') :
    (∃ e, event = .relay e ∧ daemon'.relays = daemon.relays.next e) ∨
    daemon'.relays.runs = daemon.relays.runs ∧
      (daemon'.relays.tunnel.connections = daemon.relays.tunnel.connections ∨
        daemon'.relays.tunnel.connections = daemon.relays.tunnel.connections.closeAll.2) := by
  cases event with
  | request request =>
      simp only [step] at h
      split_ifs at h
      obtain rfl := Except.ok.inj h
      exact .inr ⟨rfl, (ApiState.served_serve secret daemon.api request).connections⟩
  | relay event =>
      simp only [step] at h
      split_ifs at h
      obtain rfl := Except.ok.inj h
      exact .inl ⟨event, rfl, rfl⟩
  | healthCheck cell idx =>
      obtain rfl := Except.ok.inj h
      exact .inr ⟨rfl, .inl rfl⟩
  | updateProxies proxies =>
      obtain rfl := Except.ok.inj h
      exact .inr ⟨rfl, .inl rfl⟩
  | updateRules rules =>
      obtain rfl := Except.ok.inj h
      exact .inr ⟨rfl, .inl rfl⟩

/-- A step of the daemon keeps what is known of the list, also one that closes all connections. -/
theorem listed_step {secret : Option String} {daemon daemon' : Daemon} {event : DaemonEvent}
    (h : daemon.relays.Listed) (hstep : step secret daemon event = .ok daemon') :
    daemon'.relays.Listed := by
  rcases relays_step hstep with ⟨e, -, heq⟩ | ⟨hruns, hsame | hclosed⟩
  · rw [heq]
    exact h.next e
  · intro id hid
    rw [hsame] at hid
    rw [Relays.Running, hruns]
    exact h id hid
  · intro id hid
    rw [hclosed] at hid
    exact absurd hid (ConnectionTracker.notMem_closeAll _ id)

/-- **What is listed is running.** In every run of connections, requests, health checks and
reloads, each entry of the table is that of a relay that runs, and there are no more entries
than such relays. -/
theorem exec_listed {secret : Option String} {tunnel : Tunnel Adapter} {cells : Cells}
    {events : List DaemonEvent} {daemon : Daemon}
    (h : exec (step secret) (start tunnel cells) events = .ok daemon) :
    (∀ id ∈ daemon.relays.tunnel.connections.connections, daemon.relays.Running id) ∧
      daemon.relays.tunnel.connections.list.length ≤
        daemon.relays.runs.countP HandleTcp.isRelaying := by
  have hstart : (start tunnel cells).relays.Listed := fun id hid =>
    absurd hid (AList.notMem_empty id)
  have hlisted : daemon.relays.Listed := by
    have hkept : ∀ (event : DaemonEvent) (d d' : Daemon), d.relays.Listed →
        step secret d event = .ok d' → d'.relays.Listed := fun _ _ _ => listed_step
    exact exec_keeps (fun event _ => hkept event) hstart h
  exact ⟨hlisted, hlisted.length_le⟩

omit [Crates] [Axum] in
/-- A run with connections, requests and a reload. -/
theorem exec_listed_busy :
    letI := ipv4Crates
    letI := jsonAxum
    ∃ daemon, exec (step none) (start (.new groupProxies []) fun _ => 0) busyEvents = .ok daemon ∧
      (∀ id ∈ daemon.relays.tunnel.connections.connections, daemon.relays.Running id) ∧
      daemon.relays.tunnel.connections.list.length ≤
        daemon.relays.runs.countP HandleTcp.isRelaying := by
  let _ := ipv4Crates
  let _ := jsonAxum
  obtain ⟨daemon, hdaemon⟩ :
      ∃ daemon, exec (step none) (start (.new groupProxies []) fun _ => 0) busyEvents =
        .ok daemon := ⟨_, rfl⟩
  exact ⟨daemon, hdaemon, exec_listed hdaemon⟩

/-- The decision was made for such a connection when it was accepted. -/
def Decided (secret : Option String) (first : Daemon) (events : List DaemonEvent)
    (metadata : Metadata) (m : MatchResult Adapter) : Prop :=
  ∃ before after earlier, events = before ++ .relay (.accept metadata) :: after ∧
    exec (step secret) first before = .ok earlier ∧
    m = earlier.relays.tunnel.matchAdapter metadata

end Daemon

end Redog
