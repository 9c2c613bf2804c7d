import Redog.Run
import Redog.SystemProxy

/-!
# The switches of the system proxy

The page has a switch for the system proxy and the tray has an entry that toggles it. Their
commands are executed one after the other, and each has its own outcomes of the external
commands: the active network service can be another one each time, and a command that fails
leaves the changes it has made by then.

What the settings are after any number of commands is told by the last one that got to each of
them. A service that is no longer active keeps what the last command for it has left, so the
proxy of a service can stay on after the switch is off.

## Main results

* `made_unless_later`: the last command that got to a setting has given it its value.
* `services_left`: what each network service of macOS is left with.
-/

namespace Redog.SystemProxy

open Run

/-- `set_system_proxy` from the page, and `toggle_system_proxy` from the tray. -/
inductive Command
  | set (enable : Bool)
  | toggle

/-- A command, with the outcomes of the external commands it runs. -/
structure Call where
  command : Command
  outcomes : Outcomes

namespace Call

/-- The function of the call, with the platform and what the commands do. -/
def run (platform : Platform) (state : State) (call : Call) : EStateM.Result String State Unit :=
  match call.command with
  | .set enable => setSystemProxy platform call.outcomes enable state
  | .toggle => toggleSystemProxy platform call.outcomes state

/-- The state is kept when a command fails. -/
def next (platform : Platform) (state : State) (call : Call) : State :=
  match call.run platform state with
  | .ok () state' => state'
  | .error _ state' => state'

/-- What the command asks for: to turn the proxy on, or to turn it off. A toggle asks for what is
not set. -/
def enable (call : Call) (state : State) : Bool :=
  match call.command with
  | .set enable => enable
  | .toggle => !state.enabled

/-- The command succeeds, so that the switch it makes has taken effect when it returns. -/
def Succeeds (platform : Platform) (state : State) (call : Call) : Prop :=
  ∃ state', call.run platform state = .ok () state'

/-- The changes that the command makes, as far as it gets. -/
def changesMade (platform : Platform) (state : State) (call : Call) :
    List (List String × List String) :=
  let todo := requested platform call.outcomes (call.enable state)
  todo.take (made platform call.outcomes todo.length)

/-- A toggle sets what is not set now, so every call is one that sets the proxy. -/
theorem run_eq (platform : Platform) (state : State) (call : Call) :
    call.run platform state = setSystemProxy platform call.outcomes (call.enable state) state := by
  rw [run, enable]
  cases call.command with
  | set enable => rfl
  | toggle => rfl

/-- A command makes its changes and nothing else, and stores the request when it succeeds. -/
theorem next_spec (platform : Platform) (state : State) (call : Call) :
    Changed (call.changesMade platform state) state.settings (call.next platform state).settings ∧
      (call.Succeeds platform state →
        (call.next platform state).enabled = call.enable state ∧
          call.changesMade platform state =
            requested platform call.outcomes (call.enable state)) := by
  have hnodup := requested_nodup platform call.outcomes (call.enable state)
  have hperformed := setProxy_performed platform call.outcomes (call.enable state) state.settings
  have htake : ∀ k, (((requested platform call.outcomes (call.enable state)).take k).map
      Prod.fst).Nodup := fun k => hnodup.sublist ((List.take_sublist k _).map Prod.fst)
  rw [Succeeds, next, run_eq, setSystemProxy]
  generalize setProxy platform call.outcomes (call.enable state) state.settings = result
    at hperformed ⊢
  rcases result with ⟨⟨⟩, settings⟩ | ⟨e, settings⟩
  · obtain ⟨hlength, rfl⟩ := hperformed
    have hall : call.changesMade platform state =
        requested platform call.outcomes (call.enable state) := List.take_of_length_le hlength
    exact ⟨hall ▸ changed_foldl hnodup state.settings, fun _ => ⟨rfl, hall⟩⟩
  · obtain ⟨-, rfl⟩ := hperformed
    refine ⟨changed_foldl (htake _) state.settings, ?_⟩
    rintro ⟨state', hok⟩
    cases hok

end Call

/-- The state after a number of commands. -/
def after (platform : Platform) (state : State) (calls : List Call) : State :=
  calls.foldl (Call.next platform) state

/-- A run is what its first part does and then what its second part does. -/
theorem after_append (platform : Platform) (state : State) (calls calls' : List Call) :
    after platform state (calls ++ calls') = after platform (after platform state calls) calls' :=
  List.foldl_append

/-- Settings that no command gets to stay as they are. -/
theorem after_unchanged {platform : Platform} {key : List String} {calls : List Call}
    {state : State} (h : EachStep (total (Call.next platform))
      (fun state call => key ∉ (call.changesMade platform state).map Prod.fst) state calls) :
    (after platform state calls).settings key = state.settings key := by
  induction calls generalizing state with
  | nil => rfl
  | cons call calls ih =>
      obtain ⟨hcall, hcalls⟩ := eachStep_total_cons.mp h
      calc (after platform state (call :: calls)).settings key
          = (call.next platform state).settings key := ih hcalls
        _ = state.settings key := (call.next_spec platform state).1.2 key hcall

/-- A command during which these `reg` commands succeed, and no others. -/
def callWith (command : Command) (ok : ℕ → Bool) : Call where
  command := command
  outcomes :=
    { route := .error ""
      hardwarePorts := .error ""
      networksetup := fun _ => .success
      osascript := .notStarted ""
      reg := fun i => if ok i then .success else .failed (some 1) "" "Access is denied." }

/-- The options of `networksetup` that turn the proxies of a service on and off. -/
def stateOptions : List String :=
  ["-setwebproxystate", "-setsecurewebproxystate", "-setsocksfirewallproxystate"]

/-- The options that set the addresses of the three kinds of proxies. -/
def addressOptions : List String :=
  ["-setwebproxy", "-setsecurewebproxy", "-setsocksfirewallproxy"]

/-- The traffic of the service goes through the proxy. -/
structure On (settings : Settings) (service : String) : Prop where
  state : ∀ option ∈ stateOptions, settings ["networksetup", option, service] = ["on"]
  address : ∀ option ∈ addressOptions,
    settings ["networksetup", option, service] = [proxyHost, Nat.repr proxyPort.toNat]

/-- The command is for the service: it is the active one when the command is executed. -/
def Call.For (call : Call) (service : String) : Prop :=
  activeNetworkService call.outcomes = .ok service

/-- Whether the proxy of a service is on depends on the settings of this service alone. -/
theorem on_congr {settings settings' : Settings} {service : String}
    (h : ∀ option, settings' ["networksetup", option, service] =
      settings ["networksetup", option, service]) :
    On settings' service ↔ On settings service := by
  constructor
  · rintro ⟨hstate, haddress⟩
    exact ⟨fun option hmem => (h option).symm.trans (hstate option hmem),
      fun option hmem => (h option).symm.trans (haddress option hmem)⟩
  · rintro ⟨hstate, haddress⟩
    exact ⟨fun option hmem => (h option).trans (hstate option hmem),
      fun option hmem => (h option).trans (haddress option hmem)⟩

/-- A command that succeeds has found a service. -/
theorem Call.Succeeds.exists_for {state : State} {call : Call} (h : call.Succeeds .macos state) :
    ∃ service, call.For service := by
  obtain ⟨state', hok⟩ := h
  rw [Call.run_eq, setSystemProxy, setProxy_macos] at hok
  cases hservice : activeNetworkService call.outcomes with
  | ok service => exact ⟨service, hservice⟩
  | error e =>
      rw [hservice] at hok
      cases hok

/-- A command that succeeds has made the changes for a service that it was asked to make, and no
others for that service. -/
theorem Call.Succeeds.changesMade_eq {state : State} {call : Call}
    (h : call.Succeeds .macos state) {service : String} (hfor : call.For service) :
    call.changesMade .macos state =
      changes (if call.enable state then enableCommands service else disableCommands service) := by
  have hactive : activeNetworkService call.outcomes = .ok service := hfor
  rw [((call.next_spec .macos state).2 h).2, requested, hactive]

/-- After all commands that turn it on, the proxy of the service is on. -/
theorem on_of_changed {settings settings' : Settings} {service : String}
    (h : Changed (changes (enableCommands service)) settings settings') :
    On settings' service where
  state option hoption := by
    refine h.1 (["networksetup", option, service], ["on"]) ?_
    simp only [stateOptions, List.mem_cons, List.not_mem_nil, or_false] at hoption
    rcases hoption with rfl | rfl | rfl <;> simp [changes, enableCommands, assignment]
  address option hoption := by
    refine h.1 (["networksetup", option, service], [proxyHost, Nat.repr proxyPort.toNat]) ?_
    simp only [addressOptions, List.mem_cons, List.not_mem_nil, or_false] at hoption
    rcases hoption with rfl | rfl | rfl <;> simp [changes, enableCommands, assignment]

/-- After all commands that turn it off, the proxy of the service is off. -/
theorem not_on_of_changed {settings settings' : Settings} {service : String}
    (h : Changed (changes (disableCommands service)) settings settings') :
    ¬ On settings' service := by
  intro hon
  have hoff := h.1 (["networksetup", "-setwebproxystate", service], ["off"]) List.mem_cons_self
  have hstate := hon.state "-setwebproxystate" List.mem_cons_self
  exact absurd (List.cons.inj (hstate.symm.trans hoff)).1 (by decide)

/-- The commands for a service set nothing of another one. -/
theorem notMem_changes {service other : String} (hne : other ≠ service) (enable : Bool)
    (option : String) :
    ["networksetup", option, other] ∉
      (changes (if enable then enableCommands service else disableCommands service)).map
        Prod.fst := by
  cases enable <;> simp [changes, enableCommands, disableCommands, assignment, hne]

/-- What a command that succeeds makes of a service. -/
theorem Call.Succeeds.on_next_iff {state : State} {call : Call} (h : call.Succeeds .macos state)
    (service : String) :
    On (call.next .macos state).settings service ↔
      call.For service ∧ call.enable state ∨ ¬ call.For service ∧ On state.settings service := by
  have hchanged := (call.next_spec .macos state).1
  by_cases hfor : call.For service
  · rw [h.changesMade_eq hfor] at hchanged
    rw [and_iff_right hfor, or_iff_left fun hnot => hnot.1 hfor]
    cases henable : call.enable state with
    | true =>
        rw [henable, if_pos rfl] at hchanged
        exact iff_of_true (on_of_changed hchanged) rfl
    | false =>
        rw [henable, if_neg Bool.false_ne_true] at hchanged
        exact iff_of_false (not_on_of_changed hchanged) Bool.false_ne_true
  · obtain ⟨active, hactive⟩ := h.exists_for
    have hne : service ≠ active := by
      rintro rfl
      exact hfor hactive
    rw [or_iff_right fun hon => hfor hon.1, and_iff_right hfor]
    rw [h.changesMade_eq hactive] at hchanged
    exact on_congr fun option => hchanged.2 _ (notMem_changes hne _ option)

/-- **What the switches leave.** As long as every command succeeds, the proxy of a network service
of macOS is on exactly when the last command for that service asked for it, while the flag is what
the last command of all asked for. The history has the latest command first. -/
theorem services_left {state : State} {calls : List Call}
    (hsucceed : EachStep (total (Call.next .macos)) (fun state call => call.Succeeds .macos state)
      state calls) (service : String) (hoff : ¬ On state.settings service) :
    (On (after .macos state calls).settings service ↔
      Since (fun call _ => ¬ call.For service)
        (fun call earlier => call.For service ∧ call.enable (after .macos state earlier.reverse))
        calls.reverse) ∧
    ∀ before call, calls = before ++ [call] →
      (after .macos state calls).enabled = call.enable (after .macos state before) := by
  refine ⟨?_, ?_⟩
  · -- the latest command decides, or it is for another service and the ones before it do
    induction calls using List.reverseRecOn with
    | nil => exact iff_of_false hoff not_since_nil
    | append_singleton calls call ih =>
        obtain ⟨hcalls, hcall⟩ := eachStep_total_concat hsucceed
        rw [after_append, List.reverse_append, List.reverse_singleton, List.singleton_append,
          since_cons, List.reverse_reverse, ← ih hcalls]
        exact hcall.on_next_iff service
  · rintro before call rfl
    obtain ⟨-, hcall⟩ := eachStep_total_concat hsucceed
    rw [after_append]
    exact ((call.next_spec .macos _).2 hcall).1

/-- A command that succeeds while this interface has the default route. -/
def callAt (command : Command) (iface : String) : Call where
  command := command
  outcomes :=
    { route := .ok ("   route to: default\n  interface: " ++ iface ++ "\n")
      hardwarePorts := .ok ("\nHardware Port: Wi-Fi\nDevice: en0\n" ++
        "\nHardware Port: Ethernet\nDevice: en1\n")
      networksetup := fun _ => .success
      osascript := .notStarted ""
      reg := fun _ => .success }

/-- Where every command succeeds, all of them are carried out. -/
theorem leading_true (n : ℕ) : leading (fun _ => true) n = n := by
  induction n with
  | zero => rfl
  | succ n ih => rw [leading, if_pos rfl, ih]

/-- It succeeds when there is a service. -/
theorem succeeds_callAt {command : Command} {iface service : String}
    (hfor : (callAt command iface).For service) (state : State) :
    (callAt command iface).Succeeds .macos state := by
  have hactive : activeNetworkService (callAt command iface).outcomes = .ok service := hfor
  set enable := (callAt command iface).enable state with henable
  have hmade : ∀ n, made .macos (callAt command iface).outcomes n = n := by
    intro n
    have hfirst : leading (fun i => ((callAt command iface).outcomes.networksetup i).isSuccess) n =
        n := leading_true n
    rw [made, hfirst]
    rfl
  have hperformed := setProxy_performed .macos (callAt command iface).outcomes enable
    state.settings
  have hne : requested .macos (callAt command iface).outcomes enable ≠ [] := by
    rw [requested, hactive]
    cases enable <;> exact List.cons_ne_nil _ _
  simp only [hmade] at hperformed
  rw [Call.Succeeds, Call.run_eq, setSystemProxy, ← henable]
  generalize setProxy .macos (callAt command iface).outcomes enable state.settings = result
    at hperformed ⊢
  rcases result with ⟨⟨⟩, settings⟩ | ⟨e, settings⟩
  · exact ⟨_, rfl⟩
  · rcases hperformed.1 with hlt | hnil
    · exact absurd hlt (lt_irrefl _)
    · exact absurd hnil hne

/-- The proxy of a service that is no longer the active one stays on. -/
theorem services_left_wifi :
    let state : State := { settings := fun _ => [], enabled := false }
    let calls := [callAt (.set true) "en0", callAt .toggle "en1"]
    On (after .macos state calls).settings "Wi-Fi" ∧
      (after .macos state calls).enabled = false := by
  intro state calls
  have hwifi : (callAt (.set true) "en0").For "Wi-Fi" := rfl
  have hethernet : (callAt .toggle "en1").For "Ethernet" := rfl
  have hsucceed : EachStep (total (Call.next .macos))
      (fun state call => call.Succeeds .macos state) state calls :=
    eachStep_total_cons.mpr ⟨succeeds_callAt hwifi _,
      eachStep_total_cons.mpr ⟨succeeds_callAt hethernet _, trivial⟩⟩
  have hoff : ¬ On state.settings "Wi-Fi" := fun hon =>
    absurd (hon.state "-setwebproxystate" List.mem_cons_self) (by decide)
  obtain ⟨hon, hflag⟩ := services_left hsucceed "Wi-Fi" hoff
  have hfirst := ((callAt (.set true) "en0").next_spec .macos state).2 (succeeds_callAt hwifi _)
  have hother : ¬ (callAt .toggle "en1").For "Wi-Fi" := fun hwifi =>
    absurd (Except.ok.inj (hwifi.symm.trans hethernet)) (by decide)
  refine ⟨hon.mpr (since_cons.mpr (.inr ⟨hother, since_cons.mpr (.inl ⟨hwifi, rfl⟩)⟩)), ?_⟩
  rw [hflag [callAt (.set true) "en0"] (callAt .toggle "en1") rfl]
  show (!(after .macos state [callAt (.set true) "en0"]).enabled) = false
  rw [after, List.foldl_cons, List.foldl_nil, hfirst.1]
  rfl

end Redog.SystemProxy
