import Redog.Main
import Redog.Run

/-!
# Hot reload

A reload replaces the proxies and the rules of a running tunnel, one after the other: they
live in two cells, each swapped atomically. A `match_adapter` call loads the rules and then
the proxies. When a swap falls between a load and the other swap, the call routes with the
rules of one configuration and the proxies of the other.

Which configurations the call has seen is decided by the schedule alone (`seen`). It sees
one of them whole exactly when it has seen both swaps or neither, `Coherent`.

## Main results

* `result_of_schedule`: the call routes with what it has seen.
* `atomic_iff`: when a reload is seen atomically, for given configurations and for all.
-/

namespace Redog

open Run

/-! ### Schedules -/

/-- The steps of a reload and of a call: two stores and two loads. -/
inductive Action
  | updateProxies | updateRules | loadRules | loadProxies
deriving DecidableEq, Repr

/-- The schedule interleaves a reload, in either order, with the loads of a call. -/
def IsSchedule (schedule : List Action) : Prop :=
  Interleave [.updateProxies, .updateRules] [.loadRules, .loadProxies] schedule ∨
    Interleave [.updateRules, .updateProxies] [.loadRules, .loadProxies] schedule

/-- The call loads the new rules exactly when it loads the new proxies. -/
def Coherent (schedule : List Action) : Prop :=
  Before schedule .updateRules .loadRules ↔ Before schedule .updateProxies .loadProxies

/-- A schedule makes each of the four steps, and makes it once. -/
theorem IsSchedule.mem_nodup {schedule : List Action} (h : IsSchedule schedule) :
    (∀ action, action ∈ schedule) ∧ schedule.Nodup := by
  rcases h with h | h
  · refine ⟨fun action => h.perm.mem_iff.mpr ?_, h.perm.nodup_iff.mpr (by decide)⟩
    cases action <;> decide
  · refine ⟨fun action => h.perm.mem_iff.mpr ?_, h.perm.nodup_iff.mpr (by decide)⟩
    cases action <;> decide

/-! ### The two cells -/

section

variable [Crates] {A : Type}

/-- A `match_adapter` call in rule mode on a tunnel: what it has loaded so far. -/
structure Call (A : Type) where
  tunnel : Tunnel A
  rules : Option (List Rule) := none
  proxies : Option (ProxyMap A) := none

/-- One step, with the rules and proxies of the new configuration. -/
def Call.step (rules : List Rule) (proxies : ProxyMap A) (call : Call A) : Action → Call A
  | .updateProxies => { call with tunnel := call.tunnel.updateProxies proxies }
  | .updateRules => { call with tunnel := call.tunnel.updateRules rules }
  | .loadRules => { call with rules := some call.tunnel.rules }
  | .loadProxies => { call with proxies := some call.tunnel.proxies }

/-- The rules of the tunnel are a register of the run, which the reload stores to and the call loads
from. -/
theorem register_rules (rules : List Rule) (proxies : ProxyMap A) :
    Register (Call.step rules proxies) .updateRules .loadRules rules
      (·.tunnel.rules) (·.rules) where
  cell_store _ := rfl
  view_load _ := rfl
  cell_frame _ a ha := by cases a <;> first | rfl | exact absurd rfl ha
  view_frame _ a ha := by cases a <;> first | rfl | exact absurd rfl ha

/-- The proxies of the tunnel are the other register of the run. -/
theorem register_proxies (rules : List Rule) (proxies : ProxyMap A) :
    Register (Call.step rules proxies) .updateProxies .loadProxies proxies
      (·.tunnel.proxies) (·.proxies) where
  cell_store _ := rfl
  view_load _ := rfl
  cell_frame _ a ha := by cases a <;> first | rfl | exact absurd rfl ha
  view_frame _ a ha := by cases a <;> first | rfl | exact absurd rfl ha

/-! ### What a call sees -/

variable [ProxyAdapter A]

/-- What the call returns once it has loaded both. -/
def Call.result (call : Call A) (metadata : Metadata) : Option (MatchResult A) := do
  return ruleMatch (← call.rules) (← call.proxies) metadata

/-- What a call returns when it runs with a reload on a schedule. -/
def reloadResult (tunnel : Tunnel A) (rules : List Rule) (proxies : ProxyMap A)
    (schedule : List Action) (metadata : Metadata) : Option (MatchResult A) :=
  (schedule.foldl (Call.step rules proxies) { tunnel := tunnel }).result metadata

/-- The tunnel the call has seen: each of the two cells is the new one if it was swapped before it
was read. -/
def seen (tunnel : Tunnel A) (rules : List Rule) (proxies : ProxyMap A)
    (schedule : List Action) : Tunnel A :=
  .new (if Before schedule .updateProxies .loadProxies then proxies else tunnel.proxies)
    (if Before schedule .updateRules .loadRules then rules else tunnel.rules)

/-- The call routes with what it has seen. -/
theorem result_of_schedule (tunnel : Tunnel A) (rules : List Rule) (proxies : ProxyMap A)
    {schedule : List Action} (h : IsSchedule schedule) (metadata : Metadata) :
    reloadResult tunnel rules proxies schedule metadata =
      some ((seen tunnel rules proxies schedule).matchAdapter metadata) := by
  obtain ⟨hmem, hnodup⟩ := h.mem_nodup
  have hrules := (register_rules rules proxies).view_run (by decide) (hmem .loadRules) hnodup
    { tunnel := tunnel }
  have hproxies := (register_proxies rules proxies).view_run (by decide) (hmem .loadProxies)
    hnodup { tunnel := tunnel }
  rw [reloadResult, Call.result, hrules, hproxies]
  rfl

/-! ### Atomic reloads -/

/-- The call returns what the old or the new configuration alone gives. -/
def SeenAtomically (tunnel : Tunnel A) (rules : List Rule) (proxies : ProxyMap A)
    (schedule : List Action) (metadata : Metadata) : Prop :=
  reloadResult tunnel rules proxies schedule metadata = some (tunnel.matchAdapter metadata) ∨
    reloadResult tunnel rules proxies schedule metadata =
      some (((tunnel.updateProxies proxies).updateRules rules).matchAdapter metadata)

/-- The rules that decide in the two tunnels have the same type and payload, and name the
same adapter. -/
def SameDecision (tunnel tunnel' : Tunnel A) (metadata : Metadata) : Prop :=
  let rule := tunnel.decidingRule metadata
  let rule' := tunnel'.decidingRule metadata
  rule.ruleType.display = rule'.ruleType.display ∧ rule.payload = rule'.payload ∧
    tunnel.adapterOf rule = tunnel'.adapterOf rule'

/-- In rule mode two tunnels decide alike exactly when the rule that decides and its adapter are the
same. -/
theorem sameDecision_iff {tunnel tunnel' : Tunnel A} (hmode : tunnel.mode = .rule)
    (hmode' : tunnel'.mode = .rule) (metadata : Metadata) :
    tunnel.matchAdapter metadata = tunnel'.matchAdapter metadata ↔
      SameDecision tunnel tunnel' metadata := by
  rw [Tunnel.matchAdapter, Tunnel.matchAdapter, hmode, hmode']
  dsimp only
  rw [tunnel.ruleMatch_eq_decidingRule, tunnel'.ruleMatch_eq_decidingRule, MatchResult.mk.injEq]
  rfl

omit [ProxyAdapter A] in
/-- On a coherent schedule the call sees the old tunnel or the new one. -/
theorem seen_of_coherent (rules rules' : List Rule) (proxies proxies' : ProxyMap A)
    {schedule : List Action} (h : Coherent schedule) :
    seen (.new proxies rules) rules' proxies' schedule = .new proxies rules ∨
      seen (.new proxies rules) rules' proxies' schedule = .new proxies' rules' := by
  by_cases hrules : Before schedule .updateRules .loadRules
  · right
    rw [seen, if_pos hrules, if_pos (h.mp hrules)]
  · left
    rw [seen, if_neg hrules, if_neg fun hproxies => hrules (h.mpr hproxies)]
    rfl

/-- On a coherent schedule the call sees one of the two configurations, whatever they are. -/
theorem seenAtomically_of_coherent (rules rules' : List Rule) (proxies proxies' : ProxyMap A)
    {schedule : List Action} (h : IsSchedule schedule) (hcoherent : Coherent schedule)
    (metadata : Metadata) :
    SeenAtomically (.new proxies rules) rules' proxies' schedule metadata := by
  rw [SeenAtomically, result_of_schedule _ rules' proxies' h]
  rcases seen_of_coherent rules rules' proxies proxies' hcoherent with hseen | hseen
  · left
    rw [hseen]
  · right
    rw [hseen]
    rfl

/-- The reload is seen atomically exactly when what the call has seen decides as one of the
two configurations does. -/
theorem seenAtomically_iff_sameDecision (rules rules' : List Rule)
    (proxies proxies' : ProxyMap A) {schedule : List Action} (h : IsSchedule schedule)
    (metadata : Metadata) :
    SeenAtomically (.new proxies rules) rules' proxies' schedule metadata ↔
      SameDecision (seen (.new proxies rules) rules' proxies' schedule)
          (.new proxies rules) metadata ∨
        SameDecision (seen (.new proxies rules) rules' proxies' schedule)
          (.new proxies' rules') metadata := by
  rw [SeenAtomically, result_of_schedule _ rules' proxies' h, Option.some.injEq,
    Option.some.injEq, sameDecision_iff rfl rfl, sameDecision_iff rfl rfl]
  rfl

/-! ### A reload that shows -/

/-- A rule for port 0, with the adapter it names. -/
def portRule (adapter : String) : Rule := .dstPort (.new 0 adapter)

/-- The proxy map with one adapter, under the given name. -/
def onlyProxy (name : String) : ProxyMap A :=
  (∅ : ProxyMap A).insert name ProxyAdapter.direct

/-- The rule for every port routes a connection exactly when its adapter is in the map. -/
theorem routes_portRule (adapter name : String) :
    (portRule adapter).routes (onlyProxy (A := A) name) (.new .tcp .socks5) =
      decide (adapter = name) := by
  show (true && ((onlyProxy (A := A) name).lookup adapter).isSome) = _
  by_cases h : adapter = name
  · rw [h, onlyProxy, AList.lookup_insert, decide_eq_true rfl]
    rfl
  · rw [onlyProxy, AList.lookup_insert_ne h, AList.lookup_empty, decide_eq_false h]
    rfl

/-- The rule decides exactly when its adapter is the one there is. -/
theorem ruleName_portRule (adapter name : String) :
    ((Tunnel.new (onlyProxy (A := A) name) [portRule adapter]).matchAdapter
        (.new .tcp .socks5)).ruleName =
      if adapter = name then "DST-PORT" else "MATCH" := by
  have hroutes := routes_portRule (A := A) adapter name
  by_cases h : adapter = name
  · rw [decide_eq_true h] at hroutes
    obtain ⟨_, -, hresult⟩ := ruleMatch_of_find (List.find?_cons_of_pos hroutes)
    rw [if_pos h]
    exact congrArg MatchResult.ruleName hresult
  · rw [decide_eq_false h] at hroutes
    have hfind : [portRule adapter].find?
        (·.routes (onlyProxy (A := A) name) (.new .tcp .socks5)) = none := by
      simp [hroutes]
    rw [if_neg h]
    exact congrArg MatchResult.ruleName (ruleMatch_of_find_none hfind)

/-- Where the call returns what the old or the new configuration gives in this reload, the
schedule is coherent: any other schedule pairs a rule with the wrong proxy. -/
theorem coherent_of_seenAtomically {schedule : List Action} (h : IsSchedule schedule)
    (hatomic : SeenAtomically (.new (onlyProxy (A := A) "Old") [portRule "Old"])
      [portRule "New"] (onlyProxy "New") schedule (.new .tcp .socks5)) :
    Coherent schedule := by
  have hname : ((seen (.new (onlyProxy (A := A) "Old") [portRule "Old"]) [portRule "New"]
      (onlyProxy "New") schedule).matchAdapter (.new .tcp .socks5)).ruleName = "DST-PORT" := by
    rw [SeenAtomically, result_of_schedule _ _ _ h] at hatomic
    rcases hatomic with hold | hnew
    · rw [Option.some.inj hold]
      exact ruleName_portRule "Old" "Old"
    · rw [Option.some.inj hnew]
      exact ruleName_portRule "New" "New"
  by_cases hrules : Before schedule .updateRules .loadRules
  · by_cases hproxies : Before schedule .updateProxies .loadProxies
    · exact iff_of_true hrules hproxies
    · rw [seen, if_pos hrules, if_neg hproxies] at hname
      have hmixed := ruleName_portRule (A := A) "New" "Old"
      exact absurd (hname.symm.trans hmixed) (by decide)
  · by_cases hproxies : Before schedule .updateProxies .loadProxies
    · rw [seen, if_neg hrules, if_pos hproxies] at hname
      have hmixed := ruleName_portRule (A := A) "Old" "New"
      exact absurd (hname.symm.trans hmixed) (by decide)
    · exact iff_of_false hrules hproxies

/-- **When a reload is seen atomically.** On a schedule of a reload and a call, the call
returns what one of two given configurations alone gives exactly when the schedule is
coherent, or what it has seen decides as one of them does. It does so for all configurations
exactly when the schedule is coherent. -/
theorem atomic_iff {schedule : List Action} (h : IsSchedule schedule) :
    (∀ (rules rules' : List Rule) (proxies proxies' : ProxyMap A) (metadata : Metadata),
      SeenAtomically (.new proxies rules) rules' proxies' schedule metadata ↔
        Coherent schedule ∨
          SameDecision (seen (.new proxies rules) rules' proxies' schedule)
            (.new proxies rules) metadata ∨
          SameDecision (seen (.new proxies rules) rules' proxies' schedule)
            (.new proxies' rules') metadata) ∧
    ((∀ (rules rules' : List Rule) (proxies proxies' : ProxyMap A) (metadata : Metadata),
      SeenAtomically (.new proxies rules) rules' proxies' schedule metadata) ↔
        Coherent schedule) := by
  constructor
  · intro rules rules' proxies proxies' metadata
    rw [← seenAtomically_iff_sameDecision rules rules' proxies proxies' h metadata]
    exact ⟨.inr, fun hor => hor.elim
      (fun hcoherent => seenAtomically_of_coherent _ _ _ _ h hcoherent _) id⟩
  · constructor
    · exact fun hatomic => coherent_of_seenAtomically h (hatomic _ _ _ _ _)
    · exact fun hcoherent _ _ _ _ _ => seenAtomically_of_coherent _ _ _ _ h hcoherent _

end

/-! ### A bypass during a reload -/

/-- A proxy map that rejects under a name. -/
def rejectAs (name : String) : ProxyMap Outbound :=
  ((∅ : ProxyMap Outbound).insert "DIRECT" .direct).insert name .reject

/-- The call and the reload take turns: each store comes right before the load of its cell, so the
call sees all of the new configuration. -/
theorem atomic_iff_turns :
    letI := ipv4Crates
    SeenAtomically (.new (rejectAs "Old") [.match ⟨"Old"⟩]) [.match ⟨"New"⟩] (rejectAs "New")
      [.updateRules, .loadRules, .updateProxies, .loadProxies] googleMetadata := by
  let _ := ipv4Crates
  have hschedule : IsSchedule [.updateRules, .loadRules, .updateProxies, .loadProxies] :=
    .inr (.left (.right (.left (.right .nil))))
  exact ((atomic_iff hschedule).1 _ _ _ _ _).mpr (.inl (by unfold Coherent; decide))

/-- Both configurations reject everything, but a call that loads its rules before the reload
and its proxies after it goes out directly. -/
theorem reload_bypassed :
    letI := ipv4Crates
    IsSchedule [.loadRules, .updateProxies, .updateRules, .loadProxies] ∧
      ¬ SeenAtomically (.new (rejectAs "Old") [.match ⟨"Old"⟩]) [.match ⟨"New"⟩]
        (rejectAs "New") [.loadRules, .updateProxies, .updateRules, .loadProxies]
        googleMetadata := by
  let _ := ipv4Crates
  refine ⟨.inl (.right (.left (.left (.right .nil)))), ?_⟩
  have hresult : reloadResult (.new (rejectAs "Old") [.match ⟨"Old"⟩]) [.match ⟨"New"⟩]
      (rejectAs "New") [.loadRules, .updateProxies, .updateRules, .loadProxies] googleMetadata =
      some ⟨"MATCH", "", .direct⟩ := by
    decide +kernel
  rw [SeenAtomically, hresult]
  decide +kernel

end Redog
