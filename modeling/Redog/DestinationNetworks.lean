import Redog.Main

/-!
# Destination networks

A destination network is the only kind of rule that reads the destination address. Without
one it matches nothing, and routing goes on to the rules behind it. `NetworksAgree` says
when that makes no difference to the adapter.

A rule says whether it needs the address of the host to be resolved first, and the design of
`rule_match` has the walk over the rules resolve it before the first rule that does. The
walk of the code never asks the resolver. `referenceMatch` is the walk of the design; since
the rules before the first destination network do not read the address, it decides like the
walk of the code would on metadata that was resolved beforehand.

## Main results

* `adapter_eraseDstIp_iff`: when the destination address makes no difference.
* `referenceMatch_eq`: resolving on the way is resolving beforehand.
* `adapter_referenceMatch_iff`: when `rule_match` selects the adapter of the design.
-/

namespace Redog

open Rust

/-! ### Routing without the address -/

section Networks

variable [Crates] {A : Type} [ProxyAdapter A]

/-- Where a destination network is the first rule to route the connection, the first rule of
another kind to route it, or the default DIRECT, gives the same adapter. -/
def NetworksAgree (rules : List Rule) (proxies : ProxyMap A) (metadata : Metadata) : Prop :=
  ∀ rule, rules.find? (·.routes proxies metadata) = some rule → rule.shouldResolveIp →
    match rules.find? fun other => other.routes proxies metadata && !other.shouldResolveIp with
    | some other => proxies.lookup other.adapter = proxies.lookup rule.adapter
    | none => some (directAdapter proxies) = proxies.lookup rule.adapter

omit [ProxyAdapter A] in
/-- Without the address the same rules route the connection, less the destination networks. -/
theorem routes_eraseDstIp (proxies : ProxyMap A) (metadata : Metadata)
    (inboundType : InboundType) (rule : Rule) :
    rule.routes proxies { metadata with inboundType := inboundType, dstIp := none } =
      (rule.routes proxies metadata && !rule.shouldResolveIp) := by
  rw [Rule.routes, Rule.matches_eraseDstIp, Rule.routes, Bool.and_right_comm]

/-- Where a destination network is the first rule to route the connection, the condition is about
this rule alone. -/
theorem networksAgree_iff {rules : List Rule} {proxies : ProxyMap A} {metadata : Metadata}
    {rule : Rule} (hfirst : rules.find? (·.routes proxies metadata) = some rule)
    (hnetwork : rule.shouldResolveIp = true) :
    NetworksAgree rules proxies metadata ↔
      match rules.find? fun other => other.routes proxies metadata && !other.shouldResolveIp with
      | some other => proxies.lookup other.adapter = proxies.lookup rule.adapter
      | none => some (directAdapter proxies) = proxies.lookup rule.adapter := by
  constructor
  · exact fun h => h rule hfirst hnetwork
  · intro h rule' hrule' _
    obtain rfl := Option.some.inj (hfirst.symm.trans hrule')
    exact h

/-- Dropping the destination address keeps the adapter exactly when no destination network
makes the difference. -/
theorem adapter_eraseDstIp_iff (rules : List Rule) (proxies : ProxyMap A) (metadata : Metadata)
    (inboundType : InboundType) :
    (ruleMatch rules proxies metadata).adapter =
        (ruleMatch rules proxies
          { metadata with inboundType := inboundType, dstIp := none }).adapter ↔
      NetworksAgree rules proxies metadata := by
  have hfind : rules.find? (·.routes proxies
      { metadata with inboundType := inboundType, dstIp := none }) =
      rules.find? fun other => other.routes proxies metadata && !other.shouldResolveIp := by
    simp only [routes_eraseDstIp]
  cases hfirst : rules.find? (·.routes proxies metadata) with
  | none =>
      rw [ruleMatch_of_find_none hfirst,
        ruleMatch_of_find_none (hfind.trans (find?_and_eq_none hfirst))]
      refine iff_of_true rfl fun rule hrule => ?_
      rw [hfirst] at hrule
      cases hrule
  | some rule =>
      obtain ⟨adapter, hadapter, hresult⟩ := ruleMatch_of_find hfirst
      rw [hresult]
      cases hnetwork : rule.shouldResolveIp with
      | false =>
          -- The same rule decides both times.
          have hother : (!rule.shouldResolveIp) = true := by rw [hnetwork]; rfl
          obtain ⟨adapter', hadapter', hresult'⟩ :=
            ruleMatch_of_find (hfind.trans (find?_and hfirst hother))
          obtain rfl := Option.some.inj (hadapter.symm.trans hadapter')
          rw [hresult']
          refine iff_of_true rfl fun rule' hrule' hnetwork' => ?_
          obtain rfl := Option.some.inj (hfirst.symm.trans hrule')
          rw [hnetwork] at hnetwork'
          cases hnetwork'
      | true =>
          rw [networksAgree_iff hfirst hnetwork, ← hfind, hadapter]
          cases hother : rules.find? (·.routes proxies
            { metadata with inboundType := inboundType, dstIp := none }) with
          | none =>
              rw [ruleMatch_of_find_none hother]
              show adapter = directAdapter proxies ↔ some (directAdapter proxies) = some adapter
              rw [Option.some.injEq]
              exact eq_comm
          | some other =>
              obtain ⟨adapter', hadapter', hresult'⟩ := ruleMatch_of_find hother
              rw [hresult']
              show adapter = adapter' ↔ proxies.lookup other.adapter = some adapter
              rw [hadapter', Option.some.injEq]
              exact eq_comm

/-! ### Resolving on the way -/

/-- The metadata with the address the resolver gives for the host. -/
def Metadata.resolved (resolver : String → Option IpAddr) (metadata : Metadata) : Metadata :=
  { metadata with dstIp := metadata.host.bind resolver }

/-- The metadata a rule is evaluated on: a rule that needs the address has it resolved. -/
def resolveFor (resolver : String → Option IpAddr) (rule : Rule) (metadata : Metadata) : Metadata :=
  if rule.shouldResolveIp ∧ metadata.dstIp = none then metadata.resolved resolver else metadata

/-- The loop of the design of `rule_match`: the metadata is resolved on the way. -/
def resolvingLoop (resolver : String → Option IpAddr) (proxies : ProxyMap A) :
    Metadata → List Rule → Option (MatchResult A)
  | _, [] => none
  | metadata, rule :: rules =>
      let metadata := resolveFor resolver rule metadata
      if rule.matches metadata then
        match proxies.lookup rule.adapter with
        | some adapter => some ⟨rule.ruleType.display, rule.payload, adapter⟩
        | none => resolvingLoop resolver proxies metadata rules
      else resolvingLoop resolver proxies metadata rules

/-- The design of `rule_match`: the first rule that matches and whose adapter is there, with the
host resolved as soon as a rule asks for its address. -/
def referenceMatch (resolver : String → Option IpAddr) (rules : List Rule)
    (proxies : ProxyMap A) (metadata : Metadata) : MatchResult A :=
  (resolvingLoop resolver proxies metadata rules).getD ⟨"MATCH", "", directAdapter proxies⟩

/-- A rule that does not need the address does not depend on it. -/
theorem matches_of_not_shouldResolveIp {rule : Rule} (h : rule.shouldResolveIp = false)
    (metadata : Metadata) (ip : Option IpAddr) :
    rule.matches { metadata with dstIp := ip } = rule.matches metadata := by
  have herase := rule.matches_eraseDstIp metadata metadata.inboundType
  have herase' := rule.matches_eraseDstIp { metadata with dstIp := ip } metadata.inboundType
  rw [h, Bool.not_false, Bool.and_true] at herase herase'
  exact herase'.symm.trans herase

omit [ProxyAdapter A] in
/-- From metadata that is unresolved, or resolved already, the loop of the design is the loop
of the code on resolved metadata. -/
theorem resolvingLoop_eq (resolver : String → Option IpAddr) (proxies : ProxyMap A)
    (rules : List Rule) (metadata : Metadata)
    (hip : metadata.dstIp = none ∨ metadata.dstIp = metadata.host.bind resolver) :
    resolvingLoop resolver proxies metadata rules =
      ruleLoop proxies (metadata.resolved resolver) rules := by
  induction rules generalizing metadata with
  | nil => rfl
  | cons rule rules ih =>
      rw [resolvingLoop, ruleLoop]
      cases hresolve : rule.shouldResolveIp with
      | true =>
          have hstep : resolveFor resolver rule metadata = metadata.resolved resolver := by
            rw [resolveFor]
            split_ifs with h
            · rfl
            · have hset := hip.resolve_left fun hnone => h ⟨hresolve, hnone⟩
              rw [Metadata.resolved, ← hset]
          simp only [hstep, ih (metadata.resolved resolver) (.inr rfl)]
          rfl
      | false =>
          have hstep : resolveFor resolver rule metadata = metadata :=
            if_neg fun h => Bool.false_ne_true (hresolve.symm.trans h.1)
          have hmatches := matches_of_not_shouldResolveIp hresolve metadata
            (metadata.host.bind resolver)
          simp only [hstep, ih metadata hip, ← hmatches]
          rfl

/-- **Resolving on the way is resolving beforehand.** -/
theorem referenceMatch_eq (resolver : String → Option IpAddr) (rules : List Rule)
    (proxies : ProxyMap A) {metadata : Metadata} (hip : metadata.dstIp = none) :
    referenceMatch resolver rules proxies metadata =
      ruleMatch rules proxies (metadata.resolved resolver) := by
  rw [referenceMatch, resolvingLoop_eq resolver proxies rules metadata (.inl hip), ruleMatch]

/-- **When not resolving does not matter.** For a connection without a destination address
`rule_match` selects the adapter the design selects exactly when, on the resolved metadata,
no destination network makes the difference. -/
theorem adapter_referenceMatch_iff (resolver : String → Option IpAddr) (rules : List Rule)
    (proxies : ProxyMap A) (metadata : Metadata) (hip : metadata.dstIp = none) :
    (ruleMatch rules proxies metadata).adapter =
        (referenceMatch resolver rules proxies metadata).adapter ↔
      NetworksAgree rules proxies (metadata.resolved resolver) := by
  have herased : { metadata.resolved resolver with
      inboundType := metadata.inboundType, dstIp := none } = metadata := by
    rw [Metadata.resolved, ← hip]
  rw [referenceMatch_eq resolver rules proxies hip, eq_comm,
    ← adapter_eraseDstIp_iff rules proxies _ metadata.inboundType, herased]

end Networks

/-- A resolver that knows one host, whose address is in a private network. -/
def intranetResolver (host : String) : Option IpAddr :=
  if host = "intranet.example" then some (.v4 (.new 10 0 0 1)) else none

/-- A connection to that host by its name. -/
def intranetMetadata : Metadata :=
  { Metadata.new .tcp .httpConnect with host := some "intranet.example", dstPort := 80 }

/-- Rules that reject a private network and send everything else out directly. -/
def networkRules [Crates] : List Rule :=
  (["IP-CIDR,10.0.0.0/8,REJECT", "MATCH,DIRECT"]).filterMap fun line => (parseRule line).toOption

/-- The equivalence where it decides: the address of the host is in the network that the first of
the rules rejects, and the rule behind it goes out directly. -/
theorem adapter_referenceMatch_networks :
    letI := ipv4Crates
    (ruleMatch networkRules mainProxies intranetMetadata).adapter =
        (referenceMatch intranetResolver networkRules mainProxies intranetMetadata).adapter ↔
      NetworksAgree networkRules mainProxies (intranetMetadata.resolved intranetResolver) := by
  let _ := ipv4Crates
  exact adapter_referenceMatch_iff intranetResolver networkRules mainProxies intranetMetadata rfl

/-- The name of a host of the network goes out directly; the design rejects it. -/
theorem intranet_not_rejected :
    letI := ipv4Crates
    (ruleMatch networkRules mainProxies intranetMetadata).adapter = .direct ∧
      (referenceMatch intranetResolver networkRules mainProxies intranetMetadata).adapter =
        .reject := by
  decide +kernel

end Redog
