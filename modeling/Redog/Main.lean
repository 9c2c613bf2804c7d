import Redog.Config
import Redog.Tunnel

/-!
# What the proxy starts with

`main` builds the tunnel of a configuration: the rules are the lines of the configuration
that parse, and the proxies are the two built-in adapters, whatever the configuration
defines. So a rule that names anything else is passed over, and the first matching rule
decides exactly when it names DIRECT or REJECT.

## Main results

* `firstRule_decides_iff`: the first matching rule decides exactly when it names DIRECT or
  REJECT.
-/

namespace Redog

/-- The adapters `main` makes: `Direct` and `Reject`. -/
inductive Outbound
  | direct | reject
deriving DecidableEq, Repr

instance : ProxyAdapter Outbound where
  name
    | .direct => "DIRECT"
    | .reject => "REJECT"
  direct := .direct

/-- The proxy map `main` builds, which has the two built-in adapters and nothing of the
configuration. -/
def mainProxies : ProxyMap Outbound :=
  ((∅ : ProxyMap Outbound).insert "DIRECT" .direct).insert "REJECT" .reject

/-- The rules `main` builds: lines that do not parse are skipped. -/
def mainRules [Crates] (config : Config) : List Rule :=
  config.rules.filterMap fun ruleStr => (parseRule ruleStr).toOption

/-- The tunnel `main` starts: the adapters it builds itself and the rules of the configuration it
could parse. -/
def mainTunnel [Crates] (config : Config) : Tunnel Outbound :=
  .new mainProxies (mainRules config)

/-- The map that `main` builds has the two built-in adapters and no others. -/
theorem lookup_mainProxies (name : String) :
    mainProxies.lookup name =
      if name = "REJECT" then some .reject
      else if name = "DIRECT" then some .direct else none := by
  by_cases hreject : name = "REJECT"
  · subst hreject
    rfl
  · rw [mainProxies, AList.lookup_insert_ne hreject, if_neg hreject]
    by_cases hdirect : name = "DIRECT"
    · subst hdirect
      rfl
    · rw [AList.lookup_insert_ne hdirect, AList.lookup_empty, if_neg hdirect]

/-- In the map that `main` builds every adapter is under its own name. -/
theorem wellNamed_mainProxies [Crates] : WellNamed mainProxies where
  name_eq := by
    intro name adapter h
    rw [lookup_mainProxies] at h
    split_ifs at h with hreject hdirect
    · obtain rfl := Option.some.inj h
      exact hreject.symm
    · obtain rfl := Option.some.inj h
      exact hdirect.symm
  direct := rfl

/-- **When the first match wins.** In the tunnel `main` starts, the first rule of the
configuration that matches a connection decides on it exactly when it names DIRECT or
REJECT; otherwise the connection falls through to a later rule or to the default. -/
theorem firstRule_decides_iff [Crates] (config : Config) (metadata : Metadata) :
    (∀ rule, (mainRules config).find? (·.matches metadata) = some rule →
        ((mainTunnel config).matchAdapter metadata).RoutedBy rule) ↔
      ∀ rule, (mainRules config).find? (·.matches metadata) = some rule →
        rule.adapter = "DIRECT" ∨ rule.adapter = "REJECT" := by
  refine forall₂_congr fun rule hfirst => ?_
  rw [mainTunnel, Tunnel.matchAdapter, Tunnel.new, routedBy_iff wellNamed_mainProxies hfirst,
    lookup_mainProxies]
  split_ifs with hreject hdirect
  · exact iff_of_true rfl (.inr hreject)
  · exact iff_of_true rfl (.inl hdirect)
  · exact iff_of_false Bool.false_ne_true fun h => h.elim hdirect hreject

/-- A configuration that sends one domain to a proxy group. -/
def groupConfig : Config where
  mixedPort := some 7890
  proxies := [⟨"US"⟩]
  proxyGroups := [{ name := "Proxy", proxies := ["US"] }]
  rules := ["DOMAIN,google.com,Proxy", "MATCH,DIRECT"]

/-- A connection to that domain, as the handler of a CONNECT request describes it. -/
def googleMetadata : Metadata :=
  { Metadata.new .tcp .httpConnect with host := some "google.com", dstPort := 443 }

/-- The configuration is valid, but the domain goes to DIRECT and not to the group. -/
theorem groupConfig_not_decides :
    letI := ipv4Crates
    groupConfig.validate = .ok () ∧ ∃ rule,
      (mainRules groupConfig).find? (·.matches googleMetadata) = some rule ∧
        ¬ ((mainTunnel groupConfig).matchAdapter googleMetadata).RoutedBy rule := by
  let _ := ipv4Crates
  have hfirst : ((mainRules groupConfig).find? (·.matches googleMetadata)).map Rule.adapter =
      some "Proxy" := by
    decide +kernel
  have hresult : (mainTunnel groupConfig).matchAdapter googleMetadata =
      ⟨"MATCH", "", .direct⟩ := by
    decide +kernel
  obtain ⟨rule, hrule, hadapter⟩ := Option.map_eq_some_iff.mp hfirst
  refine ⟨rfl, rule, hrule, ?_⟩
  rintro ⟨-, -, hname⟩
  rw [hresult, hadapter] at hname
  exact absurd hname (by decide)

end Redog
