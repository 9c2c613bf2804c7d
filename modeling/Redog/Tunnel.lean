import Mathlib.Data.List.AList
import Redog.Rules

/-!
# The tunnel

The routing engine: which adapter a connection is sent through. In rule mode the rules are
tried in order, and the first one that matches and names a known adapter decides; a rule
that matches but names an adapter the proxy map does not have is passed over without a
word. `Rule.routes` names the rules that decide.

## Main results

* `ruleMatch_eq`, `Tunnel.ruleMatch_eq_decidingRule`: `rule_match` selects by the first rule
  that routes the connection, and falls back to DIRECT without one.
* `routedBy_iff`: the first matching rule decides exactly when its adapter is known.
* `ruleMatch_insert`: which connections an inserted rule changes.
-/

namespace Redog

open Rust

/-! ### First elements -/

section Find

variable {α : Type} {p q : α → Bool} {l : List α} {x : α}

/-- The first element with one property is the first with two when it has the other. -/
theorem find?_and (h : l.find? p = some x) (hq : q x = true) :
    l.find? (fun y => p y && q y) = some x := by
  obtain ⟨hp, pre, post, rfl, hpre⟩ := List.find?_eq_some_iff_append.mp h
  refine List.find?_eq_some_iff_append.mpr ⟨?_, pre, post, rfl, fun y hy => ?_⟩
  · rw [hp, hq]
    rfl
  · have hy := hpre y hy
    rw [Bool.not_eq_true'] at hy
    rw [hy]
    rfl

/-- Where nothing has a property nothing has it together with another one. -/
theorem find?_and_eq_none (h : l.find? p = none) : l.find? (fun y => p y && q y) = none := by
  rw [List.find?_eq_none] at h ⊢
  intro y hy hpq
  rw [Bool.and_eq_true] at hpq
  exact h y hy hpq.1

/-- An element put in between is found where it has the property and none before it does;
elsewhere nothing changes. -/
theorem find?_insert (p : α → Bool) (before : List α) (x : α) (after : List α) :
    (before ++ [x] ++ after).find? p =
      if p x ∧ ∀ y ∈ before, ¬ p y then some x else (before ++ after).find? p := by
  rw [List.append_assoc, List.singleton_append, List.find?_append, List.find?_append,
    List.find?_cons]
  cases hbefore : before.find? p with
  | some y =>
      have hy := List.find?_some hbefore
      have hmem := List.mem_of_find?_eq_some hbefore
      rw [if_neg fun h => h.2 y hmem hy, Option.some_or, Option.some_or]
  | none =>
      rw [List.find?_eq_none] at hbefore
      rw [Option.none_or, Option.none_or]
      cases hx : p x with
      | true => rw [if_pos ⟨rfl, hbefore⟩]
      | false => rw [if_neg fun h => Bool.false_ne_true h.1]

end Find

/-! ### The engine -/

/-- What the tunnel uses of `dyn ProxyAdapter`: the name, and the built-in `Direct`. -/
class ProxyAdapter (A : Type) where
  /-- `ProxyAdapter::name` -/
  name : A → String
  /-- `Direct::new()` -/
  direct : A

/-- `HashMap<String, Arc<dyn ProxyAdapter>>`; the order of the entries is the order of
iteration. -/
abbrev ProxyMap (A : Type) := AList (fun _ : String => A)

/-- `redog_tunnel::Mode`: the rules choose the adapter, everything goes to one that is not built in,
or everything goes out directly. -/
inductive Mode
  | rule | global | direct
deriving DecidableEq, Repr

/-- `MatchResult`: the adapter for a connection, with the rule it was chosen by as the API reports
it. -/
structure MatchResult (A : Type) where
  ruleName : String
  rulePayload : String
  adapter : A
deriving DecidableEq

variable [Crates] {A : Type} [ProxyAdapter A]

/-- The adapter DIRECT of the map, or a new one. -/
def directAdapter (proxies : ProxyMap A) : A :=
  (proxies.lookup "DIRECT").getD ProxyAdapter.direct

/-- The loop of `rule_match` over the loaded rules. -/
def ruleLoop (proxies : ProxyMap A) (metadata : Metadata) : List Rule → Option (MatchResult A)
  | [] => none
  | rule :: rules =>
      if rule.matches metadata then
        match proxies.lookup rule.adapter with
        | some adapter => some ⟨rule.ruleType.display, rule.payload, adapter⟩
        | none => ruleLoop proxies metadata rules
      else ruleLoop proxies metadata rules

/-- `Tunnel::rule_match` on the rules and proxies it has loaded. -/
def ruleMatch (rules : List Rule) (proxies : ProxyMap A) (metadata : Metadata) : MatchResult A :=
  (ruleLoop proxies metadata rules).getD ⟨"MATCH", "", directAdapter proxies⟩

/-- `redog_tunnel::Tunnel`, the cells that routing reads: each can be swapped without the others. -/
structure Tunnel (A : Type) where
  proxies : ProxyMap A
  rules : List Rule
  mode : Mode

namespace Tunnel

/-- `Tunnel::new`: a tunnel with these adapters and rules, which starts in the mode of the rules. -/
def new (proxies : ProxyMap A) (rules : List Rule) : Tunnel A where
  proxies := proxies
  rules := rules
  mode := .rule

/-- `Tunnel::match_adapter`, executed atomically: the mode decides whether the rules are looked at,
or only the map. -/
def matchAdapter (tunnel : Tunnel A) (metadata : Metadata) : MatchResult A :=
  match tunnel.mode with
  | .direct => ⟨"DIRECT", "", directAdapter tunnel.proxies⟩
  | .global =>
      let adapters := tunnel.proxies.entries.map Sigma.snd
      let adapter := adapters.find? fun p =>
        ProxyAdapter.name p ≠ "DIRECT" ∧ ProxyAdapter.name p ≠ "REJECT"
      ⟨"GLOBAL", "", adapter.getD ProxyAdapter.direct⟩
  | .rule => ruleMatch tunnel.rules tunnel.proxies metadata

/-- `Tunnel::update_proxies`: the map is swapped as a whole, the rules stay. -/
def updateProxies (tunnel : Tunnel A) (proxies : ProxyMap A) : Tunnel A :=
  { tunnel with proxies := proxies }

/-- `Tunnel::update_rules`: the rules are swapped as a whole, the map stays. -/
def updateRules (tunnel : Tunnel A) (rules : List Rule) : Tunnel A :=
  { tunnel with rules := rules }

end Tunnel

/-! ### The deciding rule -/

/-- The rule matches the connection and its adapter is known. -/
def Rule.routes (proxies : ProxyMap A) (metadata : Metadata) (rule : Rule) : Bool :=
  rule.matches metadata && (proxies.lookup rule.adapter).isSome

/-- The result a rule gives when it routes the connection. -/
def Rule.result (proxies : ProxyMap A) (rule : Rule) : Option (MatchResult A) :=
  (proxies.lookup rule.adapter).map fun adapter =>
    ⟨rule.ruleType.display, rule.payload, adapter⟩

omit [ProxyAdapter A] in
/-- The loop stops at the first rule that routes the connection. -/
theorem ruleLoop_eq (proxies : ProxyMap A) (metadata : Metadata) (rules : List Rule) :
    ruleLoop proxies metadata rules =
      (rules.find? (·.routes proxies metadata)).bind (·.result proxies) := by
  induction rules with
  | nil => rfl
  | cons rule rules ih =>
      rw [ruleLoop, List.find?_cons, ih]
      cases hlookup : proxies.lookup rule.adapter with
      | none => simp [Rule.routes, hlookup]
      | some adapter =>
          cases hmatches : rule.matches metadata with
          | false => simp [Rule.routes, hmatches]
          | true => simp [Rule.routes, Rule.result, hmatches, hlookup]

/-- `rule_match` selects by the first rule that routes the connection. -/
theorem ruleMatch_eq (rules : List Rule) (proxies : ProxyMap A) (metadata : Metadata) :
    ruleMatch rules proxies metadata =
      ((rules.find? (·.routes proxies metadata)).bind (·.result proxies)).getD
        ⟨"MATCH", "", directAdapter proxies⟩ := by
  rw [ruleMatch, ruleLoop_eq]

/-- A rule that routes the connection gives a result. -/
theorem ruleMatch_of_find {rules : List Rule} {proxies : ProxyMap A} {metadata : Metadata}
    {rule : Rule} (h : rules.find? (·.routes proxies metadata) = some rule) :
    ∃ adapter, proxies.lookup rule.adapter = some adapter ∧
      ruleMatch rules proxies metadata = ⟨rule.ruleType.display, rule.payload, adapter⟩ := by
  have hroutes := List.find?_some h
  simp only [Rule.routes, Bool.and_eq_true] at hroutes
  obtain ⟨adapter, hadapter⟩ := Option.isSome_iff_exists.mp hroutes.2
  refine ⟨adapter, hadapter, ?_⟩
  rw [ruleMatch_eq, h, Option.bind_some, Rule.result, hadapter]
  rfl

/-- Without one, the connection goes to DIRECT. -/
theorem ruleMatch_of_find_none {rules : List Rule} {proxies : ProxyMap A}
    {metadata : Metadata} (h : rules.find? (·.routes proxies metadata) = none) :
    ruleMatch rules proxies metadata = ⟨"MATCH", "", directAdapter proxies⟩ := by
  rw [ruleMatch_eq, h]
  rfl

/-- The rule that decides: the first that routes the connection, or `MATCH,DIRECT` behind
all of them. -/
def Tunnel.decidingRule (tunnel : Tunnel A) (metadata : Metadata) : Rule :=
  (tunnel.rules.find? (·.routes tunnel.proxies metadata)).getD (.match ⟨"DIRECT"⟩)

/-- The adapter a rule names, DIRECT when it is not known. -/
def Tunnel.adapterOf (tunnel : Tunnel A) (rule : Rule) : A :=
  (tunnel.proxies.lookup rule.adapter).getD ProxyAdapter.direct

/-- The result is that of the deciding rule. -/
theorem Tunnel.ruleMatch_eq_decidingRule (tunnel : Tunnel A) (metadata : Metadata) :
    ruleMatch tunnel.rules tunnel.proxies metadata =
      ⟨(tunnel.decidingRule metadata).ruleType.display, (tunnel.decidingRule metadata).payload,
        tunnel.adapterOf (tunnel.decidingRule metadata)⟩ := by
  rw [decidingRule]
  cases hfind : tunnel.rules.find? (·.routes tunnel.proxies metadata) with
  | some rule =>
      obtain ⟨adapter, hadapter, hresult⟩ := ruleMatch_of_find hfind
      rw [hresult, Option.getD_some, adapterOf, hadapter]
      rfl
  | none =>
      rw [ruleMatch_of_find_none hfind]
      rfl

/-! ### The first matching rule -/

/-- The result is that of the rule: its name, its payload, and the adapter it names. -/
def MatchResult.RoutedBy (result : MatchResult A) (rule : Rule) : Prop :=
  result.ruleName = rule.ruleType.display ∧ result.rulePayload = rule.payload ∧
    ProxyAdapter.name result.adapter = rule.adapter

/-- Every adapter is registered under its own name, and DIRECT is. -/
structure WellNamed (proxies : ProxyMap A) : Prop where
  name_eq : ∀ {name adapter}, proxies.lookup name = some adapter →
    ProxyAdapter.name adapter = name
  direct : (proxies.lookup "DIRECT").isSome

/-- The adapter that rule matching gives is registered under its own name, by a rule or as
DIRECT. -/
theorem WellNamed.isSome_lookup_name {proxies : ProxyMap A} (h : WellNamed proxies)
    (rules : List Rule) (metadata : Metadata) :
    (proxies.lookup (ProxyAdapter.name (ruleMatch rules proxies metadata).adapter)).isSome := by
  cases hfind : rules.find? (·.routes proxies metadata) with
  | some rule =>
      obtain ⟨adapter, hadapter, hresult⟩ := ruleMatch_of_find hfind
      rw [hresult, h.name_eq hadapter, hadapter]
      rfl
  | none =>
      obtain ⟨adapter, hadapter⟩ := Option.isSome_iff_exists.mp h.direct
      rw [ruleMatch_of_find_none hfind, directAdapter, hadapter, Option.getD_some,
        h.name_eq hadapter, hadapter]
      rfl

/-- The first matching rule decides exactly when its adapter is known. -/
theorem routedBy_iff {rules : List Rule} {proxies : ProxyMap A} {metadata : Metadata}
    {rule : Rule} (h : WellNamed proxies) (hfirst : rules.find? (·.matches metadata) = some rule) :
    (ruleMatch rules proxies metadata).RoutedBy rule ↔ (proxies.lookup rule.adapter).isSome := by
  constructor
  · rintro ⟨-, -, hname⟩
    rw [← hname]
    exact h.isSome_lookup_name rules metadata
  · intro hknown
    have hfind : rules.find? (·.routes proxies metadata) = some rule :=
      find?_and hfirst hknown
    obtain ⟨adapter, hadapter, hresult⟩ := ruleMatch_of_find hfind
    rw [hresult]
    exact ⟨rfl, rfl, h.name_eq hadapter⟩

/-! ### Inserting a rule -/

/-- A rule put behind the rules `before` decides about the connection. -/
def Rule.TakesOver (proxies : ProxyMap A) (metadata : Metadata) (before : List Rule)
    (rule : Rule) : Prop :=
  rule.routes proxies metadata ∧ ∀ r ∈ before, ¬ r.routes proxies metadata

/-- **Inserting a rule has a local effect.** A rule changes the result of the connections it
takes over, which it sends to its adapter under its type and payload, and of no others. -/
theorem ruleMatch_insert (before after : List Rule) (rule : Rule) (proxies : ProxyMap A)
    (metadata : Metadata) :
    (¬ rule.TakesOver proxies metadata before →
      ruleMatch (before ++ [rule] ++ after) proxies metadata =
        ruleMatch (before ++ after) proxies metadata) ∧
    (rule.TakesOver proxies metadata before → ∃ adapter,
      proxies.lookup rule.adapter = some adapter ∧
        ruleMatch (before ++ [rule] ++ after) proxies metadata =
          ⟨rule.ruleType.display, rule.payload, adapter⟩) := by
  have hfind := find?_insert (·.routes proxies metadata) before rule after
  constructor
  · intro hnot
    have hfind := hfind.trans (if_neg hnot)
    rw [ruleMatch_eq, hfind, ← ruleMatch_eq]
  · intro htakes
    exact ruleMatch_of_find (hfind.trans (if_pos htakes))

omit [Crates] in
/-- A rule that matches every connection, put in front of another one and behind it. -/
theorem ruleMatch_insert_sample :
    letI := ipv4Crates
    letI : ProxyAdapter String := ⟨id, "DIRECT"⟩
    let proxies : ProxyMap String :=
      ((∅ : ProxyMap String).insert "DIRECT" "DIRECT").insert "REJECT" "REJECT"
    let metadata := Metadata.new .tcp .socks5
    (∃ adapter, proxies.lookup "REJECT" = some adapter ∧
      ruleMatch ([] ++ [.match ⟨"REJECT"⟩] ++ [.match ⟨"DIRECT"⟩]) proxies metadata =
        ⟨"MATCH", "", adapter⟩) ∧
    ruleMatch ([.match ⟨"DIRECT"⟩] ++ [.match ⟨"REJECT"⟩] ++ []) proxies metadata =
      ruleMatch ([.match ⟨"DIRECT"⟩] ++ []) proxies metadata := by
  let _ := ipv4Crates
  let _ : ProxyAdapter String := ⟨id, "DIRECT"⟩
  intro proxies metadata
  refine ⟨(ruleMatch_insert [] [.match ⟨"DIRECT"⟩] (.match ⟨"REJECT"⟩) proxies metadata).2 ?_,
    (ruleMatch_insert [.match ⟨"DIRECT"⟩] [] (.match ⟨"REJECT"⟩) proxies metadata).1 ?_⟩
  · exact ⟨rfl, List.forall_mem_nil _⟩
  · rintro ⟨-, hbefore⟩
    exact hbefore _ (List.mem_singleton_self _) rfl

end Redog
