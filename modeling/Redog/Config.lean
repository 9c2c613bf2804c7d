import Redog.Core

/-!
# The configuration

The parts of `Config` that `Config::validate` and the start of the proxy read, and
`Config::validate` itself, check by check in its order. Fields nothing here reads are left
out.

## Main results

* `validate_eq_ok_iff`: a configuration is valid when each check passes.
* `checkPortConflicts_eq_ok_iff`, `checkRules_eq_ok_iff`: what two of the checks accept.
-/

namespace Redog

open Rust

/-- `ProxyConfig`, of which the checks read nothing but the name. -/
structure ProxyConfig where
  name : String

/-- `ProxyGroupConfig`, as far as the checks read it: its name, its members and the providers it
uses. -/
structure ProxyGroupConfig where
  name : String
  proxies : List String := []
  useProviders : List String := []

/-- `DnsConfig`, as far as the checks read it: whether it is enabled, and its servers. -/
structure DnsConfig where
  enable : Bool := false
  nameserver : List String := []

/-- `redog_config::Config`, as far as the checks and `main` read it, with the defaults of its
fields. -/
structure Config where
  port : Option UInt16 := none
  socksPort : Option UInt16 := none
  mixedPort : Option UInt16 := none
  redirPort : Option UInt16 := none
  tproxyPort : Option UInt16 := none
  dns : Option DnsConfig := none
  proxies : List ProxyConfig := []
  proxyGroups : List ProxyGroupConfig := []
  rules : List String := []

namespace Config

/-- `all_ports`: the ports of the configuration with the names their errors use, in the order they
are checked. -/
def allPorts (config : Config) : List (String × Option UInt16) :=
  [("port", config.port), ("socks-port", config.socksPort), ("mixed-port", config.mixedPort),
    ("redir-port", config.redirPort), ("tproxy-port", config.tproxyPort)]

/-- Every port that is set is positive. -/
def checkPortRanges (ports : List (String × Option UInt16)) : Except Error Unit :=
  ports.forM fun (name, maybePort) =>
    if maybePort = some 0 then
      throw (.config ("invalid " ++ name ++ " value: port must be 1-65535"))
    else pure ()

/-- No port is set twice. `ports` holds those seen so far. -/
def checkPortConflicts : List (String × Option UInt16) → List UInt16 → Except Error Unit
  | [], _ => pure ()
  | (_, none) :: rest, ports => checkPortConflicts rest ports
  | (name, some p) :: rest, ports =>
      if p ∈ ports then
        throw (.config ("port conflict: " ++ name ++ " (" ++ toString p ++
          ") is already in use"))
      else checkPortConflicts rest (ports ++ [p])

/-- `proxy_names`: what a group may refer to. -/
def proxyNames (config : Config) : List String :=
  config.proxies.map ProxyConfig.name ++ config.proxyGroups.map ProxyGroupConfig.name ++
    ["DIRECT", "REJECT", "GLOBAL"]

/-- Every group has members, and every member is known. -/
def checkProxyGroups (config : Config) : Except Error Unit :=
  config.proxyGroups.forM fun group => do
    if group.proxies = [] ∧ group.useProviders = [] then
      throw (.config ("proxy group '" ++ group.name ++ "' has no proxies or providers"))
    else
      group.proxies.forM fun proxyName =>
        if proxyName ∈ config.proxyNames then pure ()
        else throw (.config ("proxy group '" ++ group.name ++ "' references unknown proxy: " ++
          proxyName))

/-- Every rule has at least a type and a target. -/
def checkRules (config : Config) : Except Error Unit :=
  config.rules.zipIdx.forM fun (ruleStr, i) =>
    if (splitn 3 ',' ruleStr).length < 2 then
      throw (.config ("rule #" ++ Nat.repr (i + 1) ++ " '" ++ ruleStr ++
        "': must have at least type and target"))
    else pure ()

/-- DNS that is enabled has a name server. -/
def checkDns (config : Config) : Except Error Unit :=
  match config.dns with
  | some dns =>
      if dns.enable ∧ dns.nameserver = [] then
        throw (.config "DNS is enabled but no nameservers configured")
      else pure ()
  | none => pure ()

/-- `Config::validate`: the checks one after the other. The first that fails ends it. -/
def validate (config : Config) : Except Error Unit := do
  checkPortRanges config.allPorts
  checkPortConflicts config.allPorts []
  config.checkProxyGroups
  config.checkRules
  config.checkDns

/-! ### What the checks accept -/

/-- Two checks after each other pass exactly when both do. -/
theorem bind_eq_ok_iff {a b : Except Error Unit} :
    (a >>= fun _ => b) = .ok () ↔ a = .ok () ∧ b = .ok () := by
  cases a with
  | error e => simp [bind, Except.bind]
  | ok u => simp [bind, Except.bind]

/-- A check of every element passes exactly when it passes on each of them. -/
theorem forM_eq_ok_iff {α : Type} {check : α → Except Error Unit} {xs : List α} :
    xs.forM check = .ok () ↔ ∀ x ∈ xs, check x = .ok () := by
  induction xs with
  | nil => simp [pure, Except.pure]
  | cons x xs ih =>
      rw [List.forall_mem_cons, ← ih]
      exact bind_eq_ok_iff

/-- A configuration is valid when each check passes. -/
theorem validate_eq_ok_iff {config : Config} :
    config.validate = .ok () ↔ checkPortRanges config.allPorts = .ok () ∧
      checkPortConflicts config.allPorts [] = .ok () ∧ config.checkProxyGroups = .ok () ∧
      config.checkRules = .ok () ∧ config.checkDns = .ok () := by
  rw [← bind_eq_ok_iff, ← bind_eq_ok_iff, ← bind_eq_ok_iff, ← bind_eq_ok_iff]
  rfl

/-- No conflict is found exactly when the ports that are set are distinct and not among
those seen before. -/
theorem checkPortConflicts_eq_ok_iff {ports : List (String × Option UInt16)}
    {seen : List UInt16} :
    checkPortConflicts ports seen = .ok () ↔ (ports.filterMap Prod.snd).Nodup ∧
      ∀ p ∈ ports.filterMap Prod.snd, p ∉ seen := by
  induction ports generalizing seen with
  | nil => simp [checkPortConflicts, pure, Except.pure]
  | cons port rest ih =>
      rcases port with ⟨name, - | p⟩
      · rw [checkPortConflicts, List.filterMap_cons_none rfl, ih]
      · have hset : ((name, some p) :: rest).filterMap Prod.snd =
            p :: rest.filterMap Prod.snd := rfl
        rw [checkPortConflicts, hset, List.nodup_cons, List.forall_mem_cons]
        by_cases hp : p ∈ seen
        · rw [if_pos hp]
          exact iff_of_false nofun fun h => h.2.1 hp
        · rw [if_neg hp, ih]
          constructor
          · rintro ⟨hnodup, hseen⟩
            refine ⟨⟨fun hmem => ?_, hnodup⟩, hp, fun q hq hqseen => ?_⟩
            · exact hseen p hmem (List.mem_append_right _ (List.mem_singleton_self p))
            · exact hseen q hq (List.mem_append_left _ hqseen)
          · rintro ⟨⟨hnot, hnodup⟩, -, hseen⟩
            refine ⟨hnodup, fun q hq hqseen => ?_⟩
            rcases List.mem_append.mp hqseen with hqseen | hqseen
            · exact hseen q hq hqseen
            · exact hnot (List.mem_singleton.mp hqseen ▸ hq)

/-- The rules are accepted exactly when each line has a comma. -/
theorem checkRules_eq_ok_iff {config : Config} :
    config.checkRules = .ok () ↔ ∀ line ∈ config.rules, ',' ∈ line.toList := by
  have hline : ∀ p : String × ℕ, (if (splitn 3 ',' p.1).length < 2 then
      throw (.config ("rule #" ++ Nat.repr (p.2 + 1) ++ " '" ++ p.1 ++
        "': must have at least type and target"))
      else pure () : Except Error Unit) = .ok () ↔ ',' ∈ p.1.toList := by
    intro p
    rw [← two_le_length_splitn_iff 1]
    split_ifs with h
    · exact iff_of_false nofun (Nat.not_le.mpr h)
    · exact iff_of_true rfl (Nat.le_of_not_lt h)
  rw [checkRules, forM_eq_ok_iff]
  simp only [hline]
  calc (∀ p ∈ config.rules.zipIdx, ',' ∈ p.1.toList)
      ↔ ∀ line ∈ config.rules.zipIdx.map Prod.fst, ',' ∈ line.toList :=
        (List.forall_mem_map (P := fun line : String => ',' ∈ line.toList)).symm
    _ ↔ ∀ line ∈ config.rules, ',' ∈ line.toList := by rw [List.zipIdx_map_fst]

end Config

end Redog
