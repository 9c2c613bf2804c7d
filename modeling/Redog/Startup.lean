import Redog.Main

/-!
# What a valid configuration promises

`Config::validate` looks at the configuration as it is written. What `main` makes of it
differs in two places. The port of the mixed listener has a default, which the check for
port conflicts does not know. And a rule line is only checked for a comma: whether it parses
is found out by `main`, which leaves out the lines that do not.

## Main results

* `listenerPorts_nodup_iff`: when the listeners have distinct ports.
* `validate_ruleLine`: how the check of a rule line and its parser are related.
-/

namespace Redog

open Rust

/-! ### Listeners -/

/-- The ports `main` starts listeners on: the mixed one, then HTTP and SOCKS5 when set. -/
def listenerPorts (config : Config) : List UInt16 :=
  config.mixedPort.getD 7890 :: (config.port.toList ++ config.socksPort.toList)

/-- The ports that are set, in the order they are checked. -/
theorem Config.filterMap_allPorts (config : Config) :
    config.allPorts.filterMap Prod.snd = config.port.toList ++ (config.socksPort.toList ++
      (config.mixedPort.toList ++ (config.redirPort.toList ++ config.tproxyPort.toList))) := by
  rw [List.filterMap_eq_flatMap_toList, allPorts]
  simp only [List.flatMap_cons, List.flatMap_nil, List.append_nil]

/-- In a valid configuration the ports of listeners that are set are distinct. -/
theorem Config.nodup_of_validate {config : Config} (hvalid : config.validate = .ok ()) :
    ((config.port.toList ++ config.socksPort.toList) ++ config.mixedPort.toList).Nodup := by
  have hset := (checkPortConflicts_eq_ok_iff.mp (validate_eq_ok_iff.mp hvalid).2.1).1
  rw [filterMap_allPorts, ← List.append_assoc, ← List.append_assoc] at hset
  exact hset.sublist (List.sublist_append_left _ _)

/-- **When the listeners have distinct ports.** The listeners of a valid configuration have
distinct ports exactly when the default of the mixed port, if it is used, is not set as
another one. -/
theorem listenerPorts_nodup_iff (config : Config) (hvalid : config.validate = .ok ()) :
    (listenerPorts config).Nodup ↔
      (config.mixedPort = none → config.port ≠ some 7890 ∧ config.socksPort ≠ some 7890) := by
  have hset := Config.nodup_of_validate hvalid
  rw [listenerPorts]
  cases hmixed : config.mixedPort with
  | none =>
      rw [hmixed, Option.toList_none, List.append_nil] at hset
      rw [Option.getD_none, List.nodup_cons, List.mem_append, Option.mem_toList,
        Option.mem_toList, not_or]
      exact ⟨fun h _ => h.1, fun h => ⟨h rfl, hset⟩⟩
  | some mixed =>
      rw [hmixed, Option.toList_some] at hset
      refine iff_of_true ?_ nofun
      exact (List.perm_append_singleton mixed _).nodup_iff.mp hset

/-- A configuration of the HTTP port alone. -/
def httpConfig (port : UInt16) : Config where
  port := some port

/-- An HTTP port other than the default of the mixed port. -/
theorem listenerPorts_nodup_sample : (listenerPorts (httpConfig 7891)).Nodup := by
  refine (listenerPorts_nodup_iff _ ?_).mpr fun _ => ⟨?_, ?_⟩
  · rfl
  · decide
  · decide

/-- With the HTTP port set to 7890 and no mixed port, two listeners start on 7890. -/
theorem listenerPorts_default_conflict :
    (httpConfig 7890).validate = .ok () ∧ listenerPorts (httpConfig 7890) = [7890, 7890] ∧
      ¬ (listenerPorts (httpConfig 7890)).Nodup := by
  refine ⟨rfl, rfl, ?_⟩
  decide

/-! ### Rule lines -/

/-- A line that parses has a comma, unless it is `MATCH` alone. -/
theorem mem_comma_of_parseRule [Crates] {line : String} {rule : Rule}
    (hrule : parseRule line = .ok rule) (hline : trim line ≠ "MATCH") : ',' ∈ line.toList := by
  by_contra hcomma
  have htrim : ',' ∉ (trim line).toList := fun h => hcomma (mem_of_mem_trim h)
  have hmatch : ¬ (startsWith "MATCH," (trim line) || trim line == "MATCH") := by
    rw [Bool.or_eq_true, beq_iff_eq, startsWith_iff]
    rintro (hstart | halone)
    · exact htrim (hstart.subset (by simp))
    · exact hline halone
  have hparse : parseRule line = .error ("invalid rule format: " ++ trim line) := by
    simp only [parseRule, if_neg hmatch, splitn_eq_singleton 1 htrim]
  rw [hparse] at hrule
  cases hrule

/-- **What a valid rule line promises.** In a configuration that is valid otherwise a rule
line other than `MATCH` alone is accepted exactly when it has a comma, which is so when it
parses; and `main` makes a rule of it exactly when it parses. -/
theorem validate_ruleLine [Crates] (config : Config)
    (hvalid : { config with rules := [] }.validate = .ok ()) (line : String)
    (hline : trim line ≠ "MATCH") :
    ({ config with rules := [line] }.validate = .ok () ↔ ',' ∈ line.toList) ∧
      (∀ rule, parseRule line = .ok rule → { config with rules := [line] }.validate = .ok ()) ∧
      mainRules { config with rules := [line] } = (parseRule line).toOption.toList := by
  obtain ⟨hranges, hconflicts, hgroups, -, hdns⟩ := Config.validate_eq_ok_iff.mp hvalid
  have haccepted : { config with rules := [line] }.validate = .ok () ↔ ',' ∈ line.toList := by
    have hrules := @Config.checkRules_eq_ok_iff { config with rules := [line] }
    rw [List.forall_mem_singleton] at hrules
    rw [← hrules, Config.validate_eq_ok_iff]
    exact ⟨fun h => h.2.2.2.1, fun h => ⟨hranges, hconflicts, hgroups, h, hdns⟩⟩
  refine ⟨haccepted, fun rule hrule => ?_, ?_⟩
  · exact haccepted.mpr (mem_comma_of_parseRule hrule hline)
  · rw [mainRules, List.filterMap_eq_flatMap_toList, List.flatMap_singleton]

/-- A configuration of one rule line. -/
def ruleConfig (line : String) : Config where
  rules := [line]

/-- A line that parses, in a configuration that passes the checks. -/
theorem validate_ruleLine_sample :
    letI := ipv4Crates
    ((ruleConfig "DOMAIN,google.com,DIRECT").validate = .ok () ↔
        ',' ∈ "DOMAIN,google.com,DIRECT".toList) ∧
      (∀ rule, parseRule "DOMAIN,google.com,DIRECT" = .ok rule →
        (ruleConfig "DOMAIN,google.com,DIRECT").validate = .ok ()) ∧
      mainRules (ruleConfig "DOMAIN,google.com,DIRECT") =
        (parseRule "DOMAIN,google.com,DIRECT").toOption.toList := by
  let _ := ipv4Crates
  exact validate_ruleLine {} rfl "DOMAIN,google.com,DIRECT" (by decide +kernel)

/-- A line of two fields is accepted by the check but does not parse. -/
theorem validate_twoFields :
    letI := ipv4Crates
    (ruleConfig "DOMAIN,google.com").validate = .ok () ∧
      (¬ ∃ rule, parseRule "DOMAIN,google.com" = .ok rule) ∧
      mainRules (ruleConfig "DOMAIN,google.com") = [] := by
  let _ := ipv4Crates
  have hparse : (parseRule "DOMAIN,google.com").toOption.isNone := by decide +kernel
  rw [Option.isNone_iff_eq_none] at hparse
  refine ⟨rfl, ?_, ?_⟩
  · rintro ⟨rule, hrule⟩
    rw [hrule] at hparse
    cases hparse
  · rw [mainRules, List.filterMap_eq_flatMap_toList, ruleConfig,
      List.flatMap_singleton, hparse,
      Option.toList_none]

end Redog
