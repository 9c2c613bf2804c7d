import Redog.Rules

/-!
# Printing rules

GET /rules shows a rule by its type, its payload and its adapter. Put together with commas
the three make a rule line again, `Rule.print`. A rule that was parsed comes back from the
line it is printed as, although the line may differ from the one it was read from: spaces
are gone, a port is written in its shortest form, and a network bears the type of its
addresses, whichever of the two types it was declared with.

`RuleFields` is the grammar of the three fields of a line, and `parseRule_eq_ok_iff` says that
`parse_rule` reads the lines of that grammar and those of MATCH rules.

## Main results

* `parseRule_eq_ok_iff`: the lines `parse_rule` accepts, and the rules it makes of them.
* `parseRule_print`: a parsed rule is read back from what it is printed as.
-/

namespace Redog

open Rust

variable [Crates]

/-! ### The grammar of a rule line -/

/-- The rule that three fields stand for. -/
inductive RuleFields : String → String → String → Rule → Prop
  | domain (payload adapter : String) :
      RuleFields "DOMAIN" payload adapter (.domain ⟨payload, adapter⟩)
  | domainSuffix (payload adapter : String) :
      RuleFields "DOMAIN-SUFFIX" payload adapter (.domainSuffix ⟨payload, adapter⟩)
  | domainKeyword (payload adapter : String) :
      RuleFields "DOMAIN-KEYWORD" payload adapter (.domainKeyword ⟨payload, adapter⟩)
  | domainRegex {payload : String} {pattern : Crates.Regex} (adapter : String)
      (h : Crates.regexNew payload = .ok pattern) :
      RuleFields "DOMAIN-REGEX" payload adapter (.domainRegex ⟨pattern, payload, adapter⟩)
  | ipCidr {ruleType payload : String} {cidr : Crates.IpNet} (adapter : String)
      (htype : ruleType = "IP-CIDR" ∨ ruleType = "IP-CIDR6")
      (h : Crates.parseIpNet payload = .ok cidr) :
      RuleFields ruleType payload adapter (.ipCidr ⟨cidr, payload, adapter, false⟩)
  | srcIpCidr {payload : String} {cidr : Crates.IpNet} (adapter : String)
      (h : Crates.parseIpNet payload = .ok cidr) :
      RuleFields "SRC-IP-CIDR" payload adapter (.ipCidr ⟨cidr, payload, adapter, true⟩)
  | srcPort {payload : String} {port : UInt16} (adapter : String)
      (h : parseU16 payload = .ok port) :
      RuleFields "SRC-PORT" payload adapter (.srcPort (.new port adapter))
  | dstPort {payload : String} {port : UInt16} (adapter : String)
      (h : parseU16 payload = .ok port) :
      RuleFields "DST-PORT" payload adapter (.dstPort (.new port adapter))

/-- The rule that a line stands for, whitespace around it aside. -/
inductive RuleLine : String → Rule → Prop
  | direct : RuleLine "MATCH" (.match ⟨"DIRECT"⟩)
  | «match» (adapter : String) : RuleLine ("MATCH," ++ adapter) (.match ⟨trim adapter⟩)
  | fields {ruleType payload adapter : String} {rule : Rule} (htype : ',' ∉ ruleType.toList)
      (hpayload : ',' ∉ payload.toList)
      (h : RuleFields (trim ruleType) (trim payload) (trim adapter) rule) :
      RuleLine (ruleType ++ "," ++ payload ++ "," ++ adapter) rule

omit [Crates] in
/-- A result that is put together from a fallible one succeeds exactly when that does. -/
theorem do_return_eq_ok_iff {α β ε : Type} {x : Except ε α} {f : α → β} {y : β} :
    (do return f (← x)) = Except.ok y ↔ ∃ a, x = .ok a ∧ y = f a := by
  cases x with
  | error e => simp [bind, Except.bind]
  | ok a => simp [bind, Except.bind, pure, Except.pure, eq_comm]

/-- A network rule is made of every network that parses. -/
theorem newCidr_eq_ok_iff {payload adapter : String} {isSrc : Bool} {rule : Rule} :
    (do return .ipCidr (← IpCidrRule.new payload adapter isSrc)) = Except.ok rule ↔
      ∃ cidr, Crates.parseIpNet payload = .ok cidr ∧
        rule = .ipCidr ⟨cidr, payload, adapter, isSrc⟩ := by
  rw [do_return_eq_ok_iff, IpCidrRule.new]
  cases Crates.parseIpNet payload with
  | error e => simp
  | ok cidr => simp

/-- A port rule is made of every port that parses. -/
theorem newPort_eq_ok_iff {payload : String} {new : UInt16 → Rule} {rule : Rule} :
    (do return new (← parseRulePort payload)) = Except.ok rule ↔
      ∃ port, parseU16 payload = .ok port ∧ rule = new port := by
  rw [do_return_eq_ok_iff, parseRulePort]
  cases parseU16 payload with
  | error e => simp
  | ok port => simp

/-- `parse_rule` reads the three fields of a line that is not that of a MATCH rule. -/
theorem parseRule_eq_ok_iff_fields {line ruleType payload adapter : String} {rule : Rule}
    (hmatch : ¬ (startsWith "MATCH," (trim line) || trim line == "MATCH"))
    (hline : splitn 3 ',' (trim line) = [ruleType, payload, adapter]) :
    parseRule line = .ok rule ↔ RuleFields (trim ruleType) (trim payload) (trim adapter) rule := by
  simp only [parseRule, if_neg hmatch, hline]
  generalize trim ruleType = ruleType
  generalize trim payload = payload
  generalize trim adapter = adapter
  constructor
  · intro h
    split at h
    · cases h
      exact .domain payload adapter
    · cases h
      exact .domainSuffix payload adapter
    · cases h
      exact .domainKeyword payload adapter
    · split at h
      · rename_i pattern hpattern
        cases h
        exact .domainRegex adapter hpattern
      · cases h
    · obtain ⟨cidr, hcidr, rfl⟩ := newCidr_eq_ok_iff.mp h
      exact .ipCidr adapter (.inl rfl) hcidr
    · obtain ⟨cidr, hcidr, rfl⟩ := newCidr_eq_ok_iff.mp h
      exact .ipCidr adapter (.inr rfl) hcidr
    · obtain ⟨cidr, hcidr, rfl⟩ := newCidr_eq_ok_iff.mp h
      exact .srcIpCidr adapter hcidr
    · obtain ⟨port, hport, rfl⟩ := newPort_eq_ok_iff.mp h
      exact .srcPort adapter hport
    · obtain ⟨port, hport, rfl⟩ := newPort_eq_ok_iff.mp h
      exact .dstPort adapter hport
    · cases h
  · intro h
    cases h with
    | domain => rfl
    | domainSuffix => rfl
    | domainKeyword => rfl
    | domainRegex _ hpattern => simp only [hpattern]
    | ipCidr _ htype hcidr =>
        obtain rfl | rfl := htype
        · exact newCidr_eq_ok_iff.mpr ⟨_, hcidr, rfl⟩
        · exact newCidr_eq_ok_iff.mpr ⟨_, hcidr, rfl⟩
    | srcIpCidr _ hcidr => exact newCidr_eq_ok_iff.mpr ⟨_, hcidr, rfl⟩
    | srcPort _ hport => exact newPort_eq_ok_iff.mpr ⟨_, hport, rfl⟩
    | dstPort _ hport => exact newPort_eq_ok_iff.mpr ⟨_, hport, rfl⟩

/-- A line that is read and not that of a MATCH rule has three fields. -/
theorem splitn_of_parseRule {line : String} {rule : Rule} (h : parseRule line = .ok rule)
    (hmatch : ¬ (startsWith "MATCH," (trim line) || trim line == "MATCH")) :
    ∃ ruleType payload adapter, splitn 3 ',' (trim line) = [ruleType, payload, adapter] := by
  simp only [parseRule, if_neg hmatch] at h
  split at h
  · rename_i hline
    exact ⟨_, _, _, hline⟩
  · cases h

omit [Crates] in
/-- The characters of a printed rule: its three fields with commas between them. -/
theorem toList_fields (ruleType payload adapter : String) :
    (ruleType ++ "," ++ payload ++ "," ++ adapter).toList =
      ruleType.toList ++ ',' :: (payload.toList ++ ',' :: adapter.toList) := by
  simp

/-- A rule of three fields is not the catch-all rule, which has only two. -/
theorem RuleFields.ne_match {ruleType payload adapter : String} {rule : Rule}
    (h : RuleFields ruleType payload adapter rule) : ruleType ≠ "MATCH" := by
  cases h with
  | ipCidr _ htype _ => obtain rfl | rfl := htype <;> decide
  | _ => decide

/-- No field line is that of a MATCH rule. -/
theorem RuleFields.not_isMatch {ruleType payload adapter line : String} {rule : Rule}
    {rest : List Char} (h : RuleFields (trim ruleType) payload adapter rule)
    (htype : ',' ∉ ruleType.toList) (hline : line.toList = ruleType.toList ++ ',' :: rest) :
    ¬ (startsWith "MATCH," line || line == "MATCH") := by
  have hne : ruleType ≠ "MATCH" := by
    rintro rfl
    exact h.ne_match (by decide)
  rw [Bool.or_eq_true, startsWith_iff, beq_iff_eq]
  rintro (⟨post, hpost⟩ | rfl)
  · have hsplit : "MATCH".toList ++ ',' :: post = ruleType.toList ++ ',' :: rest :=
      hpost.trans hline
    obtain ⟨heq, -⟩ := append_cons_inj_left (by decide) htype hsplit
    exact hne (String.toList_inj.mp heq).symm
  · have hmem : ',' ∈ "MATCH".toList := by
      rw [hline]
      exact List.mem_append_right _ List.mem_cons_self
    exact absurd hmem (by decide)

/-- `parse_rule` reads the lines of the grammar. -/
theorem parseRule_eq_ok_iff {line : String} {rule : Rule} :
    parseRule line = .ok rule ↔ RuleLine (trim line) rule := by
  by_cases hmatch : startsWith "MATCH," (trim line) || trim line == "MATCH"
  · have hparse : parseRule line =
        .ok (.match ⟨trim ((stripPrefix "MATCH," (trim line)).getD "DIRECT")⟩) := by
      simp only [parseRule, if_pos hmatch]
    have hdirect : trim ((stripPrefix "MATCH," "MATCH").getD "DIRECT") = "DIRECT" := by decide
    rw [hparse]
    generalize trim line = line at hmatch
    constructor
    · intro h
      cases h
      rw [Bool.or_eq_true, startsWith_iff, beq_iff_eq] at hmatch
      obtain ⟨adapter, hadapter⟩ | rfl := hmatch
      · obtain rfl : "MATCH," ++ .ofList adapter = line := by
          rw [← String.toList_inj, String.toList_append, @String.toList_ofList adapter, hadapter]
        rw [stripPrefix_eq_some_iff.mpr String.toList_append, Option.getD_some]
        exact .match _
      · rw [hdirect]
        exact .direct
    · intro h
      cases h with
      | direct => rw [hdirect]
      | «match» adapter =>
          rw [stripPrefix_eq_some_iff.mpr String.toList_append, Option.getD_some]
      | fields htype _ h => exact absurd hmatch (h.not_isMatch htype (toList_fields _ _ _))
  · constructor
    · intro h
      obtain ⟨ruleType, payload, adapter, hsplit⟩ := splitn_of_parseRule h hmatch
      obtain ⟨htype, hpayload, hline⟩ := splitn_eq_three_iff.mp hsplit
      rw [parseRule_eq_ok_iff_fields hmatch hsplit] at h
      rw [← toList_fields, String.toList_inj] at hline
      rw [hline]
      exact .fields htype hpayload h
    · intro h
      generalize hline : trim line = trimmed at h
      cases h with
      | direct => exact absurd (by rw [hline]; rfl) hmatch
      | «match» adapter =>
          refine absurd ?_ hmatch
          rw [hline, Bool.or_eq_true, startsWith_iff, String.toList_append]
          exact .inl (List.prefix_append _ _)
      | fields htype hpayload h =>
          refine (parseRule_eq_ok_iff_fields hmatch ?_).mpr h
          rw [hline, splitn_eq_three_iff]
          exact ⟨htype, hpayload, toList_fields _ _ _⟩

/-! ### Printing -/

/-- The line made of the three fields that `rules_info` gives of a rule. -/
def Rule.print (rule : Rule) : String :=
  if rule.ruleType = .match then "MATCH," ++ rule.adapter
  else rule.ruleType.display ++ "," ++ rule.payload ++ "," ++ rule.adapter

/-- The fields of a rule are those of its line, the way the rule shows them. -/
theorem RuleFields.shown {ruleType payload adapter : String} {rule : Rule}
    (h : RuleFields ruleType payload adapter rule) :
    rule.adapter = adapter ∧ rule.ruleType ≠ .match ∧
      (rule.payload = payload ∨ ∃ port : UInt16, rule.payload = Nat.repr port.toNat) ∧
      RuleFields rule.ruleType.display rule.payload adapter rule := by
  cases h with
  | domain => exact ⟨rfl, nofun, .inl rfl, .domain payload adapter⟩
  | domainSuffix => exact ⟨rfl, nofun, .inl rfl, .domainSuffix payload adapter⟩
  | domainKeyword => exact ⟨rfl, nofun, .inl rfl, .domainKeyword payload adapter⟩
  | domainRegex _ hpattern => exact ⟨rfl, nofun, .inl rfl, .domainRegex adapter hpattern⟩
  | ipCidr _ htype hcidr =>
      rename_i cidr
      have hshown : (Rule.ipCidr ⟨cidr, payload, adapter, false⟩).ruleType =
          if Crates.isV4 cidr then .ipCidr else .ipCidr6 := rfl
      rw [hshown]
      split_ifs
      · exact ⟨rfl, nofun, .inl rfl, .ipCidr adapter (.inl rfl) hcidr⟩
      · exact ⟨rfl, nofun, .inl rfl, .ipCidr adapter (.inr rfl) hcidr⟩
  | srcIpCidr _ hcidr => exact ⟨rfl, nofun, .inl rfl, .srcIpCidr adapter hcidr⟩
  | srcPort _ hport =>
      rename_i port
      exact ⟨rfl, nofun, .inr ⟨port, rfl⟩, .srcPort adapter (parseU16_repr port)⟩
  | dstPort _ hport =>
      rename_i port
      exact ⟨rfl, nofun, .inr ⟨port, rfl⟩, .dstPort adapter (parseU16_repr port)⟩

omit [Crates] in
/-- The name of a rule type has no commas, and no spaces around it. -/
theorem RuleType.display_cases (ruleType : RuleType) :
    ',' ∉ ruleType.display.toList ∧ Trimmed ruleType.display ∧ ruleType.display ≠ "" := by
  cases ruleType <;> exact ⟨by decide, trimmed_iff.mpr (by decide), by decide⟩

omit [Crates] in
/-- A line whose last field is trimmed has no spaces around it, even if that field is empty. -/
theorem trimmed_append_comma {first last : String} (hfirst : Trimmed first) (hne : first ≠ "")
    (hlast : Trimmed last) : Trimmed (first ++ "," ++ last) := by
  have hline : (first ++ "," ++ last).toList = first.toList ++ ',' :: last.toList := by simp
  refine ⟨fun c hc => ?_, fun c hc => ?_⟩
  · have hnil : first.toList ≠ [] := by simpa using hne
    rw [hline, List.head?_append_of_ne_nil _ hnil] at hc
    exact hfirst.head c hc
  · rw [hline, List.getLast?_append, List.getLast?_cons] at hc
    cases hlast' : last.toList.getLast? with
    | none =>
        rw [hlast'] at hc
        obtain rfl : ',' = c := Option.some.inj hc
        decide
    | some d =>
        rw [hlast'] at hc
        obtain rfl : d = c := Option.some.inj hc
        exact hlast.last d hlast'

/-- The line a rule is printed as stands for the rule. -/
theorem RuleLine.print {line : String} {rule : Rule} (h : RuleLine line rule) :
    Trimmed rule.print ∧ RuleLine rule.print rule := by
  have hmatch : ∀ adapter, Trimmed adapter → Trimmed (Rule.match ⟨adapter⟩).print ∧
      RuleLine (Rule.match ⟨adapter⟩).print (.match ⟨adapter⟩) := by
    intro adapter hadapter
    have hprint : (Rule.match ⟨adapter⟩).print = "MATCH," ++ adapter := rfl
    have hline := RuleLine.match adapter
    rw [hadapter.trim_eq] at hline
    obtain ⟨-, htrimmed, hne⟩ := RuleType.match.display_cases
    exact ⟨trimmed_append_comma htrimmed hne hadapter, hline⟩
  cases h with
  | direct => exact hmatch _ (trimmed_iff.mpr (by decide))
  | «match» adapter => exact hmatch _ (trimmed_trim adapter)
  | fields htype hpayload h =>
      rename_i ruleType payload adapter
      obtain ⟨hadapter, hne, hshown, hfields⟩ := h.shown
      obtain ⟨htype, htrimmed, hnil⟩ := rule.ruleType.display_cases
      have hpayload : ',' ∉ rule.payload.toList ∧ Trimmed rule.payload := by
        obtain hsame | ⟨port, hport⟩ := hshown
        · rw [hsame]
          exact ⟨fun hmem => hpayload (mem_of_mem_trim hmem), trimmed_trim payload⟩
        · rw [hport]
          exact ⟨notMem_repr (by decide) _, trimmed_repr _⟩
      rw [Rule.print, if_neg hne, hadapter]
      constructor
      · have hfirst := trimmed_append_comma htrimmed hnil hpayload.2
        refine trimmed_append_comma hfirst ?_ (trimmed_trim adapter)
        simp
      · refine .fields htype hpayload.1 ?_
        rwa [htrimmed.trim_eq, hpayload.2.trim_eq, (trimmed_trim adapter).trim_eq]

/-- **Rules survive printing.** A rule that was parsed is read back from the line it is printed
as. -/
theorem parseRule_print {line : String} {rule : Rule} (h : parseRule line = .ok rule) :
    parseRule rule.print = .ok rule := by
  rw [parseRule_eq_ok_iff] at h ⊢
  obtain ⟨htrimmed, hline⟩ := h.print
  rwa [htrimmed.trim_eq]

omit [Crates] in
/-- A line with spaces, a padded port and a comma in its last field. -/
theorem parseRule_print_sample :
    letI := ipv4Crates
    parseRule " SRC-PORT , +080 , Proxy, US " = .ok (.srcPort (.new 80 "Proxy, US")) ∧
      parseRule (Rule.srcPort (.new 80 "Proxy, US")).print =
        .ok (.srcPort (.new 80 "Proxy, US")) := by
  let _ := ipv4Crates
  have hrule : parseRule " SRC-PORT , +080 , Proxy, US " =
      .ok (.srcPort (.new 80 "Proxy, US")) := by
    rfl
  exact ⟨hrule, parseRule_print hrule⟩

end Redog
