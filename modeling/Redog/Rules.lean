import Redog.Core

/-!
# Routing rules

The rule kinds, what each of them matches, and the parser of a rule line. Regular
expressions and IP networks come from crates outside the repository, and `to_lowercase`
rests on the Unicode tables; they are the parameters in `Crates`.

A rule reads the host, the ports, the source address and the destination address of the
metadata. Only a destination network reads the destination address
(`Rule.matches_eraseDstIp`), and nothing reads the protocol of the listener.

## Main results

* `Rule.matches_eraseDstIp`: without a destination address the destination networks match
  nothing, and every other rule matches as before.
-/

namespace Redog

open Rust

/-- What the rules use of code outside the repository. -/
class Crates where
  /-- `regex::Regex` -/
  Regex : Type
  /-- `Regex::new` -/
  regexNew : String → Except String Regex
  /-- `Regex::is_match` -/
  isMatch : Regex → String → Bool
  /-- `ipnet::IpNet` -/
  IpNet : Type
  /-- `IpNet::from_str` -/
  parseIpNet : String → Except String IpNet
  /-- Whether the network is an `IpNet::V4`. -/
  isV4 : IpNet → Bool
  /-- `IpNet::contains` -/
  contains : IpNet → IpAddr → Bool
  /-- `str::to_lowercase` -/
  toLowercase : String → String

variable [Crates]

/-! ### Rule kinds -/

/-- `redog_core::RuleType`: the kinds of rules there are names for. `parse_rule` builds some of them
only. -/
inductive RuleType
  | domain | domainSuffix | domainKeyword | domainRegex | ipCidr | ipCidr6 | srcIpCidr
  | geoIP | geoSite | processName | processPath | srcPort | dstPort | inboundPort
  | and | or | not | ruleSet | «match»
deriving DecidableEq, Repr

/-- `impl Display for RuleType`: the word a rule of the kind starts with in a configuration. -/
def RuleType.display : RuleType → String
  | .domain => "DOMAIN"
  | .domainSuffix => "DOMAIN-SUFFIX"
  | .domainKeyword => "DOMAIN-KEYWORD"
  | .domainRegex => "DOMAIN-REGEX"
  | .ipCidr => "IP-CIDR"
  | .ipCidr6 => "IP-CIDR6"
  | .srcIpCidr => "SRC-IP-CIDR"
  | .geoIP => "GEOIP"
  | .geoSite => "GEOSITE"
  | .processName => "PROCESS-NAME"
  | .processPath => "PROCESS-PATH"
  | .srcPort => "SRC-PORT"
  | .dstPort => "DST-PORT"
  | .inboundPort => "IN-PORT"
  | .and => "AND"
  | .or => "OR"
  | .not => "NOT"
  | .ruleSet => "RULE-SET"
  | .match => "MATCH"

/-- `DomainRule`: the host is this domain, whatever its case. -/
structure DomainRule where
  domain : String
  adapter : String

/-- `DomainSuffixRule`: the host is this domain or one below it. -/
structure DomainSuffixRule where
  suffix : String
  adapter : String

/-- `DomainKeywordRule`: the host has this word somewhere in it. -/
structure DomainKeywordRule where
  keyword : String
  adapter : String

/-- `DomainRegexRule`: the host matches this expression, which is kept as it was written too. -/
structure DomainRegexRule where
  pattern : Crates.Regex
  patternStr : String
  adapter : String

/-- `IpCidrRule`: the destination, or the source, is in this network, which is kept as it was
written too. -/
structure IpCidrRule where
  cidr : Crates.IpNet
  cidrStr : String
  adapter : String
  isSrc : Bool

/-- `SrcPortRule`: the client sends from this port, which is kept as a text too. -/
structure SrcPortRule where
  port : UInt16
  adapter : String
  payloadStr : String

/-- `DstPortRule`: the connection goes to this port, which is kept as a text too. -/
structure DstPortRule where
  port : UInt16
  adapter : String
  payloadStr : String

/-- `MatchRule`: the rule for whatever no rule before it has matched. -/
structure MatchRule where
  adapter : String

/-- `Box<dyn Rule>`: a rule of one of the kinds. -/
inductive Rule
  | domain (rule : DomainRule)
  | domainSuffix (rule : DomainSuffixRule)
  | domainKeyword (rule : DomainKeywordRule)
  | domainRegex (rule : DomainRegexRule)
  | ipCidr (rule : IpCidrRule)
  | srcPort (rule : SrcPortRule)
  | dstPort (rule : DstPortRule)
  | «match» (rule : MatchRule)

namespace Rule

/-- `Rule::rule_type`: the kind the API reports. Of the rules on addresses it depends on the network
and on the side. -/
def ruleType : Rule → RuleType
  | .domain _ => .domain
  | .domainSuffix _ => .domainSuffix
  | .domainKeyword _ => .domainKeyword
  | .domainRegex _ => .domainRegex
  | .ipCidr rule =>
      if rule.isSrc then .srcIpCidr
      else if Crates.isV4 rule.cidr then .ipCidr else .ipCidr6
  | .srcPort _ => .srcPort
  | .dstPort _ => .dstPort
  | .match _ => .match

/-- `Rule::matches`: whether the rule is about such a connection. The rules on hosts match no
connection that has none. -/
def «matches» (rule : Rule) (metadata : Metadata) : Bool :=
  match rule with
  | .domain rule => (metadata.host.map (eqIgnoreAsciiCase · rule.domain)).getD false
  | .domainSuffix rule =>
      (metadata.host.map fun h =>
        let h := Crates.toLowercase h
        let s := Crates.toLowercase rule.suffix
        h == s || endsWith ("." ++ s) h).getD false
  | .domainKeyword rule =>
      (metadata.host.map fun h =>
        contains (Crates.toLowercase rule.keyword) (Crates.toLowercase h)).getD false
  | .domainRegex rule => (metadata.host.map (Crates.isMatch rule.pattern)).getD false
  | .ipCidr rule =>
      let ip := if rule.isSrc then some metadata.srcAddr.ip else metadata.dstIp
      (ip.map (Crates.contains rule.cidr)).getD false
  | .srcPort rule => metadata.srcAddr.port == rule.port
  | .dstPort rule => metadata.dstPort == rule.port
  | .match _ => true

/-- `Rule::adapter`: the name of the adapter the rule leads to, which need not be one there is. -/
def adapter : Rule → String
  | .domain rule => rule.adapter
  | .domainSuffix rule => rule.adapter
  | .domainKeyword rule => rule.adapter
  | .domainRegex rule => rule.adapter
  | .ipCidr rule => rule.adapter
  | .srcPort rule => rule.adapter
  | .dstPort rule => rule.adapter
  | .match rule => rule.adapter

/-- `Rule::payload`: what stands between the kind and the adapter of the rule. `MATCH` has nothing
there. -/
def payload : Rule → String
  | .domain rule => rule.domain
  | .domainSuffix rule => rule.suffix
  | .domainKeyword rule => rule.keyword
  | .domainRegex rule => rule.patternStr
  | .ipCidr rule => rule.cidrStr
  | .srcPort rule => rule.payloadStr
  | .dstPort rule => rule.payloadStr
  | .match _ => ""

/-- `Rule::should_resolve_ip`: the destination networks, and no other rule. -/
def shouldResolveIp : Rule → Bool
  | .ipCidr rule => !rule.isSrc
  | _ => false

end Rule

/-! ### Parsing -/

/-- `IpCidrRule::new`: a rule on the network of the text. The only error is that the text is no
network. -/
def IpCidrRule.new (cidrStr adapter : String) (isSrc : Bool) : Except String IpCidrRule :=
  match Crates.parseIpNet cidrStr with
  | .ok cidr => .ok ⟨cidr, cidrStr, adapter, isSrc⟩
  | .error e => .error ("invalid CIDR '" ++ cidrStr ++ "': " ++ e)

/-- `SrcPortRule::new`: a rule on the port, with the port in decimal as its text. -/
def SrcPortRule.new (port : UInt16) (adapter : String) : SrcPortRule where
  port := port
  adapter := adapter
  payloadStr := Nat.repr port.toNat

/-- `DstPortRule::new`: a rule on the port, with the port in decimal as its text. -/
def DstPortRule.new (port : UInt16) (adapter : String) : DstPortRule where
  port := port
  adapter := adapter
  payloadStr := Nat.repr port.toNat

/-- The port of a port rule, or the error of the line, which quotes the text and says what is wrong
with it. -/
def parseRulePort (payload : String) : Except String UInt16 :=
  match parseU16 payload with
  | .ok port => .ok port
  | .error e => .error ("invalid port '" ++ payload ++ "': " ++ e.text)

/-- `parse_rule`: the rule of a line. Its fields are trimmed, and what is behind the second comma is
the adapter as a whole. -/
def parseRule (line : String) : Except String Rule :=
  let line := trim line
  if startsWith "MATCH," line || line == "MATCH" then
    .ok (.match ⟨trim ((stripPrefix "MATCH," line).getD "DIRECT")⟩)
  else match splitn 3 ',' line with
    | [ruleType, payload, adapter] =>
        let payload := trim payload
        let adapter := trim adapter
        match trim ruleType with
        | "DOMAIN" => .ok (.domain ⟨payload, adapter⟩)
        | "DOMAIN-SUFFIX" => .ok (.domainSuffix ⟨payload, adapter⟩)
        | "DOMAIN-KEYWORD" => .ok (.domainKeyword ⟨payload, adapter⟩)
        | "DOMAIN-REGEX" =>
            match Crates.regexNew payload with
            | .ok pattern => .ok (.domainRegex ⟨pattern, payload, adapter⟩)
            | .error e => .error ("invalid regex '" ++ payload ++ "': " ++ e)
        | "IP-CIDR" | "IP-CIDR6" => do return .ipCidr (← IpCidrRule.new payload adapter false)
        | "SRC-IP-CIDR" => do return .ipCidr (← IpCidrRule.new payload adapter true)
        | "SRC-PORT" => do return .srcPort (.new (← parseRulePort payload) adapter)
        | "DST-PORT" => do return .dstPort (.new (← parseRulePort payload) adapter)
        | ruleType => .error ("unknown rule type: " ++ ruleType)
    | _ => .error ("invalid rule format: " ++ line)

/-! ### The destination address -/

/-- Without a destination address the destination networks match nothing, and every other
rule matches as before, whatever the listener. -/
theorem Rule.matches_eraseDstIp (rule : Rule) (metadata : Metadata) (inboundType : InboundType) :
    rule.matches { metadata with inboundType := inboundType, dstIp := none } =
      (rule.matches metadata && !rule.shouldResolveIp) := by
  cases rule with
  | ipCidr rule =>
      simp only [Rule.matches, shouldResolveIp]
      cases rule.isSrc <;> simp
  | _ => simp [Rule.matches, shouldResolveIp]

/-- Crates with IPv4 networks only, no regular expressions, and ASCII case folding. They
agree with the real ones on such networks and on ASCII text. -/
@[reducible] def ipv4Crates : Crates where
  Regex := Empty
  regexNew _ := .error "regular expressions are not supported"
  isMatch := nofun
  IpNet := Ipv4Addr × ℕ
  parseIpNet s :=
    match split '/' s with
    | [addr, len] =>
        match Ipv4Addr.parse addr, parseUnsigned 32 len.toList with
        | some ip, .ok len => .ok (ip, len)
        | _, _ => .error "invalid IP address syntax"
    | _ => .error "invalid IP address syntax"
  isV4 _ := true
  contains net ip :=
    match ip with
    | .v4 ip => ip.toU32.toNat >>> (32 - net.2) == net.1.toU32.toNat >>> (32 - net.2)
    | .v6 _ => false
  toLowercase := toAsciiLowercase

end Redog
