import Redog.ShareUri

/-!
# Importing a subscription

A subscription is a text with the link of a node on each line, as it is or all of it in base64.
The backend of the GUI decodes the text when it can, reads every line on its own, and passes
over the lines that are no link. Only when no line is one, the text is read as a
configuration of Clash, with the nodes in its `proxies`.

## Main results

* `importNodes_lines`: what is imported from a text with links, plain or in base64.
* `fetchSubscription_shadowsocks`: a subscription of Shadowsocks nodes is fetched as these nodes.
-/

namespace Redog.ShareUri

open Rust

/-! ### The import -/

/-- `serde_yaml::Value`, without tags and with texts as the only keys. Of the numbers only the
unsigned ones keep their value. -/
inductive Yaml
  | null
  | bool (b : Bool)
  | unsigned (n : ℕ)
  | number
  | string (s : String)
  | sequence (elems : List Yaml)
  | mapping (fields : List (String × Yaml))

namespace Yaml

/-- `Value::get` of a key: the field of a mapping. Every other value has none. -/
def get (key : String) : Yaml → Option Yaml
  | mapping fields => fields.lookup key
  | _ => none

/-- `Value::as_str`: the text of a string, and nothing of any other value. -/
def asStr : Yaml → Option String
  | string s => some s
  | _ => none

/-- `Value::as_u64`: the number of an unsigned integer, and nothing of any other value. -/
def asU64 : Yaml → Option ℕ
  | unsigned n => some n
  | _ => none

/-- `Value::as_bool`: the value of a Boolean, and nothing of any other value. -/
def asBool : Yaml → Option Bool
  | bool b => some b
  | _ => none

/-- `Value::as_sequence`: the elements of a sequence, and nothing of any other value. -/
def asSequence : Yaml → Option (List Yaml)
  | sequence elems => some elems
  | _ => none

end Yaml

/-- What the import uses of `serde_yaml`: which texts are documents, and what they are as values. -/
class Documents where
  /-- `serde_yaml::from_str` -/
  fromYaml : String → Option Yaml

/-- A node in the configuration of Clash. -/
def yamlNode (p : Yaml) : Node where
  name := ((p.get "name").bind Yaml.asStr).getD "unnamed"
  type := ((p.get "type").bind Yaml.asStr).getD "ss"
  server := ((p.get "server").bind Yaml.asStr).getD ""
  port := ((p.get "port").bind Yaml.asU64).getD 0
  password := (((p.get "password").or (p.get "uuid")).bind Yaml.asStr).getD ""
  cipher := ((p.get "cipher").bind Yaml.asStr).getD ""
  tls := ((p.get "tls").bind Yaml.asBool).getD false

/-- The nodes under `proxies` of a Clash configuration; a text that is none has no nodes. -/
def yamlNodes [Documents] (text : String) : List Node :=
  ((((Documents.fromYaml text).bind (Yaml.get "proxies")).bind Yaml.asSequence).getD []).map
    yamlNode

variable [Codecs]

/-- The node on a line, none where it is blank or no link. -/
def importLine (line : String) : Option Node :=
  let line := trim line
  if line = "" then none else parseShareUri line

/-- The nodes `fetch_subscription` makes of a text. -/
def importNodes [Documents] (text : String) : List Node :=
  let content := (base64Decode text).getD text
  let nodes := (lines content).filterMap importLine
  if nodes = [] then yamlNodes text else nodes

/-- A response to the request for a subscription. -/
structure Fetched where
  status : StatusCode
  statusText : String
  text : Except String String

/-- `fetch_subscription`, with the result of the request. -/
def fetchSubscription [Documents] (url : String) (fetched : Except String Fetched) :
    Except String (List Node) := do
  if !startsWith "http://" url && !startsWith "https://" url then
    throw "Only HTTP/HTTPS URLs allowed"
  else
    match fetched with
    | .error e => throw ("请求失败: " ++ e)
    | .ok response =>
        if ¬ (200 ≤ response.status ∧ response.status < 300) then
          throw ("HTTP " ++ response.statusText)
        else return importNodes (← response.text)

/-! ### Lines -/

/-- Lines that differ only in the whitespace around them give the same node. -/
theorem importLine_of_trim_eq {line line' : String} (h : trim line = trim line') :
    importLine line = importLine line' := by
  rw [importLine, importLine, h]

/-- The carriage return at the end of a line does not matter. -/
theorem importLine_dropLast {line : List Char} (h : line.getLast? = some '\r') :
    importLine (.ofList line.dropLast) = importLine (.ofList line) := by
  obtain ⟨front, rfl⟩ := List.getLast?_eq_some_iff.mp h
  rw [List.dropLast_concat]
  refine importLine_of_trim_eq (trim_append_right ?_ front).symm
  intro c hc
  obtain rfl := List.mem_singleton.mp hc
  rfl

/-- The lines of a text are read like its pieces between line feeds. -/
theorem filterMap_lines (text : String) :
    (lines text).filterMap importLine = (split '\n' text).filterMap importLine := by
  have hline : (importLine ∘ String.ofList) ∘
      (fun line : List Char => if line.getLast? = some '\r' then line.dropLast else line) =
        importLine ∘ String.ofList := by
    funext line
    simp only [Function.comp_apply]
    split_ifs with hcr
    · exact importLine_dropLast hcr
    · rfl
  have hsplit : split '\n' text = (text.toList.splitOn '\n').map .ofList := rfl
  obtain ⟨front, last, hpieces⟩ : ∃ front last, text.toList.splitOn '\n' = front ++ [last] :=
    ⟨_, _, (List.dropLast_append_getLast (List.splitOn_ne_nil '\n' text.toList)).symm⟩
  have hlast : ([last].filter (· ≠ [])).filterMap (importLine ∘ String.ofList) =
      [last].filterMap (importLine ∘ String.ofList) := by
    rcases eq_or_ne last [] with hnil | hne
    · rw [hnil]
      rfl
    · rw [List.filter_cons_of_pos (by simpa using hne), List.filter_nil]
  rw [hsplit, lines, hpieces]
  simp only [List.dropLast_concat, List.getLast?_concat, Option.toList_some,
    List.filterMap_map, List.filterMap_append, hlast, hline]

/-- The text is the other one in base64, with whitespace anywhere. -/
def Packs (packed text : String) : Prop :=
  packed.toList.filter (fun c => !isWhitespace c) = (base64Encode text).toList

/-- A text in base64 decodes to the text that was encoded, since its whitespace is dropped before it
is decoded. -/
theorem base64Decode_of_packs (hcodecs : Codecs.Lawful) {packed text : String}
    (h : Packs packed text) : base64Decode packed = some text := by
  have hdecode : Codecs.standard (base64Encode text) = some (utf8 text) :=
    hcodecs.standard_encode (utf8 text)
  have hcleaned : packed.toList.filter (fun c => !isWhitespace c) = (base64Encode text).toList := h
  simp only [base64Decode, filter_trim, hcleaned, String.ofList_toList, hdecode, Option.some_or,
    Option.bind_some, fromUtf8_utf8]

/-- A link has a colon, the one of its scheme. -/
theorem colon_mem_of_parseShareUri {uri : String} {node : Node}
    (h : parseShareUri uri = some node) : ':' ∈ uri.toList := by
  have hmem : ∀ (pre : String) {rest : String}, stripPrefix pre uri = some rest →
      ':' ∈ pre.toList → ':' ∈ uri.toList := by
    intro pre rest hstrip hpre
    rw [stripPrefix_eq_some_iff.mp hstrip]
    exact List.mem_append_left _ hpre
  rw [parseShareUri] at h
  split at h
  · next rest hss => exact hmem "ss://" hss (by decide)
  · split at h
    · next rest hvmess => exact hmem "vmess://" hvmess (by decide)
    · obtain ⟨rest, htrojan, -⟩ := Option.bind_eq_some_iff.mp h
      exact hmem "trojan://" htrojan (by decide)

/-- A line that gives a node has a colon, as its scheme does; base64 has none. -/
theorem colon_mem_of_importLine {line : String} {node : Node}
    (h : importLine line = some node) : ':' ∈ (trim line).toList := by
  rw [importLine] at h
  split_ifs at h
  exact colon_mem_of_parseShareUri h

omit [Codecs] in
/-- Splitting a text makes no characters: those of the pieces are characters of the text. -/
theorem mem_of_mem_split {sep c : Char} {text line : String} (h : line ∈ split sep text)
    (hc : c ∈ line.toList) : c ∈ text.toList := by
  obtain ⟨piece, hpiece, rfl⟩ := List.mem_map.mp h
  rw [String.toList_ofList] at hc
  exact mem_of_mem_splitOn hpiece hc

/-- **What is imported from a text with links.** From a text with a link on some line, and from
the same text in base64, with whitespace anywhere, all links are imported, in their order and
each as if it stood alone. The other lines are passed over, and it does not matter how the lines
end. -/
theorem importNodes_lines [Documents] (hcodecs : Codecs.Lawful) {text : String}
    (hlink : ∃ line ∈ split '\n' text, (importLine line).isSome) :
    importNodes text = (split '\n' text).filterMap importLine ∧
      ∀ packed, Packs packed text →
        importNodes packed = (split '\n' text).filterMap importLine := by
  obtain ⟨line, hmem, hsome⟩ := hlink
  have hne : (lines text).filterMap importLine ≠ [] := by
    rw [filterMap_lines]
    intro hnil
    rw [List.filterMap_eq_nil_iff.mp hnil line hmem] at hsome
    cases hsome
  have hplain : base64Decode text = none := by
    obtain ⟨node, hnode⟩ := Option.isSome_iff_exists.mp hsome
    refine base64Decode_eq_none hcodecs.toDecodesBase64 (c := ':') ?_ rfl rfl
    exact mem_of_mem_split hmem (mem_of_mem_trim (colon_mem_of_importLine hnode))
  refine ⟨?_, fun packed hpacked => ?_⟩
  · rw [importNodes, hplain, Option.getD_none, if_neg hne, filterMap_lines]
  · rw [importNodes, base64Decode_of_packs hcodecs hpacked, Option.getD_some, if_neg hne,
      filterMap_lines]

/-! ### Subscriptions of Shadowsocks nodes -/

/-- The node is one that a Shadowsocks link can hold. -/
structure Node.IsShadowsocks (node : Node) : Prop where
  type : node.type = "ss"
  tls : node.tls = false
  cipher : ':' ∉ node.cipher.toList
  server : ':' ∉ node.server.toList ∧ '@' ∉ node.server.toList
  port : node.port ≤ 65535

/-- The link of a Shadowsocks node, in base64. -/
def ssLink (node : Node) : String :=
  "ss://" ++ (base64Encode (plain node.cipher node.password node.server node.port) ++ "#" ++
    Codecs.urlEncode node.name)

/-- The link of a Shadowsocks node parses to that node, with its name behind `#`. -/
theorem parseShareUri_ssLink (hcodecs : Codecs.Lawful) {node : Node} (h : node.IsShadowsocks) :
    parseShareUri (ssLink node) = some node := by
  set text := plain node.cipher node.password node.server node.port with htext
  have hsymbol : '#' ∉ (base64Encode text).toList := fun hmem =>
    absurd (hcodecs.isSymbol_of_mem_encode _ _ hmem) (by decide)
  have hdecoded : (base64Decode (base64Encode text)).getD (base64Encode text) = text := by
    rw [base64Decode_base64Encode hcodecs, Option.getD_some]
  rw [ssLink, parseShareUri_ss,
    parseSs_of_decoded hcodecs hsymbol hdecoded h.cipher h.server.1 h.server.2 h.port]
  rw [← h.type, ← h.tls]

omit [Codecs] in
/-- A text of lines with a newline between each two of them, and none at its end. -/
def joinLines (lines : List String) : String :=
  .ofList (['\n'].intercalate (lines.map String.toList))

omit [Codecs] in
/-- Lines that were joined are split again, when none of them holds a line end itself. -/
theorem split_joinLines {lines : List String} (hne : lines ≠ [])
    (hlines : ∀ line ∈ lines, '\n' ∉ line.toList) : split '\n' (joinLines lines) = lines := by
  have hsplit : ∀ text, split '\n' text = (text.toList.splitOn '\n').map .ofList := fun _ => rfl
  have hpieces : ∀ piece ∈ lines.map String.toList, '\n' ∉ piece := by
    rw [List.forall_mem_map]
    exact hlines
  rw [hsplit, joinLines, String.toList_ofList,
    List.splitOn_intercalate '\n' hpieces (by simpa using hne), List.map_map]
  exact List.map_id'' (fun line => String.ofList_toList) lines

/-- Importing line by line is trimming the lines, dropping the blank ones and parsing the rest as
links. -/
theorem filterMap_importLine (lines : List String) :
    lines.filterMap importLine =
      ((lines.map trim).filter (· ≠ "")).filterMap parseShareUri := by
  induction lines with
  | nil => rfl
  | cons line lines ih =>
      by_cases hempty : trim line = ""
      · have hnone : importLine line = none := by rw [importLine, if_pos hempty]
        rw [List.filterMap_cons_none hnone, ih, List.map_cons,
          List.filter_cons_of_neg (by simpa using hempty)]
      · have hparse : importLine line = parseShareUri (trim line) := by
          rw [importLine, if_neg hempty]
        rw [List.filterMap_cons, ih, hparse, List.map_cons,
          List.filter_cons_of_pos (by simpa using hempty), List.filterMap_cons]

/-- A subscription imports as its nodes. From a text with the link of one Shadowsocks node
after the other on its lines, with whitespace around them and blank lines between them, exactly
these nodes are imported, in their order; and also when the text is in base64, with whitespace
anywhere. -/
theorem importNodes_shadowsocks [Documents] (hcodecs : Codecs.Lawful) {nodes : List Node}
    (hne : nodes ≠ []) (hnodes : ∀ node ∈ nodes, node.IsShadowsocks) {lines : List String}
    (hlines : ∀ line ∈ lines, '\n' ∉ line.toList)
    (hlinks : (lines.map trim).filter (· ≠ "") = nodes.map ssLink) :
    importNodes (joinLines lines) = nodes ∧
      ∀ packed, Packs packed (joinLines lines) → importNodes packed = nodes := by
  have hparse : (nodes.map ssLink).filterMap parseShareUri = nodes := by
    rw [List.filterMap_map]
    refine (List.filterMap_congr fun node hnode => ?_).trans List.filterMap_some
    exact parseShareUri_ssLink hcodecs (hnodes node hnode)
  have himport : lines.filterMap importLine = nodes := by
    rw [filterMap_importLine, hlinks, hparse]
  have hlinesNe : lines ≠ [] := by
    rintro rfl
    exact hne himport.symm
  have hsplit := split_joinLines hlinesNe hlines
  have hlink : ∃ line ∈ split '\n' (joinLines lines), (importLine line).isSome := by
    obtain ⟨node, hnode⟩ := List.exists_mem_of_ne_nil nodes hne
    have hmem : node ∈ lines.filterMap importLine := by
      rw [himport]
      exact hnode
    obtain ⟨line, hline, hsome⟩ := List.mem_filterMap.mp hmem
    refine ⟨line, ?_, ?_⟩
    · rw [hsplit]
      exact hline
    · rw [hsome, Option.isSome_some]
  have hlinesImport := importNodes_lines hcodecs hlink
  rwa [hsplit, himport] at hlinesImport

/-- No text is YAML, so every download is taken for base64 or for plain links. -/
@[reducible] def noDocuments : Documents where
  fromYaml := fun _ => none

/-- A node of Shadowsocks with a colon in its password, as a link can carry it. -/
def tokyo : Node := ⟨"Tokyo", "ss", "example.com", 8388, "a:b", "aes-128-gcm", false⟩

/-- **A subscription is fetched as its nodes.** A server that answers with the links of Shadowsocks
nodes, one on a line, with whitespace around them and blank lines between them, gives the
application exactly these nodes, in their order. It may send the text in base64 instead, with
whitespace anywhere. -/
theorem fetchSubscription_shadowsocks [Documents] (hcodecs : Codecs.Lawful) {nodes : List Node}
    (hne : nodes ≠ []) (hnodes : ∀ node ∈ nodes, node.IsShadowsocks) {lines : List String}
    (hlines : ∀ line ∈ lines, '\n' ∉ line.toList)
    (hlinks : (lines.map trim).filter (· ≠ "") = nodes.map ssLink) {url : String}
    (hurl : startsWith "http://" url ∨ startsWith "https://" url) {response : Fetched}
    (hstatus : 200 ≤ response.status ∧ response.status < 300) {text : String}
    (htext : response.text = .ok text)
    (hcontent : text = joinLines lines ∨ Packs text (joinLines lines)) :
    fetchSubscription url (.ok response) = .ok nodes := by
  obtain ⟨hplain, hpacked⟩ := importNodes_shadowsocks hcodecs hne hnodes hlines hlinks
  have himport : importNodes text = nodes := by
    rcases hcontent with rfl | hpacks
    · exact hplain
    · exact hpacked text hpacks
  have hallowed : (!startsWith "http://" url && !startsWith "https://" url) = false := by
    rcases hurl with hurl | hurl <;> simp [hurl]
  rw [fetchSubscription, hallowed, if_neg Bool.false_ne_true]
  simp only [hstatus, htext, and_self, not_true_eq_false, if_false]
  exact congrArg Except.ok himport

omit [Codecs] in
/-- The link of a node behind a blank line. -/
theorem fetchSubscription_shadowsocks_tokyo :
    letI := plainNameCodecs
    letI := noDocuments
    fetchSubscription "https://example.com/sub"
      (.ok ⟨200, "200 OK", .ok (joinLines ["", " " ++ ssLink tokyo ++ "\r"])⟩) = .ok [tokyo] := by
  let _ := plainNameCodecs
  let _ := noDocuments
  have hnodes : ∀ node ∈ [tokyo], node.IsShadowsocks := by
    rw [List.forall_mem_singleton]
    exact ⟨rfl, rfl, by decide, ⟨by decide, by decide⟩, by decide⟩
  have hlines : ∀ line ∈ ["", " " ++ ssLink tokyo ++ "\r"], '\n' ∉ line.toList := by
    decide +kernel
  have hlinks : (["", " " ++ ssLink tokyo ++ "\r"].map trim).filter (· ≠ "") =
      [tokyo].map ssLink := by
    decide +kernel
  exact fetchSubscription_shadowsocks plainNameCodecs_lawful (List.cons_ne_nil _ _) hnodes hlines
    hlinks (.inr (by decide)) ⟨by decide, by decide⟩ rfl (.inl rfl)

end Redog.ShareUri
