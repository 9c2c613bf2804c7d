import Redog.ClashYaml

/-!
# Subscriptions that the web frontend reads

A subscription that the backend could not fetch is fetched by the page, which has to find out what
it has got: a list of links in Base64, a Clash configuration, or a list of links. It takes the
first of the three that gives any node.

The text is trimmed first. That changes its first and its last line, and drops the blank ones
around them, but no node.

## Main results

* `parseClashYaml_trimmed`: the whitespace around a configuration does not matter.
* `parseSubscriptionText_config`: the nodes written in a configuration are read back.
* `parseSubscriptionText_base64`: a list of links means the same with and without Base64.
-/

namespace Redog.ClashYaml

open ShareUri

/-! ### Links -/

section Links

variable [Web] [JsonParser]

/-- A link of the kind `vmess://`, behind the scheme. -/
def parseVmess (encoded : String) : Option JsNode := do
  let obj ← JsonParser.parse (← Web.atob encoded)
  return {
    name := firstOf obj ["ps", "remark"] "VMess"
    type := "vmess"
    server := firstOf obj ["add"] ""
    port := (parseInt (((obj.lookup "port").map Scalar.text).getD "undefined")).orDefault 0
    password := firstOf obj ["id"] ""
    cipher := firstOf obj ["scy"] "auto"
    tls := match obj.lookup "tls" with
      | some (.bool b) => b
      | some (.string s) => s == "tls"
      | _ => false }

/-- `parseShareUri`, on links of all three kinds. -/
def parseShareUri (uri : String) : Option JsNode :=
  if Js.length uri < 6 then none
  else
    match Rust.stripPrefix "vmess://" uri with
    | some encoded => parseVmess encoded
    | none => Js.parseShareUri uri

/-- The node of a line as the frontend reads it, without the white space around the line. -/
def lineNode (line : List Char) : Option JsNode := parseShareUri (.ofList (trimmed line))

/-! ### Subscriptions -/

/-- The links of a text that was in Base64. -/
def decodedNodes (decoded : String) : List JsNode :=
  ((decoded.toList.splitOn '\n').filter fun l => trimmed l ≠ []).filterMap lineNode

/-- `parseSubscriptionText`: links in Base64, else a Clash configuration, else links as they stand,
whichever gives nodes first. -/
def parseSubscriptionText (text : String) : List JsNode :=
  let trimmed := trimmed text.toList
  let nodes := match Web.atob (.ofList (trimmed.filter fun c => !isJsWhitespace c)) with
    | some decoded => decodedNodes decoded
    | none => []
  if nodes ≠ [] then nodes
  else
    let nodes := parseClashYaml (.ofList trimmed)
    if nodes ≠ [] then nodes else (trimmed.splitOn '\n').filterMap lineNode

end Links

/-! ### Lines of a trimmed text -/

/-- Whitespace in front of a line does not matter to the trimmed line. -/
theorem trimmed_cons {c : Char} (hc : isJsWhitespace c) (line : List Char) :
    trimmed (c :: line) = trimmed line := by
  rw [trimmed, skipSpace, List.dropWhile_cons_of_pos hc]
  rfl

/-- Whitespace behind a line does not matter to the trimmed line. -/
theorem trimmed_concat {c : Char} (hc : isJsWhitespace c) (line : List Char) :
    trimmed (line ++ [c]) = trimmed line := by
  rw [trimmed, trimmed, skipSpace, skipSpace, List.dropWhile_append]
  split_ifs with hblank
  · rw [List.dropWhile_cons_of_pos hc, List.isEmpty_iff.mp hblank]
    rfl
  · exact List.rdropWhile_concat_pos _ _ _ hc

section Lines

variable {σ : Type} {next : σ → List Char → σ}

/-- What reads lines in a state where a blank line and the whitespace in front of a line do not
matter does not miss the whitespace in front of a text. -/
theorem foldl_splitOn_skipSpace {s : σ} (hnil : next s [] = s)
    (hcons : ∀ c line, isJsWhitespace c → next s (c :: line) = next s line) (text : List Char) :
    ((skipSpace text).splitOn '\n').foldl next s = (text.splitOn '\n').foldl next s := by
  induction text with
  | nil => rfl
  | cons c text ih =>
      by_cases hc : isJsWhitespace c
      · rw [skipSpace, List.dropWhile_cons_of_pos hc, List.splitOn_cons_eq_if_modifyHead]
        refine ih.trans ?_
        split_ifs with hnewline
        · rw [List.foldl_cons, hnil]
        · obtain ⟨line, lines, hlines⟩ :=
            List.exists_cons_of_ne_nil (List.splitOn_ne_nil '\n' text)
          rw [hlines, List.modifyHead_cons, List.foldl_cons, List.foldl_cons, hcons c line hc]
      · rw [skipSpace, List.dropWhile_cons_of_neg hc]

/-- Every text has a last line, and what is appended without a newline goes to that line. -/
theorem exists_last_line (text : List Char) :
    ∃ lines line, ∀ more, '\n' ∉ more →
      (text ++ more).splitOn '\n' = lines ++ [line ++ more] := by
  by_cases hmem : '\n' ∈ text
  · obtain ⟨back, front, heq, hback⟩ := List.eq_append_cons_of_mem (List.mem_reverse.mpr hmem)
    have htext : text = front.reverse ++ '\n' :: back.reverse := by
      rw [← List.reverse_reverse text, heq]
      simp
    have hlast : '\n' ∉ back.reverse := fun h => hback (List.mem_reverse.mp h)
    refine ⟨front.reverse.splitOn '\n', back.reverse, fun more hmore => ?_⟩
    have hline : '\n' ∉ back.reverse ++ more := fun h =>
      (List.mem_append.mp h).elim hlast hmore
    rw [htext, List.append_assoc, List.cons_append, List.splitOn_append_cons_self,
      List.splitOn_eq_singleton hline]
  · refine ⟨[], text, fun more hmore => ?_⟩
    have hline : '\n' ∉ text ++ more := fun h => (List.mem_append.mp h).elim hmem hmore
    rw [List.splitOn_eq_singleton hline, List.nil_append]

/-- The same for the whitespace behind a text. -/
theorem foldl_splitOn_rdropWhile (hnil : ∀ s, next s [] = s)
    (hconcat : ∀ s line c, isJsWhitespace c → next s (line ++ [c]) = next s line)
    (text : List Char) (s : σ) :
    ((text.rdropWhile isJsWhitespace).splitOn '\n').foldl next s =
      (text.splitOn '\n').foldl next s := by
  induction text using List.reverseRecOn with
  | nil => rfl
  | append_singleton text c ih =>
      by_cases hc : isJsWhitespace c
      · rw [List.rdropWhile_concat_pos _ _ _ hc, ih]
        by_cases hnewline : c = '\n'
        · rw [hnewline, List.splitOn_append_cons_self, List.foldl_append]
          exact (hnil _).symm
        · obtain ⟨lines, line, hsplit⟩ := exists_last_line text
          have hwithout := hsplit [] List.not_mem_nil
          have hwith := hsplit [c] fun h => hnewline (List.mem_singleton.mp h).symm
          rw [List.append_nil, List.append_nil] at hwithout
          rw [hwithout, hwith, List.foldl_append, List.foldl_append, List.foldl_cons,
            List.foldl_cons, hconcat _ line c hc]
      · rw [List.rdropWhile_concat_neg _ _ _ hc]

end Lines

/-! ### Configurations -/

section Configurations

variable [JsonParser]

/-- Outside of the section a line counts by what is on it. -/
theorem Section.next_cons {s : Section} (hs : s.inProxies = false) (c : Char) (line : List Char)
    (hc : isJsWhitespace c) : s.next (c :: line) = s.next line := by
  simp only [next, trimmed_cons hc, hs, Bool.false_eq_true, false_and, if_false, not_false_eq_true,
    if_true]

/-- Whitespace behind a line does not change what the parser of the configuration makes of it. -/
theorem Section.next_concat (s : Section) (line : List Char) (c : Char) (hc : isJsWhitespace c) :
    s.next (line ++ [c]) = s.next line := by
  have hhead : ((line ++ [c]).head?.any fun d => !isJsWhitespace d) =
      line.head?.any fun d => !isJsWhitespace d := by
    cases line with
    | nil =>
        show (!isJsWhitespace c) = false
        rw [hc]
        rfl
    | cons d line => rfl
  rw [next, next, trimmed_concat hc, hhead]

/-- The whitespace around a configuration does not matter. -/
theorem parseClashYaml_trimmed (text : List Char) :
    parseClashYaml (.ofList (trimmed text)) = parseClashYaml (.ofList text) := by
  rw [parseClashYaml, parseClashYaml, String.toList_ofList, String.toList_ofList, trimmed,
    foldl_splitOn_rdropWhile (fun s => s.next_blank rfl) Section.next_concat,
    foldl_splitOn_skipSpace (Section.next_blank _ rfl) (Section.next_cons rfl)]

/-- A text without the section has no nodes. -/
theorem parseClashYaml_eq_nil {text : List Char}
    (h : ∀ line ∈ text.splitOn '\n', isProxiesKey (trimmed line) = false) :
    parseClashYaml (.ofList text) = [] := by
  rw [parseClashYaml, String.toList_ofList, Section.foldl_outside rfl h]
  rfl

end Configurations

/-! ### What a subscription gives -/

/-- Trimming only takes characters away, at both ends, and keeps the order of the others. -/
theorem trimmed_sublist (text : List Char) : (trimmed text).Sublist text :=
  (List.rdropWhile_prefix _ _).sublist.trans (List.dropWhile_sublist _)

/-- A character that is not whitespace survives the trimming of the text it is in. -/
theorem mem_trimmed {c : Char} (hc : isJsWhitespace c = false) {text : List Char} (h : c ∈ text) :
    c ∈ trimmed text := by
  have hfront : c ∈ skipSpace text := by
    rw [← List.takeWhile_append_dropWhile (p := isJsWhitespace) (l := text)] at h
    rcases List.mem_append.mp h with h | h
    · exact absurd (List.mem_takeWhile_imp h) (ne_true_of_eq_false hc)
    · exact h
  rw [← List.rdropWhile_append_rtakeWhile (p := isJsWhitespace) (l := skipSpace text)] at hfront
  rcases List.mem_append.mp hfront with h | h
  · exact h
  · exact absurd (List.mem_rtakeWhile_imp h) (ne_true_of_eq_false hc)

/-- In the example the web platform decodes Base64 as the backend does. -/
theorem plainWeb_atob :
    letI := plainWeb
    ∀ s : String, ':' ∈ s.toList → Web.atob s = none := by
  let _ := plainNameCodecs
  intro s hs
  have hspace : Rust.isWhitespace ':' = false := by decide
  have hsymbol : Base64.isSymbol ':' = false := by decide
  exact base64Decode_eq_none plainNameCodecs_lawful.toDecodesBase64 hs hspace hsymbol

variable [Web] [JsonParser]

/-- What is no link gives no node. -/
theorem lineNode_blank {line : List Char} (h : trimmed line = []) : lineNode line = none := by
  rw [lineNode, h]
  rfl

/-- Blank lines need not be filtered out, because a blank line is no link anyway. -/
theorem decodedNodes_eq (decoded : String) :
    decodedNodes decoded = (decoded.toList.splitOn '\n').filterMap lineNode := by
  rw [decodedNodes, List.filterMap_filter]
  refine List.filterMap_congr fun line _ => ?_
  by_cases hblank : trimmed line = []
  · rw [if_neg (by simpa using hblank), lineNode_blank hblank]
  · rw [if_pos (by simpa using hblank)]

/-- The links of a trimmed text are those of the text. -/
theorem filterMap_lineNode_trimmed (text : List Char) :
    ((trimmed text).splitOn '\n').filterMap lineNode = (text.splitOn '\n').filterMap lineNode := by
  let next (nodes : List JsNode) (line : List Char) := nodes ++ (lineNode line).toList
  have hfold : ∀ lines : List (List Char), lines.filterMap lineNode = lines.foldl next [] := by
    intro lines
    rw [List.foldl_append_eq_append, List.nil_append, List.filterMap_eq_flatMap_toList,
      List.flatMap_def]
  have hnil : ∀ nodes, next nodes [] = nodes := fun nodes => by
    show nodes ++ (lineNode []).toList = nodes
    rw [lineNode_blank rfl]
    exact List.append_nil nodes
  have hcons : ∀ c line, isJsWhitespace c → next [] (c :: line) = next [] line := by
    intro c line hc
    show [] ++ (lineNode (c :: line)).toList = [] ++ (lineNode line).toList
    rw [lineNode, lineNode, trimmed_cons hc]
  have hconcat : ∀ nodes line c, isJsWhitespace c → next nodes (line ++ [c]) = next nodes line := by
    intro nodes line c hc
    show nodes ++ (lineNode (line ++ [c])).toList = nodes ++ (lineNode line).toList
    rw [lineNode, lineNode, trimmed_concat hc]
  rw [hfold, hfold, trimmed, foldl_splitOn_rdropWhile hnil hconcat,
    foldl_splitOn_skipSpace (hnil []) hcons]

/-- There is a colon in every link. -/
theorem colon_mem_of_lineNode {line : List Char} {node : JsNode} (h : lineNode line = some node) :
    ':' ∈ trimmed line := by
  have hscheme : ∀ scheme rest, ':' ∈ scheme.toList →
      Rust.stripPrefix scheme (.ofList (trimmed line)) = some rest → ':' ∈ trimmed line := by
    intro scheme rest hcolon hstrip
    have hline := Rust.stripPrefix_eq_some_iff.mp hstrip
    rw [String.toList_ofList] at hline
    exact hline ▸ List.mem_append_left _ hcolon
  rw [lineNode, parseShareUri] at h
  split_ifs at h
  split at h
  · rename_i hvmess
    exact hscheme "vmess://" _ (by decide) hvmess
  · rw [Js.parseShareUri] at h
    split_ifs at h
    split at h
    · rename_i hss
      exact hscheme "ss://" _ (by decide) hss
    · obtain ⟨rest, htrojan, -⟩ := Option.bind_eq_some_iff.mp h
      exact hscheme "trojan://" _ (by decide) htrojan

omit [JsonParser] in
/-- Where there is a colon, there is no Base64. -/
theorem atob_joined (hatob : ∀ s : String, ':' ∈ s.toList → Web.atob s = none) {text : List Char}
    (h : ':' ∈ trimmed text) :
    Web.atob (.ofList ((trimmed text).filter fun c => !isJsWhitespace c)) = none := by
  refine hatob _ ?_
  rw [String.toList_ofList]
  exact List.mem_filter.mpr ⟨h, by decide⟩

/-- Nodes that are written in a configuration are read back, with whitespace around it or not. -/
theorem parseSubscriptionText_config (hatob : ∀ s : String, ':' ∈ s.toList → Web.atob s = none)
    {before after : List (List Char)} {nodes : List JsNode}
    (hnodes : ∀ node ∈ nodes, Printable node) (hne : nodes ≠ []) (indent : ℕ)
    (hlines : ∀ line ∈ before ++ after, '\n' ∉ line)
    (hkeys : ∀ line ∈ before ++ after, isProxiesKey (trimmed line) = false)
    (hcloses : ∀ line ∈ after.find? fun line => trimmed line ≠ [], Section.Closes line)
    {text : String} (htext : trimmed text.toList =
      trimmed (configText before (nodes.map (nodeItem indent)) after).toList) :
    parseSubscriptionText text = nodes := by
  set config := configText before (nodes.map (nodeItem indent)) after with hconfig
  have hkey : "proxies:".toList ∈ config.toList.splitOn '\n' := by
    rw [hconfig, splitOn_configText (forall_item_valid hnodes indent) hlines]
    exact List.mem_append_right _ List.mem_cons_self
  have hcolon : ':' ∈ config.toList := Rust.mem_of_mem_splitOn hkey (by decide)
  have hread : parseClashYaml (.ofList (trimmed config.toList)) = nodes := by
    rw [parseClashYaml_trimmed, String.ofList_toList, hconfig,
      parseClashYaml_nodes hnodes indent hlines hkeys hcloses]
  simp only [parseSubscriptionText, htext]
  rw [atob_joined hatob (mem_trimmed (by decide) hcolon), hread, if_neg (not_not_intro rfl),
    if_pos hne]

omit [Web] [JsonParser] in
/-- Two nodes between other settings, with blank lines around the text. -/
theorem parseSubscriptionText_config_two :
    letI := plainWeb
    letI : JsonParser := ⟨fun _ => none⟩
    parseSubscriptionText (.ofList ('\n' :: ((configText ["port: 7890".toList, "".toList]
      ([⟨"tokyo", "ss", "1.2.3.4", .int 8388, "p: \"w", "aes-256-gcm", false⟩,
        ⟨"'paris'", "trojan", "a.example", .int 443, "", "", true⟩].map (nodeItem 2))
      ["rules:".toList, "  - MATCH,DIRECT".toList]).toList ++ ['\n']))) =
      [⟨"tokyo", "ss", "1.2.3.4", .int 8388, "p: \"w", "aes-256-gcm", false⟩,
        ⟨"'paris'", "trojan", "a.example", .int 443, "", "", true⟩] := by
  let _ := plainNameCodecs
  let _ := plainWeb
  let _ : JsonParser := ⟨fun _ => none⟩
  refine parseSubscriptionText_config plainWeb_atob ?_ (List.cons_ne_nil _ _) 2 ?_ ?_ ?_
    (by rw [String.toList_ofList, trimmed_cons rfl, trimmed_concat rfl])
  · refine List.forall_mem_cons.mpr ⟨⟨by decide, ?_, 8388, by decide, rfl⟩,
      List.forall_mem_singleton.mpr ⟨by decide, ?_, 443, by decide, rfl⟩⟩
    all_goals
      simp only [List.forall_mem_cons]
      exact ⟨⟨by decide, by decide⟩, ⟨by decide, by decide⟩, ⟨by decide, by decide⟩,
        ⟨by decide, by decide⟩, ⟨by decide, by decide⟩, by simp⟩
  · decide
  · decide
  · intro line hline
    obtain rfl := Option.some.inj hline
    exact ⟨by decide, by decide⟩

/-- A list of links means the same with and without Base64. -/
theorem parseSubscriptionText_base64 (hatob : ∀ s : String, ':' ∈ s.toList → Web.atob s = none)
    {text content : String}
    (hdecode : Web.atob (.ofList ((trimmed text.toList).filter fun c => !isJsWhitespace c)) =
      some content)
    (hkeys : ∀ line ∈ content.toList.splitOn '\n', isProxiesKey (trimmed line) = false)
    (hne : (content.toList.splitOn '\n').filterMap lineNode ≠ []) :
    parseSubscriptionText text = (content.toList.splitOn '\n').filterMap lineNode ∧
      parseSubscriptionText content = (content.toList.splitOn '\n').filterMap lineNode := by
  have hcolon : ':' ∈ trimmed content.toList := by
    obtain ⟨node, hnode⟩ := List.exists_mem_of_ne_nil _ hne
    obtain ⟨line, hline, hread⟩ := List.mem_filterMap.mp hnode
    have hmem := (trimmed_sublist line).subset (colon_mem_of_lineNode hread)
    exact mem_trimmed (by decide) (Rust.mem_of_mem_splitOn hline hmem)
  have hconfig : parseClashYaml (.ofList (trimmed content.toList)) = [] := by
    rw [parseClashYaml_trimmed, parseClashYaml_eq_nil hkeys]
  constructor
  · simp only [parseSubscriptionText, hdecode, decodedNodes_eq]
    exact if_pos hne
  · simp only [parseSubscriptionText]
    rw [atob_joined hatob hcolon, hconfig, if_neg (not_not_intro rfl), if_neg (not_not_intro rfl),
      filterMap_lineNode_trimmed]

omit [Web] [JsonParser] in
/-- Two links in Base64, on two lines. -/
theorem parseSubscriptionText_base64_two :
    letI := plainWeb
    letI : JsonParser := ⟨fun _ => none⟩
    let text := "dHJvamFuOi8vcHdAYS5leGFtcGxlOjQ0MwoKdHJv\n" ++
      "amFuOi8vcHdAYi5leGFtcGxlOjQ0MyNCCg=="
    let content := "trojan://pw@a.example:443\n\ntrojan://pw@b.example:443#B\n"
    parseSubscriptionText text = (content.toList.splitOn '\n').filterMap lineNode ∧
      parseSubscriptionText content = (content.toList.splitOn '\n').filterMap lineNode := by
  let _ := plainNameCodecs
  let _ := plainWeb
  let _ : JsonParser := ⟨fun _ => none⟩
  exact parseSubscriptionText_base64 plainWeb_atob (by decide +kernel) (by decide +kernel)
    (by decide +kernel)

end Redog.ClashYaml
