import Redog.NodeStore

/-!
# The other views of the desktop application

The views show names, hosts and messages that come from subscriptions, from the configuration
and from connections. Each is written as one HTML string. Other than the list of nodes, the
views escape every text they insert, and what they insert unescaped is numbers and fixed words.
So what the markup is depends on how many rows there are, and not on what they say.

The markup of a string is the characters that open and close tags and attribute values, in their
order.

## Main results

* `markup_escapeHtml`: escaped text has no markup.
* `markup_html`: the markup of a view depends on its shape alone.
-/

namespace Redog.Views

open NodeList

/-! ### Texts -/

/-- `s || t`: the second text takes the place of one that is missing or empty. -/
def orElse (s : Option String) (t : String) : String :=
  match s with
  | none => t
  | some s => if s = "" then t else s

/-- `(n / unit).toFixed` with as many digits as `scale` has zeros, up to two. -/
def toFixed (n unit scale : ℕ) : String :=
  let scaled := (2 * n * scale + unit) / (2 * unit)
  let fraction := scaled % scale
  (scaled / scale).repr ++ "." ++ (if scale = 100 ∧ fraction < 10 then "0" else "") ++
    fraction.repr

/-- `formatBytes`: bytes as they are, and larger numbers in the largest unit that fits, with one or
two decimals. -/
def formatBytes (n : ℕ) : String :=
  if n < 1024 then n.repr ++ " B"
  else if n < 1048576 then toFixed n 1024 10 ++ " KB"
  else if n < 1073741824 then toFixed n 1048576 10 ++ " MB"
  else toFixed n 1073741824 100 ++ " GB"

/-- The number of UTF-16 code units of a character. -/
def units (c : Char) : ℕ := if c.toNat < 65536 then 1 else 2

/-- As many characters as fit into so many code units. -/
def takeUnits : ℕ → List Char → List Char
  | _, [] => []
  | n, c :: cs => if units c ≤ n then c :: takeUnits (n - units c) cs else []

/-- `truncateUrl`: an address of more than sixty code units keeps the first 57 of them. -/
def truncateUrl (url : String) : String :=
  if 60 < (url.toList.map units).sum then .ofList (takeUnits 57 url.toList) ++ "..." else url

/-! ### Rows -/

/-- A rule, as GET /rules reports it. -/
structure RuleInfo where
  type : String
  payload : String
  proxy : String

/-- The row of a rule, with the three texts of the response escaped. -/
def ruleRow (r : RuleInfo) : String :=
  "<div class=\"rule-row\"><span class=\"rule-type\">" ++ escapeHtml r.type ++ "</span>" ++
    escapeHtml r.payload ++ "<span class=\"rule-arrow\">→</span>" ++ escapeHtml r.proxy ++ "</div>"

/-- `metadata` of a connection, as far as the view reads it. Each of its fields may be missing. -/
structure ConnMetadata where
  host : Option String
  destinationIP : Option String
  network : Option String

/-- A connection, as GET /connections reports it. -/
structure Conn where
  metadata : Option ConnMetadata
  destination : Option String
  network : Option String
  rule : Option String
  rulePayload : Option String
  chains : List String
  upload : ℕ
  download : ℕ

/-- Where a connection goes to: the host, or else the address, as the response has it. -/
def Conn.dest (c : Conn) : String :=
  match c.metadata with
  | some metadata => orElse metadata.host (orElse metadata.destinationIP "")
  | none => orElse c.destination ""

/-- The network of a connection, from its metadata or from the connection itself. -/
def Conn.net (c : Conn) : String :=
  orElse (c.metadata.bind ConnMetadata.network) (orElse c.network "")

/-- The row of a connection: four texts that are escaped and two numbers of bytes. -/
def connRow (c : Conn) : String :=
  let rule := orElse c.rule "" ++ " " ++ orElse c.rulePayload ""
  let chain := " → ".intercalate c.chains
  "<tr><td>" ++ escapeHtml c.dest ++ "</td><td>" ++ escapeHtml c.net ++ "</td><td>" ++
    escapeHtml (ShareUri.jsTrim rule) ++ "</td><td>" ++ escapeHtml chain ++ "</td><td>" ++
    formatBytes c.upload ++ "</td><td>" ++ formatBytes c.download ++ "</td></tr>"

/-- An entry of `logBuffer`: when it was added, its level and its message. -/
structure LogLine where
  time : String
  level : String
  msg : String

/-- The style class of an entry, which its level decides; other levels have none. -/
def logClass (l : LogLine) : String :=
  if l.level = "error" then "log-error" else if l.level = "warning" then "log-warn" else ""

/-- The row of an entry of the log, with its three texts escaped. -/
def logRow (l : LogLine) : String :=
  "<div class=\"log-row " ++ logClass l ++ "\"><span class=\"log-time\">" ++ escapeHtml l.time ++
    "</span>" ++ "<span class=\"log-level\">[" ++ escapeHtml l.level ++ "]</span> " ++
    escapeHtml l.msg ++ "</div>"

/-- The row of a subscription, with its position. -/
def subRow (s : NodeStore.Subscription) (i : ℕ) : String :=
  "<div class=\"sub-row\">" ++
    "<div class=\"sub-info\">" ++
    "<div class=\"sub-name\">" ++ escapeHtml s.name ++ "</div>" ++
    "<div class=\"sub-detail\">" ++ escapeHtml (truncateUrl s.url) ++ " | " ++
      (s.nodes.getD []).length.repr ++ " 个节点 | 更新间隔: " ++
      (if s.interval = 0 then 24 else s.interval).repr ++ "h" ++
      (if s.updatedAt = "" then "" else " | 上次: " ++ escapeHtml s.updatedAt) ++ "</div>" ++
    "</div>" ++
    "<div class=\"sub-actions\">" ++
    "<button class=\"btn btn-sm\" data-sub-update=\"" ++ i.repr ++ "\">更新</button>" ++
    "<button class=\"btn btn-sm btn-danger\" data-sub-delete=\"" ++ i.repr ++ "\">删除</button>" ++
    "</div>" ++
    "</div>"

/-- A proxy or a group, as GET /proxies reports it. -/
structure ProxyInfo where
  name : String
  type : Option String
  now : Option String
  all : List String
  history : List ℕ

/-- The style class of a delay: good below 200 milliseconds, bad from 500 on. -/
def delayClass (delay : ℕ) : String :=
  if delay = 0 then "" else if delay < 200 then "good" else if delay < 500 then "ok" else "bad"

/-- The text of a delay, where zero stands for a delay that was not measured. -/
def delayText (delay : ℕ) : String :=
  if delay = 0 then "-" else delay.repr ++ "ms"

/-- The delay of a member when it was measured last. -/
def lastDelay (proxies : List (String × ProxyInfo)) (name : String) : ℕ :=
  (((proxies.lookup name).bind fun p => p.history.getLast?)).getD 0

/-- A member of a group: its name, which is selected or not, and its latest delay. -/
def chip (proxies : List (String × ProxyInfo)) (g : ProxyInfo) (name : String) : String :=
  let delay := lastDelay proxies name
  "<div class=\"proxy-chip " ++ (if g.now = some name then "selected" else "") ++
    "\" data-name=\"" ++ escapeHtml name ++ "\">" ++
    "<span class=\"name\">" ++ escapeHtml name ++ "</span>" ++
    "<span class=\"delay " ++ delayClass delay ++ "\">" ++ delayText delay ++ "</span>" ++
    "</div>"

/-- The card of a group: its name and its type in the header, and a chip for each member. -/
def groupCard (proxies : List (String × ProxyInfo)) (g : ProxyInfo) : String :=
  "<div class=\"group-card\" data-group=\"" ++ escapeHtml g.name ++ "\">" ++
    "<div class=\"group-header\">" ++
    "<div class=\"group-title\">" ++ escapeHtml g.name ++ "</div>" ++
    "<div style=\"display:flex;align-items:center;gap:6px\">" ++
    "<button class=\"btn btn-sm btn-test-group\" title=\"测试该组延迟\">测速</button>" ++
    "<div class=\"group-type\">" ++ escapeHtml (orElse g.type "") ++ "</div>" ++
    "</div>" ++
    "</div>" ++
    "<div class=\"proxy-grid\">" ++ String.join (g.all.map (chip proxies g)) ++ "</div>" ++
    "</div>"

/-- The groups with members, which are the entries whose list `all` is there and not empty. -/
def groups (proxies : List (String × ProxyInfo)) : List ProxyInfo :=
  (proxies.map Prod.snd).filter fun p => p.all ≠ []

/-! ### Views -/

/-- The rows, or a hint that there are none. -/
def rowsOr (hint : String) (rows : List String) : String :=
  if rows.isEmpty then hint else String.join rows

/-- `renderProxies`: a card for each group that has members. -/
def renderProxies (proxies : List (String × ProxyInfo)) : String :=
  rowsOr "<div class=\"group-card\"><div class=\"group-title\">无代理组</div></div>"
    ((groups proxies).map (groupCard proxies))

/-- `renderSubscriptions`: a row for each subscription, whose buttons carry its position. -/
def renderSubscriptions (subscriptions : List NodeStore.Subscription) : String :=
  rowsOr "<div class=\"empty-hint\">暂无订阅，点击\"添加订阅\"导入</div>"
    (subscriptions.zipIdx.map fun s => subRow s.1 s.2)

/-- `renderLogs`: a row for each entry of the buffer. -/
def renderLogs (logBuffer : List LogLine) : String :=
  rowsOr "<div class=\"empty-hint\">暂无日志</div>" (logBuffer.map logRow)

/-- `loadRules`, once it has the rules: a row for each of them, in their order. -/
def renderRules (rules : List RuleInfo) : String :=
  rowsOr "<div class=\"empty-hint\">暂无规则数据</div>" (rules.map ruleRow)

/-- `loadConnections`, once it has the connections: a row for each of them. -/
def renderConnections (conns : List Conn) : String :=
  rowsOr
    "<tr><td colspan=\"6\" style=\"text-align:center;color:var(--muted)\">暂无活动连接</td></tr>"
    (conns.map connRow)

/-- What `loadProxies` shows of an error: that the server was not reached, and the text of the
error. -/
def proxiesError (e : String) : String :=
  "<div class=\"group-card\"><div class=\"group-header\">" ++
    "<div class=\"group-title\">无法连接到 API 后端</div></div>" ++
    "<div style=\"color:var(--muted);font-size:12px\">" ++ escapeHtml e ++ "</div>" ++
    "<div style=\"color:var(--muted);font-size:12px;margin-top:8px\">" ++
    "请确保 Redog 内核或 Clash 已启动且 external-controller 为 127.0.0.1:9090</div></div>"

/-- What `loadRules` shows of an error: a hint with its text in it. -/
def rulesError (e : String) : String :=
  "<div class=\"empty-hint\">无法获取规则: " ++ escapeHtml e ++ "</div>"

/-- What `loadConnections` shows of an error: a row with its text in it. -/
def connectionsError (e : String) : String :=
  "<tr><td colspan=\"6\" style=\"text-align:center;color:var(--muted)\">无法获取: " ++
    escapeHtml e ++ "</td></tr>"

/-- What is put into the container of a view. A request that fails gives its error. -/
inductive View
  | proxies (proxies : Except String (List (String × ProxyInfo)))
  | subscriptions (subscriptions : List NodeStore.Subscription)
  | rules (rules : Except String (List RuleInfo))
  | connections (connections : Except String (List Conn))
  | logs (logBuffer : List LogLine)

namespace View

/-- What is assigned to `innerHTML` of the container that shows the view. -/
def html : View → String
  | .proxies (.ok ps) => renderProxies ps
  | .proxies (.error e) => proxiesError e
  | .subscriptions subs => renderSubscriptions subs
  | .rules (.ok rs) => renderRules rs
  | .rules (.error e) => rulesError e
  | .connections (.ok conns) => renderConnections conns
  | .connections (.error e) => connectionsError e
  | .logs lines => renderLogs lines

/-- As many rows, and as many members in each group. -/
inductive SameShape : View → View → Prop
  | proxies {ps qs : List (String × ProxyInfo)}
      (h : (groups ps).map (fun g => g.all.length) = (groups qs).map fun g => g.all.length) :
      SameShape (.proxies (.ok ps)) (.proxies (.ok qs))
  | proxiesFailed (e e' : String) : SameShape (.proxies (.error e)) (.proxies (.error e'))
  | subscriptions {ss ts : List NodeStore.Subscription} (h : ss.length = ts.length) :
      SameShape (.subscriptions ss) (.subscriptions ts)
  | rules {rs qs : List RuleInfo} (h : rs.length = qs.length) :
      SameShape (.rules (.ok rs)) (.rules (.ok qs))
  | rulesFailed (e e' : String) : SameShape (.rules (.error e)) (.rules (.error e'))
  | connections {cs ds : List Conn} (h : cs.length = ds.length) :
      SameShape (.connections (.ok cs)) (.connections (.ok ds))
  | connectionsFailed (e e' : String) :
      SameShape (.connections (.error e)) (.connections (.error e'))
  | logs {ls ms : List LogLine} (h : ls.length = ms.length) : SameShape (.logs ls) (.logs ms)

end View

/-! ### Markup -/

/-- The characters that open and close tags and attribute values. -/
def isMarkup (c : Char) : Bool := c == '<' || c == '>' || c == '"' || c == '\''

/-- The markup of a string: its angle brackets and quotes, in their order. -/
def markup (s : String) : List Char := s.toList.filter isMarkup

/-- The markup of two texts in a row is that of the first, then that of the second. -/
theorem markup_append (s t : String) : markup (s ++ t) = markup s ++ markup t := by
  rw [markup, String.toList_append, List.filter_append]
  rfl

/-- A text has no markup when none of its characters is a character of markup. -/
theorem markup_eq_nil {s : String} (h : ∀ c ∈ s.toList, isMarkup c = false) : markup s = [] :=
  List.filter_eq_nil_iff.mpr fun c hc => by rw [h c hc]; exact Bool.false_ne_true

/-- A word without markup, by looking at it. -/
theorem isMarkup_of_all {s : String} (hs : s.toList.all (fun c => !isMarkup c) = true) {c : Char}
    (hc : c ∈ s.toList) : isMarkup c = false :=
  (Bool.not_eq_true' _).mp (List.all_eq_true.mp hs c hc)

/-- The same for a text that is given, whose characters can be checked one by one. -/
theorem markup_of_all {s : String} (hs : s.toList.all (fun c => !isMarkup c) = true) :
    markup s = [] :=
  markup_eq_nil fun _ => isMarkup_of_all hs

/-- Neither an escaped character nor what it is written with is markup. -/
theorem isMarkup_escapeChar {c d : Char} (h : c ∈ escapeChar d) : isMarkup c = false := by
  rw [escapeChar] at h
  split_ifs at h with hamp hlt hgt hquote happ
  · exact isMarkup_of_all (by decide) h
  · exact isMarkup_of_all (by decide) h
  · exact isMarkup_of_all (by decide) h
  · exact isMarkup_of_all (by decide) h
  · exact isMarkup_of_all (by decide) h
  · obtain rfl := List.mem_singleton.mp h
    simp [isMarkup, hlt, hgt, hquote, happ]

/-- An escaped text has no markup left, whatever it was: this is what makes the views safe. -/
@[simp] theorem markup_escapeHtml (s : String) : markup (escapeHtml s) = [] := by
  refine markup_eq_nil fun c hc => ?_
  rw [escapeHtml, String.toList_ofList, List.mem_flatMap] at hc
  obtain ⟨d, -, hc⟩ := hc
  exact isMarkup_escapeChar hc

/-! ### Numbers -/

/-- Letters and digits are no markup, so a name of them is the same escaped and not. -/
theorem isMarkup_of_isAlphanum {c : Char} (h : c.isAlphanum) : isMarkup c = false := by
  by_contra hmarkup
  simp only [isMarkup, Bool.not_eq_false, Bool.or_eq_true, beq_iff_eq] at hmarkup
  rcases hmarkup with ((rfl | rfl) | rfl) | rfl
  · exact absurd h (by decide)
  · exact absurd h (by decide)
  · exact absurd h (by decide)
  · exact absurd h (by decide)

/-- A number written in decimal has no markup. -/
@[simp] theorem markup_repr (n : ℕ) : markup n.repr = [] := by
  refine markup_eq_nil fun c hc => ?_
  rw [Nat.toList_repr] at hc
  exact isMarkup_of_isAlphanum (Rust.isAlphanum_of_mem_toDigits (by omega) (by omega) n hc)

/-- An integer written in decimal has no markup, with or without its sign. -/
@[simp] theorem markup_intRepr (n : ℤ) : markup n.repr = [] := by
  cases n with
  | ofNat n => exact markup_repr n
  | negSucc n =>
      have hneg : (Int.negSucc n).repr = "-" ++ (n + 1).repr := rfl
      rw [hneg, markup_append, markup_repr, markup_of_all (by decide)]
      rfl

/-- A number with decimals has no markup: it is made of digits and a point. -/
@[simp] theorem markup_toFixed (n unit scale : ℕ) : markup (toFixed n unit scale) = [] := by
  have hpad : ∀ p : Prop, [Decidable p] → markup (if p then "0" else "") = [] := by
    intro p _
    split_ifs
    · exact markup_of_all (by decide)
    · exact markup_of_all (by decide)
  have hdot : markup "." = [] := markup_of_all (by decide)
  simp only [toFixed, markup_append, markup_repr, hpad, hdot, List.append_nil]

/-- A number of bytes has no markup, in whichever unit it is shown. -/
@[simp] theorem markup_formatBytes (n : ℕ) : markup (formatBytes n) = [] := by
  rw [formatBytes]
  split_ifs
  · rw [markup_append, markup_repr, markup_of_all (by decide)]
    rfl
  · rw [markup_append, markup_toFixed, markup_of_all (by decide)]
    rfl
  · rw [markup_append, markup_toFixed, markup_of_all (by decide)]
    rfl
  · rw [markup_append, markup_toFixed, markup_of_all (by decide)]
    rfl

/-- The text of a delay has no markup, measured or not. -/
@[simp] theorem markup_delayText (delay : ℕ) : markup (delayText delay) = [] := by
  rw [delayText]
  split_ifs
  · exact markup_of_all (by decide)
  · rw [markup_append, markup_repr, markup_of_all (by decide)]
    rfl

/-! ### Words -/

/-- The class of a delay has no markup, so it cannot end the attribute it stands in. -/
@[simp] theorem markup_delayClass (delay : ℕ) : markup (delayClass delay) = [] := by
  rw [delayClass]
  split_ifs
  · exact markup_of_all (by decide)
  · exact markup_of_all (by decide)
  · exact markup_of_all (by decide)
  · exact markup_of_all (by decide)

/-- The class of an entry has no markup, so it cannot end the attribute it stands in. -/
@[simp] theorem markup_logClass (l : LogLine) : markup (logClass l) = [] := by
  rw [logClass]
  split_ifs
  · exact markup_of_all (by decide)
  · exact markup_of_all (by decide)
  · exact markup_of_all (by decide)

/-- The class of a member that is selected has no markup either. -/
@[simp] theorem markup_selected (p : Prop) [Decidable p] :
    markup (if p then "selected" else "") = [] := by
  split_ifs
  · exact markup_of_all (by decide)
  · exact markup_of_all (by decide)

/-! ### Rows -/

/-- All rows of rules have the same markup, whatever the rules are. -/
theorem markup_ruleRow (r r' : RuleInfo) : markup (ruleRow r) = markup (ruleRow r') := by
  delta ruleRow
  simp only [markup_append, markup_escapeHtml]

/-- All rows of connections have the same markup, whatever the connections are. -/
theorem markup_connRow (c c' : Conn) : markup (connRow c) = markup (connRow c') := by
  delta connRow
  simp only [markup_append, markup_escapeHtml, markup_formatBytes]

/-- All rows of the log have the same markup, whatever was logged. -/
theorem markup_logRow (l l' : LogLine) : markup (logRow l) = markup (logRow l') := by
  delta logRow
  simp only [markup_append, markup_escapeHtml, markup_logClass]

/-- The time of the last update of a subscription. -/
theorem markup_updatedAt (s : String) :
    markup (if s = "" then "" else " | 上次: " ++ escapeHtml s) = [] := by
  split_ifs
  · exact markup_of_all (by decide)
  · rw [markup_append, markup_escapeHtml, markup_of_all (by decide)]
    rfl

/-- All rows of subscriptions have the same markup, at whatever position. -/
theorem markup_subRow (s s' : NodeStore.Subscription) (i i' : ℕ) :
    markup (subRow s i) = markup (subRow s' i') := by
  delta subRow
  simp only [markup_append, markup_escapeHtml, markup_repr, markup_intRepr,
    markup_updatedAt]

/-- All chips have the same markup, whatever the member is called and whether it is selected. -/
theorem markup_chip (ps qs : List (String × ProxyInfo)) (g g' : ProxyInfo) (name name' : String) :
    markup (chip ps g name) = markup (chip qs g' name') := by
  delta chip
  simp only [markup_append, markup_escapeHtml, markup_selected, markup_delayClass,
    markup_delayText]

/-! ### Lists of rows -/

/-- The markup of rows is that of each of them. -/
theorem markup_join (rows : List String) :
    markup (String.join rows) = (rows.map markup).flatten := by
  induction rows with
  | nil => rfl
  | cons row rows ih =>
      rw [String.join_cons, markup_append, ih, List.map_cons, List.flatten_cons]

/-- A list shows its rows or its hint, so lists of rows with the same markup have the same
markup. -/
theorem markup_rowsOr (hint : String) {rows rows' : List String}
    (h : rows.map markup = rows'.map markup) :
    markup (rowsOr hint rows) = markup (rowsOr hint rows') := by
  have hempty : rows.isEmpty = rows'.isEmpty := by
    rw [← List.isEmpty_map (f := markup), h, List.isEmpty_map]
  rw [rowsOr, rowsOr, hempty]
  split_ifs
  · rfl
  · rw [markup_join, markup_join, h]

/-- Rows that all have the same markup. -/
theorem map_markup_eq {α β : Type} {row : α → String} {row' : β → String}
    (hrow : ∀ x y, markup (row x) = markup (row' y)) {xs : List α} {ys : List β}
    (h : xs.length = ys.length) : (xs.map row).map markup = (ys.map row').map markup := by
  refine List.ext_getElem (by simp [h]) fun i _ _ => ?_
  rw [List.getElem_map, List.getElem_map, List.getElem_map, List.getElem_map]
  exact hrow _ _

/-- The markup of a group depends on the number of its members. -/
theorem markup_groupCard {ps qs : List (String × ProxyInfo)} {g g' : ProxyInfo}
    (h : g.all.length = g'.all.length) :
    markup (groupCard ps g) = markup (groupCard qs g') := by
  have hmembers : markup (String.join (g.all.map (chip ps g))) =
      markup (String.join (g'.all.map (chip qs g'))) := by
    rw [markup_join, markup_join, map_markup_eq (markup_chip ps qs g g') h]
  delta groupCard
  simp only [markup_append, markup_escapeHtml, hmembers]

/-- Cards of groups with the same numbers of members have the same markup, one after another. -/
theorem map_markup_groupCard {ps qs : List (String × ProxyInfo)} {gs gs' : List ProxyInfo}
    (h : gs.map (fun g => g.all.length) = gs'.map fun g => g.all.length) :
    (gs.map (groupCard ps)).map markup = (gs'.map (groupCard qs)).map markup := by
  have hlength : gs.length = gs'.length := by
    simpa only [List.length_map] using congrArg List.length h
  refine List.ext_getElem (by simp only [List.length_map, hlength]) fun i hi hi' => ?_
  rw [List.length_map, List.length_map] at hi hi'
  rw [List.getElem_map, List.getElem_map, List.getElem_map, List.getElem_map]
  refine markup_groupCard ?_
  have hi₁ : i < (gs.map fun g => g.all.length).length := by rwa [List.length_map]
  have hi₂ : i < (gs'.map fun g => g.all.length).length := by rwa [List.length_map]
  calc gs[i].all.length = (gs.map fun g => g.all.length)[i] := by rw [List.getElem_map]
    _ = (gs'.map fun g => g.all.length)[i] := by simp only [h]
    _ = gs'[i].all.length := by rw [List.getElem_map]

/-! ### Views -/

/-- The error of the proxies has the same markup whatever its text is. -/
theorem markup_proxiesError (e e' : String) :
    markup (proxiesError e) = markup (proxiesError e') := by
  delta proxiesError
  simp only [markup_append, markup_escapeHtml]

/-- The error of the rules has the same markup whatever its text is. -/
theorem markup_rulesError (e e' : String) : markup (rulesError e) = markup (rulesError e') := by
  delta rulesError
  simp only [markup_append, markup_escapeHtml]

/-- The error of the connections has the same markup whatever its text is. -/
theorem markup_connectionsError (e e' : String) :
    markup (connectionsError e) = markup (connectionsError e') := by
  delta connectionsError
  simp only [markup_append, markup_escapeHtml]

/-- The proxies have the markup that the numbers of members of their groups determine. -/
theorem markup_renderProxies {ps qs : List (String × ProxyInfo)}
    (h : (groups ps).map (fun g => g.all.length) = (groups qs).map fun g => g.all.length) :
    markup (renderProxies ps) = markup (renderProxies qs) :=
  markup_rowsOr _ (map_markup_groupCard h)

/-- The subscriptions have the markup that their number determines. -/
theorem markup_renderSubscriptions {ss ts : List NodeStore.Subscription}
    (h : ss.length = ts.length) :
    markup (renderSubscriptions ss) = markup (renderSubscriptions ts) := by
  have hrow : ∀ s t : NodeStore.Subscription × ℕ,
      markup (subRow s.1 s.2) = markup (subRow t.1 t.2) :=
    fun s t => markup_subRow s.1 t.1 s.2 t.2
  have hlength : ss.zipIdx.length = ts.zipIdx.length := by
    rw [List.length_zipIdx, List.length_zipIdx, h]
  exact markup_rowsOr _ (map_markup_eq hrow hlength)

/-- The rules have the markup that their number determines. -/
theorem markup_renderRules {rs qs : List RuleInfo} (h : rs.length = qs.length) :
    markup (renderRules rs) = markup (renderRules qs) :=
  markup_rowsOr _ (map_markup_eq markup_ruleRow h)

/-- The connections have the markup that their number determines. -/
theorem markup_renderConnections {cs ds : List Conn} (h : cs.length = ds.length) :
    markup (renderConnections cs) = markup (renderConnections ds) :=
  markup_rowsOr _ (map_markup_eq markup_connRow h)

/-- The entries of the log have the markup that their number determines. -/
theorem markup_renderLogs {ls ms : List LogLine} (h : ls.length = ms.length) :
    markup (renderLogs ls) = markup (renderLogs ms) :=
  markup_rowsOr _ (map_markup_eq markup_logRow h)

/-- **The markup of a view depends on its shape alone**: no text that is shown can open or close
a tag or an attribute. -/
theorem markup_html {v w : View} (h : v.SameShape w) : markup v.html = markup w.html := by
  cases h with
  | proxies h => exact markup_renderProxies h
  | proxiesFailed e e' => exact markup_proxiesError e e'
  | subscriptions h => exact markup_renderSubscriptions h
  | rules h => exact markup_renderRules h
  | rulesFailed e e' => exact markup_rulesError e e'
  | connections h => exact markup_renderConnections h
  | connectionsFailed e e' => exact markup_connectionsError e e'
  | logs h => exact markup_renderLogs h

/-- Text that looks like markup shows as text. -/
theorem markup_html_rule :
    markup (View.rules (.ok [⟨"DOMAIN", "<img src=x onerror=alert(1)>", "\"DIRECT\""⟩])).html =
      markup (View.rules (.ok [⟨"MATCH", "", "REJECT"⟩])).html :=
  markup_html (.rules rfl)

end Redog.Views
