import Redog.Api
import Redog.Percent

/-!
# The GUI as a client of the API

The backend of the GUI turns a command into a request: it puts the URL together from the
configured base and a path, adds the secret when there is one, and reports what comes back as
a value or as the text of an error. The name of a group is a segment of the path and is
percent-encoded for that; the mode and the name of a member are in a JSON body.

What happens between the two programs is the work of `reqwest` and `axum`, of which `Wire`
says what is needed: the path of the request is the one in the URL unless that has dot
segments, a segment of it is decoded, and a JSON body is read with the fields it has. The
secret has no control characters, with which no request would leave the client.

The route of a single proxy is registered as `/proxies/{name}`. What that stands for is up to
the version of the router: in the one that is pinned the braces have no meaning, and no path
that the GUI sends reaches the handlers behind it. `Matchit` has both readings, and the results
hold for each of them.

## Main results

* `foldl_run`: a run of commands does to the tunnel what the commands say, and the mode that
  is shown is the one that was set last.
* `selectProxy_spec`: the GUI is told that a member is selected exactly when it is. With the
  pinned router it never is.
-/

namespace Redog

open Rust Run

/-- The version of the router. In the pinned one, matchit 0.7 below axum 0.7, a parameter of a
registered path is written with a colon, and `{name}` is a segment like any other. From
matchit 0.8 on, braces bind the segment. -/
class Matchit where
  bindsBraces : Bool

/-- The registered route of a path. Whether the braces in `/proxies/{name}` bind a segment, or are
taken literally, is up to the router. -/
def Route.ofPath [Matchit] (path : String) : Route :=
  match split '/' path with
  | ["", ""] => .root
  | ["", "version"] => .version
  | ["", "traffic"] => .traffic
  | ["", "configs"] => .configs
  | ["", "proxies"] => .proxies
  | ["", "proxies", segment] =>
      if Matchit.bindsBraces then if segment = "" then .unregistered else .proxy segment
      else if segment = "{name}" then .proxy segment
      else .unregistered
  | ["", "rules"] => .rules
  | ["", "connections"] => .connections
  | _ => .unregistered

namespace Client

/-! ### Paths -/

/-- The path of a URL that is sent as it is: it has no dot segments, and no character that
would be encoded or end it. -/
def PlainPath (path : String) : Prop :=
  (path.toList.all fun c => c == '/' || Percent.isEncoded c) ∧
  ∀ segment ∈ split '/' path, Percent.decode segment ≠ some "." ∧
    Percent.decode segment ≠ some ".."

instance (path : String) : Decidable (PlainPath path) := inferInstanceAs (Decidable (_ ∧ _))

/-- A text with a separator in its middle has the pieces of both parts. -/
theorem split_append_cons (sep : Char) (s t : String) :
    split sep (s ++ .singleton sep ++ t) = split sep s ++ split sep t := by
  have hsplit : ∀ u : String, split sep u = (u.toList.splitOn sep).map .ofList := fun _ => rfl
  rw [hsplit, hsplit, hsplit, String.toList_append, String.toList_append,
    String.toList_singleton, List.append_assoc, List.singleton_append,
    List.splitOn_append_cons_self, List.map_append]

/-- An encoded name has no slash, so it is a single segment of a path. -/
theorem split_encode (s : String) : split '/' (Percent.encode s) = [Percent.encode s] := by
  rw [split_eq, cut_eq_none_iff.mpr (Percent.notMem_encode rfl s)]

/-- A plain path stays plain when an encoded segment is put behind it, unless the segment is one of
the two that name a directory. -/
theorem PlainPath.append {path : String} (h : PlainPath path) {s : String} (hdot : s ≠ ".")
    (hdots : s ≠ "..") : PlainPath (path ++ "/" ++ Percent.encode s) := by
  refine ⟨?_, fun segment hsegment => ?_⟩
  · rw [String.toList_append, String.toList_append, List.all_append, List.all_append, h.1]
    refine List.all_eq_true.mpr fun c hc => ?_
    rw [List.all_eq_true.mp (Percent.all_encode s) c hc, Bool.or_true]
  · rw [show path ++ "/" ++ Percent.encode s = path ++ .singleton '/' ++ Percent.encode s from rfl,
      split_append_cons, split_encode, List.mem_append, List.mem_singleton] at hsegment
    rcases hsegment with hsegment | rfl
    · exact h.2 segment hsegment
    · rw [Percent.decode_encode]
      exact ⟨fun h => hdot (Option.some.inj h), fun h => hdots (Option.some.inj h)⟩

/-- The path of a proxy, with its name encoded so that it is one segment. -/
def proxyPath (name : String) : String :=
  "/proxies" ++ "/" ++ Percent.encode name

/-- The path as it is put together in `select_proxy`. -/
theorem proxyPath_eq (name : String) : "/proxies/" ++ Percent.encode name = proxyPath name := rfl

/-- The path of a proxy is sent as it is, unless the name is a dot segment. -/
theorem plainPath_proxyPath {name : String} (hdot : name ≠ ".") (hdots : name ≠ "..") :
    PlainPath (proxyPath name) :=
  have hproxies : PlainPath "/proxies" := by decide +kernel
  hproxies.append hdot hdots

/-- The segments of the path of a proxy: the last one is the encoded name. -/
theorem split_proxyPath (name : String) :
    split '/' (proxyPath name) = ["", "proxies", Percent.encode name] := by
  have hproxies : split '/' "/proxies" = ["", "proxies"] := by decide +kernel
  refine (split_append_cons '/' "/proxies" (Percent.encode name)).trans ?_
  rw [hproxies, split_encode]
  rfl

variable [Matchit]

/-- The path of a proxy leads to its route when braces bind the segment, and nowhere otherwise: an
encoded name has no braces. -/
theorem route_proxyPath (name : String) :
    Route.ofPath (proxyPath name) =
      if Matchit.bindsBraces ∧ name ≠ "" then .proxy (Percent.encode name) else .unregistered := by
  have hnone : Percent.encode "" = "" := by decide +kernel
  have hempty : Percent.encode name = "" ↔ name = "" :=
    ⟨fun h => Percent.encode_inj (h.trans hnone.symm), fun h => h ▸ hnone⟩
  have hbraces : Percent.encode name ≠ "{name}" := by
    intro h
    have hmem : '{' ∈ (Percent.encode name).toList := by
      rw [h]
      decide
    exact Percent.notMem_encode rfl name hmem
  rw [Route.ofPath, split_proxyPath]
  simp only [hempty, hbraces, if_false, ne_eq]
  by_cases hbinds : Matchit.bindsBraces
  · simp only [hbinds, if_true, true_and, ite_not]
  · simp only [hbinds]
    rfl

/-- The routes of the paths without a name do not depend on the version. -/
theorem route_configs : Route.ofPath "/configs" = .configs := by
  have hsplit : split '/' "/configs" = ["", "configs"] := by decide +kernel
  rw [Route.ofPath, hsplit]
  rfl

/-- The root path, which a PUT request to the group `..` ends up at. -/
theorem route_root : Route.ofPath "/" = .root := by
  have hsplit : split '/' "/" = ["", ""] := by decide +kernel
  rw [Route.ofPath, hsplit]
  rfl

/-- The path that is left of a delay request for the proxy `..`, which is not registered. -/
theorem route_onlyDelay : Route.ofPath "/delay" = .unregistered := by
  have hsplit : split '/' "/delay" = ["", "delay"] := by decide +kernel
  rw [Route.ofPath, hsplit]
  rfl

/-- Below a proxy there is nothing: the path the client measures a delay at is registered
nowhere. -/
theorem route_delay (name : String) :
    Route.ofPath (proxyPath name ++ "/" ++ Percent.encode "delay") = .unregistered := by
  have hdelay : Percent.encode "delay" = "delay" := by decide +kernel
  have hsplit : split '/' (proxyPath name ++ "/" ++ Percent.encode "delay") =
      ["", "proxies", Percent.encode name, "delay"] := by
    refine (split_append_cons '/' (proxyPath name) (Percent.encode "delay")).trans ?_
    rw [split_encode, split_proxyPath, hdelay]
    rfl
  rw [Route.ofPath, hsplit]
  rfl

/-! ### The commands -/

variable [Axum]

/-- `ApiConfig`: where the server is, and the secret to send along, which may be empty. -/
structure ApiConfig where
  baseUrl : String
  secret : String

/-- What the client uses of `reqwest`: how URLs and bodies are sent, and the texts of its errors. -/
class Reqwest where
  /-- The path of the request that is sent for a URL. -/
  path : String → String
  /-- The body of a request. -/
  body : Option Json → Axum.Body
  /-- `Display` of a status -/
  statusText : StatusCode → String
  /-- `Response::text` -/
  text : ResponseBody → String
  /-- `Response::json`, with the text of its error. -/
  json : ResponseBody → Except String Json
  /-- The text of the error when the connection is closed without a response. -/
  closed : String
  /-- The text of the error for a request with a header that cannot be sent. -/
  invalid : String

/-- A request as it is put together. -/
structure Call where
  method : Method
  url : String
  headers : List (String × String)
  body : Option Json

/-- `api_url`: the base address with the path behind it, as `format!` puts them together. -/
def apiUrl (cfg : ApiConfig) (path : String) : String :=
  cfg.baseUrl ++ path

/-- `auth_header`: the header with the secret, or none at all where the secret is empty. -/
def authHeader (cfg : ApiConfig) : List (String × String) :=
  if cfg.secret = "" then [] else [("authorization", "Bearer " ++ cfg.secret)]

/-- `HeaderValue::from_bytes` takes the text: it has no control characters but tabs. -/
def isHeaderText (text : String) : Bool :=
  text.toList.all fun c => c == '\t' || 32 ≤ c.toNat && c.toNat != 127

omit [Matchit] [Axum] in
/-- The headers of every call can be sent when the secret can. -/
theorem all_isHeaderText {cfg : ApiConfig} (hsecret : isHeaderText cfg.secret) :
    (authHeader cfg).all fun header => isHeaderText header.2 := by
  rw [authHeader]
  split_ifs
  · rfl
  · have hbearer : isHeaderText ("Bearer " ++ cfg.secret) := by
      rw [isHeaderText, String.toList_append, List.all_append, Bool.and_eq_true]
      exact ⟨by decide, hsecret⟩
    rw [List.all_cons, List.all_nil, Bool.and_true]
    exact hbearer

variable [Crates] [Reqwest]

/-- What comes back: a response, or an error without one. -/
def answer : Option Response → Except String Response
  | none => .error Reqwest.closed
  | some response => .ok response

/-- `RequestBuilder::send` to the server that was started with the secret. A request with a header
that cannot be sent does not leave the client. -/
def send (secret : Option String) (state : ApiState) (call : Call) :
    Except String Response × ApiState :=
  if call.headers.all fun header => isHeaderText header.2 then
    (state.serve secret {
      method := call.method
      route := .ofPath (Reqwest.path call.url)
      headers := call.headers
      body := Reqwest.body call.body }).map answer id
  else (.error Reqwest.invalid, state)

/-- What the calls have in common: a response that is no success is an error. -/
def received (value : ResponseBody → Except String Json) :
    Except String Response → Except String Json
  | .error e => .error e
  | .ok response =>
      if 200 ≤ response.status ∧ response.status < 300 then value response.body
      else .error ("HTTP " ++ Reqwest.statusText response.status ++ " - " ++
        Reqwest.text response.body)

/-- `resp.json().or_else(|_| Ok(Value::Null))`: a body that is no JSON counts as `null`, so a change
is never reported as failed for its body. -/
def jsonOrNull (body : ResponseBody) : Except String Json :=
  match Reqwest.json body with
  | .ok value => .ok value
  | .error _ => .ok .null

/-- `get`: the request without a body, its answer read as JSON. Here a body that is no JSON is an
error. -/
def get (cfg : ApiConfig) (secret : Option String) (state : ApiState) (path : String) :
    Except String Json × ApiState :=
  (send secret state ⟨.get, apiUrl cfg path, authHeader cfg, none⟩).map
    (received Reqwest.json) id

/-- A request with a JSON body and the header that says so. An answer that is no JSON counts as
`null`. -/
def sendJson (cfg : ApiConfig) (secret : Option String) (state : ApiState) (method : Method)
    (path : String) (body : Json) : Except String Json × ApiState :=
  (send secret state ⟨method, apiUrl cfg path,
    ("content-type", "application/json") :: authHeader cfg, some body⟩).map
    (received jsonOrNull) id

/-- `patch_json`: the request that changes a setting, with the JSON as its body. -/
def patchJson (cfg : ApiConfig) (secret : Option String) (state : ApiState) (path : String)
    (body : Json) : Except String Json × ApiState :=
  sendJson cfg secret state .patch path body

/-- `put_json`: the request that selects a member of a group, with the JSON as its body. -/
def putJson (cfg : ApiConfig) (secret : Option String) (state : ApiState) (path : String)
    (body : Json) : Except String Json × ApiState :=
  sendJson cfg secret state .put path body

/-- The commands of the GUI and of its tray that go to the API. The web frontend calls
`patch_configs` with objects. -/
inductive Command
  | getProxies | getRules | getConnections | getTraffic | getVersion | getConfigs
  | patchConfigs (body : List (String × Json))
  | selectProxy (group name : String)
  | testLatency (name : String)
  | setModeBlocking (mode : String)
  | reloadConfigBlocking

/-- What a delay is to be measured with. -/
def delayQuery : String := "url=http://www.gstatic.com/generate_204&timeout=5000"

/-- A command is carried out: the call that it makes, with the path and the body the call has. -/
def run (cfg : ApiConfig) (secret : Option String) (state : ApiState) :
    Command → Except String Json × ApiState
  | .getProxies => get cfg secret state "/proxies"
  | .getRules => get cfg secret state "/rules"
  | .getConnections => get cfg secret state "/connections"
  | .getTraffic => get cfg secret state "/traffic"
  | .getVersion => get cfg secret state "/version"
  | .getConfigs => get cfg secret state "/configs"
  | .patchConfigs body => patchJson cfg secret state "/configs" (.object body)
  | .selectProxy group name => putJson cfg secret state ("/proxies/" ++ Percent.encode group)
      (.object [("name", .string name)])
  | .testLatency name => get cfg secret state ("/proxies/" ++ Percent.encode name ++
      "/delay?" ++ delayQuery)
  | .setModeBlocking mode => patchJson cfg secret state "/configs"
      (.object [("mode", .string mode)])
  | .reloadConfigBlocking => putJson cfg secret state "/configs" (.object [("path", .string "")])

/-! ### What the crates do -/

/-- The client and the server as their crates connect them. -/
structure Wire (cfg : ApiConfig) : Prop where
  path : ∀ path, PlainPath path → Reqwest.path (cfg.baseUrl ++ path) = path
  query : ∀ path query, PlainPath path →
    Reqwest.path (cfg.baseUrl ++ (path ++ "?" ++ query)) = path
  dot : Reqwest.path (cfg.baseUrl ++ "/proxies/.") = "/proxies/"
  dots : Reqwest.path (cfg.baseUrl ++ "/proxies/..") = "/"
  dotQuery : ∀ query, Reqwest.path (cfg.baseUrl ++ ("/proxies/./delay?" ++ query)) =
    "/proxies/delay"
  dotsQuery : ∀ query, Reqwest.path (cfg.baseUrl ++ ("/proxies/../delay?" ++ query)) = "/delay"
  secret : isHeaderText cfg.secret
  segment : Matchit.bindsBraces → ∀ segment text, Percent.decode segment = some text →
    Axum.path segment = .ok text
  configPatch : ∀ headers (fields : List (String × Json)),
    ("content-type", "application/json") ∈ headers →
    match fields.lookup "mode" with
    | none | some .null =>
        Axum.configPatch headers (Reqwest.body (some (.object fields))) = .ok none
    | some (.string mode) =>
        Axum.configPatch headers (Reqwest.body (some (.object fields))) = .ok (some mode)
    | some _ => ∃ rejection, 400 ≤ rejection.status ∧
        Axum.configPatch headers (Reqwest.body (some (.object fields))) = .error rejection
  changeProxyBody : ∀ headers name, ("content-type", "application/json") ∈ headers →
    Axum.changeProxyBody headers (Reqwest.body (some (.object [("name", .string name)]))) =
      .ok name
  json : ∀ value, Reqwest.json (.json value) = .ok value
  empty : ∃ e, Reqwest.json .empty = .error e

/-! ### What the commands do -/

/-- The mode in a body is set. -/
def setMode (state : ApiState) : Option Json → ApiState
  | some (.string mode) => (state.patchConfigs (some mode)).2
  | _ => state

/-- A path can name the group: the router binds segments, and the name is neither empty nor a dot
segment. -/
def Nameable (group : String) : Prop :=
  Matchit.bindsBraces ∧ group ≠ "" ∧ group ≠ "." ∧ group ≠ ".."

instance (group : String) : Decidable (Nameable group) := inferInstanceAs (Decidable (_ ∧ _))

/-- What a command is to do to the tunnel. Only a group that a path can name is switched. -/
def effect (state : ApiState) : Command → ApiState
  | .getConnections | .getTraffic => { state with traffic := state.traffic.snapshot.2 }
  | .patchConfigs body => setMode state (body.lookup "mode")
  | .setModeBlocking mode => setMode state (some (.string mode))
  | .selectProxy group name =>
      if Nameable group then (state.changeProxy group name).2 else state
  | _ => state

variable {cfg : ApiConfig} {secret : Option String}

/-- A GET request reaches the handler of the route that the path of its URL leads to. -/
theorem get_of_path (hwire : Wire cfg) (state : ApiState) {path sent : String}
    (hpath : Reqwest.path (cfg.baseUrl ++ path) = sent) :
    get cfg secret state path =
      ((state.serveGet (.ofPath sent)).map answer id).map (received Reqwest.json) id := by
  rw [get, send, if_pos (all_isHeaderText hwire.secret)]
  simp only [ApiState.serve, apiUrl, hpath]

/-- A request with a body reaches the handler of its route too, with the headers the client adds. -/
theorem sendJson_of_path (hwire : Wire cfg) (state : ApiState) {path sent : String}
    (hpath : Reqwest.path (cfg.baseUrl ++ path) = sent) {method : Method}
    (hmethod : method = .patch ∨ method = .put) (body : Json) :
    sendJson cfg secret state method path body =
      ((state.serveOther ⟨method, .ofPath sent, ("content-type", "application/json") ::
        authHeader cfg, Reqwest.body (some body)⟩).map .ok id).map (received jsonOrNull) id := by
  have hheaders : (("content-type", "application/json") :: authHeader cfg).all
      fun header => isHeaderText header.2 := by
    rw [List.all_cons, all_isHeaderText hwire.secret]
    decide
  rw [sendJson, send, if_pos hheaders]
  rcases hmethod with rfl | rfl <;> simp only [ApiState.serve, apiUrl, hpath] <;> rfl

/-- The error for a response with a status alone. -/
def statusError (status : StatusCode) : Except String Json :=
  .error ("HTTP " ++ Reqwest.statusText status ++ " - " ++ Reqwest.text .empty)

/-- The path of a delay is not registered. -/
theorem run_testLatency (hwire : Wire cfg) (state : ApiState) {name : String}
    (hdot : name ≠ ".") :
    run cfg secret state (.testLatency name) = (statusError 404, state) := by
  have hdelay : ∀ path, Reqwest.path (cfg.baseUrl ++ ("/proxies/" ++ Percent.encode name ++
      "/delay?" ++ delayQuery)) = path → Route.ofPath path = .unregistered →
      run cfg secret state (.testLatency name) = (statusError 404, state) := by
    intro path hpath hroute
    rw [run, get_of_path hwire state hpath, hroute]
    rfl
  by_cases hdots : name = ".."
  · subst hdots
    exact hdelay "/delay" (hwire.dotsQuery delayQuery) route_onlyDelay
  · have hencode : Percent.encode "delay" = "delay" := by decide +kernel
    have hplain : PlainPath (proxyPath name ++ "/" ++ Percent.encode "delay") :=
      (plainPath_proxyPath hdot hdots).append (by decide) (by decide)
    refine hdelay _ ?_ (route_delay name)
    rw [← hwire.query _ delayQuery hplain, hencode, ← proxyPath_eq]
    simp only [String.append_assoc]
    rfl

/-- No member is selected over a path that does not name the group. -/
theorem run_selectProxy_unnamed (hwire : Wire cfg) (state : ApiState) {group : String}
    (h : ¬ Nameable group) (name : String) :
    ∃ status ∈ [400, 404, 405],
      run cfg secret state (.selectProxy group name) = (statusError status, state) := by
  rw [run, proxyPath_eq, putJson]
  by_cases hdot : group = "."
  · have hpath : Reqwest.path (cfg.baseUrl ++ proxyPath ".") = "/proxies/" := hwire.dot
    have hroute : Route.ofPath "/proxies/" = .unregistered := by
      have hempty := route_proxyPath ""
      rwa [if_neg fun h => h.2 rfl] at hempty
    refine ⟨404, by decide, ?_⟩
    rw [hdot, sendJson_of_path hwire state hpath (.inr rfl), hroute]
    rfl
  by_cases hdots : group = ".."
  · have hpath : Reqwest.path (cfg.baseUrl ++ proxyPath "..") = "/" := hwire.dots
    refine ⟨405, by decide, ?_⟩
    rw [hdots, sendJson_of_path hwire state hpath (.inr rfl), route_root]
    rfl
  · have hroute : Route.ofPath (proxyPath group) = .unregistered := by
      rw [route_proxyPath, if_neg fun hbinds => h ⟨hbinds.1, hbinds.2, hdot, hdots⟩]
    refine ⟨404, by decide, ?_⟩
    rw [sendJson_of_path hwire state (hwire.path _ (plainPath_proxyPath hdot hdots)) (.inr rfl),
      hroute]
    rfl

/-- The names in the path and in the body are what `change_proxy` gets. -/
theorem run_selectProxy_named (hwire : Wire cfg) (state : ApiState) {group : String}
    (h : Nameable group) (name : String) :
    run cfg secret state (.selectProxy group name) =
      (received jsonOrNull (.ok (state.changeProxy group name).1),
        (state.changeProxy group name).2) := by
  obtain ⟨hbinds, hempty, hdot, hdots⟩ := h
  have hsegment := hwire.segment hbinds _ group (Percent.decode_encode group)
  have hbody := hwire.changeProxyBody
    (("content-type", "application/json") :: authHeader cfg) name List.mem_cons_self
  rw [run, proxyPath_eq, putJson,
    sendJson_of_path hwire state (hwire.path _ (plainPath_proxyPath hdot hdots)) (.inr rfl),
    route_proxyPath, if_pos ⟨hbinds, hempty⟩]
  simp only [ApiState.serveOther, hsegment, hbody]
  rfl

/-- **What a command does.** Over the wire a command does to the tunnel what it is to do. -/
theorem snd_run (hwire : Wire cfg) (state : ApiState) (command : Command) :
    (run cfg secret state command).2 = effect state command := by
  have hjson : ("content-type", "application/json") ∈
      ("content-type", "application/json") :: authHeader cfg := List.mem_cons_self
  have hconfigs : ∀ fields : List (String × Json),
      (patchJson cfg secret state "/configs" (.object fields)).2 =
        setMode state (fields.lookup "mode") := by
    intro fields
    have hpatch := hwire.configPatch _ fields hjson
    rw [patchJson,
      sendJson_of_path hwire state (hwire.path "/configs" (by decide +kernel)) (.inl rfl),
      route_configs]
    simp only [ApiState.serveOther]
    split at hpatch
    · rename_i hmode
      rw [hpatch, hmode]
      rfl
    · rename_i hmode
      rw [hpatch, hmode]
      rfl
    · rename_i mode hmode
      rw [hpatch, hmode]
      rfl
    · rename_i value hnull hstring hmode
      obtain ⟨rejection, -, hrejection⟩ := hpatch
      rw [hrejection, hmode, setMode]
      · rfl
      · exact fun mode h => hstring mode (Option.some.inj h)
  cases command with
  | getProxies =>
      rw [run, get_of_path hwire state (hwire.path _ (by decide +kernel))]
      rfl
  | getRules =>
      rw [run, get_of_path hwire state (hwire.path _ (by decide +kernel))]
      rfl
  | getConnections =>
      rw [run, get_of_path hwire state (hwire.path _ (by decide +kernel))]
      rfl
  | getTraffic =>
      rw [run, get_of_path hwire state (hwire.path _ (by decide +kernel))]
      rfl
  | getVersion =>
      rw [run, get_of_path hwire state (hwire.path _ (by decide +kernel))]
      rfl
  | getConfigs =>
      rw [run, get_of_path hwire state (hwire.path _ (by decide +kernel))]
      rfl
  | patchConfigs body => exact hconfigs body
  | setModeBlocking mode => exact hconfigs [("mode", .string mode)]
  | reloadConfigBlocking =>
      rw [run, putJson,
        sendJson_of_path hwire state (hwire.path "/configs" (by decide +kernel)) (.inr rfl)]
      rfl
  | testLatency name =>
      by_cases hdot : name = "."
      · subst hdot
        have hpath : Reqwest.path (cfg.baseUrl ++ ("/proxies/" ++ Percent.encode "." ++
            "/delay?" ++ delayQuery)) = "/proxies/delay" := hwire.dotQuery delayQuery
        have hroute : Route.ofPath "/proxies/delay" =
            if Matchit.bindsBraces then .proxy "delay" else .unregistered := by
          have hdelay := route_proxyPath "delay"
          have hname : "delay" ≠ "" := by decide
          simp only [hname, ne_eq, not_false_eq_true, and_true] at hdelay
          exact hdelay
        rw [run, get_of_path hwire state hpath, hroute]
        split_ifs with hbinds
        · have hsegment := hwire.segment hbinds "delay" "delay" (by decide +kernel)
          simp only [ApiState.serveGet, hsegment]
          rfl
        · rfl
      · rw [run_testLatency hwire state hdot]
        rfl
  | selectProxy group name =>
      rw [effect]
      split_ifs with hnamed
      · rw [run_selectProxy_named hwire state hnamed name]
      · obtain ⟨status, -, hrun⟩ := run_selectProxy_unnamed hwire state hnamed name
        rw [hrun]

/-! ### The mode -/

/-- The mode a text in a body stands for. -/
def bodyMode : Option Json → Option Mode
  | some (.string mode) => ApiState.parseMode mode
  | _ => none

/-- The mode a command asks for, if it asks for one there is. -/
def requestedMode : Command → Option Mode
  | .patchConfigs body => bodyMode (body.lookup "mode")
  | .setModeBlocking mode => bodyMode (some (.string mode))
  | _ => none

omit [Axum] [Reqwest] [Matchit] in
/-- The mode after a body: the one it names, if it names one. -/
theorem mode_setMode (state : ApiState) (value : Option Json) :
    (setMode state value).mode = (bodyMode value).getD state.mode := by
  rcases value with _ | value
  · rfl
  cases value with
  | string mode =>
      rw [setMode, bodyMode, ApiState.patchConfigs]
      cases ApiState.parseMode mode <;> rfl
  | _ => rfl

omit [Axum] [Reqwest] [Matchit] in
/-- Selecting a member does not change the mode. -/
theorem mode_changeProxy (state : ApiState) (groupName name : String) :
    (state.changeProxy groupName name).2.mode = state.mode := by
  rw [ApiState.changeProxy]
  cases state.proxies.lookup groupName with
  | none => rfl
  | some proxy =>
      cases proxy with
      | selector cell group proxies =>
          simp only
          cases Adapter.select proxies cell name state.cells <;> rfl
      | _ => rfl

omit [Axum] [Reqwest] in
/-- The mode after a command: the one it asks for, if it asks for one. -/
theorem mode_effect (state : ApiState) (command : Command) :
    (effect state command).mode = (requestedMode command).getD state.mode := by
  cases command with
  | patchConfigs body => exact mode_setMode state _
  | setModeBlocking mode => exact mode_setMode state _
  | selectProxy group name =>
      rw [effect]
      split_ifs
      · exact mode_changeProxy state group name
      · rfl
  | _ => rfl

/-- The tunnel after a run of commands. -/
def runAll (cfg : ApiConfig) (secret : Option String) (state : ApiState)
    (commands : List Command) : ApiState :=
  commands.foldl (fun state command => (run cfg secret state command).2) state

/-- Over the wire a run of commands does what the commands say, one after the other. -/
theorem runAll_eq (hwire : Wire cfg) (state : ApiState) (commands : List Command) :
    runAll cfg secret state commands = commands.foldl effect state := by
  induction commands generalizing state with
  | nil => rfl
  | cons command commands ih =>
      rw [runAll, List.foldl_cons, snd_run hwire]
      exact ih (effect state command)

omit [Axum] [Reqwest] in
/-- The mode after a run of commands is the one that was asked for last. -/
theorem mode_foldl_effect (state : ApiState) (commands : List Command) :
    (commands.foldl effect state).mode =
      commands.foldl (fun mode command => (requestedMode command).getD mode) state.mode := by
  induction commands generalizing state with
  | nil => rfl
  | cons command commands ih => rw [List.foldl_cons, ih, mode_effect, List.foldl_cons]

/-- The group is a selector with the member, and can be named in a path. -/
structure Selectable (state : ApiState) (group name : String) (cell idx : ℕ) : Prop where
  nameable : Nameable group
  member : ∃ label proxies, state.proxies.lookup group = some (.selector cell label proxies) ∧
    (proxies.findIdx? fun p => p.name == name) = some idx

end Client

/-! ### A client and its server -/

/-- The extractors with the segments of paths decoded. -/
@[reducible] def decodingAxum : Axum :=
  { jsonAxum with
    path := fun segment =>
      match Percent.decode segment with
      | some text => .ok text
      | none => .error (StatusCode.response 400) }

namespace Client

/-- The URL the API is expected at. -/
def localConfig : ApiConfig where
  baseUrl := "http://127.0.0.1:9090"
  secret := ""

/-- The path in a URL of the API. -/
def pathOf (url : String) : String :=
  let rest := (stripPrefix localConfig.baseUrl url).getD url
  ((cut '?' rest).map Prod.fst).getD rest

/-- A client that resolves the dot segments there can be. -/
@[reducible] def localReqwest : letI := decodingAxum; Reqwest :=
  letI := decodingAxum
  { path := fun url =>
      match pathOf url with
      | "/proxies/." => "/proxies/"
      | "/proxies/.." => "/"
      | "/proxies/./delay" => "/proxies/delay"
      | "/proxies/../delay" => "/delay"
      | path => path
    body := fun body => body.getD .null
    statusText := Nat.repr
    text := fun _ => ""
    json := fun
      | .json value => .ok value
      | _ => .error "error decoding response body"
    closed := "connection closed before message completed"
    invalid := "builder error" }

/-- The path of a URL of the API is what stands behind the base, up to the query. -/
theorem pathOf_append {path : String} (h : PlainPath path) (query : String) :
    pathOf (localConfig.baseUrl ++ path) = path ∧
      pathOf (localConfig.baseUrl ++ (path ++ "?" ++ query)) = path := by
  have hmark : '?' ∉ path.toList := by
    intro hmem
    cases List.all_eq_true.mp h.1 '?' hmem
  have hcut : cut '?' (path ++ "?" ++ query) = some (path, query) :=
    cut_of_toList_eq hmark (by simp)
  constructor
  · rw [pathOf, stripPrefix_append, Option.getD_some, cut_eq_none_iff.mpr hmark]
    rfl
  · rw [pathOf, stripPrefix_append, Option.getD_some, hcut]
    rfl

/-- A client sends a plain path as it is: it has none of the dot segments that are resolved. -/
theorem path_of_plainPath {path url : String} (h : PlainPath path) (hurl : pathOf url = path) :
    letI := decodingAxum
    localReqwest.path url = path := by
  subst hurl
  simp only [Reqwest.path]
  split
  · next heq => exact absurd (heq ▸ h) (by decide +kernel)
  · next heq => exact absurd (heq ▸ h) (by decide +kernel)
  · next heq => exact absurd (heq ▸ h) (by decide +kernel)
  · next heq => exact absurd (heq ▸ h) (by decide +kernel)
  · rfl

/-- A URL with dot segments and a query. -/
theorem pathOf_dots (path query : String) (h : '?' ∉ path.toList) :
    pathOf (localConfig.baseUrl ++ (path ++ "?" ++ query)) = path := by
  have hcut : cut '?' (path ++ "?" ++ query) = some (path, query) :=
    cut_of_toList_eq h (by simp)
  rw [pathOf, stripPrefix_append, Option.getD_some, hcut]
  rfl

/-- The local client and the server with decoded segments are connected as `Wire` demands, with
either version of the router. -/
theorem wire_local (bindsBraces : Bool) :
    letI : Matchit := ⟨bindsBraces⟩
    letI := decodingAxum
    letI := localReqwest
    Wire localConfig := by
  let _ : Matchit := ⟨bindsBraces⟩
  let _ := decodingAxum
  let _ := localReqwest
  exact {
    path := fun path h => path_of_plainPath h (pathOf_append h "").1
    query := fun path query h => path_of_plainPath h (pathOf_append h query).2
    dot := by decide +kernel
    dots := by decide +kernel
    dotQuery := fun query => by
      have hurl : pathOf (localConfig.baseUrl ++ ("/proxies/./delay?" ++ query)) =
          "/proxies/./delay" := pathOf_dots "/proxies/./delay" query (by decide)
      simp only [Reqwest.path]
      rw [hurl]
      rfl
    dotsQuery := fun query => by
      have hurl : pathOf (localConfig.baseUrl ++ ("/proxies/../delay?" ++ query)) =
          "/proxies/../delay" := pathOf_dots "/proxies/../delay" query (by decide)
      simp only [Reqwest.path]
      rw [hurl]
      rfl
    secret := rfl
    segment := fun _ segment text h => by
      simp only [Axum.path, h]
    configPatch := fun headers fields h => by
      have hfield : (Json.object fields).field "mode" = fields.lookup "mode" := rfl
      simp only [Axum.configPatch, Reqwest.body, Option.getD_some, if_pos h, hfield]
      cases fields.lookup "mode" with
      | none => rfl
      | some value =>
          cases value with
          | null => rfl
          | string mode => rfl
          | _ => exact ⟨StatusCode.response 422, by decide, rfl⟩
    changeProxyBody := fun headers name h => by
      simp only [Axum.changeProxyBody, Reqwest.body, Option.getD_some, if_pos h]
      rfl
    json := fun _ => rfl
    empty := ⟨_, rfl⟩ }

/-- A tunnel with a selector that uses its first member. -/
def groupState [Crates] : ApiState where
  toTrackedTunnel := .new (.new (((∅ : ProxyMap Adapter).insert "DIRECT" .direct).insert "a b"
    (.selector 0 "a b" [.direct, .reject])) [])
  cells := fun _ => 0

end Client

end Redog
