import Redog.Adapters
import Redog.Relays

/-!
# The API server

The routes of the API server and their handlers, on the tunnel they share with the relays.
`axum` is taken to dispatch a request to the handler registered for its route and method, a
HEAD request to that for GET; what its extractors make of a path or a body is the parameter
`Axum`.
Preflight requests are answered by the CORS layer.

The secret the server is started with is announced in the log and used for nothing else:
the handlers see every request, whatever its headers. So what a run of requests does to the
tunnel is what its requests ask for. A request is `Idle` when that is nothing: the mode or
the member it selects is the current one, the table it clears is empty, or the baseline of
the counters it moves is already there.

## Main results

* `next_eq_self_iff`: which requests leave the tunnel as it is.
* `always_unchanged_iff`: a run of requests leaves the tunnel as it is exactly when each of
  them asks for nothing.
-/

namespace Redog

open Run

/-! ### Requests and responses -/

/-- `serde_json::Value`, with the numbers the handlers write. -/
inductive Json
  | null
  | bool (b : Bool)
  | number (n : ℕ)
  | string (s : String)
  | array (elems : List Json)
  | object (fields : List (String × Json))

/-- A field of an object by its key. What is no object has no fields. -/
def Json.field (key : String) : Json → Option Json
  | .object fields => fields.lookup key
  | _ => none

/-- `axum::http::StatusCode`, as its number. The handlers use 200, 204, 400 and 404, the framework
405, 415 and its like. -/
abbrev StatusCode := ℕ

/-- The body of a response: none where there is a status alone, a text, or a value that is sent as
JSON. -/
inductive ResponseBody
  | empty
  | text (s : String)
  | json (value : Json)

/-- A response as the client sees it, its status and its body, without its headers. -/
structure Response where
  status : StatusCode
  body : ResponseBody

/-- A response that is a status alone. -/
def StatusCode.response (status : StatusCode) : Response :=
  ⟨status, .empty⟩

/-- What `Json(value)` turns into: status 200 with the value as the body. -/
def Json.response (value : Json) : Response :=
  ⟨200, .json value⟩

/-- The methods a request can have. The router tells apart those it has handlers for, and takes
`HEAD` for `GET`. -/
inductive Method
  | get | head | post | put | patch | delete | options | other
deriving DecidableEq

/-- The registered routes, with the segment that stands for a parameter, and all other
paths. -/
inductive Route
  | root | version | traffic | configs | proxies
  | proxy (segment : String)
  | rules | connections | unregistered
deriving DecidableEq

/-- What the server uses of `axum`: the `Path` extractor, and the `Json` extractors of the two
handlers with a body, which give the optional field `mode` and the field `name`. Each may
reject the request. -/
class Axum where
  /-- A request body. -/
  Body : Type
  /-- `Path<String>` -/
  path : String → Except Response String
  /-- `Json<ConfigPatch>` -/
  configPatch : List (String × String) → Body → Except Response (Option String)
  /-- `Json<ChangeProxyBody>` -/
  changeProxyBody : List (String × String) → Body → Except Response String

/-- A request as the router has it: the method, the route of its path, the headers and the body,
which is axum's to read. -/
structure Request [Axum] where
  method : Method
  route : Route
  headers : List (String × String)
  body : Axum.Body

/-- The request carries the secret as the API is designed to ask for it. -/
def Request.Authorized [Axum] (secret : String) (request : Request) : Prop :=
  ("authorization", "Bearer " ++ secret) ∈ request.headers

/-! ### Handlers -/

variable [Crates]

/-- `ApiState`: the tunnel, with the cells of its groups. -/
structure ApiState extends TrackedTunnel Adapter where
  cells : Cells

namespace ApiState

/-- `get_hello`: the bare name of the program, whatever the state is. -/
def getHello : Response :=
  ⟨200, .text "redog"⟩

/-- `get_version`: the version of the crate, and that the answer is of the family of `meta`. -/
def getVersion : Response :=
  (Json.object [("version", .string "0.1.0"), ("meta", .bool true)]).response

/-- `get_traffic`: the speeds since the last snapshot. Taking the snapshot moves the baseline, so
the request changes the state. -/
def getTraffic (state : ApiState) : Response × ApiState :=
  let (snapshot, traffic) := state.traffic.snapshot
  ((Json.object [("up", .number snapshot.uploadSpeed.toNat),
      ("down", .number snapshot.downloadSpeed.toNat)]).response,
    { state with traffic := traffic })

/-- The text of a mode, which is also the text `patch_configs` takes for it. -/
def modeText : Mode → String
  | .rule => "rule"
  | .global => "global"
  | .direct => "direct"

/-- `get_configs`: the mode of the tunnel in lower case, the only setting there is to ask for. -/
def getConfigs (state : ApiState) : Response :=
  (Json.object [("mode", .string (modeText state.mode))]).response

/-- The mode of a text. Any other text, in capitals for instance, is no mode. -/
def parseMode : String → Option Mode
  | "rule" => some .rule
  | "global" => some .global
  | "direct" => some .direct
  | _ => none

/-- `patch_configs`: sets the mode where one is given and known. A body without one is answered 204
and changes nothing. -/
def patchConfigs (state : ApiState) (mode : Option String) : Response × ApiState :=
  match mode with
  | some mode =>
      match parseMode mode with
      | some mode => (StatusCode.response 204, { state with mode := mode })
      | none => (StatusCode.response 400, state)
  | none => (StatusCode.response 204, state)

/-- What is shown of a proxy; `none` when it is a group that panics. -/
def proxyJson (cells : Cells) (proxy : Adapter) : Option Json := do
  let alive ← proxy.alive cells
  let udp ← proxy.supportUdp cells
  return .object [("name", .string proxy.name), ("type", .string proxy.adapterType.display),
    ("alive", .bool alive), ("udp", .bool udp)]

/-- `get_proxies`: every proxy of the map under its key. One of them that cannot be described takes
the whole request down. -/
def getProxies (state : ApiState) : Option Response := do
  let proxies ← state.proxies.entries.mapM fun e =>
    (proxyJson state.cells e.2).map fun value => (e.1, value)
  return (Json.object [("proxies", .object proxies)]).response

/-- `get_proxy`: the proxy the map has under the name, or 404 where it has none. -/
def getProxy (state : ApiState) (name : String) : Option Response :=
  match state.proxies.lookup name with
  | some proxy => (proxyJson state.cells proxy).map Json.response
  | none => some (StatusCode.response 404)

/-- `change_proxy`: selects a member of a group that is a `Selector`. Every other adapter is
answered 400, as is a name that is not a member's. -/
def changeProxy (state : ApiState) (groupName name : String) : Response × ApiState :=
  match state.proxies.lookup groupName with
  | some (.selector cell _ proxies) =>
      match Adapter.select proxies cell name state.cells with
      | .ok cells => (StatusCode.response 204, { state with cells := cells })
      | .error _ => (StatusCode.response 400, state)
  | some _ => (StatusCode.response 400, state)
  | none => (StatusCode.response 404, state)

/-- `get_rules`: the rules in the order they are tried, each with its type, its payload and its
adapter. -/
def getRules (state : ApiState) : Response :=
  let rules := state.rules.map fun rule => Json.object [("type", .string rule.ruleType.display),
    ("payload", .string rule.payload), ("proxy", .string rule.adapter)]
  (Json.object [("rules", .array rules)]).response

end ApiState

/-- `impl Serialize for ConnectionInfo`: every field of the record, under its own name. -/
def ConnectionInfo.json (info : ConnectionInfo) : Json :=
  .object [("id", .number info.id.toNat), ("destination", .string info.destination),
    ("network", .string info.network), ("inbound_type", .string info.inboundType),
    ("chains", .array (info.chains.map .string)), ("rule", .string info.rule),
    ("rule_payload", .string info.rulePayload), ("upload", .number info.upload.toNat),
    ("download", .number info.download.toNat), ("start", .string info.start)]

namespace ApiState

/-- `get_connections`: the totals and the tracked connections. The totals come from a snapshot, so
this request moves the baseline of the speeds too. -/
def getConnections (state : ApiState) : Response × ApiState :=
  let (snapshot, traffic) := state.traffic.snapshot
  ((Json.object [("downloadTotal", .number snapshot.downloadTotal.toNat),
      ("uploadTotal", .number snapshot.uploadTotal.toNat),
      ("connections", .array (state.connections.list.map ConnectionInfo.json))]).response,
    { state with traffic := traffic })

/-- `close_all_connections`: the tracker forgets every connection. The relays themselves are not
told to stop. -/
def closeAllConnections (state : ApiState) : Response × ApiState :=
  (StatusCode.response 204, { state with connections := state.connections.closeAll.2 })

/-! ### Dispatch -/

variable [Axum]

/-- A GET request. The response is `none` when the handler panics. -/
def serveGet (state : ApiState) : Route → Option Response × ApiState
  | .root => (some getHello, state)
  | .version => (some getVersion, state)
  | .traffic => Prod.map some id state.getTraffic
  | .configs => (some state.getConfigs, state)
  | .proxies => (state.getProxies, state)
  | .proxy segment =>
      match Axum.path segment with
      | .ok name => (state.getProxy name, state)
      | .error rejection => (some rejection, state)
  | .rules => (some state.getRules, state)
  | .connections => Prod.map some id state.getConnections
  | .unregistered => (some (StatusCode.response 404), state)

/-- A request of another method. A path that is registered, but not for this method, is answered
405. -/
def serveOther (state : ApiState) (request : Request) : Response × ApiState :=
  match request.method, request.route with
  | .patch, .configs =>
      match Axum.configPatch request.headers request.body with
      | .ok mode => state.patchConfigs mode
      | .error rejection => (rejection, state)
  | .put, .proxy segment =>
      match Axum.path segment, Axum.changeProxyBody request.headers request.body with
      | .ok groupName, .ok name => state.changeProxy groupName name
      | .error rejection, _ => (rejection, state)
      | .ok _, .error rejection => (rejection, state)
  | .delete, .connections => state.closeAllConnections
  | _, .unregistered => (StatusCode.response 404, state)
  | _, _ => (StatusCode.response 405, state)

/-- A request to the server that `start_api_server` starts with the secret. -/
def serve (_secret : Option String) (state : ApiState) (request : Request) :
    Option Response × ApiState :=
  match request.method with
  | .options => (some (StatusCode.response 200), state)
  | .get => state.serveGet request.route
  | .head =>
      let (response, state) := state.serveGet request.route
      (response.map fun r => { r with body := .empty }, state)
  | _ => Prod.map some id (state.serveOther request)

/-- The tunnel after a request, whatever the answer was. -/
def next (secret : Option String) (state : ApiState) (request : Request) : ApiState :=
  (state.serve secret request).2

/-! ### Requests that change nothing -/

/-- The request asks for nothing: it reads no counters that have moved since they were read
last, a mode or a member it selects is selected, and a table it clears is empty. -/
def Idle (state : ApiState) (request : Request) : Prop :=
  match request.method, request.route with
  | .get, route | .head, route => route = .traffic ∨ route = .connections → state.traffic.AtBaseline
  | .patch, .configs => ∀ text, Axum.configPatch request.headers request.body = .ok (some text) →
      ∀ mode, parseMode text = some mode → mode = state.mode
  | .put, .proxy segment => ∀ groupName name, Axum.path segment = .ok groupName →
      Axum.changeProxyBody request.headers request.body = .ok name →
      ∀ cell group proxies, state.proxies.lookup groupName = some (.selector cell group proxies) →
      ∀ idx, (proxies.findIdx? fun p => p.name == name) = some idx → state.cells cell = idx
  | .delete, .connections => state.connections.connections = ∅
  | _, _ => True

omit [Axum] in
/-- The requests that read the counters move the baseline and nothing else. -/
theorem snapshot_eq_self_iff (state : ApiState) :
    { state with traffic := state.traffic.snapshot.2 } = state ↔ state.traffic.AtBaseline := by
  rw [← state.traffic.snapshot_eq_self_iff]
  exact ⟨congrArg fun state : ApiState => state.traffic, fun h => by rw [h]⟩

/-- A GET request leaves the tunnel as it is, unless it reads the counters after they have moved. -/
theorem serveGet_eq_self_iff (state : ApiState) (route : Route) :
    (state.serveGet route).2 = state ↔
      (route = .traffic ∨ route = .connections → state.traffic.AtBaseline) := by
  have hother : ∀ {route : Route}, (state.serveGet route).2 = state →
      route ≠ .traffic → route ≠ .connections →
      ((state.serveGet route).2 = state ↔
        (route = .traffic ∨ route = .connections → state.traffic.AtBaseline)) :=
    fun hsame htraffic hconnections =>
      iff_of_true hsame fun h => absurd h (not_or.mpr ⟨htraffic, hconnections⟩)
  cases route with
  | traffic => exact (snapshot_eq_self_iff state).trans ⟨fun h _ => h, fun h => h (.inl rfl)⟩
  | connections => exact (snapshot_eq_self_iff state).trans ⟨fun h _ => h, fun h => h (.inr rfl)⟩
  | proxy segment =>
      refine hother ?_ nofun nofun
      rw [serveGet]
      cases Axum.path segment <;> rfl
  | _ => exact hother rfl nofun nofun

omit [Axum] in
/-- A new mode changes nothing exactly when its text is unknown or names the mode that is set
already. -/
theorem patchConfigs_eq_self_iff (state : ApiState) (text : String) :
    (state.patchConfigs (some text)).2 = state ↔
      ∀ mode, parseMode text = some mode → mode = state.mode := by
  rw [patchConfigs]
  cases hmode : parseMode text with
  | none => exact iff_of_true rfl nofun
  | some mode =>
      constructor
      · intro h mode' hmode'
        obtain rfl := Option.some.inj hmode'
        exact congrArg (fun state : ApiState => state.mode) h
      · intro h
        simp only [h mode rfl]

omit [Axum] in
/-- Selecting a member changes nothing exactly when there is no such selector or member, or the
member is the one that is selected. -/
theorem changeProxy_eq_self_iff (state : ApiState) (groupName name : String) :
    (state.changeProxy groupName name).2 = state ↔
      ∀ cell group proxies, state.proxies.lookup groupName = some (.selector cell group proxies) →
        ∀ idx, (proxies.findIdx? fun p => p.name == name) = some idx → state.cells cell = idx := by
  rw [changeProxy]
  cases hproxy : state.proxies.lookup groupName with
  | none => exact iff_of_true rfl nofun
  | some proxy =>
      cases proxy with
      | selector cell group proxies =>
          have hmember : (∀ cell' group' proxies',
              some (Adapter.selector cell group proxies) = some (.selector cell' group' proxies') →
              ∀ idx, (proxies'.findIdx? fun p => p.name == name) = some idx →
                state.cells cell' = idx) ↔
              ∀ idx, (proxies.findIdx? fun p => p.name == name) = some idx →
                state.cells cell = idx := by
            constructor
            · exact fun h => h cell group proxies rfl
            · intro h cell' group' proxies' heq
              obtain ⟨rfl, rfl, rfl⟩ := Adapter.selector.inj (Option.some.inj heq)
              exact h
          rw [hmember, ← Adapter.select_unchanged_iff proxies cell name state.cells]
          simp only
          cases Adapter.select proxies cell name state.cells with
          | error e => exact iff_of_true rfl nofun
          | ok cells =>
              constructor
              · intro h cells' hcells'
                obtain rfl := Except.ok.inj hcells'
                exact congrArg (fun state : ApiState => state.cells) h
              · intro h
                rw [h cells rfl]
      | _ => exact iff_of_true rfl nofun

omit [Axum] in
/-- Closing all connections changes nothing exactly when none is tracked. -/
theorem closeAllConnections_eq_self_iff (state : ApiState) :
    state.closeAllConnections.2 = state ↔ state.connections.connections = ∅ := by
  constructor
  · intro h
    exact (congrArg (fun state : ApiState => state.connections.connections) h).symm
  · intro h
    have hconnections : state.connections.closeAll.2 = state.connections := by
      rw [ConnectionTracker.closeAll, ← h]
    rw [closeAllConnections, hconnections]

/-- The handler of PATCH requests: a body that is rejected changes nothing, and one that is read
changes what `patchConfigs` does. -/
theorem serveOther_configs_eq_self_iff (state : ApiState) (headers : List (String × String))
    (body : Axum.Body) :
    (state.serveOther ⟨.patch, .configs, headers, body⟩).2 = state ↔
      state.Idle ⟨.patch, .configs, headers, body⟩ := by
  rw [serveOther, Idle]
  simp only
  cases Axum.configPatch headers body with
  | error rejection => exact iff_of_true rfl nofun
  | ok patch =>
      cases patch with
      | none => exact iff_of_true rfl nofun
      | some text =>
          refine (patchConfigs_eq_self_iff state text).trans ⟨?_, fun h => h text rfl⟩
          intro h text' htext'
          obtain rfl := Option.some.inj (Except.ok.inj htext')
          exact h

/-- The handler of PUT requests: a name or a body that is rejected changes nothing, and others
change what `changeProxy` does. -/
theorem serveOther_proxy_eq_self_iff (state : ApiState) (segment : String)
    (headers : List (String × String)) (body : Axum.Body) :
    (state.serveOther ⟨.put, .proxy segment, headers, body⟩).2 = state ↔
      state.Idle ⟨.put, .proxy segment, headers, body⟩ := by
  rw [serveOther, Idle]
  simp only
  cases Axum.path segment with
  | error rejection => exact iff_of_true rfl nofun
  | ok groupName =>
      cases Axum.changeProxyBody headers body with
      | error rejection => exact iff_of_true rfl nofun
      | ok name =>
          refine (changeProxy_eq_self_iff state groupName name).trans
            ⟨?_, fun h => h groupName name rfl rfl⟩
          intro h groupName' name' hgroupName hname
          obtain rfl := Except.ok.inj hgroupName
          obtain rfl := Except.ok.inj hname
          exact h

/-- **Which requests change nothing.** The tunnel is as before after a request exactly when
the request is idle. -/
theorem next_eq_self_iff (secret : Option String) (state : ApiState) (request : Request) :
    state.next secret request = state ↔ state.Idle request := by
  rcases request with ⟨method, route, headers, body⟩
  cases method with
  | get => exact serveGet_eq_self_iff state route
  | head => exact serveGet_eq_self_iff state route
  | options => exact iff_of_true rfl trivial
  | patch =>
      cases route with
      | configs => exact serveOther_configs_eq_self_iff state headers body
      | _ => exact iff_of_true rfl trivial
  | put =>
      cases route with
      | proxy segment => exact serveOther_proxy_eq_self_iff state segment headers body
      | _ => exact iff_of_true rfl trivial
  | delete =>
      cases route with
      | connections => exact closeAllConnections_eq_self_iff state
      | _ => exact iff_of_true rfl trivial
  | _ => cases route <;> exact iff_of_true rfl trivial

/-- **What the secret guards.** A run of requests without the secret leaves the tunnel as it
is throughout exactly when each of its requests is idle. -/
theorem always_unchanged_iff (secret : String) (state : ApiState) (requests : List Request)
    (_hrequests : ∀ request ∈ requests, ¬ request.Authorized secret) :
    Always (total (next (some secret))) (· = state) state requests ↔
      EachStep (total (next (some secret))) Idle state requests := by
  have hstep : ∀ (state' : ApiState) (request : Request), state' = state →
      (state'.next (some secret) request = state ↔ state'.Idle request) := by
    rintro state' request rfl
    exact next_eq_self_iff (some secret) state' request
  exact always_total_iff_self hstep rfl requests

end ApiState

/-- Extractors for bodies that are JSON, given as their value, and plain segments. -/
@[reducible] def jsonAxum : Axum where
  Body := Json
  path segment := .ok segment
  configPatch headers body :=
    if ("content-type", "application/json") ∈ headers then
      match body, body.field "mode" with
      | .object _, none | .object _, some .null => .ok none
      | _, some (.string mode) => .ok (some mode)
      | _, _ => .error (StatusCode.response 422)
    else .error (StatusCode.response 415)
  changeProxyBody headers body :=
    if ("content-type", "application/json") ∈ headers then
      match body.field "name" with
      | some (.string name) => .ok name
      | _ => .error (StatusCode.response 422)
    else .error (StatusCode.response 415)

/-- The state of a tunnel with the built-in adapters that has just been started. -/
def freshState : ApiState where
  toTrackedTunnel := .new (.new ((∅ : ProxyMap Adapter).insert "DIRECT" .direct) [])
  cells := fun _ => 0

/-- A request for the rules, without any header and so without the secret. -/
def rulesRequest : letI := jsonAxum; Request :=
  letI := jsonAxum
  { method := .get, route := .rules, headers := [], body := Json.null }

/-- A request to switch to the global mode. -/
def globalRequest : letI := jsonAxum; Request :=
  letI := jsonAxum
  { method := .patch, route := .configs
    headers := [("content-type", "application/json")]
    body := Json.object [("mode", .string "global")] }

/-- A request to close all connections, without any header and so without the secret. -/
def closeRequest : letI := jsonAxum; Request :=
  letI := jsonAxum
  { method := .delete, route := .connections, headers := [], body := Json.null }

omit [Crates] in
/-- Requests that close the connections, switch the mode, and ask for the rules: the second one is
not idle, and changes the tunnel. -/
theorem always_unchanged_requests :
    letI := ipv4Crates
    letI := jsonAxum
    let requests := [closeRequest, globalRequest, rulesRequest]
    (∀ request ∈ requests, ¬ request.Authorized "s3cret") ∧
      (Always (total (ApiState.next (some "s3cret"))) (· = freshState) freshState requests ↔
        EachStep (total (ApiState.next (some "s3cret"))) ApiState.Idle freshState requests) := by
  let _ := ipv4Crates
  let _ := jsonAxum
  intro requests
  have hrequests : ∀ request ∈ requests, ¬ request.Authorized "s3cret" := by
    simp only [requests, List.forall_mem_cons, Request.Authorized]
    exact ⟨List.not_mem_nil, by decide, List.not_mem_nil, fun _ h => absurd h List.not_mem_nil⟩
  exact ⟨hrequests, ApiState.always_unchanged_iff "s3cret" freshState requests hrequests⟩

omit [Crates] in
/-- Without the secret the mode is switched. -/
theorem mode_switched :
    letI := ipv4Crates
    letI := jsonAxum
    ¬ globalRequest.Authorized "s3cret" ∧ freshState.mode = .rule ∧
      (freshState.next (some "s3cret") globalRequest).mode = .global := by
  let _ := ipv4Crates
  let _ := jsonAxum
  refine ⟨?_, rfl, rfl⟩
  rw [Request.Authorized]
  decide

end Redog
