import Redog.Tunnel

/-!
# Adapters and groups

The adapters the program has: the two built-in ones, and the groups, whose members are
adapters again. A group keeps the index of the member it has chosen in a cell of its own,
which every user of the group shares; `Cells` is the content of these cells. A selector is
switched by the API, and a test group by its health checks.

A group passes questions on to the member it has chosen, to its first one when the index is
out of range. A group without members panics then, which is `none` here.

## Main results

* `select_unchanged_iff`: when switching a selector changes nothing.
-/

namespace Redog

/-- `redog_core::AdapterType`: the kinds of adapters there are names for. Only four of them have an
implementation. -/
inductive AdapterType
  | direct | reject | shadowsocks | vmess | vless | trojan | wireGuard | hysteria2 | http
  | socks5 | selector | urlTest | fallback | loadBalance | relay
deriving DecidableEq, Repr

/-- `impl Display for AdapterType`: the text the API reports as the type of a proxy. -/
def AdapterType.display : AdapterType → String
  | .direct => "Direct"
  | .reject => "Reject"
  | .shadowsocks => "Shadowsocks"
  | .vmess => "VMess"
  | .vless => "VLESS"
  | .trojan => "Trojan"
  | .wireGuard => "WireGuard"
  | .hysteria2 => "Hysteria2"
  | .http => "Http"
  | .socks5 => "Socks5"
  | .selector => "Selector"
  | .urlTest => "URLTest"
  | .fallback => "Fallback"
  | .loadBalance => "LoadBalance"
  | .relay => "Relay"

/-- `Arc<dyn ProxyAdapter>`. A group has the number of its cell, its name and its members. -/
inductive Adapter
  | direct
  | reject
  | selector (cell : ℕ) (name : String) (proxies : List Adapter)
  | urlTest (cell : ℕ) (name : String) (proxies : List Adapter)

/-- The chosen indices: `Selector::selected` and `URLTest::fastest` by the number of the
cell. -/
abbrev Cells := ℕ → ℕ

/-- `Selector::selected_proxy` and `URLTest::fastest_proxy`: the member at the index of the cell, or
the first member where the index is out of range. -/
def chosen {α : Type} (proxies : List α) (idx : ℕ) : Option α :=
  proxies[idx]?.or proxies.head?

namespace Adapter

/-- `ProxyAdapter::name`: the built-in adapters have fixed names, a group has the one it was made
with. -/
def name : Adapter → String
  | direct => "DIRECT"
  | reject => "REJECT"
  | selector _ name _ => name
  | urlTest _ name _ => name

/-- `ProxyAdapter::adapter_type`: the kind an adapter reports, which does not depend on its
members. -/
def adapterType : Adapter → AdapterType
  | direct => .direct
  | reject => .reject
  | selector _ _ _ => .selector
  | urlTest _ _ _ => .urlTest

mutual

/-- A method that a group passes on to the member it has chosen. -/
def passedOn (value : Adapter → Bool) (cells : Cells) : Adapter → Option Bool
  | selector cell _ proxies => (chosen (passedOnAll value cells proxies) (cells cell)).join
  | urlTest cell _ proxies => (chosen (passedOnAll value cells proxies) (cells cell)).join
  | direct => some (value direct)
  | reject => some (value reject)

/-- What each member answers to a question that a group passes on to its members. -/
def passedOnAll (value : Adapter → Bool) (cells : Cells) : List Adapter → List (Option Bool)
  | [] => []
  | proxy :: proxies => passedOn value cells proxy :: passedOnAll value cells proxies

end

/-- `ProxyAdapter::alive`: the built-in adapters always are, and a group is when the member it uses
is. -/
def alive : Cells → Adapter → Option Bool :=
  passedOn fun _ => true

/-- `ProxyAdapter::support_udp`: of the built-in adapters `Direct` does. -/
def supportUdp : Cells → Adapter → Option Bool :=
  passedOn fun
    | direct => true
    | _ => false

mutual

/-- The built-in adapter that a call through groups ends at. -/
def outbound (cells : Cells) : Adapter → Option Adapter
  | selector cell _ proxies => (chosen (outbounds cells proxies) (cells cell)).join
  | urlTest cell _ proxies => (chosen (outbounds cells proxies) (cells cell)).join
  | direct => some direct
  | reject => some reject

/-- The built-in adapters that the members of a group lead to, one for each member. -/
def outbounds (cells : Cells) : List Adapter → List (Option Adapter)
  | [] => []
  | proxy :: proxies => outbound cells proxy :: outbounds cells proxies

end

/-- `ProxyAdapter::connect_stream`, with what the built-in adapters do. -/
def connectStream {R : Type} (dial : Adapter → Metadata → R) (cells : Cells) (proxy : Adapter)
    (metadata : Metadata) : Option R :=
  (outbound cells proxy).map fun proxy => dial proxy metadata

/-- `ProxyAdapter::connect_datagram`, with what the built-in adapters do. -/
def connectDatagram {R : Type} (dial : Adapter → Metadata → R) (cells : Cells) (proxy : Adapter)
    (metadata : Metadata) : Option R :=
  (outbound cells proxy).map fun proxy => dial proxy metadata

/-- `ProxyAdapter::unwrap_adapter`: a group gives the member it has chosen. -/
def unwrapAdapter (cells : Cells) : Adapter → Option (Option Adapter)
  | selector cell _ proxies => (chosen proxies (cells cell)).map some
  | urlTest cell _ proxies => (chosen proxies (cells cell)).map some
  | direct => some none
  | reject => some none

/-- `Selector::current` on the members and the chosen index. -/
def current (proxies : List Adapter) (idx : ℕ) : String :=
  ((proxies[idx]?).map name).getD "DIRECT"

/-- `Selector::select` on the members and the cell of the selector. -/
def select (proxies : List Adapter) (cell : ℕ) (proxyName : String) (cells : Cells) :
    Except Error Cells :=
  match proxies.findIdx? fun p => p.name == proxyName with
  | some idx => .ok (Function.update cells cell idx)
  | none => .error (.config ("proxy not found: " ++ proxyName))

/-- The cells after `select`, which leaves them as they are when it fails, are as before
exactly when the member is not there or selected already. -/
theorem select_unchanged_iff (proxies : List Adapter) (cell : ℕ) (proxyName : String)
    (cells : Cells) :
    (∀ cells', select proxies cell proxyName cells = .ok cells' → cells' = cells) ↔
      ∀ idx, (proxies.findIdx? fun p => p.name == proxyName) = some idx → cells cell = idx := by
  rw [select]
  cases proxies.findIdx? fun p => p.name == proxyName with
  | none => exact iff_of_true nofun nofun
  | some idx =>
      constructor
      · intro h idx' hidx'
        obtain rfl := Option.some.inj hidx'
        exact (Function.update_eq_self_iff.mp (h _ rfl)).symm
      · intro h cells' hcells'
        obtain rfl := Except.ok.inj hcells'
        exact Function.update_eq_self_iff.mpr (h idx rfl).symm

/-! ### The chosen member -/

/-- The recursion over the members of a group, written out for termination, is the map of the
recursion over one adapter. -/
theorem passedOnAll_eq (value : Adapter → Bool) (cells : Cells) (proxies : List Adapter) :
    passedOnAll value cells proxies = proxies.map (passedOn value cells) := by
  induction proxies with
  | nil => rfl
  | cons proxy proxies ih => rw [passedOnAll, ih, List.map_cons]

/-- The adapters that the members of a group lead to are those that each member leads to on its
own. -/
theorem outbounds_eq (cells : Cells) (proxies : List Adapter) :
    outbounds cells proxies = proxies.map (outbound cells) := by
  induction proxies with
  | nil => rfl
  | cons proxy proxies ih => rw [outbounds, ih, List.map_cons]

/-- When the index of a group is in range, the group uses the member at this index and not the first
one. -/
theorem chosen_of_getElem? {α : Type} {proxies : List α} {idx : ℕ} {proxy : α}
    (h : proxies[idx]? = some proxy) : chosen proxies idx = some proxy := by
  rw [chosen, h, Option.some_or]

/-- A selector passes calls on to the member whose index is in its cell. -/
theorem passedOn_selector (value : Adapter → Bool) {cells : Cells} {cell : ℕ}
    {proxies : List Adapter} {proxy : Adapter} (h : proxies[cells cell]? = some proxy)
    (name : String) :
    passedOn value cells (.selector cell name proxies) = passedOn value cells proxy := by
  have hmember : (proxies.map (passedOn value cells))[cells cell]? =
      some (passedOn value cells proxy) := by
    rw [List.getElem?_map, h, Option.map_some]
  rw [passedOn, passedOnAll_eq, chosen_of_getElem? hmember, Option.join_some]

/-- A selector leads to whatever its selected member leads to, through groups of any depth. -/
theorem outbound_selector {cells : Cells} {cell : ℕ} {proxies : List Adapter} {proxy : Adapter}
    (h : proxies[cells cell]? = some proxy) (name : String) :
    outbound cells (.selector cell name proxies) = outbound cells proxy := by
  have hmember : (proxies.map (outbound cells))[cells cell]? = some (outbound cells proxy) := by
    rw [List.getElem?_map, h, Option.map_some]
  rw [outbound, outbounds_eq, chosen_of_getElem? hmember, Option.join_some]

end Adapter

instance : ProxyAdapter Adapter where
  name := Adapter.name
  direct := .direct

end Redog
