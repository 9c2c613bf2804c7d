import Redog.Api

/-!
# Selectors over the API

A selector is switched by a PUT request that names the selector and one of its members. The
request is answered with 204 exactly when there are such a selector and such a member, and
every other answer leaves all selectors as they are.

`memberInUse` says which member that amounts to, in terms of the requests alone: the first
one with the name in the latest request accepted for the selector, or its first member. The
index in the cell of the selector is always that of this member, so the selector never falls
back to another one.

## Main results

* `changeProxy_cases`: the two ways a request can go.
* `uses_memberInUse`: after any requests each selector uses that member.
* `changeProxy_selects`: what a request after any others answers and does.
-/

namespace Redog

/-! ### Selectors of a proxy map -/

/-- The adapters in a proxy map, as entries or as members of groups. -/
inductive Occurs (proxies : ProxyMap Adapter) : Adapter → Prop
  | registered {key : String} {proxy : Adapter} :
      proxies.lookup key = some proxy → Occurs proxies proxy
  | selectorMember {cell : ℕ} {name : String} {members : List Adapter} {proxy : Adapter} :
      Occurs proxies (.selector cell name members) → proxy ∈ members → Occurs proxies proxy
  | urlTestMember {cell : ℕ} {name : String} {members : List Adapter} {proxy : Adapter} :
      Occurs proxies (.urlTest cell name members) → proxy ∈ members → Occurs proxies proxy

/-- Each selector has members, and different selectors have different cells. -/
structure SelectorsFit (proxies : ProxyMap Adapter) : Prop where
  members_ne_nil : ∀ cell name members,
    Occurs proxies (.selector cell name members) → members ≠ []
  same_of_cell : ∀ cell name members name' members',
    Occurs proxies (.selector cell name members) →
    Occurs proxies (.selector cell name' members') → name = name' ∧ members = members'

/-- The selector uses the member for everything it is asked for. -/
structure Uses {R : Type} (dial : Adapter → Metadata → R) (cells : Cells) (cell : ℕ)
    (name : String) (members : List Adapter) (proxy : Adapter) : Prop where
  selected : members[cells cell]? = some proxy
  current : Adapter.current members (cells cell) = proxy.name
  connectStream : Adapter.connectStream dial cells (.selector cell name members) =
    Adapter.connectStream dial cells proxy
  connectDatagram : Adapter.connectDatagram dial cells (.selector cell name members) =
    Adapter.connectDatagram dial cells proxy
  supportUdp : Adapter.supportUdp cells (.selector cell name members) =
    Adapter.supportUdp cells proxy
  alive : Adapter.alive cells (.selector cell name members) = Adapter.alive cells proxy
  unwrapAdapter : Adapter.unwrapAdapter cells (.selector cell name members) = some (some proxy)

/-- The index in the cell decides about everything. -/
theorem uses_of_selected {R : Type} (dial : Adapter → Metadata → R) {cells : Cells} {cell : ℕ}
    (name : String) {members : List Adapter} {proxy : Adapter}
    (h : members[cells cell]? = some proxy) : Uses dial cells cell name members proxy where
  selected := h
  current := by rw [Adapter.current, h, Option.map_some, Option.getD_some]
  connectStream := by
    funext metadata
    rw [Adapter.connectStream, Adapter.outbound_selector h name, Adapter.connectStream]
  connectDatagram := by
    funext metadata
    rw [Adapter.connectDatagram, Adapter.outbound_selector h name, Adapter.connectDatagram]
  supportUdp := Adapter.passedOn_selector _ h name
  alive := Adapter.passedOn_selector _ h name
  unwrapAdapter := by
    rw [Adapter.unwrapAdapter, Adapter.chosen_of_getElem? h, Option.map_some]

/-! ### Requests -/

/-- The request names the selector with the cell, and one of its members. -/
def Accepted (proxies : ProxyMap Adapter) (cell : ℕ) (request : String × String) : Bool :=
  match proxies.lookup request.1 with
  | some (.selector cell' _ members) =>
      cell' == cell && members.any fun proxy => proxy.name == request.2
  | _ => false

/-- The member a selector uses after the requests. -/
def memberInUse (proxies : ProxyMap Adapter) (cell : ℕ) (members : List Adapter)
    (requests : List (String × String)) : Option Adapter :=
  match requests.reverse.find? (Accepted proxies cell) with
  | some request => members.find? fun proxy => proxy.name == request.2
  | none => members.head?

/-- The last request decides: when it is accepted the member it names is in use, else the member
from before. -/
theorem memberInUse_concat (proxies : ProxyMap Adapter) (cell : ℕ) (members : List Adapter)
    (requests : List (String × String)) (request : String × String) :
    memberInUse proxies cell members (requests ++ [request]) =
      if Accepted proxies cell request then members.find? fun proxy => proxy.name == request.2
      else memberInUse proxies cell members requests := by
  rw [memberInUse, List.reverse_append, List.reverse_singleton, List.singleton_append,
    List.find?_cons]
  cases Accepted proxies cell request <;> rfl

/-- The position found for a name is that of the first member with it. -/
theorem find?_of_findIdx? {members : List Adapter} {p : Adapter → Bool} {idx : ℕ}
    (h : members.findIdx? p = some idx) :
    ∃ proxy, members[idx]? = some proxy ∧ members.find? p = some proxy := by
  obtain ⟨hidx, hp, hbefore⟩ := List.findIdx?_eq_some_iff_getElem.mp h
  refine ⟨members[idx], List.getElem?_eq_getElem hidx, ?_⟩
  refine List.find?_eq_some_iff_getElem.mpr ⟨hp, idx, hidx, rfl, fun j hj => ?_⟩
  simpa using hbefore j hj

variable [Crates]

namespace ApiState

/-- The state after a request to switch a selector. -/
def switch (state : ApiState) (request : String × String) : ApiState :=
  (state.changeProxy request.1 request.2).2

/-- The two ways a request can go: it is accepted for a selector, whose cell gets the index
of the member, or it is answered with an error and changes nothing. -/
theorem changeProxy_cases (state : ApiState) (group member : String) :
    (∃ cell name members idx,
      state.proxies.lookup group = some (.selector cell name members) ∧
      (members.findIdx? fun proxy => proxy.name == member) = some idx ∧
      state.changeProxy group member =
        (StatusCode.response 204, { state with cells := Function.update state.cells cell idx })) ∨
    ((∀ cell, Accepted state.proxies cell (group, member) = false) ∧
      ∃ status, (status = 404 ∨ status = 400) ∧
        state.changeProxy group member = (StatusCode.response status, state)) := by
  rw [changeProxy]
  cases hproxy : state.proxies.lookup group with
  | none => exact .inr ⟨fun cell => by simp only [Accepted, hproxy], 404, .inl rfl, rfl⟩
  | some proxy =>
      cases proxy with
      | selector cell name members =>
          simp only [Adapter.select]
          cases hidx : members.findIdx? fun proxy => proxy.name == member with
          | some idx => exact .inl ⟨cell, name, members, idx, rfl, hidx, rfl⟩
          | none =>
              refine .inr ⟨fun cell' => ?_, 400, .inr rfl, rfl⟩
              have hany : (members.any fun proxy => proxy.name == member) = false := by
                rw [List.any_eq_false]
                intro proxy hproxy
                rw [List.findIdx?_eq_none_iff.mp hidx proxy hproxy]
                exact Bool.false_ne_true
              simp only [Accepted, hproxy, hany, Bool.and_false]
      | _ => exact .inr ⟨fun cell => by simp only [Accepted, hproxy], 400, .inr rfl, rfl⟩

omit [Crates] in
/-- A request for a group the map holds is accepted exactly when its cell is meant and it names a
member. -/
theorem accepted_iff {proxies : ProxyMap Adapter} {group member : String} {cell : ℕ}
    {name : String} {members : List Adapter}
    (h : proxies.lookup group = some (.selector cell name members)) (cell' : ℕ) :
    Accepted proxies cell' (group, member) ↔
      cell = cell' ∧ ∃ proxy ∈ members, proxy.name = member := by
  simp only [Accepted, h, Bool.and_eq_true, beq_iff_eq, List.any_eq_true]

/-- Requests leave everything but the cells alone. -/
theorem proxies_switch (state : ApiState) (request : String × String) :
    (state.switch request).proxies = state.proxies := by
  rcases state.changeProxy_cases request.1 request.2 with
    ⟨cell, name, members, idx, -, -, heq⟩ | ⟨-, status, -, heq⟩
  · rw [switch, heq]
  · rw [switch, heq]

/-- Switching members writes to the cells only, so a run of requests leaves the map of proxies
alone. -/
theorem proxies_foldl_switch (state : ApiState) (requests : List (String × String)) :
    (requests.foldl switch state).proxies = state.proxies := by
  induction requests generalizing state with
  | nil => rfl
  | cons request requests ih => rw [List.foldl_cons, ih, proxies_switch]

/-- After any requests the index in the cell of a selector is that of the member in use. -/
theorem selected_memberInUse {state : ApiState} (hfit : SelectorsFit state.proxies)
    (hfresh : ∀ cell name members, Occurs state.proxies (.selector cell name members) →
      state.cells cell = 0)
    (requests : List (String × String)) {cell : ℕ} {name : String} {members : List Adapter}
    (hoccurs : Occurs state.proxies (.selector cell name members)) :
    ∃ proxy, memberInUse state.proxies cell members requests = some proxy ∧
      members[(requests.foldl switch state).cells cell]? = some proxy := by
  induction requests using List.reverseRecOn with
  | nil =>
      obtain ⟨first, rest, rfl⟩ :=
        List.exists_cons_of_ne_nil (hfit.members_ne_nil cell name members hoccurs)
      refine ⟨first, rfl, ?_⟩
      rw [List.foldl_nil, hfresh cell name _ hoccurs, List.getElem?_cons_zero]
  | append_singleton requests request ih =>
      obtain ⟨proxy, hproxy, hselected⟩ := ih
      set before := requests.foldl switch state with hbefore
      have hproxies : before.proxies = state.proxies := proxies_foldl_switch state requests
      rw [memberInUse_concat, List.foldl_append, List.foldl_cons, List.foldl_nil, ← hbefore,
        switch]
      rcases before.changeProxy_cases request.1 request.2 with
        ⟨cell', name', members', idx, hlookup, hidx, heq⟩ | ⟨hrejected, status, -, heq⟩
      · obtain ⟨found, hfound, hfind⟩ := find?_of_findIdx? hidx
        have hmember : ∃ proxy ∈ members', proxy.name = request.2 :=
          ⟨found, List.mem_of_find?_eq_some hfind, by simpa using List.find?_some hfind⟩
        rw [hproxies] at hlookup
        rw [heq]
        by_cases hcell : cell' = cell
        · subst hcell
          obtain ⟨-, rfl⟩ := hfit.same_of_cell _ _ _ _ _ hoccurs (.registered hlookup)
          rw [if_pos ((accepted_iff hlookup cell').mpr ⟨rfl, hmember⟩)]
          refine ⟨found, hfind, ?_⟩
          show members[Function.update before.cells cell' idx cell']? = some found
          rw [Function.update_self, hfound]
        · rw [if_neg fun h => hcell ((accepted_iff hlookup cell).mp h).1]
          refine ⟨proxy, hproxy, ?_⟩
          show members[Function.update before.cells cell' idx cell]? = some proxy
          rw [Function.update_of_ne (Ne.symm hcell), hselected]
      · rw [hproxies] at hrejected
        rw [heq, if_neg (by rw [hrejected cell]; exact Bool.false_ne_true)]
        exact ⟨proxy, hproxy, hselected⟩

/-- **Which member a selector uses**: after any requests it is the one last asked for with success,
or the first where none was. -/
theorem uses_memberInUse {R : Type} (dial : Adapter → Metadata → R) {state : ApiState}
    (hfit : SelectorsFit state.proxies)
    (hfresh : ∀ cell name members, Occurs state.proxies (.selector cell name members) →
      state.cells cell = 0)
    (requests : List (String × String)) {cell : ℕ} {name : String} {members : List Adapter}
    (hoccurs : Occurs state.proxies (.selector cell name members)) :
    ∃ proxy, memberInUse state.proxies cell members requests = some proxy ∧
      Uses dial (requests.foldl switch state).cells cell name members proxy := by
  obtain ⟨proxy, hproxy, hselected⟩ := selected_memberInUse hfit hfresh requests hoccurs
  exact ⟨proxy, hproxy, uses_of_selected dial name hselected⟩

/-- A request is answered with 204 exactly when it names a selector and a member of it. -/
theorem status_changeProxy_iff (state : ApiState) (group member : String) :
    (state.changeProxy group member).1.status = 204 ↔
      ∃ cell name members, state.proxies.lookup group = some (.selector cell name members) ∧
        ∃ proxy ∈ members, proxy.name = member := by
  rcases state.changeProxy_cases group member with
    ⟨cell, name, members, idx, hlookup, hidx, heq⟩ | ⟨hrejected, status, hstatus, heq⟩
  · obtain ⟨found, -, hfind⟩ := find?_of_findIdx? hidx
    refine iff_of_true (by rw [heq]; rfl) ⟨cell, name, members, hlookup, found, ?_, ?_⟩
    · exact List.mem_of_find?_eq_some hfind
    · simpa using List.find?_some hfind
  · refine iff_of_false ?_ ?_
    · rw [heq]
      rcases hstatus with rfl | rfl
      · exact (by decide : (404 : ℕ) ≠ 204)
      · exact (by decide : (400 : ℕ) ≠ 204)
    · rintro ⟨cell, name, members, hlookup, hmember⟩
      have haccepted := (accepted_iff hlookup cell).mpr ⟨rfl, hmember⟩
      rw [hrejected cell] at haccepted
      exact Bool.false_ne_true haccepted

/-- What an accepted request does: its selector uses the first member with the name, and no
other cell changes. -/
theorem changeProxy_accepted {R : Type} (dial : Adapter → Metadata → R) {state : ApiState}
    {group member : String} {cell : ℕ} {name : String} {members : List Adapter}
    (hlookup : state.proxies.lookup group = some (.selector cell name members))
    (h : (state.changeProxy group member).1.status = 204) :
    (∃ proxy, (members.find? fun proxy => proxy.name == member) = some proxy ∧
      Adapter.current members ((state.changeProxy group member).2.cells cell) = member ∧
      Uses dial (state.changeProxy group member).2.cells cell name members proxy) ∧
    ∀ other, other ≠ cell →
      (state.changeProxy group member).2.cells other = state.cells other := by
  rcases state.changeProxy_cases group member with
    ⟨cell', name', members', idx, hlookup', hidx, heq⟩ | ⟨hrejected, -, -, -⟩
  · obtain ⟨rfl, rfl, rfl⟩ :=
      Adapter.selector.inj (Option.some.inj (hlookup.symm.trans hlookup'))
    obtain ⟨found, hfound, hfind⟩ := find?_of_findIdx? hidx
    have hname : found.name = member := by simpa using List.find?_some hfind
    have hselected : members[(state.changeProxy group member).2.cells cell]? = some found := by
      rw [heq]
      show members[Function.update state.cells cell idx cell]? = some found
      rw [Function.update_self, hfound]
    have huses := uses_of_selected dial name hselected
    refine ⟨⟨found, hfind, huses.current.trans hname, huses⟩, fun other hother => ?_⟩
    rw [heq]
    exact Function.update_of_ne hother _ _
  · obtain ⟨cell', name', members', hlookup', hmember⟩ :=
      (state.status_changeProxy_iff group member).mp h
    have haccepted := (accepted_iff hlookup' cell').mpr ⟨rfl, hmember⟩
    rw [hrejected cell'] at haccepted
    exact absurd haccepted Bool.false_ne_true

/-- Any other answer is an error and leaves the state as it is. -/
theorem changeProxy_rejected {state : ApiState} {group member : String}
    (h : (state.changeProxy group member).1.status ≠ 204) :
    ((state.changeProxy group member).1.status = 404 ∨
      (state.changeProxy group member).1.status = 400) ∧
    (state.changeProxy group member).2 = state := by
  rcases state.changeProxy_cases group member with
    ⟨cell, name, members, idx, -, -, heq⟩ | ⟨-, status, hstatus, heq⟩
  · rw [heq] at h
    exact absurd rfl h
  · rw [heq]
    exact ⟨hstatus, rfl⟩

/-- **Selectors over the API.** The selectors are as `Selector::new` makes them. After any
requests to switch selectors, a request is answered with 204 exactly when it names a selector
and a member of it, which the selector then uses, the first one with the name, while no other
cell changes. Other answers are errors and change nothing. And every selector uses the first
member with the name in the latest request accepted for it, or its first member, and never
falls back to another one. -/
theorem changeProxy_selects {R : Type} (dial : Adapter → Metadata → R) (state : ApiState)
    (hfit : SelectorsFit state.proxies)
    (hfresh : ∀ cell name members, Occurs state.proxies (.selector cell name members) →
      state.cells cell = 0)
    (requests : List (String × String)) (group member : String) :
    let before := requests.foldl switch state
    let answer := before.changeProxy group member
    (answer.1.status = 204 ↔ ∃ cell name members,
      state.proxies.lookup group = some (.selector cell name members) ∧
        ∃ proxy ∈ members, proxy.name = member) ∧
    (answer.1.status = 204 → ∀ cell name members,
      state.proxies.lookup group = some (.selector cell name members) →
        (∃ proxy, (members.find? fun proxy => proxy.name == member) = some proxy ∧
          Adapter.current members (answer.2.cells cell) = member ∧
          Uses dial answer.2.cells cell name members proxy) ∧
        ∀ other, other ≠ cell → answer.2.cells other = before.cells other) ∧
    (answer.1.status ≠ 204 →
      (answer.1.status = 404 ∨ answer.1.status = 400) ∧ answer.2 = before) ∧
    ∀ cell name members, Occurs state.proxies (.selector cell name members) →
      ∃ proxy, memberInUse state.proxies cell members requests = some proxy ∧
        Uses dial before.cells cell name members proxy := by
  intro before answer
  have hproxies : before.proxies = state.proxies := proxies_foldl_switch state requests
  refine ⟨?_, fun h cell name members hlookup => ?_, fun h => changeProxy_rejected h, ?_⟩
  · rw [← hproxies]
    exact before.status_changeProxy_iff group member
  · rw [← hproxies] at hlookup
    exact changeProxy_accepted dial hlookup h
  · exact fun cell name members hoccurs => uses_memberInUse dial hfit hfresh requests hoccurs

end ApiState

/-- A selector of the two built-in adapters, registered beside one of them. -/
def selectorProxies : ProxyMap Adapter :=
  ((∅ : ProxyMap Adapter).insert "DIRECT" .direct).insert "Proxy"
    (.selector 0 "Proxy" [.direct, .reject])

omit [Crates] in
/-- The adapters that occur in the example map: the two builtins and its one selector. -/
theorem occurs_selectorProxies {proxy : Adapter} (h : Occurs selectorProxies proxy) :
    proxy = .direct ∨ proxy = .reject ∨ proxy = .selector 0 "Proxy" [.direct, .reject] := by
  induction h with
  | @registered key proxy hlookup =>
      by_cases hkey : key = "Proxy"
      · subst hkey
        rw [selectorProxies, AList.lookup_insert] at hlookup
        exact .inr (.inr (Option.some.inj hlookup).symm)
      · rw [selectorProxies, AList.lookup_insert_ne hkey] at hlookup
        by_cases hdirect : key = "DIRECT"
        · subst hdirect
          rw [AList.lookup_insert] at hlookup
          exact .inl (Option.some.inj hlookup).symm
        · rw [AList.lookup_insert_ne hdirect, AList.lookup_empty] at hlookup
          cases hlookup
  | selectorMember _ hmember ih =>
      rcases ih with ih | ih | ih
      · cases ih
      · cases ih
      · obtain ⟨-, -, rfl⟩ := Adapter.selector.inj ih
        rcases List.mem_cons.mp hmember with rfl | hmember
        · exact .inl rfl
        · exact .inr (.inl (List.mem_singleton.mp hmember))
  | urlTestMember _ _ ih => rcases ih with ih | ih | ih <;> cases ih

omit [Crates] in
/-- The example map has one selector with a cell of its own, so its selectors fit. -/
theorem selectorsFit_selectorProxies : SelectorsFit selectorProxies where
  members_ne_nil := by
    intro cell name members h
    rcases occurs_selectorProxies h with h | h | h
    · cases h
    · cases h
    · obtain ⟨-, -, rfl⟩ := Adapter.selector.inj h
      exact List.cons_ne_nil _ _
  same_of_cell := by
    intro cell name members name' members' h h'
    rcases occurs_selectorProxies h with h | h | h
    · cases h
    · cases h
    · rcases occurs_selectorProxies h' with h' | h' | h'
      · cases h'
      · cases h'
      · obtain ⟨-, rfl, rfl⟩ := Adapter.selector.inj h
        obtain ⟨-, rfl, rfl⟩ := Adapter.selector.inj h'
        exact ⟨rfl, rfl⟩

omit [Crates] in
/-- The selector is switched to its second member. -/
theorem changeProxy_selects_sample :
    letI := ipv4Crates
    ∃ proxy, memberInUse selectorProxies 0 [.direct, .reject] [("Proxy", "REJECT")] =
        some proxy ∧
      Uses (fun proxy _ => proxy.name) ([("Proxy", "REJECT")].foldl ApiState.switch
        { freshState with proxies := selectorProxies }).cells 0 "Proxy" [.direct, .reject]
          proxy := by
  let _ := ipv4Crates
  have hlookup : selectorProxies.lookup "Proxy" =
      some (.selector 0 "Proxy" [.direct, .reject]) := AList.lookup_insert _
  have hruns := ApiState.changeProxy_selects (fun proxy _ => proxy.name)
    { freshState with proxies := selectorProxies } selectorsFit_selectorProxies (fun _ _ _ _ => rfl)
    [("Proxy", "REJECT")] "Proxy" "DIRECT"
  exact hruns.2.2.2 0 "Proxy" [.direct, .reject] (.registered hlookup)

end Redog
