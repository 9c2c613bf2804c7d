import Redog.Adapters
import Redog.Main

/-!
# Global mode

In Global mode the tunnel sends every connection through the first adapter of the proxy map
that is not called DIRECT or REJECT. The map is a hash map, so which one comes first is up
to the order of iteration, and a tunnel made anew from the same entries may choose another.

## Main results

* `matchAdapter_global`: the adapter Global mode chooses.
* `orderIrrelevant_iff`: when every order of the entries leads to the same choice.
-/

namespace Redog

/-! ### First elements -/

section Head

variable {α : Type} {l l₁ l₂ : List α}

/-- Lists with the same elements start alike if they hold nothing but copies of one. -/
theorem head?_eq_of_perm (h : l₁.Perm l₂) (hsame : ∀ x ∈ l₁, ∀ y ∈ l₁, x = y) :
    l₁.head? = l₂.head? := by
  rcases l₁ with - | ⟨x, l₁⟩
  · rw [h.nil_eq]
  rcases l₂ with - | ⟨y, l₂⟩
  · exact absurd h.eq_nil (List.cons_ne_nil x l₁)
  · have hy : y ∈ x :: l₁ := h.mem_iff.mpr List.mem_cons_self
    rw [List.head?_cons, List.head?_cons, hsame x List.mem_cons_self y hy]

end Head

variable [Crates] {A : Type} [ProxyAdapter A]

/-- The adapters Global mode chooses among, in the order of iteration: those that are not
called DIRECT or REJECT. -/
def candidates (proxies : ProxyMap A) : List A :=
  (proxies.entries.map Sigma.snd).filter fun p =>
    ProxyAdapter.name p ≠ "DIRECT" ∧ ProxyAdapter.name p ≠ "REJECT"

/-- Global mode chooses the first candidate, and DIRECT when there is none. -/
theorem matchAdapter_global (proxies : ProxyMap A) (rules : List Rule) (metadata : Metadata) :
    ((Tunnel.mk proxies rules .global).matchAdapter metadata).adapter =
      (candidates proxies).head?.getD ProxyAdapter.direct := by
  rw [candidates, List.head?_filter]
  rfl

/-- Maps with the same entries, whatever the order of iteration, choose the same adapter. -/
def OrderIrrelevant (proxies : ProxyMap A) (rules : List Rule) (metadata : Metadata) : Prop :=
  ∀ proxies₁ proxies₂ : ProxyMap A,
    proxies₁.entries.Perm proxies.entries → proxies₂.entries.Perm proxies.entries →
      ((Tunnel.mk proxies₁ rules .global).matchAdapter metadata).adapter =
        ((Tunnel.mk proxies₂ rules .global).matchAdapter metadata).adapter

omit [Crates] in
/-- Maps with the same entries in another order have the same candidates in another order. -/
theorem candidates_perm {proxies proxies' : ProxyMap A}
    (h : proxies'.entries.Perm proxies.entries) :
    (candidates proxies').Perm (candidates proxies) := by
  rw [candidates, candidates]
  exact (h.map Sigma.snd).filter _

omit [Crates] in
/-- Every candidate comes first in some order of iteration. -/
theorem exists_head?_candidates {proxies : ProxyMap A} {adapter : A}
    (h : adapter ∈ candidates proxies) :
    ∃ proxies' : ProxyMap A, proxies'.entries.Perm proxies.entries ∧
      (candidates proxies').head? = some adapter := by
  obtain ⟨hmem, hname⟩ := List.mem_filter.mp h
  obtain ⟨entry, hentry, rfl⟩ := List.mem_map.mp hmem
  obtain ⟨pre, post, hsplit⟩ := List.append_of_mem hentry
  have hperm : (entry :: (pre ++ post)).Perm proxies.entries := by
    rw [hsplit]
    exact List.perm_middle.symm
  have hnodup := (List.perm_nodupKeys hperm).mpr proxies.nodupKeys
  refine ⟨⟨entry :: (pre ++ post), hnodup⟩, hperm, ?_⟩
  rw [candidates, List.map_cons, List.filter_cons, if_pos hname, List.head?_cons]

/-- **When Global mode does not depend on the order of iteration**: exactly when there is one
adapter at most that is not called DIRECT or REJECT. -/
theorem orderIrrelevant_iff (proxies : ProxyMap A) (rules : List Rule) (metadata : Metadata) :
    OrderIrrelevant proxies rules metadata ↔
      ∀ a ∈ candidates proxies, ∀ b ∈ candidates proxies, a = b := by
  constructor
  · intro h a ha b hb
    obtain ⟨proxies₁, hperm₁, ha⟩ := exists_head?_candidates ha
    obtain ⟨proxies₂, hperm₂, hb⟩ := exists_head?_candidates hb
    have hsame := h proxies₁ proxies₂ hperm₁ hperm₂
    rwa [matchAdapter_global, matchAdapter_global, ha, hb] at hsame
  · intro hsame proxies₁ proxies₂ hperm₁ hperm₂
    rw [matchAdapter_global, matchAdapter_global,
      ← head?_eq_of_perm (candidates_perm hperm₁).symm hsame,
      ← head?_eq_of_perm (candidates_perm hperm₂).symm hsame]

/-- A map of two selectors next to DIRECT. -/
def twoSelectors : ProxyMap Adapter :=
  (((∅ : ProxyMap Adapter).insert "DIRECT" .direct).insert "Auto"
    (.selector 0 "Auto" [.direct])).insert "Manual" (.selector 1 "Manual" [.direct])

omit [Crates] in
/-- Of two selectors either one may come first. -/
theorem not_orderIrrelevant :
    letI := ipv4Crates
    ¬ OrderIrrelevant twoSelectors [] googleMetadata := by
  let _ := ipv4Crates
  intro h
  have hperm := List.reverse_perm twoSelectors.entries
  have hnodup := (List.perm_nodupKeys hperm).mpr twoSelectors.nodupKeys
  have hsame : Adapter.selector 1 "Manual" [.direct] = .selector 0 "Auto" [.direct] :=
    h twoSelectors ⟨_, hnodup⟩ (.refl _) hperm
  cases hsame

end Redog
