import Mathlib.Data.Finset.Card
import Mathlib.Data.List.Basic
import Mathlib.Data.List.Nodup

/-!
# Least recently used caches

A cache of bounded size that forgets the entry not used for the longest time. The entries
are kept most recent first, with distinct keys and within the capacity, and the structure
carries these facts. `get` and `put` both make the key they are given the most recent one;
`put` of a new key into a full cache drops the last entry, whose key is `victim`.

`peek` reads an entry without using it. The lemmas describe each operation by what `peek`
sees afterwards, so that clients reason about the contents and never about the order.

The order matters only for how long an entry stays. `Recent` bounds the keys used since an
entry was, and the entry stays while they are fewer than the capacity.

## Main results

* `peek_get`: a `get` changes no contents.
* `peek_put`: what a `put` writes, and the one other key it may forget.
* `Recent.put`, `Recent.get`: an entry stays while fewer other keys are used than the cache
  has room for.
-/

namespace Lru

variable {K V : Type} [DecidableEq K]

/-- A cache for at most `cap` entries, most recent first. -/
structure Cache (K V : Type) [DecidableEq K] where
  cap : ℕ
  entries : List (K × V)
  cap_pos : 0 < cap
  nodup : (entries.map Prod.fst).Nodup
  length_le : entries.length ≤ cap

namespace Cache

/-- The cache that nothing has been put into, whose capacity is positive. -/
def empty (cap : ℕ) (h : 0 < cap) : Cache K V where
  cap := cap
  entries := []
  cap_pos := h
  nodup := List.nodup_nil
  length_le := Nat.zero_le _

/-- The value of a key, without using it. -/
def peek (c : Cache K V) (k : K) : Option V :=
  (c.entries.find? (·.1 = k)).map Prod.snd

/-- The entries of the other keys, in the order they have in the cache. -/
def others (c : Cache K V) (k : K) : List (K × V) :=
  c.entries.filter (·.1 ≠ k)

/-- The key that writing `k` forgets: the least recent one when the cache is full of other
keys. -/
def victim (c : Cache K V) (k : K) : Option K :=
  if (c.others k).length < c.cap then none else (c.others k).getLast?.map Prod.fst

/-- The entries kept beside `k` when it is written. -/
def kept (c : Cache K V) (k : K) : List (K × V) :=
  if (c.others k).length < c.cap then c.others k else (c.others k).dropLast

/-- What an insertion keeps is a part of what was there, in the same order. -/
theorem kept_sublist (c : Cache K V) (k : K) : (c.kept k).Sublist c.entries := by
  rw [kept]
  split
  · exact List.filter_sublist
  · exact (List.dropLast_sublist _).trans List.filter_sublist

/-- What an insertion keeps is a part of what was there under other keys. -/
theorem kept_sublist_others (c : Cache K V) (k : K) : (c.kept k).Sublist (c.others k) := by
  rw [kept]
  split
  · exact List.Sublist.refl _
  · exact List.dropLast_sublist _

/-- An insertion keeps few enough entries for the new one to fit. -/
theorem length_kept_lt (c : Cache K V) (k : K) : (c.kept k).length < c.cap := by
  have hpos := c.cap_pos
  have hle : (c.others k).length ≤ c.cap :=
    Nat.le_trans List.filter_sublist.length_le c.length_le
  rw [kept]
  split
  · assumption
  · rw [List.length_dropLast]
    omega

/-- Write a key: it becomes the most recent one. -/
def put (c : Cache K V) (k : K) (v : V) : Cache K V where
  cap := c.cap
  entries := (k, v) :: c.kept k
  cap_pos := c.cap_pos
  nodup := by
    rw [List.map_cons, List.nodup_cons]
    refine ⟨fun h => ?_, c.nodup.sublist ((c.kept_sublist k).map _)⟩
    obtain ⟨e, he, rfl⟩ := List.mem_map.mp h
    have := (c.kept_sublist_others _).subset he
    simp [others] at this
  length_le := c.length_kept_lt k

/-- Read a key: if present, it becomes the most recent one. -/
def get (c : Cache K V) (k : K) : Option V × Cache K V :=
  match c.peek k with
  | some v => (some v, c.put k v)
  | none => (none, c)

/-! ### The contents -/

/-- Setting one key aside does not change what the others hold. -/
theorem find_others (c : Cache K V) {k k' : K} (h : k' ≠ k) :
    (c.others k).find? (·.1 = k') = c.entries.find? (·.1 = k') := by
  rw [others, List.find?_filter]
  congr 1
  funext e
  by_cases he : e.1 = k'
  · simp [he, h]
  · simp [he]

/-- A value that has just been put is there. -/
@[simp] theorem peek_put_self (c : Cache K V) (k : K) (v : V) :
    (c.put k v).peek k = some v := by
  simp [peek, put]

/-- What a cache holds for another key after a write: nothing if it was the victim, and
what it held before otherwise. -/
theorem peek_put_of_ne (c : Cache K V) {k k' : K} (v : V) (h : k' ≠ k) :
    (c.put k v).peek k' = if c.victim k = some k' then none else c.peek k' := by
  have hput : (c.put k v).peek k' = ((c.kept k).find? (·.1 = k')).map Prod.snd := by
    simp [peek, put, Ne.symm h]
  rw [hput, kept, victim, peek]
  by_cases hfull : (c.others k).length < c.cap
  · simp only [if_pos hfull, reduceCtorEq, if_false, c.find_others h]
  simp only [if_neg hfull]
  have hne : c.others k ≠ [] := by
    intro hnil
    have := c.cap_pos
    simp [hnil] at hfull
    omega
  obtain ⟨init, last, hsplit⟩ : ∃ init last, c.others k = init ++ [last] :=
    ⟨_, _, (List.dropLast_concat_getLast hne).symm⟩
  rw [← c.find_others h, hsplit, List.dropLast_concat, List.getLast?_concat, Option.map_some]
  by_cases hk : last.1 = k'
  · have hnodup : ((init ++ [last]).map Prod.fst).Nodup := by
      rw [← hsplit]
      exact c.nodup.sublist (List.filter_sublist.map _)
    have hnone : init.find? (·.1 = k') = none := by
      rw [List.find?_eq_none]
      intro e he
      rw [List.map_append, List.nodup_append] at hnodup
      have := hnodup.2.2 e.1 (List.mem_map_of_mem he) last.1 (by simp)
      simpa [← hk] using this
    rw [if_pos (by rw [hk]), hnone, Option.map_none]
  · rw [if_neg (by simpa using hk), List.find?_append]
    simp [hk]

/-- What a cache holds after a write. -/
theorem peek_put (c : Cache K V) (k k' : K) (v : V) :
    (c.put k v).peek k' =
      if k' = k then some v else if c.victim k = some k' then none else c.peek k' := by
  by_cases h : k' = k
  · subst h
    rw [if_pos rfl, peek_put_self]
  · rw [if_neg h, c.peek_put_of_ne v h]

/-- A read returns what the cache holds. -/
@[simp] theorem fst_get (c : Cache K V) (k : K) : (c.get k).1 = c.peek k := by
  rw [get]
  cases c.peek k <;> rfl

/-- A present key has no victim: rewriting it forgets nothing. -/
theorem victim_eq_none (c : Cache K V) {k : K} {v : V} (h : c.peek k = some v) :
    c.victim k = none := by
  obtain ⟨e, he, -⟩ := Option.map_eq_some_iff.mp h
  have hmem := List.mem_of_find?_eq_some he
  have hkey : e.1 = k := by simpa using List.find?_some he
  have hlt : (c.others k).length < c.entries.length :=
    List.length_filter_lt_length_iff_exists.mpr ⟨e, hmem, by simp [hkey]⟩
  exact if_pos (Nat.lt_of_lt_of_le hlt c.length_le)

/-- A read moves an entry and changes no contents: each key has the value it had. -/
@[simp] theorem peek_get (c : Cache K V) (k k' : K) : (c.get k).2.peek k' = c.peek k' := by
  rw [get]
  cases hk : c.peek k with
  | none => rfl
  | some v =>
      rw [peek_put, c.victim_eq_none hk]
      by_cases h : k' = k
      · rw [if_pos h, h, hk]
      · simp [h]

/-- Putting a value does not change the capacity. -/
@[simp] theorem cap_put (c : Cache K V) (k : K) (v : V) : (c.put k v).cap = c.cap := rfl

/-- Getting a value does not change the capacity. -/
@[simp] theorem cap_get (c : Cache K V) (k : K) : (c.get k).2.cap = c.cap := by
  rw [get]
  cases c.peek k <;> rfl

/-! ### Recency -/

/-- The cache holds `v` for `k`, and only keys of `used` were used since `k` was. -/
def Recent (c : Cache K V) (k : K) (v : V) (used : Finset K) : Prop :=
  ∃ front back, c.entries = front ++ (k, v) :: back ∧ ∀ e ∈ front, e.1 ∈ used

/-- A value that has just been put is the most recent one, whatever has been used before. -/
theorem recent_put_self (c : Cache K V) (k : K) (v : V) (used : Finset K) :
    (c.put k v).Recent k v used :=
  ⟨[], c.kept k, rfl, List.forall_mem_nil _⟩

/-- A value that has just been got is the most recent one, whatever has been used before. -/
theorem recent_get_self {c : Cache K V} {k : K} {v : V} (h : c.peek k = some v)
    (used : Finset K) : (c.get k).2.Recent k v used := by
  rw [get, h]
  exact c.recent_put_self k v used

/-- A recent value is still there, since fewer other keys than the capacity have been used after
it. -/
theorem Recent.peek_eq {c : Cache K V} {k : K} {v : V} {used : Finset K}
    (h : c.Recent k v used) : c.peek k = some v := by
  obtain ⟨front, back, hentries, -⟩ := h
  have hnodup := c.nodup
  rw [hentries, List.map_append, List.nodup_append] at hnodup
  have hfront : front.find? (·.1 = k) = none := by
    rw [List.find?_eq_none]
    intro e he
    have hne := hnodup.2.2 e.1 (List.mem_map_of_mem he) k (by simp)
    simpa using hne
  simp [peek, hentries, List.find?_append, hfront]

/-- An entry stays when another key is written, as long as the cache has room for it behind
the keys used since. -/
theorem Recent.put {c : Cache K V} {k k' : K} {v v' : V} {used : Finset K}
    (h : c.Recent k v used) (hne : k' ≠ k) (hmem : k' ∈ used) (hcard : used.card < c.cap) :
    (c.put k' v').Recent k v used := by
  obtain ⟨front, back, hentries, hfront⟩ := h
  have hothers : c.others k' =
      front.filter (·.1 ≠ k') ++ (k, v) :: back.filter (·.1 ≠ k') := by
    rw [others, hentries, List.filter_append, List.filter_cons_of_pos]
    simpa using hne.symm
  -- the keys in front of the entry are distinct and among those used
  have hlength : (front.filter (·.1 ≠ k')).length < used.card := by
    have hnodup : ((front.filter (·.1 ≠ k')).map Prod.fst).Nodup := by
      have hall := c.nodup.sublist (List.filter_sublist (p := (·.1 ≠ k')).map Prod.fst)
      rw [← others, hothers, List.map_append] at hall
      exact hall.of_append_left
    have hsub : ((front.filter (·.1 ≠ k')).map Prod.fst).toFinset ⊆ used.erase k' := by
      intro e he
      rw [List.mem_toFinset, List.mem_map] at he
      obtain ⟨e, he, rfl⟩ := he
      obtain ⟨hin, hother⟩ := List.mem_filter.mp he
      exact Finset.mem_erase.mpr ⟨by simpa using hother, hfront e hin⟩
    calc (front.filter (·.1 ≠ k')).length
        = ((front.filter (·.1 ≠ k')).map Prod.fst).toFinset.card := by
          rw [List.toFinset_card_of_nodup hnodup, List.length_map]
      _ ≤ (used.erase k').card := Finset.card_le_card hsub
      _ < used.card := Finset.card_erase_lt_of_mem hmem
  have hkeys : ∀ e ∈ (k', v') :: front.filter (·.1 ≠ k'), e.1 ∈ used := by
    rw [List.forall_mem_cons]
    exact ⟨hmem, fun e he => hfront e (List.mem_filter.mp he).1⟩
  by_cases hroom : (c.others k').length < c.cap
  · refine ⟨(k', v') :: front.filter (·.1 ≠ k'), back.filter (·.1 ≠ k'), ?_, hkeys⟩
    show (k', v') :: c.kept k' = _
    rw [kept, if_pos hroom, hothers, List.cons_append]
  · -- what is dropped stands behind the entry
    have hback : back.filter (·.1 ≠ k') ≠ [] := by
      intro hnil
      rw [hothers, hnil, List.length_append, List.length_singleton] at hroom
      omega
    refine ⟨(k', v') :: front.filter (·.1 ≠ k'), (back.filter (·.1 ≠ k')).dropLast, ?_, hkeys⟩
    show (k', v') :: c.kept k' = _
    rw [kept, if_neg hroom, hothers, List.dropLast_append_cons,
      List.dropLast_cons_of_ne_nil hback, List.cons_append]

/-- An entry stays when another key is read. -/
theorem Recent.get {c : Cache K V} {k k' : K} {v : V} {used : Finset K}
    (h : c.Recent k v used) (hne : k' ≠ k) (hmem : k' ∈ used) (hcard : used.card < c.cap) :
    (c.get k').2.Recent k v used := by
  rw [Cache.get]
  cases c.peek k' with
  | none => exact h
  | some v' => exact h.put hne hmem hcard

end Cache

end Lru
