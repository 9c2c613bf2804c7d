import Mathlib.Data.List.Basic

/-!
# Tries

A trie keeps values under paths, lists of keys. Each node has the value of the path that
ends there, if any, and its children by key. Inserting walks down the path and makes the
nodes that are missing.

`valueAt` reads the value of a path and says what a trie contains. A `walk` goes down a path
as far as there are nodes and remembers the last value it has passed, the one of the root
left out. In a trie made by insertions that is the value of the best of them: the one with
the longest path among those that are initial parts of the path walked, and the last of
these when the path was inserted more than once.

## Main results

* `valueAt_insert`: an insertion overwrites one path.
* `walk_cases`: a walk ends with the value of the longest initial part that has one.
* `walk_insertAll`: after insertions a walk ends with the value of the best of them.
-/

namespace Trie

/-! ### The best entry of a list -/

section Best

variable {α : Type} {p q : α → Bool} {size size' : α → ℕ}

/-- The largest of the entries with the property, the last one of its size. -/
def best (p : α → Bool) (size : α → ℕ) : List α → Option α
  | [] => none
  | x :: xs =>
      match best p size xs with
      | some b => if p x ∧ size b < size x then some x else some b
      | none => if p x then some x else none

/-- An entry with the property, with no larger one before it and only smaller ones behind it. -/
def IsBest (p : α → Bool) (size : α → ℕ) (xs : List α) (e : α) : Prop :=
  ∃ pre post, xs = pre ++ e :: post ∧ p e ∧ (∀ x ∈ pre, p x → size x ≤ size e) ∧
    ∀ x ∈ post, p x → size x < size e

/-- The best entry is one of the entries. -/
theorem IsBest.mem {xs : List α} {e : α} (h : IsBest p size xs e) : e ∈ xs := by
  obtain ⟨pre, post, rfl, -⟩ := h
  exact List.mem_append_right _ List.mem_cons_self

/-- The best entry has the property that was asked for. -/
theorem IsBest.prop {xs : List α} {e : α} (h : IsBest p size xs e) : p e := by
  obtain ⟨pre, post, rfl, hp, -⟩ := h
  exact hp

/-- No entry with the property is larger than the best one. -/
theorem IsBest.size_le {xs : List α} {e : α} (h : IsBest p size xs e) :
    ∀ x ∈ xs, p x → size x ≤ size e := by
  obtain ⟨pre, post, rfl, -, hpre, hpost⟩ := h
  intro x hx hp
  rcases List.mem_append.mp hx with hx | hx
  · exact hpre x hx hp
  · rcases List.mem_cons.mp hx with rfl | hx
    · exact Nat.le_refl _
    · exact Nat.le_of_lt (hpost x hx hp)

/-- The best entry is the best of any part of them it belongs to. -/
theorem IsBest.mono {xs : List α} {e : α} (h : IsBest p size xs e) (hqp : ∀ x, q x → p x)
    (hq : q e) : IsBest q size xs e := by
  obtain ⟨pre, post, rfl, -, hpre, hpost⟩ := h
  exact ⟨pre, post, rfl, hq, fun x hx hqx => hpre x hx (hqp x hqx),
    fun x hx hqx => hpost x hx (hqp x hqx)⟩

/-- There is no best entry exactly when no entry has the property. -/
theorem best_eq_none_iff {xs : List α} : best p size xs = none ↔ ∀ x ∈ xs, ¬ p x := by
  induction xs with
  | nil => simp [best]
  | cons x xs ih =>
      rw [best, List.forall_mem_cons]
      cases hbest : best p size xs with
      | some b =>
          have hxs : ¬ ∀ y ∈ xs, ¬ p y := fun h => by simp [ih.mpr h] at hbest
          refine iff_of_false ?_ fun h => hxs h.2
          simp only
          split_ifs <;> exact not_false
      | none =>
          have hxs := ih.mp hbest
          by_cases hx : p x
          · simp [hx]
          · simpa [hx] using hxs

/-- What is computed from behind is the best entry: a later one wins among those of one size. -/
theorem isBest_of_best {xs : List α} {e : α} (h : best p size xs = some e) :
    IsBest p size xs e := by
  induction xs generalizing e with
  | nil => cases h
  | cons x xs ih =>
      rw [best] at h
      cases hbest : best p size xs with
      | some b =>
          have hb := ih hbest
          simp only [hbest] at h
          split_ifs at h with hx
          · obtain rfl := Option.some.inj h
            refine ⟨[], xs, rfl, hx.1, List.forall_mem_nil _, fun y hy hp => ?_⟩
            exact Nat.lt_of_le_of_lt (hb.size_le y hy hp) hx.2
          · obtain rfl := Option.some.inj h
            obtain ⟨pre, post, rfl, hp, hpre, hpost⟩ := hb
            refine ⟨x :: pre, post, rfl, hp, ?_, hpost⟩
            rw [List.forall_mem_cons]
            exact ⟨fun hokx => Nat.le_of_not_lt fun hlt => hx ⟨hokx, hlt⟩, hpre⟩
      | none =>
          simp only [hbest] at h
          split_ifs at h with hx
          obtain rfl := Option.some.inj h
          exact ⟨[], xs, rfl, hx, List.forall_mem_nil _,
            fun y hy hp => absurd hp (best_eq_none_iff.mp hbest y hy)⟩

/-- The best entry is unique, and it is the one that is computed. -/
theorem IsBest.best_eq {xs : List α} {e : α} (h : IsBest p size xs e) :
    best p size xs = some e := by
  obtain ⟨pre, post, rfl, hp, hpre, hpost⟩ := h
  induction pre with
  | nil =>
      rw [List.nil_append, best]
      cases hbest : best p size post with
      | some b =>
          have hb := isBest_of_best hbest
          exact if_pos ⟨hp, hpost b hb.mem hb.prop⟩
      | none => exact if_pos hp
  | cons x pre ih =>
      rw [List.forall_mem_cons] at hpre
      rw [List.cons_append, best, ih hpre.2]
      exact if_neg fun hx => absurd (hpre.1 hx.1) (Nat.not_le.mpr hx.2)

/-- What the best entry is: no larger one before it, only smaller ones behind it. -/
theorem best_eq_some_iff {xs : List α} {e : α} :
    best p size xs = some e ↔ IsBest p size xs e :=
  ⟨isBest_of_best, IsBest.best_eq⟩

/-- Only the order of the sizes counts, and only that of the entries with the property. -/
theorem best_congr {xs : List α} (hp : ∀ x ∈ xs, p x = q x)
    (hsize : ∀ x ∈ xs, ∀ y ∈ xs, p x → p y → (size x < size y ↔ size' x < size' y)) :
    best p size xs = best q size' xs := by
  induction xs with
  | nil => rfl
  | cons x xs ih =>
      have htail := ih (fun y hy => hp y (List.mem_cons_of_mem _ hy)) fun y hy z hz =>
        hsize y (List.mem_cons_of_mem _ hy) z (List.mem_cons_of_mem _ hz)
      rw [best, best, ← htail, ← hp x List.mem_cons_self]
      cases hbest : best p size xs with
      | none => rfl
      | some b =>
          have hb := isBest_of_best hbest
          have hiff : (p x = true ∧ size b < size x) ↔ (p x = true ∧ size' b < size' x) :=
            and_congr_right fun hx => hsize b (List.mem_cons_of_mem _ hb.mem) x
              List.mem_cons_self hb.prop hx
          simp only [hiff]

/-- The best of a part of the entries is the best that belongs to the part. -/
theorem best_filter (keep : α → Bool) (xs : List α) :
    best p size (xs.filter keep) = best (fun x => p x && keep x) size xs := by
  induction xs with
  | nil => rfl
  | cons x xs ih =>
      by_cases hx : keep x
      · rw [List.filter_cons_of_pos hx, best, best, ih]
        simp only [hx, Bool.and_true]
      · rw [List.filter_cons_of_neg hx, best, ih]
        simp only [hx, Bool.and_false, Bool.false_eq_true, false_and, if_false]
        cases best (fun x => p x && keep x) size xs <;> rfl

/-- The best of the images is the image of the best, for the property and the size read through the
map. -/
theorem best_map {β : Type} (f : β → α) (xs : List β) :
    best p size (xs.map f) = (best (fun x => p (f x)) (fun x => size (f x)) xs).map f := by
  induction xs with
  | nil => rfl
  | cons x xs ih =>
      rw [List.map_cons, best, best, ih]
      cases best (fun x => p (f x)) (fun x => size (f x)) xs <;> simp [apply_ite (Option.map f)]

end Best

/-! ### Nodes -/

/-- A node: the value of its path, and the children by key. -/
inductive Node (K V : Type)
  | mk (data : Option V) (children : List (K × Node K V))

namespace Node

variable {K V : Type}

/-- The value of the path that ends at the node. -/
def data : Node K V → Option V
  | mk data _ => data

/-- The children of a node by the keys that lead to them. -/
def children : Node K V → List (K × Node K V)
  | mk _ children => children

/-- A node without a value and without children. -/
def empty : Node K V := mk none []

variable [DecidableEq K]

/-- The child under a key, if the node has one there. -/
def child (node : Node K V) (k : K) : Option (Node K V) :=
  (node.children.find? (·.1 = k)).map Prod.snd

/-- The node with another child under the key. -/
def setChild (node : Node K V) (k : K) (c : Node K V) : Node K V :=
  mk node.data ((k, c) :: node.children.filter (·.1 ≠ k))

/-- Write a value at a path below the node. -/
def insert : List K → V → Node K V → Node K V
  | [], v, node => mk (some v) node.children
  | k :: ks, v, node => node.setChild k (insert ks v ((node.child k).getD empty))

/-- The value at a path below the node. -/
def valueAt : List K → Node K V → Option V
  | [], node => node.data
  | k :: ks, node => (node.child k).bind (valueAt ks)

/-- Write values at paths, one after the other. -/
def insertAll (entries : List (List K × V)) (node : Node K V) : Node K V :=
  entries.foldl (fun node e => insert e.1 e.2 node) node

/-- The last value passed on the way down a path, `last` when there is none. -/
def walk : List K → Node K V → Option V → Option V
  | [], _, last => last
  | k :: ks, node, last =>
      match node.child k with
      | some c => walk ks c (c.data.or last)
      | none => last

/-! ### Contents -/

/-- Setting a child changes nothing of the value stored at the node itself. -/
@[simp] theorem data_setChild (node : Node K V) (k : K) (c : Node K V) :
    (node.setChild k c).data = node.data := rfl

/-- A child that is set is found under its own label, and the others under theirs. -/
theorem child_setChild (node : Node K V) (k k' : K) (c : Node K V) :
    (node.setChild k c).child k' = if k' = k then some c else node.child k' := by
  show (((k, c) :: node.children.filter (·.1 ≠ k)).find? (·.1 = k')).map Prod.snd = _
  by_cases h : k' = k
  · simp [h]
  · have hfind : (node.children.filter (·.1 ≠ k)).find? (·.1 = k') =
        node.children.find? (·.1 = k') := by
      rw [List.find?_filter]
      congr 1
      funext e
      by_cases he : e.1 = k'
      · simp [he, h]
      · simp [he]
    rw [if_neg h, List.find?_cons_of_neg (by simpa using Ne.symm h), hfind]
    rfl

/-- The empty trie has no value on any path. -/
theorem valueAt_empty (ks : List K) : valueAt ks (empty : Node K V) = none := by
  cases ks <;> rfl

/-- An insertion overwrites the value of one path, and leaves the values of all others. -/
theorem valueAt_insert (path : List K) (v : V) (node : Node K V) (ks : List K) :
    valueAt ks (insert path v node) = if ks = path then some v else valueAt ks node := by
  induction path generalizing ks node with
  | nil =>
      cases ks with
      | nil => rfl
      | cons k ks => rfl
  | cons k path ih =>
      cases ks with
      | nil => rfl
      | cons k' ks =>
          rw [insert, valueAt, child_setChild]
          by_cases h : k' = k
          · subst h
            have hbelow : valueAt ks ((node.child k').getD empty) =
                valueAt (k' :: ks) node := by
              rw [valueAt]
              cases node.child k' with
              | none => exact valueAt_empty ks
              | some c => rfl
            rw [if_pos rfl, Option.bind_some, ih, hbelow]
            simp only [List.cons.injEq, true_and]
          · have hne : k' :: ks ≠ k :: path := fun heq => h (List.cons.inj heq).1
            rw [if_neg h, if_neg hne]
            rfl

/-- Inserting entries one after another starts with the first of them. -/
theorem insertAll_cons (e : List K × V) (entries : List (List K × V)) (node : Node K V) :
    insertAll (e :: entries) node = insertAll entries (insert e.1 e.2 node) := rfl

/-- After insertions a path has the value inserted last. -/
theorem valueAt_insertAll (entries : List (List K × V)) (node : Node K V) (ks : List K) :
    valueAt ks (insertAll entries node) =
      ((entries.reverse.find? (·.1 = ks)).map Prod.snd).or (valueAt ks node) := by
  induction entries generalizing node with
  | nil => rfl
  | cons e entries ih =>
      rw [insertAll_cons, ih, valueAt_insert, List.reverse_cons,
        List.find?_append]
      cases entries.reverse.find? (·.1 = ks) with
      | some later => rfl
      | none =>
          by_cases h : ks = e.1
          · simp [h]
          · simp [h, Ne.symm h]

/-- A value that is found was inserted under this path, and nothing was inserted under it later. -/
theorem valueAt_insertAll_eq_some {entries : List (List K × V)} {ks : List K} {v : V}
    (h : valueAt ks (insertAll entries empty) = some v) :
    ∃ pre post, entries = pre ++ (ks, v) :: post ∧ ∀ e ∈ post, e.1 ≠ ks := by
  rw [valueAt_insertAll, valueAt_empty, Option.or_none, Option.map_eq_some_iff] at h
  obtain ⟨⟨path, v⟩, hfind, rfl⟩ := h
  obtain ⟨hpath, pre, post, hsplit, hpre⟩ := List.find?_eq_some_iff_append.mp hfind
  obtain rfl : path = ks := by simpa using hpath
  refine ⟨post.reverse, pre.reverse, ?_, fun e he => ?_⟩
  · simpa using congrArg List.reverse hsplit
  · simpa using hpre e (List.mem_reverse.mp he)

/-- A path under which something was inserted has a value, perhaps a later one. -/
theorem valueAt_insertAll_ne_none {entries : List (List K × V)} {e : List K × V}
    (h : e ∈ entries) : valueAt e.1 (insertAll entries empty) ≠ none := by
  rw [valueAt_insertAll, valueAt_empty, Option.or_none]
  intro hnone
  have hall := List.find?_eq_none.mp (Option.map_eq_none_iff.mp hnone)
  exact hall e (List.mem_reverse.mpr h) (decide_eq_true rfl)

/-! ### Walks -/

/-- `path` is the longest initial part of `ks` with a value, which is `v`. The path of the
node itself does not count. -/
structure Longest (node : Node K V) (ks path : List K) (v : V) : Prop where
  initial : path <+: ks
  ne_nil : path ≠ []
  value : valueAt path node = some v
  longest : ∀ other, other <+: ks → other ≠ [] → valueAt other node ≠ none →
    other.length ≤ path.length

omit [DecidableEq K] in
/-- A nonempty initial part of a path starts with the first label of the path. -/
theorem exists_cons_of_initial {k : K} {ks path : List K} (h : path <+: k :: ks)
    (hne : path ≠ []) : ∃ rest, path = k :: rest ∧ rest <+: ks := by
  obtain ⟨k', rest, rfl⟩ := List.exists_cons_of_ne_nil hne
  obtain ⟨rfl, hrest⟩ := List.cons_prefix_cons.mp h
  exact ⟨rest, rfl, hrest⟩

/-- A longer part of the path has a value below the child. -/
theorem Longest.cons {node c : Node K V} {k : K} {ks path : List K} {v : V}
    (hchild : node.child k = some c) (h : Longest c ks path v) :
    Longest node (k :: ks) (k :: path) v where
  initial := List.cons_prefix_cons.mpr ⟨rfl, h.initial⟩
  ne_nil := List.cons_ne_nil _ _
  value := by rw [valueAt, hchild, Option.bind_some, h.value]
  longest := by
    intro other hother hne hvalue
    obtain ⟨rest, rfl, hrest⟩ := exists_cons_of_initial hother hne
    rw [valueAt, hchild, Option.bind_some] at hvalue
    rw [List.length_cons, List.length_cons]
    by_cases hnil : rest = []
    · rw [hnil, List.length_nil]
      omega
    · have := h.longest rest hrest hnil hvalue
      omega

/-- A walk ends with the value of the longest initial part that has one, or with `last`.
Induction on the path, with the value passed last as a parameter. -/
theorem walk_cases (ks : List K) (node : Node K V) (last : Option V) :
    (∃ path v, Longest node ks path v ∧ walk ks node last = some v) ∨
      (∀ path, path <+: ks → path ≠ [] → valueAt path node = none) ∧
        walk ks node last = last := by
  induction ks generalizing node last with
  | nil => exact .inr ⟨fun path h hne => absurd (List.prefix_nil.mp h) hne, rfl⟩
  | cons k ks ih =>
      rw [walk]
      cases hchild : node.child k with
      | none =>
          refine .inr ⟨fun path h hne => ?_, rfl⟩
          obtain ⟨rest, rfl, -⟩ := exists_cons_of_initial h hne
          rw [valueAt, hchild, Option.bind_none]
      | some c =>
          rcases ih c (c.data.or last) with ⟨path, v, hlong, hwalk⟩ | ⟨hnone, hwalk⟩
          · exact .inl ⟨k :: path, v, hlong.cons hchild, hwalk⟩
          -- Below the child nothing has a value: what counts is the child itself.
          have hbelow : ∀ rest, rest <+: ks → valueAt (k :: rest) node =
              if rest = [] then c.data else none := by
            intro rest hrest
            rw [valueAt, hchild, Option.bind_some]
            by_cases hnil : rest = []
            · rw [if_pos hnil, hnil, valueAt]
            · rw [if_neg hnil, hnone rest hrest hnil]
          simp only [hwalk]
          cases hdata : c.data with
          | none =>
              refine .inr ⟨fun path h hne => ?_, rfl⟩
              obtain ⟨rest, rfl, hrest⟩ := exists_cons_of_initial h hne
              rw [hbelow rest hrest, hdata, ite_self]
          | some v =>
              refine .inl ⟨[k], v, ⟨?_, List.cons_ne_nil _ _, ?_, ?_⟩, rfl⟩
              · exact List.cons_prefix_cons.mpr ⟨rfl, List.nil_prefix⟩
              · rw [hbelow [] List.nil_prefix, if_pos rfl, hdata]
              · intro other h hne hvalue
                obtain ⟨rest, rfl, hrest⟩ := exists_cons_of_initial h hne
                rw [hbelow rest hrest] at hvalue
                by_cases hnil : rest = []
                · exact Nat.le_of_eq (by rw [hnil])
                · exact absurd (if_neg hnil) hvalue

/-- **What a walk finds.** After insertions a walk ends with the value of the best of them:
the longest path that is an initial part, inserted last. -/
theorem walk_insertAll (entries : List (List K × V)) (hne : ∀ e ∈ entries, e.1 ≠ [])
    (ks : List K) :
    walk ks (insertAll entries empty) none =
      (best (·.1.isPrefixOf ks) (·.1.length) entries).map Prod.snd := by
  rcases walk_cases ks (insertAll entries empty) none with
    ⟨path, v, hlong, hwalk⟩ | ⟨hnone, hwalk⟩
  · obtain ⟨pre, post, hsplit, hpost⟩ := valueAt_insertAll_eq_some hlong.value
    have hle : ∀ e ∈ entries, e.1 <+: ks → e.1.length ≤ path.length := fun e he hfits =>
      hlong.longest e.1 hfits (hne e he) (valueAt_insertAll_ne_none he)
    have hbest : IsBest (·.1.isPrefixOf ks) (·.1.length) entries (path, v) := by
      refine ⟨pre, post, hsplit, List.isPrefixOf_iff_prefix.mpr hlong.initial,
        fun e he hfits => ?_, fun e he hfits => ?_⟩
      · exact hle e (hsplit ▸ List.mem_append_left _ he) (List.isPrefixOf_iff_prefix.mp hfits)
      · -- Two initial parts of one length are the same path.
        have hmem : e ∈ entries := hsplit ▸ List.mem_append_right _ (List.mem_cons_of_mem _ he)
        have hfits := List.isPrefixOf_iff_prefix.mp hfits
        refine Nat.lt_of_le_of_ne (hle e hmem hfits) fun hlen => hpost e he ?_
        exact (List.prefix_of_prefix_length_le hfits hlong.initial
          (Nat.le_of_eq hlen)).eq_of_length hlen
    rw [hwalk, hbest.best_eq]
    rfl
  · have hbest : best (·.1.isPrefixOf ks) (·.1.length) entries = none := by
      refine best_eq_none_iff.mpr fun e he hfits => ?_
      have hinitial : e.1 <+: ks := List.isPrefixOf_iff_prefix.mp hfits
      exact valueAt_insertAll_ne_none he (hnone e.1 hinitial (hne e he))
    rw [hwalk, hbest]
    rfl

end Node

end Trie
