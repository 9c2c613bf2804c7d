import Mathlib.Data.List.Basic

/-!
# Runs of a step function

A component whose calls are executed one after the other is a step function on its state:
`step s a` is the state after the call `a`, or the failure of that call. This module holds
what is true of runs of any such component.

Two readings of a run are used. `Always P` says that a property of states holds in every
state the run passes through, the first and the last included. `EachStep Q` says that a
condition on a state and the call made in it holds at every call of the run. When `Q` is
exactly what a step needs to keep `P`, the two are equivalent (`always_iff_eachStep`), so a
condition on single calls describes the good runs exactly.

Two programs that run side by side are an `Interleave`, a list of the steps of both. What
one of them loads from a cell the other one stores to depends on the order of the store and
the load alone.

## Main results

* `always_iff_exec`: `Always P` is `P` in every state reached by a part of the run.
* `always_iff_eachStep`: the exact rule above.
* `since_cons`: what the latest entry of a history does to what holds since an event.
* `Register.view_run`: what a load of a cell sees in a run with a store to it.
-/

namespace Run

variable {σ α ε : Type} {step : σ → α → Except ε σ} {P : σ → Prop} {Q : σ → α → Prop}

/-- The state after the calls `acts`, or the first failure. -/
def exec (step : σ → α → Except ε σ) (s : σ) (acts : List α) : Except ε σ :=
  acts.foldlM step s

/-- A run succeeds when its first call does and the rest of it from there. -/
theorem exec_cons_eq_ok_iff {s s' : σ} {a : α} {acts : List α} :
    exec step s (a :: acts) = .ok s' ↔
      ∃ t, step s a = .ok t ∧ exec step t acts = .ok s' := by
  simp only [exec, List.foldlM_cons]
  cases step s a with
  | error e => simp [bind, Except.bind]
  | ok t => simp [bind, Except.bind]

/-- A run of two parts succeeds when the first part does and the second one from there. -/
theorem exec_append_eq_ok_iff {s s' : σ} {acts acts' : List α} :
    exec step s (acts ++ acts') = .ok s' ↔
      ∃ t, exec step s acts = .ok t ∧ exec step t acts' = .ok s' := by
  induction acts generalizing s with
  | nil =>
      constructor
      · exact fun h => ⟨s, rfl, h⟩
      · rintro ⟨t, ht, h⟩
        obtain rfl : s = t := Except.ok.inj ht
        exact h
  | cons a acts ih =>
      simp only [List.cons_append, exec_cons_eq_ok_iff, ih]
      constructor
      · rintro ⟨u, hu, t, ht, h⟩
        exact ⟨t, ⟨u, hu, ht⟩, h⟩
      · rintro ⟨t, ⟨u, hu, ht⟩, h⟩
        exact ⟨u, hu, t, ht, h⟩

/-- What the steps of a run keep holds after the run. -/
theorem exec_keeps {Inv : σ → Prop} {acts : List α}
    (hstep : ∀ a ∈ acts, ∀ s s', Inv s → step s a = .ok s' → Inv s') {s s' : σ} (hs : Inv s)
    (hexec : exec step s acts = .ok s') : Inv s' := by
  induction acts generalizing s with
  | nil =>
      obtain rfl : s = s' := Except.ok.inj hexec
      exact hs
  | cons a acts ih =>
      obtain ⟨t, ht, hexec⟩ := exec_cons_eq_ok_iff.mp hexec
      obtain ⟨ha, hacts⟩ := List.forall_mem_cons.mp hstep
      exact ih hacts (ha s t hs ht) hexec

/-- `P` holds in every state the run passes through. -/
def Always (step : σ → α → Except ε σ) (P : σ → Prop) : σ → List α → Prop
  | s, [] => P s
  | s, a :: acts => P s ∧ ∀ s', step s a = .ok s' → Always step P s' acts

/-- `Q` holds at every call of the run, in the state the call is made in. -/
def EachStep (step : σ → α → Except ε σ) (Q : σ → α → Prop) : σ → List α → Prop
  | _, [] => True
  | s, a :: acts => Q s a ∧ ∀ s', step s a = .ok s' → EachStep step Q s' acts

/-- What holds throughout a run holds at its start. -/
theorem Always.head {s : σ} {acts : List α} (h : Always step P s acts) : P s := by
  cases acts with
  | nil => exact h
  | cons a acts => exact h.1

/-- The states a run passes through are those reached by its initial parts. -/
theorem always_iff_exec {s : σ} {acts : List α} :
    Always step P s acts ↔
      ∀ part, part <+: acts → ∀ s', exec step s part = .ok s' → P s' := by
  induction acts generalizing s with
  | nil =>
      constructor
      · intro h part hpart s' hs'
        obtain rfl := List.prefix_nil.mp hpart
        obtain rfl : s = s' := Except.ok.inj hs'
        exact h
      · exact fun h => h [] List.prefix_rfl s rfl
  | cons a acts ih =>
      constructor
      · rintro ⟨hs, h⟩ part hpart s' hs'
        rcases part with - | ⟨b, part⟩
        · obtain rfl : s = s' := Except.ok.inj hs'
          exact hs
        · obtain ⟨rfl, hrest⟩ := List.cons_prefix_cons.mp hpart
          obtain ⟨t, ht, hs'⟩ := exec_cons_eq_ok_iff.mp hs'
          exact ih.mp (h t ht) part hrest s' hs'
      · intro h
        refine ⟨h [] List.nil_prefix s rfl, fun t ht => ih.mpr ?_⟩
        intro part hpart s' hs'
        exact h (a :: part) (List.cons_prefix_cons.mpr ⟨rfl, hpart⟩) s'
          (exec_cons_eq_ok_iff.mpr ⟨t, ht, hs'⟩)

/-- A condition that always holds holds at every call. -/
theorem eachStep_of_forall (h : ∀ s a, Q s a) (s : σ) (acts : List α) :
    EachStep step Q s acts := by
  induction acts generalizing s with
  | nil => trivial
  | cons a acts ih => exact ⟨h s a, fun s' _ => ih s'⟩

/-- **The exact rule**, for runs whose calls all meet a condition `R`. If such steps from
states with the invariant never fail, and one from a state with `P` keeps `P` exactly when
`Q` holds at it, then `P` holds throughout the run exactly when `Q` holds at each of its
calls. -/
theorem always_iff_eachStep_of {Inv : σ → Prop} {R : σ → α → Prop}
    (hInv : ∀ s a, Inv s → R s a → ∃ s', step s a = .ok s' ∧ Inv s')
    (hstep : ∀ s a s', Inv s → R s a → P s → step s a = .ok s' → (P s' ↔ Q s a))
    {s : σ} (hs : Inv s) (hP : P s) {acts : List α} (hR : EachStep step R s acts) :
    Always step P s acts ↔ EachStep step Q s acts := by
  induction acts generalizing s with
  | nil => exact iff_of_true hP trivial
  | cons a acts ih =>
      obtain ⟨ha, hrest⟩ := hR
      obtain ⟨t, ht, hInvt⟩ := hInv s a hs ha
      have hsucc : ∀ s', step s a = .ok s' → s' = t := fun s' h =>
        Except.ok.inj (h.symm.trans ht)
      constructor
      · rintro ⟨-, h⟩
        have hPt := (h t ht).head
        refine ⟨(hstep s a t hs ha hP ht).mp hPt, fun s' hs' => ?_⟩
        obtain rfl := hsucc s' hs'
        exact (ih hInvt hPt (hrest _ ht)).mp (h _ ht)
      · rintro ⟨hQ, h⟩
        have hPt := (hstep s a t hs ha hP ht).mpr hQ
        refine ⟨hP, fun s' hs' => ?_⟩
        obtain rfl := hsucc s' hs'
        exact (ih hInvt hPt (hrest _ ht)).mpr (h _ ht)

/-- If a condition on a call is what its step needs to go well and to meet `Q`, then `Q`
holds at every call of a run exactly when all calls meet the condition. -/
theorem eachStep_iff_forall {Inv : σ → Prop} {R : α → Prop}
    (hInv : ∀ s a, Inv s → R a → ∃ s', step s a = .ok s' ∧ Inv s')
    (hstep : ∀ s a, Inv s → (Q s a ↔ R a)) {s : σ} (hs : Inv s) {acts : List α} :
    EachStep step Q s acts ↔ ∀ a ∈ acts, R a := by
  induction acts generalizing s with
  | nil => exact iff_of_true trivial (List.forall_mem_nil _)
  | cons a acts ih =>
      rw [EachStep, List.forall_mem_cons, hstep s a hs]
      refine and_congr_right fun ha => ?_
      obtain ⟨t, ht, hInvt⟩ := hInv s a hs ha
      rw [ht]
      constructor
      · exact fun h => (ih hInvt).mp (h t rfl)
      · rintro h s' hs'
        obtain rfl := Except.ok.inj hs'
        exact (ih hInvt).mpr h

/-- If a step from a state with the invariant goes well exactly when `Q` holds at it, and keeps
the invariant then, a run goes well exactly when `Q` holds at each of its calls. -/
theorem exec_isOk_iff {Inv : σ → Prop} (hok : ∀ s a, Inv s → ((∃ s', step s a = .ok s') ↔ Q s a))
    (hstep : ∀ s a s', Inv s → step s a = .ok s' → Inv s') {s : σ} (hs : Inv s)
    {acts : List α} :
    (∃ s', exec step s acts = .ok s' ∧ Inv s') ↔ EachStep step Q s acts := by
  induction acts generalizing s with
  | nil => exact iff_of_true ⟨s, rfl, hs⟩ trivial
  | cons a acts ih =>
      constructor
      · rintro ⟨s', hexec, hs'⟩
        obtain ⟨t, ht, hexec⟩ := exec_cons_eq_ok_iff.mp hexec
        refine ⟨(hok s a hs).mp ⟨t, ht⟩, fun t' ht' => ?_⟩
        obtain rfl := Except.ok.inj (ht.symm.trans ht')
        exact (ih (hstep s a t hs ht)).mp ⟨s', hexec, hs'⟩
      · rintro ⟨hQ, hrest⟩
        obtain ⟨t, ht⟩ := (hok s a hs).mpr hQ
        obtain ⟨s', hexec, hs'⟩ := (ih (hstep s a t hs ht)).mpr (hrest t ht)
        exact ⟨s', exec_cons_eq_ok_iff.mpr ⟨t, ht, hexec⟩, hs'⟩

/-- If steps from states with the invariant go well and keep it, so do runs. -/
theorem exec_isOk {Inv : σ → Prop} (hstep : ∀ s a, Inv s → ∃ s', step s a = .ok s' ∧ Inv s')
    {s : σ} (hs : Inv s) (acts : List α) : ∃ s', exec step s acts = .ok s' ∧ Inv s' := by
  induction acts generalizing s with
  | nil => exact ⟨s, rfl, hs⟩
  | cons a acts ih =>
      obtain ⟨t, ht, hInvt⟩ := hstep s a hs
      obtain ⟨s', hexec, hs'⟩ := ih hInvt
      exact ⟨s', exec_cons_eq_ok_iff.mpr ⟨t, ht, hexec⟩, hs'⟩

/-- If a condition on a call is enough for its step to keep an invariant, then what the
invariant says holds throughout a run whose calls all meet the condition. -/
theorem always_of_eachStep {Inv : σ → Prop}
    (hstep : ∀ s a s', Inv s → Q s a → step s a = .ok s' → Inv s') (hP : ∀ s, Inv s → P s)
    {s : σ} (hs : Inv s) {acts : List α} (h : EachStep step Q s acts) :
    Always step P s acts := by
  induction acts generalizing s with
  | nil => exact hP s hs
  | cons a acts ih => exact ⟨hP s hs, fun s' hs' => ih (hstep s a s' hs h.1 hs') (h.2 s' hs')⟩

/-- The exact rule for all runs: where a step keeps `P` exactly on the condition `Q`, the whole run
does exactly when each step met it. -/
theorem always_iff_eachStep {Inv : σ → Prop}
    (hInv : ∀ s a, Inv s → ∃ s', step s a = .ok s' ∧ Inv s')
    (hstep : ∀ s a s', Inv s → P s → step s a = .ok s' → (P s' ↔ Q s a))
    {s : σ} (hs : Inv s) (hP : P s) (acts : List α) :
    Always step P s acts ↔ EachStep step Q s acts :=
  always_iff_eachStep_of (fun s a h _ => hInv s a h) (fun s a s' h _ => hstep s a s' h) hs hP
    (eachStep_of_forall (fun _ _ => trivial) s acts)

/-! ### Counting calls -/

/-- The number of calls of the run that meet `p` in the state they are made in. -/
def count (step : σ → α → Except ε σ) (p : σ → α → Bool) : σ → List α → ℕ
  | _, [] => 0
  | s, a :: acts =>
      (p s a).toNat +
        match step s a with
        | .error _ => 0
        | .ok s' => count step p s' acts

/-- What is counted in a run: the first call when it is of the kind, and the calls after it. -/
theorem count_cons {p : σ → α → Bool} {s s' : σ} {a : α} (h : step s a = .ok s')
    (acts : List α) : count step p s (a :: acts) = (p s a).toNat + count step p s' acts := by
  rw [count, h]

/-! ### Steps that never fail -/

/-- A step function that never fails, as one that may. -/
def total (next : σ → α → σ) (s : σ) (a : α) : Except Empty σ :=
  .ok (next s a)

/-- What holds of each call of a run holds of the first one, and of the others from the state after
it. -/
theorem eachStep_total_cons {next : σ → α → σ} {s : σ} {a : α} {acts : List α} :
    EachStep (total next) Q s (a :: acts) ↔ Q s a ∧ EachStep (total next) Q (next s a) acts := by
  refine and_congr_right fun _ => ⟨fun h => h _ rfl, fun h s' hs' => ?_⟩
  obtain rfl := Except.ok.inj hs'
  exact h

/-- What holds at each step of a run holds at its last one. -/
theorem eachStep_total_concat {next : σ → α → σ} {s : σ} {a : α} {acts : List α}
    (h : EachStep (total next) Q s (acts ++ [a])) :
    EachStep (total next) Q s acts ∧ Q (acts.foldl next s) a := by
  induction acts generalizing s with
  | nil => exact ⟨trivial, (eachStep_total_cons.mp h).1⟩
  | cons b acts ih =>
      obtain ⟨hb, hrest⟩ := eachStep_total_cons.mp h
      obtain ⟨hacts, ha⟩ := ih hrest
      exact ⟨eachStep_total_cons.mpr ⟨hb, hacts⟩, ha⟩

/-- A condition that can be decided at a call can be decided along a run. -/
instance decidableEachStep {next : σ → α → σ} [∀ s a, Decidable (Q s a)] :
    ∀ (s : σ) (acts : List α), Decidable (EachStep (total next) Q s acts)
  | _, [] => isTrue trivial
  | s, a :: acts =>
      have : Decidable (EachStep (total next) Q (next s a) acts) :=
        decidableEachStep (next s a) acts
      decidable_of_iff (Q s a ∧ EachStep (total next) Q (next s a) acts)
        eachStep_total_cons.symm

/-- What always holds holds of the last state. -/
theorem Always.foldl {next : σ → α → σ} {s : σ} {acts : List α}
    (h : Always (total next) P s acts) : P (acts.foldl next s) := by
  induction acts generalizing s with
  | nil => exact h
  | cons a acts ih => exact ih (h.2 _ rfl)

/-- The exact rule for steps that never fail. -/
theorem always_total_iff_of {next : σ → α → σ} {Inv : σ → Prop} {R : σ → α → Prop}
    (hInv : ∀ s a, Inv s → R s a → Inv (next s a))
    (hstep : ∀ s a, Inv s → R s a → P s → (P (next s a) ↔ Q s a))
    {s : σ} (hs : Inv s) (hP : P s) {acts : List α} (hR : EachStep (total next) R s acts) :
    Always (total next) P s acts ↔ EachStep (total next) Q s acts := by
  refine always_iff_eachStep_of (fun s a h hR => ⟨_, rfl, hInv s a h hR⟩) ?_ hs hP hR
  intro s a s' h hR hP hs'
  obtain rfl := Except.ok.inj hs'
  exact hstep s a h hR hP

/-- The exact rule for steps that never fail, for all runs. -/
theorem always_total_iff {next : σ → α → σ} {Inv : σ → Prop}
    (hInv : ∀ s a, Inv s → Inv (next s a))
    (hstep : ∀ s a, Inv s → P s → (P (next s a) ↔ Q s a))
    {s : σ} (hs : Inv s) (hP : P s) (acts : List α) :
    Always (total next) P s acts ↔ EachStep (total next) Q s acts :=
  always_total_iff_of (fun s a h _ => hInv s a h) (fun s a h _ => hstep s a h) hs hP
    (eachStep_of_forall (fun _ _ => trivial) s acts)

/-- The exact rule for steps that never fail, where `P` is all there is to know of a state. -/
theorem always_total_iff_self {next : σ → α → σ}
    (hstep : ∀ s a, P s → (P (next s a) ↔ Q s a)) {s : σ} (hP : P s) (acts : List α) :
    Always (total next) P s acts ↔ EachStep (total next) Q s acts := by
  have hinv : ∀ (s : σ) (a : α), True → True := fun _ _ h => h
  exact always_total_iff hinv (fun s a _ hs => hstep s a hs) trivial hP acts

/-! ### Histories

A history is the list of what has happened, the latest first. -/

section Since

variable {holds begins : α → List α → Prop}

/-- Something that `begins` has happened, and since then everything that happened `holds`.
Both may depend on the history before. -/
def Since (holds begins : α → List α → Prop) (history : List α) : Prop :=
  ∃ later e earlier, history = later ++ e :: earlier ∧ begins e earlier ∧
    ∀ newer e' older, later = newer ++ e' :: older → holds e' (older ++ e :: earlier)

/-- Nothing has held since an event in an empty history. -/
theorem not_since_nil : ¬ Since holds begins [] := by
  rintro ⟨later, e, earlier, h, -⟩
  cases later <;> cases h

/-- What the latest entry of a history does to it. -/
theorem since_cons {a : α} {history : List α} :
    Since holds begins (a :: history) ↔
      begins a history ∨ holds a history ∧ Since holds begins history := by
  constructor
  · rintro ⟨later, e, earlier, h, hbegins, hholds⟩
    rcases later with - | ⟨b, later⟩
    · obtain ⟨rfl, rfl⟩ := List.cons.inj h
      exact .inl hbegins
    · obtain ⟨rfl, rfl⟩ := List.cons.inj h
      refine .inr ⟨hholds [] a later rfl, later, e, earlier, rfl, hbegins, ?_⟩
      intro newer e' older hlater
      exact hholds (a :: newer) e' older (congrArg (a :: ·) hlater)
  · rintro (hbegins | ⟨hholds, later, e, earlier, rfl, hbegins, hlater⟩)
    · refine ⟨[], a, history, rfl, hbegins, fun newer e' older h => ?_⟩
      cases newer <;> cases h
    · refine ⟨a :: later, e, earlier, rfl, hbegins, fun newer e' older h => ?_⟩
      rcases newer with - | ⟨b, newer⟩
      · obtain ⟨rfl, rfl⟩ := List.cons.inj h
        exact hholds
      · exact hlater newer e' older (List.cons.inj h).2

end Since

/-! ### Interleavings -/

/-- The last list is an interleaving of the first two. -/
inductive Interleave {α : Type} : List α → List α → List α → Prop
  | nil : Interleave [] [] []
  | left {x : α} {xs ys zs : List α} : Interleave xs ys zs → Interleave (x :: xs) ys (x :: zs)
  | right {y : α} {xs ys zs : List α} : Interleave xs ys zs → Interleave xs (y :: ys) (y :: zs)

/-- An interleaving makes the steps of the two programs, each as often as they do. -/
theorem Interleave.perm {xs ys zs : List α} (h : Interleave xs ys zs) : zs.Perm (xs ++ ys) := by
  induction h with
  | nil => exact .nil
  | left h ih => exact ih.cons _
  | right h ih => exact (ih.cons _).trans List.perm_middle.symm

/-! ### Order in a run -/

section Before

variable [DecidableEq α]

/-- Step `a` comes before step `b`. -/
def Before (acts : List α) (a b : α) : Prop := acts.idxOf a < acts.idxOf b

instance (acts : List α) (a b : α) : Decidable (Before acts a b) :=
  inferInstanceAs (Decidable (_ < _))

/-- What is first in a run comes before everything else in it. -/
theorem not_before_cons (acts : List α) (a b : α) :
    ¬ Before (b :: acts) a b := by
  simp [Before]

/-- The first event of a run comes before every other event. -/
theorem before_cons (acts : List α) {a b : α} (h : a ≠ b) :
    Before (a :: acts) a b := by
  simp [Before, List.idxOf_cons_ne acts h]

/-- An event in front of the run does not change the order of two others. -/
theorem before_cons_iff (acts : List α) {a b c : α} (ha : c ≠ a) (hb : c ≠ b) :
    Before (c :: acts) a b ↔ Before acts a b := by
  simp [Before, List.idxOf_cons_ne acts ha, List.idxOf_cons_ne acts hb]

end Before

/-! ### Registers -/

section Register

variable {V : Type} {next : σ → α → σ} {store load : α} {v : V} {cell : σ → V}
  {view : σ → Option V}

/-- `store` puts `v` into a cell, `load` takes the value of the cell into a view of it, and no
other step touches the two. -/
structure Register (next : σ → α → σ) (store load : α) (v : V) (cell : σ → V)
    (view : σ → Option V) : Prop where
  cell_store : ∀ s, cell (next s store) = v
  view_load : ∀ s, view (next s load) = some (cell s)
  cell_frame : ∀ s a, a ≠ store → cell (next s a) = cell s
  view_frame : ∀ s a, a ≠ load → view (next s a) = view s

/-- Without a load the view stays as it is. -/
theorem Register.view_foldl (h : Register next store load v cell view) {acts : List α}
    (hload : load ∉ acts) (s : σ) : view (acts.foldl next s) = view s := by
  induction acts generalizing s with
  | nil => rfl
  | cons a acts ih =>
      have ha := List.ne_of_not_mem_cons hload
      rw [List.foldl_cons, ih (List.not_mem_of_not_mem_cons hload), h.view_frame s a ha.symm]

/-- **What a load sees.** In a run with one load, the load sees the stored value when the
store comes before it, and the first value of the cell when not. -/
theorem Register.view_run [DecidableEq α] (h : Register next store load v cell view)
    (hne : store ≠ load) {acts : List α} (hload : load ∈ acts) (hnodup : acts.Nodup) (s : σ) :
    view (acts.foldl next s) = some (if Before acts store load then v else cell s) := by
  induction acts generalizing s with
  | nil => cases hload
  | cons a acts ih =>
      obtain ⟨ha, hacts⟩ := List.nodup_cons.mp hnodup
      rw [List.foldl_cons]
      by_cases haload : a = load
      · subst haload
        rw [h.view_foldl ha, h.view_load, if_neg (not_before_cons acts store a)]
      have hload : load ∈ acts := (List.mem_cons.mp hload).resolve_left (Ne.symm haload)
      rw [ih hload hacts]
      by_cases hastore : a = store
      · subst hastore
        rw [h.cell_store, ite_self, if_pos (before_cons acts hne)]
      · rw [h.cell_frame s a hastore]
        simp only [before_cons_iff acts hastore haload]

end Register

end Run
