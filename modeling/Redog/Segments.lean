import Redog.BufReader

/-!
# Segments

The network may cut a stream of bytes anywhere, so a program ought not to depend on where
the chunks of a socket end. Two states are related here when the same bytes are still to be
read from both, and two programs `Agree` when from related states they give related results
and leave related states again. Programs that agree compose along `bind`.

A program that reads exactly as many bytes as it asks for agrees with itself. So does one
that reads lines from a buffered reader, as long as it stays with the reader: what is
buffered and what is not depends on the chunks.

## Main results

* `Agree.bind`, `Agree.pure`, `Agree.throw`, `Agree.get`: the rules of composition.
* `agree_readExact`: `read_exact` does not depend on the chunks.
* `BufReader.agree_readLine`: neither does `read_line`.
-/

namespace Rust

/-! ### Programs that agree -/

section Agree

variable {σ ε ε' α β γ δ : Type} {R : σ → σ → Prop} {V : α → β → Prop} {W : γ → δ → Prop}

/-- Related results in related states: both return related values, or both fail with the same
error. -/
inductive AgreeOn (R : σ → σ → Prop) (V : α → β → Prop) :
    EStateM.Result ε σ α → EStateM.Result ε σ β → Prop
  | ok {a : α} {b : β} {s t : σ} (hV : V a b) (hR : R s t) : AgreeOn R V (.ok a s) (.ok b t)
  | error {e : ε} {s t : σ} (hR : R s t) : AgreeOn R V (.error e s) (.error e t)

/-- From related states the programs give related results, or the same error, and leave
related states. -/
def Agree (R : σ → σ → Prop) (V : α → β → Prop) (m : EStateM ε σ α) (m' : EStateM ε σ β) :
    Prop :=
  ∀ ⦃s t : σ⦄, R s t → AgreeOn R V (m s) (m' t)

namespace Agree

/-- Programs that only return related values agree, because each of them leaves its state as it
was. -/
protected theorem pure {a : α} {b : β} (h : V a b) :
    Agree R V (pure a : EStateM ε σ α) (pure b) :=
  fun _ _ hR => .ok h hR

/-- Two programs that fail with the same error agree: each leaves the state it was called in. -/
protected theorem throw (e : ε) : Agree R V (throw e : EStateM ε σ α) (throw e) :=
  fun _ _ hR => .error hR

/-- The state itself is a related result. -/
protected theorem get : Agree R R (get : EStateM ε σ σ) get :=
  fun _ _ hR => .ok hR hR

/-- Agreement is kept by sequencing: the second programs need to agree only on related results of
the first. -/
protected theorem bind {m : EStateM ε σ α} {m' : EStateM ε σ β} {f : α → EStateM ε σ γ}
    {f' : β → EStateM ε σ δ} (hm : Agree R V m m') (hf : ∀ a b, V a b → Agree R W (f a) (f' b)) :
    Agree R W (m >>= f) (m' >>= f') := by
  intro s t hR
  have hres := hm hR
  simp only [bind, EStateM.bind]
  generalize m s = res at hres
  generalize m' t = res' at hres
  cases hres with
  | ok hV hR => exact hf _ _ hV hR
  | error hR => exact .error hR

/-- After a program whose result does not depend on the state. -/
theorem bind_eq {m : EStateM ε σ α} {f : α → EStateM ε σ γ} {f' : α → EStateM ε σ δ}
    (hm : Agree R Eq m m) (hf : ∀ a, Agree R W (f a) (f' a)) :
    Agree R W (m >>= f) (m >>= f') := by
  refine hm.bind fun a b hab => ?_
  subst hab
  exact hf a

/-- Programs that agree go on to agree when the same function is applied to the errors of both. -/
protected theorem adaptExcept {m : EStateM ε σ α} {m' : EStateM ε σ β} (hm : Agree R V m m')
    (g : ε → ε') : Agree R V (EStateM.adaptExcept g m) (EStateM.adaptExcept g m') := by
  intro s t hR
  have hres := hm hR
  simp only [EStateM.adaptExcept]
  generalize m s = res at hres
  generalize m' t = res' at hres
  cases hres with
  | ok hV hR => exact .ok hV hR
  | error hR => exact .error hR

/-- A computation that does not look at the state agrees with itself, whatever the two states
are. -/
protected theorem ofExcept (x : Except ε α) :
    Agree R Eq (MonadExcept.ofExcept x : EStateM ε σ α) (MonadExcept.ofExcept x) := by
  cases x with
  | error e => exact .throw e
  | ok a => exact .pure rfl

end Agree

end Agree

/-! ### Sockets -/

/-- The same bytes are still to be read, with the same end, and the same have been written. -/
structure SameStream (s t : Socket) : Prop where
  unread : s.unread = t.unread
  fault : s.fault = t.fault
  written : s.written = t.written

/-- What a read of more bytes than there are ends with. -/
def endError (fault : Option IoError) : IoError :=
  fault.getD ⟨.unexpectedEof, "early eof"⟩

/-- A read delivers a nonempty initial part of what is unread; when nothing is, it delivers
nothing or the fault of the socket. -/
theorem read_ends {cap : ℕ} (hcap : 0 < cap) (s : Socket) :
    (s.unread = [] ∧
      (s.fault = none ∧ read cap s = .ok ⟨[], Nat.zero_le cap⟩ s ∨
        ∃ e, s.fault = some e ∧ read cap s = .error e s)) ∨
    ∃ bytes s', read cap s = .ok bytes s' ∧ bytes.1 ≠ [] ∧ s.unread = bytes.1 ++ s'.unread ∧
      s'.fault = s.fault ∧ s'.written = s.written := by
  rcases s with ⟨incoming, fault, written⟩
  cases incoming with
  | nil =>
      refine .inl ⟨rfl, ?_⟩
      cases fault with
      | none => exact .inl ⟨rfl, rfl⟩
      | some e => exact .inr ⟨e, rfl, rfl⟩
  | cons chunk later =>
      refine .inr ⟨_, _, rfl, ?_, ?_, rfl, rfl⟩
      · have hpos := List.length_pos_iff.mpr chunk.2
        rw [← List.length_pos_iff, List.length_take]
        omega
      · simp only [Socket.unread, flatten_putBack, List.map_cons, List.flatten_cons]
        rw [← List.append_assoc, List.take_append_drop]

/-- `read_exact` takes the first bytes of what is unread; when there are too few, it takes all
of them and fails. -/
theorem readExact_spec (n : ℕ) (s : Socket) :
    (∃ v s', readExact n s = .ok v s' ∧ s.unread = v.toList ++ s'.unread ∧
      s'.fault = s.fault ∧ s'.written = s.written) ∨
    ∃ s', readExact n s = .error (endError s.fault) s' ∧ s.unread.length < n ∧
      s'.unread = [] ∧ s'.fault = s.fault ∧ s'.written = s.written := by
  -- On the bytes still missing; each chunk provides at least one of them.
  induction n using Nat.strongRecOn generalizing s with
  | ind n ih =>
  rcases Nat.eq_zero_or_pos n with rfl | hn
  · rw [readExact, dif_pos rfl]
    exact .inl ⟨_, s, rfl, rfl, rfl, rfl⟩
  rcases read_ends hn s with
    ⟨hnil, ⟨hfault, hread⟩ | ⟨e, hfault, hread⟩⟩ | ⟨bytes, t, hread, hne, hu, hf, hw⟩
  · refine .inr ⟨s, ?_, ?_, hnil, rfl, rfl⟩
    · rw [readExact, dif_neg (by omega), hfault]
      simp only [bind, EStateM.bind, hread]
      rfl
    · rw [hnil]
      exact hn
  · refine .inr ⟨s, ?_, ?_, hnil, rfl, rfl⟩
    · rw [readExact, dif_neg (by omega), hfault]
      simp only [bind, EStateM.bind, hread]
      rfl
    · rw [hnil]
      exact hn
  · have hpos := List.length_pos_iff.mpr hne
    rcases ih (n - bytes.1.length) (by omega) t with
      ⟨more, t', hmore, hu', hf', hw'⟩ | ⟨t', hmore, hlt, hnil, hf', hw'⟩
    · refine .inl ⟨⟨bytes.1 ++ more.1, by
        rw [List.length_append, more.2, Nat.add_sub_cancel' bytes.2]⟩, t', ?_, ?_,
        hf'.trans hf, hw'.trans hw⟩
      · rw [readExact, dif_neg (by omega)]
        simp only [bind, EStateM.bind, hread, dif_neg hne, hmore]
        rfl
      · rw [hu, hu']
        exact (List.append_assoc _ _ _).symm
    · refine .inr ⟨t', ?_, ?_, hnil, hf'.trans hf, hw'.trans hw⟩
      · rw [readExact, dif_neg (by omega), ← hf]
        simp only [bind, EStateM.bind, hread, dif_neg hne, hmore]
      · rw [hu, List.length_append]
        omega

/-- `read_exact` does not depend on the chunks. -/
theorem agree_readExact (n : ℕ) : Agree SameStream Eq (readExact n) (readExact n) := by
  intro s t h
  rcases readExact_spec n s with ⟨v, s', hs, hu, hf, hw⟩ | ⟨s', hs, hlt, hu, hf, hw⟩ <;>
    rcases readExact_spec n t with ⟨v', t', ht, hu', hf', hw'⟩ | ⟨t', ht, hlt', hu', hf', hw'⟩ <;>
    rw [hs, ht]
  · have heq : v.toList ++ s'.unread = v'.toList ++ t'.unread :=
      (hu.symm.trans h.unread).trans hu'
    obtain ⟨hv, hrest⟩ :=
      List.append_inj heq (v.toList_length.trans v'.toList_length.symm)
    refine .ok (Subtype.ext hv) ⟨hrest, ?_, ?_⟩
    · rw [hf, hf', h.fault]
    · rw [hw, hw', h.written]
  · rw [← h.unread, hu, List.length_append, v.toList_length] at hlt'
    omega
  · rw [h.unread, hu', List.length_append, v'.toList_length] at hlt
    omega
  · rw [h.fault]
    refine .error ⟨hu.trans hu'.symm, ?_, ?_⟩
    · rw [hf, hf', h.fault]
    · rw [hw, hw', h.written]

/-- Writing the same bytes to both sockets touches nothing that is still to be read, so they stay
the same stream. -/
theorem SameStream.send {s t : Socket} (h : SameStream s t) (bytes : List UInt8) :
    SameStream (s.send bytes) (t.send bytes) where
  unread := h.unread
  fault := h.fault
  written := congrArg (· ++ bytes) h.written

/-- A program that writes cannot see the segmentation: it behaves the same on sockets of the same
stream. -/
theorem agree_writeAll (bytes : List UInt8) :
    Agree SameStream Eq (writeAll bytes) (writeAll bytes) :=
  fun _ _ h => .ok rfl (h.send bytes)

/-! ### Buffered readers -/

namespace BufReader

/-- The same bytes are still to be read, buffered or not, with the same end, and the same have
been written. -/
structure SameUnread (r t : BufReader) : Prop where
  unread : r.unread = t.unread
  fault : r.inner.fault = t.inner.fault
  written : r.inner.written = t.inner.written

/-- Fresh readers around sockets of the same stream have buffered nothing yet and so still read the
same bytes. -/
theorem sameUnread_new {s t : Socket} (h : SameStream s t) : SameUnread (.new s) (.new t) where
  unread := h.unread
  fault := h.fault
  written := h.written

/-- The reader is still one of the same socket. -/
def SameSocket (r r' : BufReader) : Prop :=
  r'.inner.fault = r.inner.fault ∧ r'.inner.written = r.inner.written

/-- Filling the buffer loses no byte: it fails with the fault of the socket when nothing is left, or
gives what is buffered, which is empty only at the end. -/
theorem fillBuf_spec (r : BufReader) :
    (∃ available r', fillBuf r = .ok available r' ∧ r'.buf = available ∧
      r'.unread = r.unread ∧ SameSocket r r' ∧
      (available = [] → r.unread = [] ∧ r.inner.fault = none)) ∨
    ∃ e r', fillBuf r = .error e r' ∧ r.unread = [] ∧ r'.unread = [] ∧
      r.inner.fault = some e ∧ SameSocket r r' := by
  rcases r with ⟨buf, inner⟩
  by_cases hbuf : buf = []
  · subst hbuf
    simp only [fillBuf, if_true]
    rcases read_ends (by decide : 0 < capacity) inner with
      ⟨hnil, ⟨hfault, hread⟩ | ⟨e, hfault, hread⟩⟩ | ⟨bytes, t, hread, hne, hu, hf, hw⟩
    · rw [hread]
      exact .inl ⟨[], _, rfl, rfl, rfl, ⟨rfl, rfl⟩, fun _ => ⟨hnil, hfault⟩⟩
    · rw [hread]
      exact .inr ⟨e, _, rfl, hnil, hnil, hfault, rfl, rfl⟩
    · rw [hread]
      exact .inl ⟨bytes.1, _, rfl, rfl, hu.symm, ⟨hf, hw⟩, fun h => absurd h hne⟩
  · rw [fillBuf, if_neg hbuf]
    exact .inl ⟨buf, _, rfl, rfl, rfl, ⟨rfl, rfl⟩, fun h => absurd h hbuf⟩

/-- What reading up to a delimiter does, on the bytes alone. -/
def UntilSpec (delim : UInt8) (r : BufReader) :
    EStateM.Result IoError BufReader (List UInt8) → Prop
  | .ok line r' => r.unread = line ++ r'.unread ∧ SameSocket r r' ∧
      ((∃ l, line = l ++ [delim] ∧ delim ∉ l) ∨
        delim ∉ line ∧ r'.unread = [] ∧ r.inner.fault = none)
  | .error e r' => delim ∉ r.unread ∧ r'.unread = [] ∧ SameSocket r r' ∧
      r.inner.fault = some e

/-- `read_until` keeps its contract from every state of the buffer, by induction on what the reader
still has to read. -/
theorem readUntil_spec (delim : UInt8) (r : BufReader) :
    UntilSpec delim r (readUntil delim r) := by
  -- On the bytes still to be read; each filling of the buffer provides at least one of them.
  induction hn : r.unread.length using Nat.strong_induction_on generalizing r with
  | _ n ih =>
  rcases fillBuf_spec r with
    ⟨available, t, hfill, hbuf, hunread, hsame, hend⟩ | ⟨e, t, hfill, hnil, hnil', hfault, hsame⟩
  · rw [readUntil, hfill]
    simp only
    cases hi : find delim available with
    | some i =>
        obtain ⟨pre, post, rfl, hpre, rfl⟩ := find_eq_some_iff.mp hi
        have htake : (pre ++ delim :: post).take (pre.length + 1) = pre ++ [delim] := by
          rw [List.take_length_add_append, List.take_succ_cons, List.take_zero]
        have hdrop : (pre ++ delim :: post).drop (pre.length + 1) = post := by
          rw [List.drop_length_add_append, List.drop_succ_cons, List.drop_zero]
        simp only [htake, hdrop]
        refine ⟨?_, hsame, .inl ⟨pre, rfl, hpre⟩⟩
        rw [← hunread, unread, unread, hbuf]
        simp
    | none =>
        have hnotMem : delim ∉ available := find_eq_none_iff.mp hi
        by_cases hne : available = []
        · obtain ⟨hnil, hfault⟩ := hend hne
          simp only [if_pos hne]
          exact ⟨hunread.symm, hsame, .inr ⟨List.not_mem_nil, hunread.trans hnil, hfault⟩⟩
        · have hless : (BufReader.mk [] t.inner).unread.length < n := by
            have hpos := List.length_pos_iff.mpr hne
            rw [← hn, ← hunread, unread, unread, hbuf, List.length_append, List.length_append]
            exact Nat.add_lt_add_right hpos _
          have hrest := ih _ hless ⟨[], t.inner⟩ rfl
          have hall : r.unread = available ++ (BufReader.mk [] t.inner).unread := by
            rw [← hunread, unread, hbuf]
            rfl
          simp only [if_neg hne]
          generalize readUntil delim ⟨[], t.inner⟩ = res at hrest
          cases res with
          | ok more t' =>
              obtain ⟨hu, hsame', hended⟩ := hrest
              refine ⟨?_, ⟨hsame'.1.trans hsame.1, hsame'.2.trans hsame.2⟩, ?_⟩
              · rw [hall, hu, List.append_assoc]
              · rcases hended with ⟨l, rfl, hl⟩ | ⟨hl, hnil, hfault⟩
                · refine .inl ⟨available ++ l, (List.append_assoc _ _ _).symm, ?_⟩
                  exact fun h => (List.mem_append.mp h).elim hnotMem hl
                · exact .inr ⟨fun h => (List.mem_append.mp h).elim hnotMem hl, hnil,
                    hsame.1.symm.trans hfault⟩
          | error e t' =>
              obtain ⟨hl, hnil, hsame', hfault⟩ := hrest
              refine ⟨?_, hnil, ⟨hsame'.1.trans hsame.1, hsame'.2.trans hsame.2⟩,
                hsame.1.symm.trans hfault⟩
              rw [hall]
              exact fun h => (List.mem_append.mp h).elim hnotMem hl
  · rw [readUntil, hfill]
    exact ⟨by rw [hnil]; exact List.not_mem_nil, hnil', hsame, hfault⟩

/-- A line that was read is decided by the bytes. -/
theorem line_unique {delim : UInt8} {line line' rest rest' : List UInt8}
    (heq : line ++ rest = line' ++ rest')
    (hline : (∃ l, line = l ++ [delim] ∧ delim ∉ l) ∨ delim ∉ line ∧ rest = [])
    (hline' : (∃ l, line' = l ++ [delim] ∧ delim ∉ l) ∨ delim ∉ line' ∧ rest' = []) :
    line = line' ∧ rest = rest' := by
  have hends : ∀ {l rest line' : List UInt8}, l ++ [delim] ++ rest = line' ++ [] →
      delim ∉ line' → False := by
    intro l rest line' heq hline'
    rw [List.append_nil] at heq
    exact hline' (heq ▸ by simp)
  rcases hline with ⟨l, rfl, hl⟩ | ⟨hl, rfl⟩
  · rcases hline' with ⟨l', rfl, hl'⟩ | ⟨hl', rfl⟩
    · have hfind : find delim (l ++ delim :: rest) = some l.length :=
        find_eq_some_iff.mpr ⟨l, rest, rfl, hl, rfl⟩
      have hfind' : find delim (l ++ delim :: rest) = some l'.length :=
        find_eq_some_iff.mpr ⟨l', rest', by simpa using heq, hl', rfl⟩
      refine List.append_inj heq ?_
      rw [List.length_append, List.length_append,
        Option.some.inj (hfind.symm.trans hfind')]
    · exact (hends heq hl').elim
  · rcases hline' with ⟨l', rfl, hl'⟩ | ⟨hl', rfl⟩
    · exact (hends heq.symm hl).elim
    · exact List.append_inj' heq rfl

/-- `read_until` sees nothing of the segmentation: readers with the same bytes to read give the same
result. -/
theorem agree_readUntil (delim : UInt8) :
    Agree SameUnread Eq (readUntil delim) (readUntil delim) := by
  intro r t h
  have hr := readUntil_spec delim r
  have ht := readUntil_spec delim t
  have hmem : ∀ {l rest : List UInt8}, delim ∈ (l ++ [delim]) ++ rest := by simp
  generalize readUntil delim r = res at hr
  generalize readUntil delim t = res' at ht
  cases res with
  | ok line r' =>
      obtain ⟨hu, ⟨hf, hw⟩, hended⟩ := hr
      cases res' with
      | ok line' t' =>
          obtain ⟨hu', ⟨hf', hw'⟩, hended'⟩ := ht
          obtain ⟨rfl, hrest⟩ := line_unique ((hu.symm.trans h.unread).trans hu')
            (hended.imp_right fun h => ⟨h.1, h.2.1⟩) (hended'.imp_right fun h => ⟨h.1, h.2.1⟩)
          refine .ok rfl ⟨hrest, ?_, ?_⟩
          · rw [hf, hf', h.fault]
          · rw [hw, hw', h.written]
      | error e t' =>
          obtain ⟨hnotMem, -, -, hfault⟩ := ht
          rw [← h.unread, hu] at hnotMem
          rcases hended with ⟨l, rfl, hl⟩ | ⟨-, -, hnone⟩
          · exact absurd hmem hnotMem
          · rw [← h.fault, hnone] at hfault
            cases hfault
  | error e r' =>
      obtain ⟨hnotMem, hnil, ⟨hf, hw⟩, hfault⟩ := hr
      cases res' with
      | ok line' t' =>
          obtain ⟨hu', -, hended'⟩ := ht
          rw [h.unread, hu'] at hnotMem
          rcases hended' with ⟨l, rfl, hl⟩ | ⟨-, -, hnone⟩
          · exact absurd hmem hnotMem
          · rw [h.fault, hnone] at hfault
            cases hfault
      | error e' t' =>
          obtain ⟨-, hnil', ⟨hf', hw'⟩, hfault'⟩ := ht
          rw [← h.fault, hfault] at hfault'
          obtain rfl := Option.some.inj hfault'
          refine .error ⟨hnil.trans hnil'.symm, ?_, ?_⟩
          · rw [hf, hf', h.fault]
          · rw [hw, hw', h.written]

/-- Neither does `read_line` depend on the chunks. -/
theorem agree_readLine : Agree SameUnread Eq readLine readLine := by
  intro r t h
  have hres := agree_readUntil 0x0A h
  simp only [readLine]
  generalize readUntil 0x0A r = res at hres
  generalize readUntil 0x0A t = res' at hres
  cases hres with
  | @ok line line' r' t' hV hR =>
      subst hV
      cases hline : fromUtf8 line with
      | some text =>
          simp only [hline]
          exact .ok rfl hR
      | none =>
          simp only [hline]
          exact .error hR
  | error hR => exact .error hR

/-- Programs that own a reader each give related results, or the same error. -/
theorem agree_own {ε α β : Type} {V : α → β → Prop} {m : EStateM ε BufReader α}
    {m' : EStateM ε BufReader β} (hm : Agree SameUnread V m m') {s t : Socket}
    (h : SameStream s t) :
    (∃ a b, own s m = .ok a ∧ own t m' = .ok b ∧ V a b) ∨
      ∃ e, own s m = .error e ∧ own t m' = .error e := by
  have hres := hm (sameUnread_new h)
  simp only [own]
  generalize m (.new s) = res at hres
  generalize m' (.new t) = res' at hres
  cases hres with
  | ok hV hR => exact .inl ⟨_, _, rfl, rfl, hV⟩
  | error hR => exact .inr ⟨_, rfl, rfl⟩

end BufReader

end Rust
