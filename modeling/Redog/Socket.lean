import Mathlib.Data.Vector.Basic

/-!
# Sockets

A connected socket as the reader of the other side sees it: the bytes still to be
delivered, cut into the chunks that successive reads deliver, and the bytes written so far.
A read takes at most its buffer from the first chunk and leaves the rest of that chunk for
the next read. After the last chunk a read reports the end of the stream, or the I/O error
the connection broke with. Writes succeed.

Programs over a socket are in `EStateM`, which keeps the state of the socket when they
fail: what was written before the failure stays written.

A `Dialogue` describes such a program without mentioning chunks: a grammar relates the
bytes it consumes, the bytes it sends and its result, and a predicate bounds what it has
sent when it fails. Dialogues compose along `bind`, and the description settles what the
program does on truncated input (`Dialogue.truncated`).

## Main results

* `reads_readExact`: `read_exact` consumes exactly the bytes it returns, however they
  are cut into chunks.
* `Dialogue.bind`, `Dialogue.guard`, `Reads.bind`, `Reads.bind_dialogue`: the rules of
  composition.
* `Dialogue.truncated`: on a proper initial part of a consumed input the program fails.
-/

namespace Rust

/-! ### The socket -/

/-- The kinds of `std::io::Error` that are told apart. -/
inductive IoErrorKind
  | unexpectedEof | invalidData | other
deriving DecidableEq, Repr

/-- `std::io::Error`, as its kind and the text it is displayed as. -/
structure IoError where
  kind : IoErrorKind
  text : String
deriving DecidableEq, Repr

/-- What one read of a socket delivers, at least one byte. An empty read is the end of the
stream. -/
abbrev Chunk := {bytes : List UInt8 // bytes ≠ []}

/-- A connected socket: what the peer sends, read by read, the error behind it, if any, and what has
been written so far. -/
structure Socket where
  incoming : List Chunk
  fault : Option IoError := none
  written : List UInt8 := []

/-- The bytes that reading the socket to the end yields. -/
def Socket.unread (s : Socket) : List UInt8 :=
  (s.incoming.map Subtype.val).flatten

/-- A socket that delivers the bytes in one piece. -/
def Socket.ofBytes (bytes : List UInt8) : Socket where
  incoming := if h : bytes = [] then [] else [⟨bytes, h⟩]

/-- A socket that delivers bytes in one piece has just these bytes to read, also when there are
none. -/
@[simp] theorem Socket.unread_ofBytes (bytes : List UInt8) :
    (Socket.ofBytes bytes).unread = bytes := by
  rw [Socket.ofBytes, Socket.unread]
  split
  · next h => exact h.symm
  · simp

/-- Puts the undelivered part of a chunk back in front. -/
def putBack (bytes : List UInt8) (later : List Chunk) : List Chunk :=
  if h : bytes = [] then later else ⟨bytes, h⟩ :: later

/-- Putting bytes back in front of a socket's chunks puts them back in front of what is still to be
read. -/
theorem flatten_putBack (bytes : List UInt8) (later : List Chunk) :
    ((putBack bytes later).map Subtype.val).flatten =
      bytes ++ (later.map Subtype.val).flatten := by
  rw [putBack]
  split
  · next h => rw [h, List.nil_append]
  · simp

/-- `AsyncReadExt::read` into a buffer of `cap` bytes. -/
def read (cap : ℕ) : EStateM IoError Socket {bytes : List UInt8 // bytes.length ≤ cap} :=
  fun s =>
    match s.incoming with
    | [] =>
        match s.fault with
        | none => .ok ⟨[], Nat.zero_le cap⟩ s
        | some e => .error e s
    | chunk :: later =>
        .ok ⟨chunk.1.take cap, List.length_take_le cap chunk.1⟩
          { s with incoming := putBack (chunk.1.drop cap) later }

/-- `AsyncReadExt::read_exact` of `n` bytes: reads until the buffer is full. -/
def readExact (n : ℕ) : EStateM IoError Socket (List.Vector UInt8 n) :=
  if hn : n = 0 then pure ⟨[], hn.symm⟩
  else do
    let bytes ← read n
    if h : bytes.1 = [] then throw ⟨.unexpectedEof, "early eof"⟩
    else
      have hpos : 0 < bytes.1.length := List.length_pos_iff.mpr h
      let more ← readExact (n - bytes.1.length)
      pure ⟨bytes.1 ++ more.1, by
        rw [List.length_append, more.2, Nat.add_sub_cancel' bytes.2]⟩
termination_by n

/-- The socket after the bytes were written to it. -/
def Socket.send (s : Socket) (bytes : List UInt8) : Socket :=
  { s with written := s.written ++ bytes }

/-- `AsyncWriteExt::write_all`: all the bytes go out. Writing to a socket does not fail here. -/
def writeAll (bytes : List UInt8) : EStateM IoError Socket Unit :=
  fun s => .ok () (s.send bytes)

/-- A read delivers a nonempty initial part of what is unread, unless nothing is. -/
theorem read_cases {cap : ℕ} (hcap : 0 < cap) (s : Socket) :
    (s.unread = [] ∧
      (read cap s = .ok ⟨[], Nat.zero_le cap⟩ s ∨ ∃ e, read cap s = .error e s)) ∨
    ∃ bytes s', read cap s = .ok bytes s' ∧ bytes.1 ≠ [] ∧
      s.unread = bytes.1 ++ s'.unread ∧ s'.written = s.written := by
  rcases s with ⟨incoming, fault, written⟩
  cases incoming with
  | nil =>
      refine .inl ⟨rfl, ?_⟩
      cases fault with
      | none => exact .inl rfl
      | some e => exact .inr ⟨e, rfl⟩
  | cons chunk later =>
      refine .inr ⟨_, _, rfl, ?_, ?_, rfl⟩
      · have hpos := List.length_pos_iff.mpr chunk.2
        rw [← List.length_pos_iff, List.length_take]
        omega
      · simp only [Socket.unread, flatten_putBack, List.map_cons, List.flatten_cons]
        rw [← List.append_assoc, List.take_append_drop]

/-! ### Dialogues -/

variable {ε ε' α β : Type}

/-- The program consumes, sends and returns what `G` relates; when it fails it has sent
what `F` allows. -/
structure Dialogue (m : EStateM ε Socket α) (G : List UInt8 → List UInt8 → α → Prop)
    (F : List UInt8 → Prop) : Prop where
  sound : ∀ {s a s'}, m s = .ok a s' → ∃ consumed sent, G consumed sent a ∧
    s.unread = consumed ++ s'.unread ∧ s'.written = s.written ++ sent
  complete : ∀ {s consumed sent a rest}, G consumed sent a → s.unread = consumed ++ rest →
    ∃ s', m s = .ok a s' ∧ s'.unread = rest ∧ s'.written = s.written ++ sent
  failed : ∀ {s e s'}, m s = .error e s' → ∃ sent, F sent ∧ s'.written = s.written ++ sent

namespace Dialogue

variable {m : EStateM ε Socket α} {f : α → EStateM ε Socket β}
  {G G' : List UInt8 → List UInt8 → α → Prop} {H : α → List UInt8 → List UInt8 → β → Prop}
  {F F' : List UInt8 → Prop}

/-- A dialogue in other words: the same exchanges, and at least the same failures. -/
theorem congr (h : Dialogue m G F) (hG : ∀ c w a, G c w a ↔ G' c w a)
    (hF : ∀ w, F w → F' w) : Dialogue m G' F' where
  sound hs := by
    obtain ⟨c, w, hg, hrest⟩ := h.sound hs
    exact ⟨c, w, (hG c w _).mp hg, hrest⟩
  complete hg := h.complete ((hG _ _ _).mpr hg)
  failed hs := by
    obtain ⟨w, hw, hrest⟩ := h.failed hs
    exact ⟨w, hF w hw, hrest⟩

/-- A program that fails in fewer ways than allowed still keeps the dialogue. -/
theorem weaken (h : Dialogue m G F) (hF : ∀ w, F w → F' w) : Dialogue m G F' :=
  h.congr (fun _ _ _ => Iff.rfl) hF

/-- A program that only returns a value consumes nothing, sends nothing, and never fails. -/
protected theorem pure (a : α) :
    Dialogue (pure a : EStateM ε Socket α) (fun c w b => c = [] ∧ w = [] ∧ b = a)
      (fun _ => False) where
  sound := by
    rintro s b s' h
    cases h
    exact ⟨[], [], ⟨rfl, rfl, rfl⟩, rfl, (List.append_nil _).symm⟩
  complete := by
    rintro s _ _ _ rest ⟨rfl, rfl, rfl⟩ h
    exact ⟨s, rfl, h, (List.append_nil _).symm⟩
  failed h := by cases h

/-- A program that only fails takes part in no exchange, and has sent nothing when it fails. -/
protected theorem throw (e : ε) (hF : F []) :
    Dialogue (throw e : EStateM ε Socket α) (fun _ _ _ => False) F where
  sound h := by cases h
  complete := False.elim
  failed := by
    rintro s e' s' h
    cases h
    exact ⟨[], hF, (List.append_nil _).symm⟩

/-- Running one program after the other consumes and sends one after the other. -/
protected theorem bind (hm : Dialogue m G F) (hf : ∀ a, Dialogue (f a) (H a) F') :
    Dialogue (m >>= f)
      (fun c w b => ∃ a c₁ w₁ c₂ w₂, G c₁ w₁ a ∧ H a c₂ w₂ b ∧ c = c₁ ++ c₂ ∧ w = w₁ ++ w₂)
      (fun w => F w ∨ ∃ a c₁ w₁ w₂, G c₁ w₁ a ∧ F' w₂ ∧ w = w₁ ++ w₂) where
  sound := by
    intro s b s' h
    simp only [bind, EStateM.bind] at h
    cases hms : m s with
    | error e t =>
        rw [hms] at h
        cases h
    | ok a t =>
        rw [hms] at h
        obtain ⟨c₁, w₁, hg₁, hu₁, hw₁⟩ := hm.sound hms
        obtain ⟨c₂, w₂, hg₂, hu₂, hw₂⟩ := (hf a).sound h
        refine ⟨c₁ ++ c₂, w₁ ++ w₂, ⟨a, c₁, w₁, c₂, w₂, hg₁, hg₂, rfl, rfl⟩, ?_, ?_⟩
        · rw [hu₁, hu₂, List.append_assoc]
        · rw [hw₂, hw₁, List.append_assoc]
  complete := by
    rintro s _ _ b rest ⟨a, c₁, w₁, c₂, w₂, hg₁, hg₂, rfl, rfl⟩ hs
    rw [List.append_assoc] at hs
    obtain ⟨t, ht, hu, hw⟩ := hm.complete hg₁ hs
    obtain ⟨s', hs', hu', hw'⟩ := (hf a).complete hg₂ hu
    refine ⟨s', ?_, hu', ?_⟩
    · simp only [bind, EStateM.bind, ht, hs']
    · rw [hw', hw, List.append_assoc]
  failed := by
    intro s e s' h
    simp only [bind, EStateM.bind] at h
    cases hms : m s with
    | error e' t =>
        rw [hms] at h
        cases h
        obtain ⟨w, hF, hw⟩ := hm.failed hms
        exact ⟨w, .inl hF, hw⟩
    | ok a t =>
        rw [hms] at h
        obtain ⟨c₁, w₁, hg, -, hw₁⟩ := hm.sound hms
        obtain ⟨w₂, hF, hw₂⟩ := (hf a).failed h
        refine ⟨w₁ ++ w₂, .inr ⟨a, c₁, w₁, w₂, hg, hF, rfl⟩, ?_⟩
        rw [hw₂, hw₁, List.append_assoc]

/-- After a program that only writes, another one. -/
theorem write_bind {m : EStateM ε Socket Unit} {f : Unit → EStateM ε Socket β}
    {H : List UInt8 → List UInt8 → β → Prop} {bytes : List UInt8}
    (hm : Dialogue m (fun c w _ => c = [] ∧ w = bytes) (fun _ => False))
    (hf : Dialogue (f ()) H F) :
    Dialogue (m >>= f) (fun c w b => ∃ w', H c w' b ∧ w = bytes ++ w')
      (fun w => ∃ w', F w' ∧ w = bytes ++ w') := by
  refine (hm.bind fun _ => hf).congr (fun c w b => ?_) ?_
  · constructor
    · rintro ⟨_, _, _, c', w', ⟨rfl, rfl⟩, hh, rfl, rfl⟩
      exact ⟨w', hh, rfl⟩
    · rintro ⟨w', hh, rfl⟩
      exact ⟨(), [], bytes, c, w', ⟨rfl, rfl⟩, hh, rfl, rfl⟩
  · rintro w (h | ⟨_, _, _, w', ⟨-, rfl⟩, hw, rfl⟩)
    · exact h.elim
    · exact ⟨w', hw, rfl⟩

/-- A check before the program adds its condition to what is exchanged, and is silent where it
fails. -/
protected theorem guard {p : Prop} [Decidable p] (h : Dialogue m G F) (hF : F []) (e : ε) :
    Dialogue (if p then throw e else m) (fun c w a => ¬ p ∧ G c w a) F := by
  split
  · next hp =>
      refine (Dialogue.throw e hF).congr (fun _ _ _ => ?_) (fun _ hw => hw)
      exact ⟨False.elim, fun h => h.1 hp⟩
  · next hp =>
      refine h.congr (fun _ _ _ => ?_) (fun _ hw => hw)
      exact (and_iff_right hp).symm

/-- Renaming the errors of a program changes nothing of what is exchanged. -/
protected theorem adaptExcept (h : Dialogue m G F) (g : ε → ε') :
    Dialogue (EStateM.adaptExcept g m) G F where
  sound := by
    intro s a s' hs
    rw [EStateM.adaptExcept] at hs
    split at hs
    · cases hs
    · next heq =>
        cases hs
        exact h.sound heq
  complete := by
    intro s c w a rest hg hs
    obtain ⟨s', hs', hrest⟩ := h.complete hg hs
    exact ⟨s', by rw [EStateM.adaptExcept, hs'], hrest⟩
  failed := by
    intro s e s' hs
    rw [EStateM.adaptExcept] at hs
    split at hs
    · next heq =>
        cases hs
        exact h.failed heq
    · cases hs

/-- On a proper initial part of an input it consumes, the program fails: had it succeeded,
it would do the same on the whole input and leave some of it. -/
theorem truncated (h : Dialogue m G F) {c w : List UInt8} {a : α} (hg : G c w a)
    {s : Socket} (hpart : s.unread <+: c) (hne : s.unread ≠ c) :
    ∃ e s', m s = .error e s' ∧ ∃ sent, F sent ∧ s'.written = s.written ++ sent := by
  cases hs : m s with
  | error e s' => exact ⟨e, s', rfl, h.failed hs⟩
  | ok a' s' =>
      exfalso
      obtain ⟨c', w', hg', hu', -⟩ := h.sound hs
      obtain ⟨more, hmore⟩ := hpart
      have hwhole : (Socket.ofBytes c).unread = c ++ [] := by simp
      have hagain : (Socket.ofBytes c).unread = c' ++ (s'.unread ++ more) := by
        rw [Socket.unread_ofBytes, ← hmore, hu', List.append_assoc]
      obtain ⟨t, ht, hrest, -⟩ := h.complete hg hwhole
      obtain ⟨t', ht', hrest', -⟩ := h.complete hg' hagain
      have htt : t = t' := by
        rw [ht] at ht'
        cases ht'
        rfl
      rw [htt, hrest', List.append_eq_nil_iff] at hrest
      rw [hrest.2, List.append_nil] at hmore
      exact hne hmore

end Dialogue

/-- Nothing has been sent to the peer, so it cannot know yet what became of its request. -/
def Silent (sent : List UInt8) : Prop :=
  sent = []

/-- Where nothing has been sent, the program has been silent; this is what a failed read leaves. -/
theorem silent_nil : Silent [] := rfl

/-- The program only reads: it consumes and returns what `R` relates and sends nothing. -/
abbrev Reads (m : EStateM ε Socket α) (R : List UInt8 → α → Prop) : Prop :=
  Dialogue m (fun c w a => R c a ∧ w = []) Silent

namespace Reads

variable {m : EStateM ε Socket α} {f : α → EStateM ε Socket β} {R R' : List UInt8 → α → Prop}
  {S : α → List UInt8 → β → Prop}

/-- A reading program in other words: what it consumes and returns may be described another way. -/
theorem congr (h : Reads m R) (hR : ∀ c a, R c a ↔ R' c a) : Reads m R' :=
  Dialogue.congr h (fun c _ a => and_congr_left' (hR c a)) fun _ hw => hw

/-- A program that only fails reads nothing, whatever there is to read. -/
protected theorem throw (e : ε) :
    Reads (throw e : EStateM ε Socket α) (fun _ _ => False) :=
  (Dialogue.throw e silent_nil).congr (fun _ _ _ => ⟨False.elim, And.left⟩) fun _ hw => hw

/-- A check before the program adds its condition to what is read. -/
protected theorem guard {p : Prop} [Decidable p] (h : Reads m R) (e : ε) :
    Reads (if p then throw e else m) (fun c a => ¬ p ∧ R c a) :=
  (Dialogue.guard h silent_nil e).congr (fun _ _ _ => and_assoc.symm) fun _ hw => hw

/-- After a program that only reads, a dialogue. -/
theorem bind_dialogue {H : α → List UInt8 → List UInt8 → β → Prop} {F : List UInt8 → Prop}
    (hm : Reads m R) (hf : ∀ a, Dialogue (f a) (H a) F) (hF : F []) :
    Dialogue (m >>= f) (fun c w b => ∃ a c₁ c₂, R c₁ a ∧ H a c₂ w b ∧ c = c₁ ++ c₂) F := by
  refine (Dialogue.bind hm hf).congr (fun c w b => ?_) ?_
  · constructor
    · rintro ⟨a, c₁, _, c₂, w₂, ⟨hr, rfl⟩, hh, rfl, rfl⟩
      exact ⟨a, c₁, c₂, hr, hh, rfl⟩
    · rintro ⟨a, c₁, c₂, hr, hh, rfl⟩
      exact ⟨a, c₁, [], c₂, w, ⟨hr, rfl⟩, hh, rfl, rfl⟩
  · rintro w (rfl | ⟨a, c₁, _, w₂, ⟨-, rfl⟩, hw, rfl⟩)
    · exact hF
    · exact hw

/-- Reading programs in sequence consume one after the other, and the second may depend on the
result of the first. -/
protected theorem bind (hm : Reads m R) (hf : ∀ a, Reads (f a) (S a)) :
    Reads (m >>= f) (fun c b => ∃ a c₁ c₂, R c₁ a ∧ S a c₂ b ∧ c = c₁ ++ c₂) := by
  refine (hm.bind_dialogue hf silent_nil).congr (fun c w b => ?_) (fun _ hw => hw)
  constructor
  · rintro ⟨a, c₁, c₂, hr, ⟨hs, rfl⟩, rfl⟩
    exact ⟨⟨a, c₁, c₂, hr, hs, rfl⟩, rfl⟩
  · rintro ⟨⟨a, c₁, c₂, hr, hs, rfl⟩, rfl⟩
    exact ⟨a, c₁, c₂, hr, ⟨hs, rfl⟩, rfl⟩

/-- A result computed from what was read. -/
protected theorem map (hm : Reads m R) (g : α → β) :
    Reads (m >>= fun a => pure (g a)) (fun c b => ∃ a, R c a ∧ b = g a) := by
  refine (Dialogue.bind hm fun a => .pure (g a)).congr (fun c w b => ?_) ?_
  · constructor
    · rintro ⟨a, c₁, _, _, _, ⟨hr, rfl⟩, ⟨rfl, rfl, rfl⟩, rfl, rfl⟩
      rw [List.append_nil]
      exact ⟨⟨a, hr, rfl⟩, rfl⟩
    · rintro ⟨⟨a, hr, rfl⟩, rfl⟩
      exact ⟨a, c, [], [], [], ⟨hr, rfl⟩, ⟨rfl, rfl, rfl⟩, (List.append_nil c).symm, rfl⟩
  · rintro w (rfl | ⟨a, c₁, _, w₂, -, h, -⟩)
    · rfl
    · exact h.elim

/-- A computation that never looks at the socket reads nothing from it. -/
protected theorem ofExcept (x : Except ε α) :
    Reads (MonadExcept.ofExcept x : EStateM ε Socket α) (fun c a => c = [] ∧ x = .ok a) := by
  cases x with
  | error e =>
      refine (Dialogue.throw e silent_nil).congr (fun c w a => ?_) (fun _ h => h)
      exact ⟨False.elim, fun h => nomatch h.1.2⟩
  | ok b =>
      refine (Dialogue.pure b).congr (fun c w a => ?_) (fun _ h => h.elim)
      constructor
      · rintro ⟨rfl, rfl, rfl⟩
        exact ⟨⟨rfl, rfl⟩, rfl⟩
      · rintro ⟨⟨rfl, h⟩, rfl⟩
        exact ⟨rfl, rfl, (Except.ok.inj h).symm⟩

end Reads

/-- Writing consumes nothing and sends exactly the bytes given; in this model it does not fail. -/
theorem dialogue_writeAll (bytes : List UInt8) :
    Dialogue (writeAll bytes) (fun c w _ => c = [] ∧ w = bytes) (fun _ => False) where
  sound := by
    intro s a s' h
    cases h
    exact ⟨[], bytes, ⟨rfl, rfl⟩, rfl, rfl⟩
  complete := by
    rintro s _ _ a rest ⟨rfl, rfl⟩ h
    exact ⟨_, rfl, h, rfl⟩
  failed h := by cases h

/-- A read of a positive number of bytes fails when nothing is left, and otherwise takes a
nonempty initial part and reads the remaining bytes after it. -/
theorem readExact_cases {n : ℕ} (hn : 0 < n) (s : Socket) :
    (s.unread = [] ∧ ∃ e, readExact n s = .error e s) ∨
    ∃ (bytes : List UInt8) (s' : Socket) (hle : bytes.length ≤ n), bytes ≠ [] ∧
      s.unread = bytes ++ s'.unread ∧ s'.written = s.written ∧
      readExact n s = (do
        let more ← readExact (n - bytes.length)
        pure ⟨bytes ++ more.1, by
          rw [List.length_append, more.2, Nat.add_sub_cancel' hle]⟩ :
        EStateM IoError Socket (List.Vector UInt8 n)) s' := by
  rcases read_cases hn s with ⟨hnil, hread | ⟨e, hread⟩⟩ | ⟨bytes, s', hread, hne, hs⟩
  · refine .inl ⟨hnil, ⟨.unexpectedEof, "early eof"⟩, ?_⟩
    rw [readExact, dif_neg (by omega)]
    simp only [bind, EStateM.bind, hread]
    rfl
  · refine .inl ⟨hnil, e, ?_⟩
    rw [readExact, dif_neg (by omega)]
    simp only [bind, EStateM.bind, hread]
  · refine .inr ⟨bytes.1, s', bytes.2, hne, hs.1, hs.2, ?_⟩
    rw [readExact, dif_neg (by omega)]
    simp only [bind, EStateM.bind, hread, dif_neg hne]

/-- The shorter of two initial parts of a list is one of the longer. -/
theorem exists_append_of_length_le {α : Type} {part whole rest rest' : List α}
    (hle : part.length ≤ whole.length) (h : part ++ rest = whole ++ rest') :
    ∃ more, whole = part ++ more ∧ rest = more ++ rest' := by
  rcases List.append_eq_append_iff.mp h with ⟨more, hwhole, hmore⟩ | ⟨more, hpart, hmore⟩
  · exact ⟨more, hwhole, hmore⟩
  · have hlen := congrArg List.length hpart
    rw [List.length_append] at hlen
    obtain rfl : more = [] := List.length_eq_zero_iff.mp (by omega)
    exact ⟨[], by simpa using hpart.symm, by simpa using hmore.symm⟩

/-- `read_exact` consumes the bytes it returns, however they are cut into chunks. -/
theorem reads_readExact (n : ℕ) : Reads (readExact n) (fun c v => c = v.toList) := by
  -- On the bytes still missing; each chunk provides at least one of them.
  induction n using Nat.strongRecOn with
  | ind n ih =>
  rcases Nat.eq_zero_or_pos n with rfl | hn
  · rw [readExact, dif_pos rfl]
    refine (Dialogue.pure _).congr (fun c w v => ?_) (fun _ h => h.elim)
    obtain rfl : v = .nil := List.Vector.eq_nil v
    exact ⟨fun h => ⟨h.1, h.2.1⟩, fun h => ⟨h.1, h.2, rfl⟩⟩
  have hlt : ∀ bytes : List UInt8, bytes ≠ [] → n - bytes.length < n := fun bytes hne => by
    have := List.length_pos_iff.mpr hne
    omega
  refine ⟨?_, ?_, ?_⟩
  · intro s v t h
    rcases readExact_cases hn s with ⟨-, e, he⟩ | ⟨bytes, s', hle, hne, hu, hw, heq⟩
    · rw [he] at h
      cases h
    · rw [heq] at h
      simp only [bind, EStateM.bind] at h
      cases hmore : readExact (n - bytes.length) s' with
      | error e t' =>
          rw [hmore] at h
          cases h
      | ok more t' =>
          rw [hmore] at h
          cases h
          obtain ⟨c, w, ⟨rfl, rfl⟩, hu', hw'⟩ := (ih _ (hlt bytes hne)).sound hmore
          refine ⟨_, [], ⟨rfl, rfl⟩, ?_, ?_⟩
          · rw [hu, hu']
            exact (List.append_assoc _ _ _).symm
          · rw [hw', hw]
  · rintro s c w v rest ⟨rfl, rfl⟩ hs
    rcases readExact_cases hn s with ⟨hnil, -⟩ | ⟨bytes, s', hle, hne, hu, hw, heq⟩
    · rw [hs, List.append_eq_nil_iff] at hnil
      have := v.2
      rw [show v.1 = [] from hnil.1] at this
      simp at this
      omega
    · have hle' : bytes.length ≤ v.toList.length := by rwa [List.Vector.toList_length]
      obtain ⟨more, hv, hrest⟩ := exists_append_of_length_le hle' (hu.symm.trans hs)
      have hlen : more.length = n - bytes.length := by
        have := congrArg List.length hv
        rw [List.length_append, List.Vector.toList_length] at this
        omega
      obtain ⟨t, ht, hu', hw'⟩ :=
        (ih _ (hlt bytes hne)).complete (a := ⟨more, hlen⟩) ⟨rfl, rfl⟩ hrest
      refine ⟨t, ?_, hu', by rw [hw', hw]⟩
      rw [heq]
      simp only [bind, EStateM.bind, ht]
      exact congrArg (EStateM.Result.ok · t) (Subtype.ext hv.symm)
  · intro s e t h
    rcases readExact_cases hn s with ⟨-, e', he⟩ | ⟨bytes, s', hle, hne, hu, hw, heq⟩
    · rw [he] at h
      cases h
      exact ⟨[], rfl, (List.append_nil _).symm⟩
    · rw [heq] at h
      simp only [bind, EStateM.bind] at h
      cases hmore : readExact (n - bytes.length) s' with
      | ok more t' =>
          rw [hmore] at h
          cases h
      | error e' t' =>
          rw [hmore] at h
          cases h
          obtain ⟨w, rfl, hw'⟩ := (ih _ (hlt bytes hne)).failed hmore
          exact ⟨[], rfl, by rw [hw', hw]⟩

end Rust
