import Mathlib.Logic.Function.Iterate
import Redog.Socket
import Redog.Text

/-!
# Buffered readers

`tokio::io::BufReader` over a socket. The buffer is filled by one read of the socket, and
only when it is empty; a line is taken from it byte by byte as far as needed. `into_inner`
gives the socket back and drops what is still buffered, so bytes behind the last line can
be lost: exactly those of the read that delivered its newline.

`Tracks s r` says how a reader `r` stands to the socket `s` it was made from: the inner
socket is `s` after some number of reads, and the last of them has already been needed.
Reading lines keeps it, and it decides what `into_inner` loses.

## Main results

* `readUntil_line`: a line is read whole, whatever the chunks.
* `readUntil_ok`: reading keeps `Tracks`.
* `Tracks.unread_inner_eq_iff`: nothing unread is lost exactly when a read ends there.
-/

namespace Rust

/-- `tokio::io::BufReader`: the bytes buffered and not yet consumed, and the socket. -/
structure BufReader where
  buf : List UInt8
  inner : Socket

namespace BufReader

/-- The capacity of the buffer, the default of `BufReader::new`. -/
def capacity : ℕ := 8192

/-- `BufReader::new`: a reader that has not read from its socket yet, so its buffer is empty. -/
def new (stream : Socket) : BufReader where
  buf := []
  inner := stream

/-- What is still to be read, buffered or not. -/
def unread (r : BufReader) : List UInt8 :=
  r.buf ++ r.inner.unread

/-- `AsyncBufReadExt::fill_buf`: an empty buffer is filled by one read. -/
def fillBuf : EStateM IoError BufReader (List UInt8) := fun r =>
  if r.buf = [] then
    match read capacity r.inner with
    | .ok bytes inner => .ok bytes.1 ⟨bytes.1, inner⟩
    | .error e inner => .error e ⟨[], inner⟩
  else .ok r.buf r

/-- The bytes of `fill_buf` are what the buffer then holds, and nothing is consumed. It
gives none only at the end of the stream. -/
theorem fillBuf_ok {r r' : BufReader} {available : List UInt8}
    (h : fillBuf r = .ok available r') :
    r'.buf = available ∧ r'.unread = r.unread ∧
      (available = [] → r' = r ∧ r.unread = []) := by
  rw [fillBuf] at h
  split at h
  · next hbuf =>
      rcases read_cases (by decide : 0 < capacity) r.inner with
        ⟨hnil, hread | ⟨e, hread⟩⟩ | ⟨bytes, s', hread, hne, hu, -⟩
      · rw [hread] at h
        cases h
        refine ⟨rfl, by rw [unread, unread, hbuf], fun _ => ⟨?_, ?_⟩⟩
        · show BufReader.mk [] r.inner = r
          rw [← hbuf]
        · rw [unread, hbuf, hnil, List.nil_append]
      · rw [hread] at h
        cases h
      · rw [hread] at h
        cases h
        exact ⟨rfl, by rw [unread, unread, hbuf, hu, List.nil_append],
          fun h => absurd h hne⟩
  · next hbuf =>
      cases h
      exact ⟨rfl, rfl, fun h => absurd h hbuf⟩

/-- `fill_buf` fails only when nothing is left to read. -/
theorem fillBuf_error {r r' : BufReader} {e : IoError} (h : fillBuf r = .error e r') :
    r.unread = [] := by
  rw [fillBuf] at h
  split at h
  · next hbuf =>
      rcases read_cases (by decide : 0 < capacity) r.inner with
        ⟨hnil, -⟩ | ⟨bytes, s', hread, -⟩
      · rw [unread, hbuf, hnil, List.nil_append]
      · rw [hread] at h
        cases h
  · cases h

/-- `AsyncBufReadExt::read_until`: the bytes up to the delimiter and with it, or up to the
end of the stream. -/
def readUntil (delim : UInt8) (r : BufReader) : EStateM.Result IoError BufReader (List UInt8) :=
  match _hfill : fillBuf r with
  | .error e r' => .error e r'
  | .ok available r' =>
      match find delim available with
      | some i => .ok (available.take (i + 1)) { r' with buf := available.drop (i + 1) }
      | none =>
          if available = [] then .ok [] r'
          else
            match readUntil delim { r' with buf := [] } with
            | .ok more r'' => .ok (available ++ more) r''
            | .error e r'' => .error e r''
termination_by r.unread.length
decreasing_by
  rename_i hne
  obtain ⟨hbuf, hunread, -⟩ := fillBuf_ok _hfill
  have hpos := List.length_pos_iff.mpr hne
  rw [← hunread, unread, unread, hbuf, List.length_append, List.length_append]
  exact Nat.add_lt_add_right hpos _

/-! ### What a reader has read -/

/-- The socket after `k` reads of a whole buffer. -/
def drain (k : ℕ) (s : Socket) : Socket :=
  (fun s => match read capacity s with
    | .ok _ s' => s'
    | .error _ s' => s')^[k] s

/-- One more read of what is left continues where the first read has stopped. -/
theorem drain_succ {k : ℕ} {s t : Socket} {bytes : {b : List UInt8 // b.length ≤ capacity}}
    (h : read capacity (drain k s) = .ok bytes t) : drain (k + 1) s = t := by
  rw [drain, Function.iterate_succ_apply']
  rw [drain] at h
  rw [h]

/-- Reading more leaves less: the bytes that are left after `k` of them are among those left after
`j`. -/
theorem length_unread_drain_le {j k : ℕ} (hjk : j ≤ k) (s : Socket) :
    (drain k s).unread.length ≤ (drain j s).unread.length := by
  induction k, hjk using Nat.le_induction with
  | base => rfl
  | succ k _ ih =>
      refine Nat.le_trans ?_ ih
      rcases read_cases (by decide : 0 < capacity) (drain k s) with
        ⟨-, hread | ⟨e, hread⟩⟩ | ⟨bytes, t, hread, -, hu, -⟩
      · rw [drain_succ hread]
      · rw [drain, Function.iterate_succ_apply']
        rw [drain] at hread
        rw [hread]
        rfl
      · rw [drain_succ hread, hu, List.length_append]
        omega

/-- The reader has drained the socket no further than needed: every read was of bytes of
which some are consumed. -/
def Tracks (s : Socket) (r : BufReader) : Prop :=
  ∃ k, r.inner = drain k s ∧ ∀ j < k, r.unread.length < (drain j s).unread.length

/-- A new reader has read nothing from its socket yet, so it follows the socket from the start. -/
theorem tracks_new (s : Socket) : Tracks s (.new s) :=
  ⟨0, rfl, fun _ h => absurd h (Nat.not_lt_zero _)⟩

/-- Consuming from a filled buffer keeps track. -/
theorem Tracks.consume {s : Socket} {r r' : BufReader} {available rest : List UInt8}
    (h : Tracks s r) (hfill : fillBuf r = .ok available r')
    (hrest : rest.length < available.length) : Tracks s { r' with buf := rest } := by
  obtain ⟨k, hinner, hlt⟩ := h
  obtain ⟨hbuf, hunread, -⟩ := fillBuf_ok hfill
  have hless : (BufReader.mk rest r'.inner).unread.length < r.unread.length := by
    rw [← hunread, unread, unread, hbuf, List.length_append, List.length_append]
    exact Nat.add_lt_add_right hrest _
  rw [fillBuf] at hfill
  split at hfill
  · next hempty =>
      have hall : r.unread.length = (drain k s).unread.length := by
        rw [unread, hempty, hinner, List.nil_append]
      cases hread : read capacity r.inner with
      | error e t =>
          rw [hread] at hfill
          cases hfill
      | ok bytes t =>
          rw [hread] at hfill
          cases hfill
          rw [hinner] at hread
          refine ⟨k + 1, (drain_succ hread).symm, fun j hj => ?_⟩
          rcases Nat.lt_succ_iff_lt_or_eq.mp hj with hj | rfl
          · exact hless.trans (hlt j hj)
          · exact hall ▸ hless
  · next hne =>
      cases hfill
      exact ⟨k, hinner, fun j hj => hless.trans (hlt j hj)⟩

/-- What the inner socket still delivers is everything unread exactly when a read of the
socket ended there. -/
theorem Tracks.unread_inner_eq_iff {s : Socket} {r : BufReader} (h : Tracks s r) :
    r.inner.unread = r.unread ↔ ∃ k, (drain k s).unread = r.unread := by
  obtain ⟨k, hinner, hlt⟩ := h
  constructor
  · exact fun heq => ⟨k, by rw [← hinner, heq]⟩
  · rintro ⟨k', hk'⟩
    have hkk' : k ≤ k' := by
      by_contra hcon
      have := hlt k' (Nat.not_le.mp hcon)
      rw [hk'] at this
      exact lt_irrefl _ this
    have hle := length_unread_drain_le hkk' s
    rw [hk', ← hinner, unread, List.length_append] at hle
    have hnil : r.buf = [] := List.length_eq_zero_iff.mp (by omega)
    rw [unread, hnil, List.nil_append]

/-! ### Reading lines -/

/-- A line was read: up to the first delimiter, or to the end of a stream without one. -/
structure TookLine (delim : UInt8) (r : BufReader) (line : List UInt8) (r' : BufReader) :
    Prop where
  unread_eq : r.unread = line ++ r'.unread
  ended : (∃ l, line = l ++ [delim] ∧ delim ∉ l) ∨ (delim ∉ line ∧ r'.unread = [])
  tracks : ∀ s, Tracks s r → Tracks s r'

/-- Reading up to a delimiter takes one line off what is unread, over as many refills as it
needs. -/
theorem readUntil_ok {delim : UInt8} {r r' : BufReader} {line : List UInt8}
    (h : readUntil delim r = .ok line r') : TookLine delim r line r' := by
  -- One case for each way the loop goes on after `fill_buf`.
  induction r using readUntil.induct delim generalizing line r' with
  | case1 r e t hfill =>
      rw [readUntil, hfill] at h
      cases h
  | case2 r available t hfill i hi =>
      rw [readUntil, hfill] at h
      simp only [hi] at h
      cases h
      obtain ⟨hbuf, hunread, -⟩ := fillBuf_ok hfill
      obtain ⟨pre, post, rfl, hpre, rfl⟩ := find_eq_some_iff.mp hi
      have htake : (pre ++ delim :: post).take (pre.length + 1) = pre ++ [delim] := by
        rw [List.take_length_add_append, List.take_succ_cons, List.take_zero]
      have hdrop : (pre ++ delim :: post).drop (pre.length + 1) = post := by
        rw [List.drop_length_add_append, List.drop_succ_cons, List.drop_zero]
      rw [htake, hdrop]
      refine ⟨?_, .inl ⟨pre, rfl, hpre⟩, fun s hs => hs.consume hfill ?_⟩
      · rw [← hunread, unread, unread, hbuf]
        simp
      · rw [List.length_append, List.length_cons]
        omega
  | case3 r t hfill hi =>
      rw [readUntil, hfill] at h
      simp only [hi] at h
      cases h
      obtain ⟨hbuf, hunread, hend⟩ := fillBuf_ok hfill
      obtain ⟨rfl, hnil⟩ := hend rfl
      exact ⟨rfl, .inr ⟨List.not_mem_nil, hnil⟩, fun _ hs => hs⟩
  | case4 r available t hfill hi hne more t' hmore ih =>
      rw [readUntil, hfill] at h
      simp only [hi, if_neg hne, hmore] at h
      cases h
      obtain ⟨hbuf, hunread, -⟩ := fillBuf_ok hfill
      have hnotMem : delim ∉ available := find_eq_none_iff.mp hi
      have htook := ih hmore
      refine ⟨?_, ?_, fun s hs => htook.tracks s (hs.consume hfill ?_)⟩
      · rw [← hunread, unread, hbuf, List.append_assoc, ← htook.unread_eq]
        rfl
      · rcases htook.ended with ⟨l, rfl, hl⟩ | ⟨hl, hnil⟩
        · refine .inl ⟨available ++ l, (List.append_assoc _ _ _).symm, ?_⟩
          exact fun h => (List.mem_append.mp h).elim hnotMem hl
        · exact .inr ⟨fun h => (List.mem_append.mp h).elim hnotMem hl, hnil⟩
      · exact List.length_pos_iff.mpr hne
  | case5 r available t hfill hi hne e t' herr ih =>
      rw [readUntil, hfill] at h
      simp only [hi, if_neg hne, herr] at h
      cases h

/-- A read for a delimiter fails only in a stream without one. -/
theorem readUntil_error {delim : UInt8} {r r' : BufReader} {e : IoError}
    (h : readUntil delim r = .error e r') : delim ∉ r.unread := by
  induction r using readUntil.induct delim generalizing e r' with
  | case1 r e' t hfill =>
      rw [fillBuf_error hfill]
      exact List.not_mem_nil
  | case2 r available t hfill i hi =>
      rw [readUntil, hfill] at h
      simp only [hi] at h
      cases h
  | case3 r t hfill hi =>
      rw [readUntil, hfill] at h
      simp only [hi] at h
      cases h
  | case4 r available t hfill hi hne more t' hmore ih =>
      rw [readUntil, hfill] at h
      simp only [hi, if_neg hne, hmore] at h
      cases h
  | case5 r available t hfill hi hne e' t' herr ih =>
      obtain ⟨hbuf, hunread, -⟩ := fillBuf_ok hfill
      rw [← hunread, unread, hbuf]
      have hrest : delim ∉ t.inner.unread := ih herr
      exact fun h => (List.mem_append.mp h).elim (find_eq_none_iff.mp hi) hrest

/-- A delimited line is read whole, however it is cut into chunks. -/
theorem readUntil_line {delim : UInt8} {r : BufReader} {l rest : List UInt8}
    (hl : delim ∉ l) (h : r.unread = l ++ delim :: rest) :
    ∃ r', readUntil delim r = .ok (l ++ [delim]) r' ∧ r'.unread = rest ∧
      ∀ s, Tracks s r → Tracks s r' := by
  have hmem : delim ∈ r.unread := by simp [h]
  cases hread : readUntil delim r with
  | error e r' => exact absurd hmem (readUntil_error hread)
  | ok line r' =>
      have htook := readUntil_ok hread
      have heq := htook.unread_eq.symm.trans h
      rcases htook.ended with ⟨l', rfl, hl'⟩ | ⟨hline, hnil⟩
      · rw [List.append_assoc] at heq
        have hfind : find delim (l ++ delim :: rest) = some l'.length :=
          find_eq_some_iff.mpr ⟨l', r'.unread, heq.symm, hl', rfl⟩
        have hfind' : find delim (l ++ delim :: rest) = some l.length :=
          find_eq_some_iff.mpr ⟨l, rest, rfl, hl, rfl⟩
        obtain ⟨rfl, hrest⟩ := List.append_inj heq (Option.some.inj (hfind.symm.trans hfind'))
        exact ⟨r', rfl, (List.cons.inj hrest).2, htook.tracks⟩
      · rw [hnil, List.append_nil] at heq
        rw [heq] at hline
        exact absurd (by simp) hline

/-- `AsyncBufReadExt::read_line`: a line that is not UTF-8 is an error. -/
def readLine : EStateM IoError BufReader String := fun r =>
  match readUntil 0x0A r with
  | .error e r' => .error e r'
  | .ok bytes r' =>
      match fromUtf8 bytes with
      | some line => .ok line r'
      | none => .error ⟨.invalidData, "stream did not contain valid UTF-8"⟩ r'

/-- `BufReader::into_inner`: what is still buffered is dropped. -/
def intoInner (r : BufReader) : Socket :=
  r.inner

/-- The result of a program that owns a reader of the socket. -/
def own {ε α : Type} (stream : Socket) (m : EStateM ε BufReader α) : Except ε α :=
  match m (.new stream) with
  | .ok a _ => .ok a
  | .error e _ => .error e

/-- The bytes of one line: up to the first newline and with it. -/
def IsLine (bytes : List UInt8) : Prop :=
  ∃ l, bytes = l ++ [0x0A] ∧ 0x0A ∉ l

/-- A line ends with a line feed and has no other one. -/
theorem isLine_iff {bytes : List UInt8} :
    IsLine bytes ↔ bytes.getLast? = some 0x0A ∧ 0x0A ∉ bytes.dropLast := by
  constructor
  · rintro ⟨l, rfl, hl⟩
    rw [List.getLast?_concat, List.dropLast_concat]
    exact ⟨rfl, hl⟩
  · rintro ⟨hlast, hl⟩
    obtain ⟨l, rfl⟩ := List.getLast?_eq_some_iff.mp hlast
    rw [List.dropLast_concat] at hl
    exact ⟨l, rfl, hl⟩

instance (bytes : List UInt8) : Decidable (IsLine bytes) := decidable_of_iff' _ isLine_iff

/-- A line that is UTF-8 is taken as a whole, wherever the chunks of the socket end, and the rest
stays unread. -/
theorem readLine_ok {r : BufReader} {bytes rest : List UInt8} {line : String}
    (hbytes : IsLine bytes) (hline : fromUtf8 bytes = some line)
    (h : r.unread = bytes ++ rest) :
    ∃ r', readLine r = .ok line r' ∧ r'.unread = rest ∧ ∀ s, Tracks s r → Tracks s r' := by
  obtain ⟨l, rfl, hl⟩ := hbytes
  rw [List.append_assoc] at h
  obtain ⟨r', hread, hrest, htracks⟩ := readUntil_line hl h
  exact ⟨r', by simp only [readLine, hread, hline], hrest, htracks⟩

/-- A line that is not UTF-8 gives an error, wherever the chunks of the socket end. -/
theorem readLine_error {r : BufReader} {bytes rest : List UInt8} (hbytes : IsLine bytes)
    (hline : fromUtf8 bytes = none) (h : r.unread = bytes ++ rest) :
    ∃ e r', readLine r = .error e r' := by
  obtain ⟨l, rfl, hl⟩ := hbytes
  rw [List.append_assoc] at h
  obtain ⟨r', hread, -⟩ := readUntil_line hl h
  refine ⟨⟨.invalidData, "stream did not contain valid UTF-8"⟩, r', ?_⟩
  simp only [readLine, hread, hline]

/-- A line that is not empty has been taken from what was unread. -/
theorem length_unread_lt_of_readLine {r r' : BufReader} {line : String}
    (h : readLine r = .ok line r') (hne : line ≠ "") : r'.unread.length < r.unread.length := by
  rw [readLine] at h
  cases hread : readUntil 0x0A r with
  | error e t =>
      rw [hread] at h
      cases h
  | ok bytes t =>
      rw [hread] at h
      cases hline : fromUtf8 bytes with
      | none =>
          simp only [hline] at h
          cases h
      | some text =>
          simp only [hline] at h
          cases h
          rw [(readUntil_ok hread).unread_eq, List.length_append]
          have hbytes : bytes ≠ [] := fun hnil => by
            rw [hnil] at hline
            exact hne (Option.some.inj hline).symm
          have := List.length_pos_iff.mpr hbytes
          omega

end BufReader

end Rust
