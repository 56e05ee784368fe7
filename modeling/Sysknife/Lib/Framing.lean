import Mathlib.Data.List.Basic

/-!
# Length-prefixed frames over a chunked stream

A writer puts a header that carries the length of the body in front of each
body. A reader gets the same symbols in chunks whose borders say nothing about
the frames. What it reads depends on the symbols only.
-/

namespace Framing

variable {α ε : Type*}

/-- What is left of a stream, in the pieces in which it arrives. -/
abbrev Chunks (α : Type*) := List (List α)

/-- Read until `want` symbols have arrived; `none` when the stream ends first. -/
def readExact : Nat → Chunks α → Option (List α) × Chunks α
  | 0, chunks => (some [], chunks)
  | _ + 1, [] => (none, [])
  | want + 1, chunk :: rest =>
      if chunk.length ≤ want + 1 then
        let (body, rest') := readExact (want + 1 - chunk.length) rest
        (body.map (chunk ++ ·), rest')
      else
        (some (chunk.take (want + 1)), chunk.drop (want + 1) :: rest)

/-- A code for lengths in a fixed number of symbols. -/
structure LengthHeader (α : Type*) where
  width : Nat
  capacity : Nat
  encode : Nat → List α
  decode : List α → Nat
  width_pos : 0 < width
  length_encode : ∀ n, (encode n).length = width
  decode_encode : ∀ n, n ≤ capacity → decode (encode n) = n

/-- A message on the wire. -/
def LengthHeader.frame (header : LengthHeader α) (msg : List α) : List α :=
  header.encode msg.length ++ msg

/-- Send a message, unless it is longer than `limit`. -/
def writeFrame (header : LengthHeader α) (limit : Nat) (tooLarge : Nat → ε)
    (msg : List α) : Except ε (List α) :=
  if msg.length > limit then .error (tooLarge msg.length)
  else .ok (header.frame msg)

/-- Read a header, refuse a length over `limit`, then read the body. -/
def readFrame (header : LengthHeader α) (limit : Nat) (tooLarge : Nat → ε) (eof : ε)
    (chunks : Chunks α) : Except ε (List α) × Chunks α :=
  match readExact header.width chunks with
  | (none, rest) => (.error eof, rest)
  | (some len, rest) =>
      if header.decode len > limit then (.error (tooLarge (header.decode len)), rest)
      else
        match readExact (header.decode len) rest with
        | (none, rest') => (.error eof, rest')
        | (some body, rest') => (.ok body, rest')

/-- The symbols on the wire after sending the messages in order. -/
def sendAll (send : List α → Except ε (List α)) : List (List α) → Except ε (List α)
  | [] => .ok []
  | msg :: rest => do
      let bytes ← send msg
      let others ← sendAll send rest
      .ok (bytes ++ others)

/-- What the first `calls` reads return. -/
def recvTimes (recv : Chunks α → Except ε (List α) × Chunks α) :
    Nat → Chunks α → List (Except ε (List α))
  | 0, _ => []
  | calls + 1, chunks => (recv chunks).1 :: recvTimes recv calls (recv chunks).2

/-! ## Chunk borders do not matter -/

theorem readExact_enough {want : Nat} {chunks : Chunks α} (h : want ≤ chunks.flatten.length) :
    (readExact want chunks).1 = some (chunks.flatten.take want) ∧
      (readExact want chunks).2.flatten = chunks.flatten.drop want := by
  fun_induction readExact want chunks with
  | case1 chunks => simp
  | case2 want => simp at h
  | case3 want chunk rest hle body rest' heq ih =>
    rw [List.flatten_cons, List.length_append] at h
    have hrest := ih (by omega)
    rw [heq] at hrest
    dsimp only at hrest ⊢
    rw [List.flatten_cons, hrest.1, hrest.2, List.take_append, List.drop_append,
      List.take_of_length_le hle, List.drop_eq_nil_of_le hle]
    exact ⟨rfl, rfl⟩
  | case4 want chunk rest hlt =>
    have hle : want + 1 ≤ chunk.length := by omega
    rw [List.flatten_cons, List.take_append_of_le_length hle, List.flatten_cons,
      List.drop_append_of_le_length hle]
    exact ⟨rfl, rfl⟩

theorem readExact_short {want : Nat} {chunks : Chunks α} (h : chunks.flatten.length < want) :
    readExact want chunks = (none, []) := by
  fun_induction readExact want chunks with
  | case1 chunks => omega
  | case2 want => rfl
  | case3 want chunk rest hle body rest' heq ih =>
    rw [List.flatten_cons, List.length_append] at h
    have hrest := ih (by omega)
    rw [heq, Prod.mk.injEq] at hrest
    rw [hrest.1, hrest.2]
    rfl
  | case4 want chunk rest hlt =>
    rw [List.flatten_cons, List.length_append] at h
    omega

/-- A read that finds its symbols in front of `rest`. -/
theorem readExact_append {chunks : Chunks α} {body rest : List α}
    (h : chunks.flatten = body ++ rest) :
    ∃ chunks', readExact body.length chunks = (some body, chunks') ∧ chunks'.flatten = rest := by
  have hle : body.length ≤ chunks.flatten.length := by
    rw [h, List.length_append]
    omega
  obtain ⟨hbody, hrest⟩ := readExact_enough hle
  rw [h, List.take_left] at hbody
  rw [h, List.drop_left] at hrest
  exact ⟨_, Prod.ext hbody rfl, hrest⟩

/-- What a read has taken is what the stream is short of. -/
theorem readExact_some {want : Nat} {chunks rest : Chunks α} {body : List α}
    (h : readExact want chunks = (some body, rest)) :
    chunks.flatten = body ++ rest.flatten ∧ body.length = want := by
  rcases Nat.lt_or_ge chunks.flatten.length want with hshort | henough
  · rw [readExact_short hshort] at h
    cases h
  · obtain ⟨hbody, hrest⟩ := readExact_enough henough
    rw [h] at hbody hrest
    obtain rfl := Option.some.inj hbody
    exact ⟨by rw [hrest, List.take_append_drop], List.length_take_of_le henough⟩

section Frames
variable {header : LengthHeader α} {limit : Nat} {tooLarge : Nat → ε} {eof : ε}

theorem writeFrame_ok {msg : List α} (h : msg.length ≤ limit) :
    writeFrame header limit tooLarge msg = .ok (header.frame msg) :=
  if_neg (by omega)

theorem sendAll_ok {send : List α → Except ε (List α)} {msgs : List (List α)}
    (h : ∀ msg ∈ msgs, send msg = .ok (header.frame msg)) :
    sendAll send msgs = .ok (msgs.flatMap header.frame) := by
  induction msgs with
  | nil => rfl
  | cons msg rest ih =>
    have hrest := ih fun m hm => h m (List.mem_cons_of_mem _ hm)
    rw [sendAll, h msg List.mem_cons_self, hrest]
    rfl

/-- A frame in front of the stream is read as its message, and nothing after it
is touched. -/
theorem readFrame_frame {chunks : Chunks α} {msg rest : List α}
    (h : chunks.flatten = header.frame msg ++ rest) (hlimit : msg.length ≤ limit)
    (hcapacity : msg.length ≤ header.capacity) :
    (readFrame header limit tooLarge eof chunks).1 = .ok msg ∧
      (readFrame header limit tooLarge eof chunks).2.flatten = rest := by
  rw [LengthHeader.frame, List.append_assoc] at h
  obtain ⟨chunks₁, hread, hleft⟩ := readExact_append h
  rw [header.length_encode] at hread
  have hdecode := header.decode_encode _ hcapacity
  obtain ⟨chunks₂, hbody, hrest⟩ := readExact_append hleft
  rw [readFrame, hread]
  dsimp only
  rw [hdecode, if_neg (by omega), hbody]
  exact ⟨rfl, hrest⟩

/-- A header over the limit is refused with the whole body still unread. -/
theorem readFrame_oversized {chunks : Chunks α} {len rest : List α}
    (h : chunks.flatten = len ++ rest) (hwidth : len.length = header.width)
    (hlimit : limit < header.decode len) :
    (readFrame header limit tooLarge eof chunks).1 = .error (tooLarge (header.decode len)) ∧
      (readFrame header limit tooLarge eof chunks).2.flatten = rest := by
  obtain ⟨chunks₁, hread, hleft⟩ := readExact_append h
  rw [hwidth] at hread
  rw [readFrame, hread]
  dsimp only
  rw [if_pos hlimit]
  exact ⟨rfl, hleft⟩

/-- A message that was read stood in front of the stream, behind a header with its
length. -/
theorem readFrame_ok {chunks rest : Chunks α} {msg : List α}
    (h : readFrame header limit tooLarge eof chunks = (.ok msg, rest)) :
    ∃ len, len.length = header.width ∧ header.decode len = msg.length ∧ msg.length ≤ limit ∧
      chunks.flatten = len ++ (msg ++ rest.flatten) := by
  unfold readFrame at h
  split at h
  · cases h
  · rename_i len rest₁ hlen
    obtain ⟨hfront, hwidth⟩ := readExact_some hlen
    split at h
    · cases h
    · rename_i hlimit
      split at h
      · cases h
      · rename_i body rest₂ hbody
        cases h
        obtain ⟨hback, hlength⟩ := readExact_some hbody
        exact ⟨len, hwidth, hlength.symm, by omega, by rw [hfront, hback]⟩

/-- Which messages a reader accepts, and where it stops, does not depend on how
it reports errors. -/
theorem readFrame_errors {δ : Type*} {tooLarge' : Nat → δ} {eof' : δ} (chunks : Chunks α) :
    (readFrame header limit tooLarge eof chunks).1.toOption =
        (readFrame header limit tooLarge' eof' chunks).1.toOption ∧
      (readFrame header limit tooLarge eof chunks).2 =
        (readFrame header limit tooLarge' eof' chunks).2 := by
  unfold readFrame
  generalize readExact header.width chunks = len
  obtain ⟨len, rest⟩ := len
  cases len with
  | none => exact ⟨rfl, rfl⟩
  | some len =>
    dsimp only
    by_cases hlimit : header.decode len > limit
    · rw [if_pos hlimit, if_pos hlimit]
      exact ⟨rfl, rfl⟩
    · rw [if_neg hlimit, if_neg hlimit]
      generalize readExact (header.decode len) rest = body
      obtain ⟨body, rest'⟩ := body
      cases body with
      | none => exact ⟨rfl, rfl⟩
      | some body => exact ⟨rfl, rfl⟩

theorem readFrame_end {chunks : Chunks α} (h : chunks.flatten = []) :
    readFrame header limit tooLarge eof chunks = (.error eof, []) := by
  have hshort : chunks.flatten.length < header.width := by
    rw [h]
    exact header.width_pos
  rw [readFrame, readExact_short hshort]

theorem recvTimes_end (calls : Nat) {chunks : Chunks α} (h : chunks.flatten = []) :
    recvTimes (readFrame header limit tooLarge eof) calls chunks =
      List.replicate calls (.error eof) := by
  induction calls generalizing chunks with
  | zero => rfl
  | succ calls ih =>
    rw [recvTimes, readFrame_end h, ih rfl]
    rfl

/-- The messages come back in order, and every further read finds the end. -/
theorem recvTimes_frames {msgs : List (List α)} (extra : Nat) {chunks : Chunks α}
    (h : chunks.flatten = msgs.flatMap header.frame) (hlimit : ∀ msg ∈ msgs, msg.length ≤ limit)
    (hcapacity : limit ≤ header.capacity) :
    recvTimes (readFrame header limit tooLarge eof) (msgs.length + extra) chunks =
      msgs.map .ok ++ List.replicate extra (.error eof) := by
  induction msgs generalizing chunks with
  | nil => simpa using recvTimes_end extra h
  | cons msg rest ih =>
    have hmsg := hlimit msg List.mem_cons_self
    rw [List.flatMap_cons] at h
    obtain ⟨hread, hleft⟩ :=
      readFrame_frame h hmsg (Nat.le_trans hmsg hcapacity)
    have hrest := ih hleft fun m hm => hlimit m (List.mem_cons_of_mem _ hm)
    rw [List.length_cons, Nat.add_right_comm, recvTimes, hread, hrest]
    rfl

end Frames

end Framing
