import Sysknife.Lib.Utf8
import Sysknife.Sanitize

/-!
# `strip_ansi` byte by byte

The scanner goes over the bytes of a text and slices the text between its indices, which
panics where an index is within a character. `stripAnsi` is what the scanner computes
on the characters.
-/

namespace Sysknife

open Utf8

/-! ## The scanner -/

/-- `&s[start..stop]`; `none` is the panic. -/
def sliceText (bytes : List UInt8) (start stop : Nat) : Option (List UInt8) :=
  if start ≤ stop ∧ isCharBoundary bytes start = true ∧ isCharBoundary bytes stop = true then
    some ((bytes.take stop).drop start)
  else none

/-- `while i < len && !stop(i) { i += 1; }`. -/
def scanUntil (stop : Nat → Bool) (len i : Nat) : Nat :=
  if i < len then if stop i then i else scanUntil stop len (i + 1) else i
termination_by len - i

def nextCharBoundary (bytes : List UInt8) (i : Nat) : Nat :=
  min (scanUntil (isCharBoundary bytes) bytes.length (i + 1)) bytes.length

def isFinalByte (b : UInt8) : Bool := 0x40 ≤ b && b ≤ 0x7e

/-- Behind the final byte of a CSI sequence. -/
def csiEnd (bytes : List UInt8) (i : Nat) : Nat :=
  let j := scanUntil (fun k => (bytes[k]?).any isFinalByte) bytes.length i
  if j < bytes.length then j + 1 else j

/-- Behind the `BEL` or `ESC \` of an OSC sequence. -/
def oscEnd (bytes : List UInt8) (i : Nat) : Nat :=
  if i < bytes.length then
    if bytes[i]? = some 0x07 then i + 1
    else if bytes[i]? = some 0x1b ∧ bytes[i + 1]? = some 0x5c then i + 2
    else oscEnd bytes (i + 1)
  else i
termination_by bytes.length - i

/-- One turn of the loop of `strip_ansi`: the next index and the bytes that go out. -/
def ansiStep (bytes : List UInt8) (i : Nat) : Option (Nat × List UInt8) :=
  match bytes[i]? with
  | none => none
  | some b =>
    if b = 0x1b then
      match bytes[i + 1]? with
      | none => some (i + 1, [])
      | some next =>
        if next = 0x5b then some (csiEnd bytes (i + 2), [])
        else if next = 0x5d then some (oscEnd bytes (i + 2), [])
        else if next = 0x28 ∨ next = 0x29 ∨ next = 0x2a ∨ next = 0x2b then
          some (i + min 3 (bytes.length - i), [])
        else some (i + 2, [])
    else
      (sliceText bytes i (nextCharBoundary bytes i)).map fun text =>
        (nextCharBoundary bytes i, text)

theorem le_scanUntil (stop : Nat → Bool) (len i : Nat) : i ≤ scanUntil stop len i := by
  fun_induction scanUntil stop len i with
  | case1 => exact le_refl _
  | case2 i _ _ ih => exact (Nat.le_succ i).trans ih
  | case3 => exact le_refl _

theorem le_oscEnd (bytes : List UInt8) (i : Nat) : i ≤ oscEnd bytes i := by
  fun_induction oscEnd bytes i with
  | case1 i => omega
  | case2 i => omega
  | case3 i _ _ _ ih => exact (Nat.le_succ i).trans ih
  | case4 => exact le_refl _

theorem le_csiEnd (bytes : List UInt8) (i : Nat) : i ≤ csiEnd bytes i := by
  have h := le_scanUntil (fun k => (bytes[k]?).any isFinalByte) bytes.length i
  rw [csiEnd]
  split <;> omega

/-- Every turn of the loop is further on in the text. -/
theorem ansiStep_advances {bytes : List UInt8} {i j : Nat} {out : List UInt8}
    (hi : i < bytes.length) (h : ansiStep bytes i = some (j, out)) : i < j := by
  have hosc := le_oscEnd bytes (i + 2)
  have hcsi := le_csiEnd bytes (i + 2)
  have hnext := le_scanUntil (isCharBoundary bytes) bytes.length (i + 1)
  rw [ansiStep, List.getElem?_eq_getElem hi] at h
  dsimp only at h
  split at h
  · split at h
    · simp only [Option.some.injEq, Prod.mk.injEq] at h
      omega
    · split at h
      · simp only [Option.some.injEq, Prod.mk.injEq] at h
        omega
      · split at h
        · simp only [Option.some.injEq, Prod.mk.injEq] at h
          omega
        · split at h <;> simp only [Option.some.injEq, Prod.mk.injEq] at h <;> omega
  · obtain ⟨text, -, heq⟩ := Option.map_eq_some_iff.mp h
    rw [Prod.mk.injEq, nextCharBoundary] at heq
    omega

/-- The loop of `strip_ansi` from the index `i`, with `out` the bytes so far. -/
def ansiLoop (bytes : List UInt8) (i : Nat) (out : List UInt8) : Option (List UInt8) :=
  if _hi : i < bytes.length then
    match _h : ansiStep bytes i with
    | none => none
    | some (j, text) => ansiLoop bytes j (out ++ text)
  else some out
termination_by bytes.length - i
decreasing_by
  have hj := ansiStep_advances _hi _h
  omega

def stripAnsiBytes (bytes : List UInt8) : Option (List UInt8) := ansiLoop bytes 0 []

theorem ansiLoop_step {bytes : List UInt8} {i j : Nat} {out text : List UInt8}
    (hi : i < bytes.length) (h : ansiStep bytes i = some (j, text)) :
    ansiLoop bytes i out = ansiLoop bytes j (out ++ text) := by
  rw [ansiLoop, dif_pos hi]
  split
  · next hnone => rw [h] at hnone; cases hnone
  · next hsome =>
    rw [h, Option.some.injEq, Prod.mk.injEq] at hsome
    rw [hsome.1, hsome.2]

theorem ansiLoop_panic {bytes : List UInt8} {i : Nat} {out : List UInt8} (hi : i < bytes.length)
    (h : ansiStep bytes i = none) : ansiLoop bytes i out = none := by
  rw [ansiLoop, dif_pos hi]
  split
  · rfl
  · next hsome => rw [h] at hsome; cases hsome

/-! ## Sequences -/

def isFinalChar (c : Char) : Bool := 0x40 ≤ c.toNat && c.toNat ≤ 0x7e

/-- The text of an OSC sequence has neither of its two ends. -/
def OscBody (body : List Char) : Prop := '\x07' ∉ body ∧ ¬ ['\x1b', '\\'] <:+: body

/-- A character of the text, or a control sequence that is complete. -/
inductive AnsiUnit : List Char → Prop where
  | text {c : Char} : c ≠ '\x1b' → AnsiUnit [c]
  | csi {body : List Char} {final : Char} : (∀ c ∈ body, isFinalChar c = false) →
      isFinalChar final = true → AnsiUnit ('\x1b' :: '[' :: (body ++ [final]))
  | bel {body : List Char} : OscBody body → AnsiUnit ('\x1b' :: ']' :: (body ++ ['\x07']))
  | terminator {body : List Char} : OscBody body →
      AnsiUnit ('\x1b' :: ']' :: (body ++ ['\x1b', '\\']))
  | charset {d c : Char} : d ∈ ['(', ')', '*', '+'] → c.toNat < 0x80 → AnsiUnit ['\x1b', d, c]
  | single {c : Char} : c ∉ ['[', ']', '(', ')', '*', '+'] → c.toNat < 0x80 →
      AnsiUnit ['\x1b', c]

/-- The start of a sequence, where the text ends before the sequence does. -/
inductive Unfinished : List Char → Prop where
  | escape : Unfinished ['\x1b']
  | csi {body : List Char} : (∀ c ∈ body, isFinalChar c = false) →
      Unfinished ('\x1b' :: '[' :: body)
  | osc {body : List Char} : OscBody body → Unfinished ('\x1b' :: ']' :: body)
  | charset {d : Char} : d ∈ ['(', ')', '*', '+'] → Unfinished ['\x1b', d]

/-- A sequence that ends after a number of bytes, which is within a character. -/
inductive TornSequence : List Char → Prop where
  | charset {d c : Char} : d ∈ ['(', ')', '*', '+'] → 0x80 ≤ c.toNat →
      TornSequence ['\x1b', d, c]
  | single {c : Char} : 0x80 ≤ c.toNat → TornSequence ['\x1b', c]

/-- What goes byte by byte over a byte goes over many. -/
theorem over_bytes {f : List UInt8 → Nat → Nat} {p : UInt8 → Prop}
    (hstep : ∀ a b r, p b → f (a ++ b :: r) a.length = f (a ++ b :: r) (a.length + 1))
    {w : List UInt8} (hw : ∀ b ∈ w, p b) (a r : List UInt8) :
    f (a ++ (w ++ r)) a.length = f ((a ++ w) ++ r) (a ++ w).length := by
  induction w generalizing a with
  | nil => simp
  | cons b w ih =>
    have hrest := ih (fun x hx => hw x (List.mem_cons_of_mem b hx)) (a ++ [b])
    rw [List.cons_append, hstep a b (w ++ r) (hw b (List.mem_cons_self ..))]
    simpa using hrest

/-! ## CSI sequences -/

theorem csiEnd_stop {a r : List UInt8} {b : UInt8} (h : isFinalByte b = true) :
    csiEnd (a ++ b :: r) a.length = a.length + 1 := by
  have hlength : a.length < (a ++ b :: r).length := by simp
  rw [csiEnd, scanUntil, if_pos hlength, get_length, Option.any_some, h, if_pos rfl]
  exact if_pos hlength

theorem csiEnd_over (a : List UInt8) (b : UInt8) (r : List UInt8) (h : isFinalByte b = false) :
    csiEnd (a ++ b :: r) a.length = csiEnd (a ++ b :: r) (a.length + 1) := by
  have hlength : a.length < (a ++ b :: r).length := by simp
  rw [csiEnd, csiEnd, scanUntil, if_pos hlength, get_length, Option.any_some, h,
    if_neg Bool.false_ne_true]

theorem csiEnd_length (a : List UInt8) : csiEnd a a.length = a.length := by
  rw [csiEnd, scanUntil, if_neg (Nat.lt_irrefl _)]
  exact if_neg (Nat.lt_irrefl _)

theorem isFinalByte_of_mem {c : Char} (h : isFinalChar c = false) :
    ∀ b ∈ String.utf8EncodeChar c, isFinalByte b = false := by
  intro b hb
  rw [Bool.eq_false_iff]
  intro hfinal
  rw [isFinalByte, Bool.and_eq_true, decide_eq_true_eq, decide_eq_true_eq,
    UInt8.le_iff_toNat_le, UInt8.le_iff_toNat_le] at hfinal
  have hlow : UInt8.toNat 0x40 = 0x40 := rfl
  have hhigh : UInt8.toNat 0x7e = 0x7e := rfl
  have hbound : UInt8.toNat 0x80 = 0x80 := rfl
  have hb' : b < 0x80 := by rw [UInt8.lt_iff_toNat_lt]; omega
  have hc := (eq_of_mem_encodeChar hb' hb).2
  rw [isFinalChar, Bool.and_eq_false_iff, decide_eq_false_iff_not, decide_eq_false_iff_not] at h
  omega

theorem encode_final {c : Char} (h : isFinalChar c = true) :
    ∃ b, String.utf8EncodeChar c = [b] ∧ isFinalByte b = true := by
  rw [isFinalChar, Bool.and_eq_true, decide_eq_true_eq, decide_eq_true_eq] at h
  refine ⟨UInt8.ofNat c.toNat, encodeChar_ascii (by omega), ?_⟩
  have hlow : UInt8.toNat 0x40 = 0x40 := rfl
  have hhigh : UInt8.toNat 0x7e = 0x7e := rfl
  rw [isFinalByte, Bool.and_eq_true, decide_eq_true_eq, decide_eq_true_eq,
    UInt8.le_iff_toNat_le, UInt8.le_iff_toNat_le, UInt8.toNat_ofNat']
  omega

/-- The scanner behind `ESC [`, on bytes and on characters. -/
theorem csi_spec (a : List UInt8) (cs : List Char) :
    ∃ used rest, cs = used ++ rest ∧ stripAnsiFrom .csi cs = stripAnsi rest ∧
      csiEnd (a ++ encode cs) a.length = (a ++ encode used).length ∧
      (rest = [] ∧ (∀ c ∈ used, isFinalChar c = false) ∨
        ∃ body final, used = body ++ [final] ∧ (∀ c ∈ body, isFinalChar c = false) ∧
          isFinalChar final = true) := by
  induction cs generalizing a with
  | nil =>
    refine ⟨[], [], rfl, rfl, ?_, Or.inl ⟨rfl, nofun⟩⟩
    rw [encode_nil, List.append_nil, csiEnd_length]
  | cons c cs ih =>
    by_cases hc : isFinalChar c = true
    · obtain ⟨b, hb, hfinal⟩ := encode_final hc
      refine ⟨[c], cs, rfl, ?_, ?_, Or.inr ⟨[], c, rfl, nofun, hc⟩⟩
      · rw [isFinalChar, Bool.and_eq_true, decide_eq_true_eq, decide_eq_true_eq] at hc
        rw [stripAnsiFrom, if_pos hc, stripAnsi]
      · rw [encode_cons, encode_cons, hb, List.singleton_append, csiEnd_stop hfinal]
        simp [encode_nil]
    · rw [Bool.not_eq_true] at hc
      obtain ⟨used, rest, rfl, hchars, hbytes, hend⟩ := ih (a ++ String.utf8EncodeChar c)
      refine ⟨c :: used, rest, rfl, ?_, ?_, ?_⟩
      · rw [isFinalChar, Bool.and_eq_false_iff, decide_eq_false_iff_not,
          decide_eq_false_iff_not] at hc
        rw [stripAnsiFrom, if_neg (by omega), hchars]
      · rw [encode_cons, over_bytes csiEnd_over (isFinalByte_of_mem hc), hbytes, encode_cons,
          List.append_assoc]
      · rcases hend with ⟨hrest, hopen⟩ | ⟨body, final, rfl, hbody, hfinal⟩
        · exact Or.inl ⟨hrest, List.forall_mem_cons.mpr ⟨hc, hopen⟩⟩
        · exact Or.inr ⟨c :: body, final, rfl, List.forall_mem_cons.mpr ⟨hc, hbody⟩, hfinal⟩

/-! ## OSC sequences -/

theorem oscEnd_over (a : List UInt8) (b : UInt8) (r : List UInt8) (h : b ≠ 0x07 ∧ b ≠ 0x1b) :
    oscEnd (a ++ b :: r) a.length = oscEnd (a ++ b :: r) (a.length + 1) := by
  have hlength : a.length < (a ++ b :: r).length := by simp
  rw [oscEnd, if_pos hlength, get_length, if_neg (by simpa using h.1),
    if_neg (by simp [h.2])]

theorem oscEnd_bel (a r : List UInt8) : oscEnd (a ++ 0x07 :: r) a.length = a.length + 1 := by
  have hlength : a.length < (a ++ 0x07 :: r).length := by simp
  rw [oscEnd, if_pos hlength, get_length, if_pos rfl]

theorem oscEnd_terminator (a r : List UInt8) :
    oscEnd (a ++ 0x1b :: 0x5c :: r) a.length = a.length + 2 := by
  have hlength : a.length < (a ++ 0x1b :: 0x5c :: r).length := by simp
  rw [oscEnd, if_pos hlength, get_length, if_neg (by decide), get_length_add]
  exact if_pos ⟨rfl, rfl⟩

theorem oscEnd_escape (a r : List UInt8) (h : r.head? ≠ some 0x5c) :
    oscEnd (a ++ 0x1b :: r) a.length = oscEnd (a ++ 0x1b :: r) (a.length + 1) := by
  have hlength : a.length < (a ++ 0x1b :: r).length := by simp
  have hnext : (0x1b :: r)[1]? = r.head? := by
    cases r <;> rfl
  rw [oscEnd, if_pos hlength, get_length, if_neg (by decide), get_length_add, hnext,
    if_neg (fun hboth => h hboth.2)]

theorem encode_head_ne {c : Char} (h : c ≠ '\\') (s : List Char) :
    (encode (c :: s)).head? ≠ some 0x5c := by
  intro hhead
  obtain ⟨b, tail, heq⟩ : ∃ b tail, String.utf8EncodeChar c = b :: tail := by
    rcases encodeChar_cases c with ⟨-, heq⟩ | ⟨b, tail, heq, -⟩
    · exact ⟨_, _, heq⟩
    · exact ⟨_, _, heq⟩
  rw [encode_cons, heq, List.cons_append, List.head?_cons, Option.some.injEq] at hhead
  have hmem : (0x5c : UInt8) ∈ String.utf8EncodeChar c := by
    rw [heq, hhead]
    exact List.mem_cons_self ..
  have hchar := (eq_of_mem_encodeChar (by decide) hmem).2
  exact h (Char.toNat_inj.mp hchar)

/-- Another escape character within an OSC sequence that no backslash follows. -/
theorem oscEscape_eq {c : Char} (h : c ≠ '\\') (cs : List Char) :
    stripAnsiFrom .oscEscape (c :: cs) = stripAnsiFrom .osc (c :: cs) := by
  rw [stripAnsiFrom, stripAnsiFrom]
  simp only [h, false_or]

theorem oscBody_cons {c : Char} {body : List Char} (hbel : c ≠ '\x07')
    (h : c = '\x1b' → body.head? ≠ some '\\') (hbody : OscBody body) : OscBody (c :: body) := by
  refine ⟨?_, ?_⟩
  · rw [List.mem_cons, not_or]
    exact ⟨hbel.symm, hbody.1⟩
  · intro hin
    rcases List.infix_cons_iff.mp hin with ⟨post, hpre⟩ | hin
    · rw [List.cons_append, List.cons_append, List.cons.injEq] at hpre
      refine h hpre.1.symm ?_
      rw [← hpre.2]
      rfl
    · exact hbody.2 hin

/-- What the scanner behind `ESC ]` takes of a text, on bytes and on characters. -/
def OscTaken (a : List UInt8) (cs : List Char) : Prop :=
  ∃ used rest, cs = used ++ rest ∧ stripAnsiFrom .osc cs = stripAnsi rest ∧
    oscEnd (a ++ encode cs) a.length = (a ++ encode used).length ∧
    (rest = [] ∧ OscBody used ∨ ∃ body final, used = body ++ final ∧ OscBody body ∧
      (final = ['\x07'] ∨ final = ['\x1b', '\\']))

/-- A character that ends nothing is passed over. -/
theorem oscTaken_over {a : List UInt8} {c : Char} {cs : List Char}
    (h : OscTaken (a ++ String.utf8EncodeChar c) cs) (hbel : c ≠ '\x07')
    (hescape : c = '\x1b' → cs.head? ≠ some '\\')
    (hchars : stripAnsiFrom .osc (c :: cs) = stripAnsiFrom .osc cs)
    (hbytes : oscEnd (a ++ encode (c :: cs)) a.length =
      oscEnd ((a ++ String.utf8EncodeChar c) ++ encode cs)
        (a ++ String.utf8EncodeChar c).length) : OscTaken a (c :: cs) := by
  obtain ⟨used, rest, rfl, hrest, hindex, hend⟩ := h
  refine ⟨c :: used, rest, rfl, hchars.trans hrest, ?_, ?_⟩
  · rw [hbytes, hindex, encode_cons, List.append_assoc]
  · rcases hend with ⟨rfl, hopen⟩ | ⟨body, final, rfl, hbody, hfinal⟩
    · rw [List.append_nil] at hescape
      exact Or.inl ⟨rfl, oscBody_cons hbel hescape hopen⟩
    · refine Or.inr ⟨c :: body, final, rfl, oscBody_cons hbel ?_ hbody, hfinal⟩
      intro hc hhead
      refine hescape hc ?_
      cases body with
      | nil => cases hhead
      | cons d body => exact hhead

theorem osc_spec (a : List UInt8) (cs : List Char) : OscTaken a cs := by
  have hempty : OscBody [] := ⟨nofun, by decide⟩
  induction cs generalizing a with
  | nil =>
    refine ⟨[], [], rfl, rfl, ?_, Or.inl ⟨rfl, hempty⟩⟩
    rw [encode_nil, List.append_nil, oscEnd, if_neg (Nat.lt_irrefl _)]
  | cons c cs ih =>
    by_cases hbel : c = '\x07'
    · subst hbel
      refine ⟨['\x07'], cs, rfl, rfl, ?_, Or.inr ⟨[], ['\x07'], rfl, hempty, Or.inl rfl⟩⟩
      have hcode : encode ['\x07'] = [0x07] := by decide
      rw [hcode, List.length_append]
      exact oscEnd_bel a (encode cs)
    · by_cases hescape : c = '\x1b'
      · subst hescape
        cases cs with
        | nil =>
          refine ⟨['\x1b'], [], rfl, rfl, ?_, Or.inl ⟨rfl, by decide, by decide⟩⟩
          have hcode : encode ['\x1b'] = [0x1b] := by decide
          rw [hcode, oscEnd_escape a [] (by decide), oscEnd]
          simp
        | cons d ds =>
          by_cases hd : d = '\\'
          · subst hd
            refine ⟨['\x1b', '\\'], ds, rfl, rfl, ?_,
              Or.inr ⟨[], ['\x1b', '\\'], rfl, hempty, Or.inr rfl⟩⟩
            have hcode : encode ['\x1b', '\\'] = [0x1b, 0x5c] := by decide
            rw [hcode, List.length_append]
            exact oscEnd_terminator a (encode ds)
          · refine oscTaken_over (ih _) (by decide) (fun _ => by simpa using hd) ?_ ?_
            · rw [stripAnsiFrom, if_neg (by decide), if_pos rfl, oscEscape_eq hd]
            · have hcode : String.utf8EncodeChar '\x1b' = [0x1b] := by decide
              rw [encode_cons, hcode, List.length_append, List.append_assoc]
              exact oscEnd_escape a _ (encode_head_ne hd ds)
      · refine oscTaken_over (ih _) hbel (fun hc => absurd hc hescape) ?_ ?_
        · rw [stripAnsiFrom, if_neg hbel, if_neg hescape]
        · refine over_bytes oscEnd_over (fun b hb => ⟨?_, ?_⟩) a (encode cs)
          · rintro rfl
            exact hbel (Char.toNat_inj.mp (eq_of_mem_encodeChar (by decide) hb).2)
          · rintro rfl
            exact hescape (Char.toNat_inj.mp (eq_of_mem_encodeChar (by decide) hb).2)

/-! ## Text and sequences of a fixed length -/

theorem stripAnsi_text {c : Char} (hc : c ≠ '\x1b') (s : List Char) :
    stripAnsi (c :: s) = (stripAnsi s).map (c :: ·) := by
  rw [stripAnsi, stripAnsiFrom, if_neg hc, ← stripAnsi]

theorem stripAnsi_charset {d : Char} (h : d ∈ ['(', ')', '*', '+']) (c : Char) (s : List Char) :
    stripAnsi ('\x1b' :: d :: c :: s) = if c.toNat < 0x80 then stripAnsi s else none := by
  have hcharset : stripAnsi ('\x1b' :: d :: c :: s) = stripAnsiFrom .charset (c :: s) := by
    simp only [List.mem_cons, List.not_mem_nil, or_false] at h
    rw [stripAnsi, stripAnsiFrom, if_pos rfl]
    rcases h with rfl | rfl | rfl | rfl <;> rfl
  rw [hcharset, stripAnsiFrom, stripAnsi]
  simp only [encodeChar_utf8Size]

theorem stripAnsi_single {d : Char} (h : d ∉ ['[', ']', '(', ')', '*', '+']) (s : List Char) :
    stripAnsi ('\x1b' :: d :: s) = if d.toNat < 0x80 then stripAnsi s else none := by
  simp only [List.mem_cons, List.not_mem_nil, or_false, not_or] at h
  obtain ⟨h1, h2, h3, h4, h5, h6⟩ := h
  have hcharset : ['(', ')', '*', '+'].contains d = false := by
    simp [h3, h4, h5, h6]
  rw [stripAnsi, stripAnsiFrom, if_pos rfl, stripAnsiFrom, if_neg h1, if_neg h2, hcharset,
    if_neg Bool.false_ne_true, ← stripAnsi]
  simp only [encodeChar_utf8Size]

/-! ## One turn of the loop -/

theorem scanUntil_continuations {w : List UInt8} (hw : ∀ b ∈ w, isContinuation b = true)
    {a : List UInt8} (ha : a ≠ []) (s : List Char) :
    scanUntil (isCharBoundary (a ++ (w ++ encode s))) (a ++ (w ++ encode s)).length a.length =
      (a ++ w).length := by
  induction w generalizing a with
  | nil =>
    rw [List.nil_append, List.append_nil, scanUntil, isCharBoundary_encode, if_pos rfl, ite_self]
  | cons b w ih =>
    have hlength : a.length < (a ++ (b :: w ++ encode s)).length := by simp
    have hinner := not_isCharBoundary (get_length a b (w ++ encode s))
      (hw b (List.mem_cons_self ..)) (List.length_pos_iff.mpr ha)
    have hrest := ih (fun x hx => hw x (List.mem_cons_of_mem b hx))
      (List.append_ne_nil_of_right_ne_nil a (List.cons_ne_nil b []))
    have hnext : (a ++ [b]).length = a.length + 1 := List.length_append
    rw [hnext, List.append_assoc, List.append_assoc, List.singleton_append,
      List.singleton_append] at hrest
    rw [scanUntil, if_pos hlength, List.cons_append, hinner, if_neg Bool.false_ne_true, hrest]

theorem nextCharBoundary_encode (pre : List UInt8) (c : Char) (cs : List Char) :
    nextCharBoundary (pre ++ encode (c :: cs)) pre.length =
      (pre ++ String.utf8EncodeChar c).length := by
  obtain ⟨lead, tail, heq, htail⟩ : ∃ lead tail, String.utf8EncodeChar c = lead :: tail ∧
      ∀ b ∈ tail, isContinuation b = true := by
    rcases encodeChar_cases c with ⟨-, heq⟩ | ⟨lead, tail, heq, -, -, -, htail⟩
    · exact ⟨_, [], heq, nofun⟩
    · exact ⟨lead, tail, heq, htail⟩
  have hscan := scanUntil_continuations htail
    (List.append_ne_nil_of_right_ne_nil pre (List.cons_ne_nil lead [])) cs
  have hnext : (pre ++ [lead]).length = pre.length + 1 := List.length_append
  rw [hnext, List.append_assoc, List.append_assoc, List.singleton_append,
    List.singleton_append] at hscan
  rw [nextCharBoundary, encode_cons, heq, List.cons_append, hscan]
  apply Nat.min_eq_left
  simp

/-- Within a character the scanner panics. -/
theorem ansiStep_within {bytes : List UInt8} {j : Nat} {b : UInt8} (h : bytes[j]? = some b)
    (hb : isContinuation b = true) (hj : 0 < j) : ansiStep bytes j = none := by
  have hescape : b ≠ 0x1b := by
    rintro rfl
    exact absurd hb (by decide)
  have hslice : sliceText bytes j (nextCharBoundary bytes j) = none := by
    rw [sliceText, if_neg]
    rw [not_isCharBoundary h hb hj]
    exact fun hall => Bool.false_ne_true hall.2.1
  rw [ansiStep, h]
  simp only [hescape, if_false, hslice, Option.map_none]

/-- A turn that takes `used` of a text and puts `kept` out. -/
structure WholeTurn (pre : List UInt8) (s used rest kept : List Char) : Prop where
  split : s = used ++ rest
  progress : used ≠ []
  step : ansiStep (pre ++ encode s) pre.length = some ((pre ++ encode used).length, encode kept)
  chars : stripAnsi s = (stripAnsi rest).map (kept ++ ·)
  unit : rest = [] ∧ Unfinished used ∨ AnsiUnit used

/-- A turn that ends within a character, where the next one panics. -/
structure TornTurn (pre : List UInt8) (s torn rest : List Char) : Prop where
  split : s = torn ++ rest
  torn : TornSequence torn
  chars : stripAnsi s = none
  step : ∃ j, ansiStep (pre ++ encode s) pre.length = some (j, []) ∧
    j < (pre ++ encode s).length ∧ ansiStep (pre ++ encode s) j = none

theorem text_turn (pre : List UInt8) {c : Char} (hc : c ≠ '\x1b') (cs : List Char) :
    WholeTurn pre (c :: cs) [c] cs [c] := by
  refine ⟨rfl, List.cons_ne_nil _ _, ?_, ?_, Or.inr (.text hc)⟩
  · obtain ⟨b, tail, heq⟩ : ∃ b tail, String.utf8EncodeChar c = b :: tail := by
      rcases encodeChar_cases c with ⟨-, heq⟩ | ⟨b, tail, heq, -⟩
      · exact ⟨_, _, heq⟩
      · exact ⟨_, _, heq⟩
    have hb : b ≠ 0x1b := by
      rintro rfl
      have hmem : 0x1b ∈ String.utf8EncodeChar c := by
        rw [heq]
        exact List.mem_cons_self ..
      exact hc (Char.toNat_inj.mp (eq_of_mem_encodeChar (by decide) hmem).2)
    have hget : (pre ++ encode (c :: cs))[pre.length]? = some b := by
      rw [encode_cons, heq, List.cons_append, get_length]
    have hcode : encode [c] = String.utf8EncodeChar c := by
      rw [encode_cons, encode_nil, List.append_nil]
    have hslice : sliceText (pre ++ encode (c :: cs)) pre.length
        (pre ++ String.utf8EncodeChar c).length = some (String.utf8EncodeChar c) := by
      have hend := isCharBoundary_encode (pre ++ String.utf8EncodeChar c) cs
      rw [List.append_assoc, ← encode_cons] at hend
      rw [sliceText, if_pos ⟨by simp, isCharBoundary_encode pre (c :: cs), hend⟩, encode_cons,
        ← List.append_assoc, List.take_left, List.drop_left]
    rw [ansiStep, hget]
    simp only [hb, if_false, nextCharBoundary_encode, hslice, hcode, Option.map_some]
  · exact stripAnsi_text hc cs

theorem ansiStep_escape (pre : List UInt8) (b : UInt8) (r : List UInt8) :
    ansiStep (pre ++ 0x1b :: b :: r) pre.length =
      if b = 0x5b then some (csiEnd (pre ++ 0x1b :: b :: r) (pre.length + 2), [])
      else if b = 0x5d then some (oscEnd (pre ++ 0x1b :: b :: r) (pre.length + 2), [])
      else if b = 0x28 ∨ b = 0x29 ∨ b = 0x2a ∨ b = 0x2b then
        some (pre.length + min 3 ((pre ++ 0x1b :: b :: r).length - pre.length), [])
      else some (pre.length + 2, []) := by
  rw [ansiStep, get_length, get_length_add]
  rfl

/-- The rest of a sequence whose first two bytes are taken. -/
theorem introduced_eq (pre : List UInt8) (b : UInt8) (r : List UInt8) :
    pre ++ 0x1b :: b :: r = (pre ++ [0x1b, b]) ++ r := by
  simp

theorem introduced_length (pre : List UInt8) (b : UInt8) :
    (pre ++ [0x1b, b]).length = pre.length + 2 := List.length_append

theorem csi_turn (pre : List UInt8) (cs : List Char) :
    ∃ used rest, WholeTurn pre ('\x1b' :: '[' :: cs) used rest [] := by
  obtain ⟨used, rest, rfl, hchars, hindex, hend⟩ := csi_spec (pre ++ [0x1b, 0x5b]) cs
  have hcode : ∀ s, encode ('\x1b' :: '[' :: s) = 0x1b :: 0x5b :: encode s := fun _ => rfl
  refine ⟨'\x1b' :: '[' :: used, rest, rfl, List.cons_ne_nil _ _, ?_, ?_, ?_⟩
  · rw [introduced_length] at hindex
    rw [hcode, hcode, ansiStep_escape, if_pos rfl, introduced_eq _ _ (encode (used ++ rest)),
      introduced_eq _ _ (encode used), hindex]
    rfl
  · rw [stripAnsi, stripAnsiFrom, if_pos rfl, stripAnsiFrom, if_pos rfl, hchars]
    simp
  · rcases hend with ⟨hrest, hopen⟩ | ⟨body, final, rfl, hbody, hfinal⟩
    · exact Or.inl ⟨hrest, .csi hopen⟩
    · exact Or.inr (.csi hbody hfinal)

theorem osc_turn (pre : List UInt8) (cs : List Char) :
    ∃ used rest, WholeTurn pre ('\x1b' :: ']' :: cs) used rest [] := by
  obtain ⟨used, rest, rfl, hchars, hindex, hend⟩ := osc_spec (pre ++ [0x1b, 0x5d]) cs
  have hcode : ∀ s, encode ('\x1b' :: ']' :: s) = 0x1b :: 0x5d :: encode s := fun _ => rfl
  refine ⟨'\x1b' :: ']' :: used, rest, rfl, List.cons_ne_nil _ _, ?_, ?_, ?_⟩
  · rw [introduced_length] at hindex
    rw [hcode, hcode, ansiStep_escape, if_neg (by decide), if_pos rfl,
      introduced_eq _ _ (encode (used ++ rest)), introduced_eq _ _ (encode used), hindex]
    rfl
  · rw [stripAnsi, stripAnsiFrom, if_pos rfl, stripAnsiFrom, if_neg (by decide), if_pos rfl, hchars]
    simp
  · rcases hend with ⟨hrest, hopen⟩ | ⟨body, final, rfl, hbody, rfl | rfl⟩
    · exact Or.inl ⟨hrest, .osc hopen⟩
    · exact Or.inr (.bel hbody)
    · exact Or.inr (.terminator hbody)

/-- The bytes of a character that is longer than one. -/
theorem encode_long {c : Char} (h : 0x80 ≤ c.toNat) (s : List Char) :
    ∃ lead next tail, encode (c :: s) = lead :: next :: tail ∧
      lead ∈ String.utf8EncodeChar c ∧ isContinuation next = true := by
  rcases encodeChar_cases c with ⟨hsmall, -⟩ | ⟨lead, tail, heq, -, -, hne, htail⟩
  · omega
  · obtain ⟨next, rest, rfl⟩ := List.exists_cons_of_ne_nil hne
    refine ⟨lead, next, rest ++ encode s, by rw [encode_cons, heq]; rfl,
      by rw [heq]; exact List.mem_cons_self .., ?_⟩
    exact htail next (List.mem_cons_self ..)

theorem charset_turn (pre : List UInt8) {d : Char} (hd : d ∈ ['(', ')', '*', '+'])
    (cs : List Char) :
    (∃ used rest, WholeTurn pre ('\x1b' :: d :: cs) used rest []) ∨
      ∃ torn rest, TornTurn pre ('\x1b' :: d :: cs) torn rest := by
  obtain ⟨b, hcode, hb⟩ : ∃ b, (∀ s, encode ('\x1b' :: d :: s) = 0x1b :: b :: encode s) ∧
      (b = 0x28 ∨ b = 0x29 ∨ b = 0x2a ∨ b = 0x2b) := by
    simp only [List.mem_cons, List.not_mem_nil, or_false] at hd
    rcases hd with rfl | rfl | rfl | rfl
    · exact ⟨0x28, fun _ => rfl, by decide⟩
    · exact ⟨0x29, fun _ => rfl, by decide⟩
    · exact ⟨0x2a, fun _ => rfl, by decide⟩
    · exact ⟨0x2b, fun _ => rfl, by decide⟩
  have hstep : ∀ r, ansiStep (pre ++ 0x1b :: b :: r) pre.length =
      some (pre.length + min 3 (r.length + 2), []) := by
    intro r
    have hlength : (pre ++ 0x1b :: b :: r).length - pre.length = r.length + 2 := by
      rw [List.length_append]
      simp
    rw [ansiStep_escape, if_neg (by rcases hb with rfl | rfl | rfl | rfl <;> decide),
      if_neg (by rcases hb with rfl | rfl | rfl | rfl <;> decide), if_pos hb, hlength]
  cases cs with
  | nil =>
    refine Or.inl ⟨['\x1b', d], [], rfl, List.cons_ne_nil _ _, ?_, ?_,
      Or.inl ⟨rfl, .charset hd⟩⟩
    · rw [hcode, hstep]
      simp [encode_nil]
    · simp only [List.mem_cons, List.not_mem_nil, or_false] at hd
      rcases hd with rfl | rfl | rfl | rfl <;> rfl
  | cons c cs =>
    by_cases hc : c.toNat < 0x80
    · refine Or.inl ⟨['\x1b', d, c], cs, rfl, List.cons_ne_nil _ _, ?_, ?_,
        Or.inr (.charset hd hc)⟩
      · rw [hcode, hcode, hstep, encode_cons, encodeChar_ascii hc]
        simp [encode_cons, encode_nil, encodeChar_ascii hc]
      · rw [stripAnsi_charset hd, if_pos hc]
        simp
    · obtain ⟨lead, next, tail, heq, hlead, hnext⟩ := encode_long (Nat.not_lt.mp hc) cs
      refine Or.inr ⟨['\x1b', d, c], cs, rfl, .charset hd (Nat.not_lt.mp hc), ?_,
        pre.length + 3, ?_, ?_, ?_⟩
      · rw [stripAnsi_charset hd, if_neg hc]
      · rw [hcode, heq, hstep]
        simp
      · rw [hcode, heq]
        simp
      · refine ansiStep_within ?_ hnext (by omega)
        rw [hcode, heq, get_length_add]
        rfl

/-- The two bytes that `ESC` and an unknown byte are. -/
theorem single_turn (pre : List UInt8) {d : Char} (hd : d ∉ ['[', ']', '(', ')', '*', '+'])
    (cs : List Char) :
    WholeTurn pre ('\x1b' :: d :: cs) ['\x1b', d] cs [] ∨
      TornTurn pre ('\x1b' :: d :: cs) ['\x1b', d] cs := by
  have hescape : ∀ s, encode ('\x1b' :: s) = 0x1b :: encode s := fun _ => rfl
  have hstep : ∀ b r, b ∈ String.utf8EncodeChar d →
      ansiStep (pre ++ 0x1b :: b :: r) pre.length = some (pre.length + 2, []) := by
    intro b r hb
    have hsmall : ∀ c ∈ ['[', ']', '(', ')', '*', '+'],
        UInt8.ofNat c.toNat < 0x80 ∧ (UInt8.ofNat c.toNat).toNat = c.toNat := by
      simp only [List.forall_mem_cons, List.not_mem_nil, false_imp_iff, implies_true, and_true]
      decide
    have hother : ∀ c ∈ ['[', ']', '(', ')', '*', '+'], b ≠ UInt8.ofNat c.toNat := by
      intro c hc heq
      have hchar := (eq_of_mem_encodeChar (heq ▸ (hsmall c hc).1) hb).2
      rw [heq, (hsmall c hc).2] at hchar
      exact hd (Char.toNat_inj.mp hchar ▸ hc)
    have hcsi : b ≠ 0x5b := hother '[' (by decide)
    have hosc : b ≠ 0x5d := hother ']' (by decide)
    rw [ansiStep_escape, if_neg hcsi, if_neg hosc, if_neg]
    rintro (h | h | h | h)
    · exact hother '(' (by decide) h
    · exact hother ')' (by decide) h
    · exact hother '*' (by decide) h
    · exact hother '+' (by decide) h
  by_cases hsmall : d.toNat < 0x80
  · refine Or.inl ⟨rfl, List.cons_ne_nil _ _, ?_, ?_, Or.inr (.single hd hsmall)⟩
    · rw [hescape, hescape, encode_cons, encode_cons, encodeChar_ascii hsmall,
        List.singleton_append, hstep _ _ (by rw [encodeChar_ascii hsmall]; exact .head _)]
      simp [encode_nil]
    · rw [stripAnsi_single hd, if_pos hsmall]
      simp
  · obtain ⟨lead, next, tail, heq, hlead, hnext⟩ := encode_long (Nat.not_lt.mp hsmall) cs
    refine Or.inr ⟨rfl, .single (Nat.not_lt.mp hsmall), ?_, pre.length + 2, ?_, ?_, ?_⟩
    · rw [stripAnsi_single hd, if_neg hsmall]
    · rw [hescape, heq, hstep _ _ hlead]
    · rw [hescape, heq]
      simp
    · refine ansiStep_within ?_ hnext (by omega)
      rw [hescape, heq, get_length_add]
      rfl

/-- What one turn of the loop does at an escape character. -/
theorem escape_turn (pre : List UInt8) (cs : List Char) :
    (∃ used rest, WholeTurn pre ('\x1b' :: cs) used rest []) ∨
      ∃ torn rest, TornTurn pre ('\x1b' :: cs) torn rest := by
  cases cs with
  | nil =>
    refine Or.inl ⟨['\x1b'], [], rfl, List.cons_ne_nil _ _, ?_, rfl, Or.inl ⟨rfl, .escape⟩⟩
    have hcode : encode ['\x1b'] = [0x1b] := by decide
    rw [hcode, ansiStep, get_length, get_length_add]
    simp [encode_nil]
  | cons d ds =>
    by_cases hcsi : d = '['
    · obtain ⟨used, rest, hturn⟩ := csi_turn pre ds
      exact Or.inl ⟨used, rest, hcsi ▸ hturn⟩
    · by_cases hosc : d = ']'
      · obtain ⟨used, rest, hturn⟩ := osc_turn pre ds
        exact Or.inl ⟨used, rest, hosc ▸ hturn⟩
      · by_cases hcharset : d ∈ ['(', ')', '*', '+']
        · exact charset_turn pre hcharset ds
        · have hother : d ∉ ['[', ']', '(', ')', '*', '+'] := by
            rw [List.mem_cons, List.mem_cons, not_or, not_or]
            exact ⟨hcsi, hosc, hcharset⟩
          rcases single_turn pre hother ds with hturn | hturn
          · exact Or.inl ⟨_, _, hturn⟩
          · exact Or.inr ⟨_, _, hturn⟩

/-- What one turn of the loop does at the start of a character. -/
theorem turn_cases (pre : List UInt8) {s : List Char} (hs : s ≠ []) :
    (∃ used rest kept, WholeTurn pre s used rest kept) ∨ ∃ torn rest, TornTurn pre s torn rest := by
  obtain ⟨c, cs, rfl⟩ := List.exists_cons_of_ne_nil hs
  by_cases hc : c = '\x1b'
  · subst hc
    rcases escape_turn pre cs with ⟨used, rest, hturn⟩ | hturn
    · exact Or.inl ⟨used, rest, [], hturn⟩
    · exact Or.inr hturn
  · exact Or.inl ⟨_, _, _, text_turn pre hc cs⟩

/-! ## The whole scan -/

/-- The scanner on bytes computes what `stripAnsi` does on characters. -/
theorem ansiLoop_eq (pre : List UInt8) (s : List Char) (out : List UInt8) :
    ansiLoop (pre ++ encode s) pre.length out = (stripAnsi s).map fun t => out ++ encode t := by
  induction hn : s.length using Nat.strong_induction_on generalizing pre s out with
  | _ n ih =>
    cases s with
    | nil =>
      rw [ansiLoop, dif_neg (by simp [encode_nil])]
      simp [stripAnsi, stripAnsiFrom, encode_nil]
    | cons c cs =>
      have hi : pre.length < (pre ++ encode (c :: cs)).length := by
        obtain ⟨lead, tail, heq, -⟩ := encode_head c cs
        rw [heq]
        simp
      rcases turn_cases pre (List.cons_ne_nil c cs) with ⟨used, rest, kept, h⟩ | ⟨torn, rest, h⟩
      · have hshorter : rest.length < n := by
          have hlength := congrArg List.length h.split
          have hused := List.length_pos_iff.mpr h.progress
          rw [List.length_append] at hlength
          omega
        have hrest := ih rest.length hshorter (pre ++ encode used) rest (out ++ encode kept) rfl
        rw [List.append_assoc, ← encode_append, ← h.split] at hrest
        rw [ansiLoop_step hi h.step, hrest, h.chars, Option.map_map]
        congr 1
        funext t
        rw [Function.comp_apply, encode_append, List.append_assoc]
      · obtain ⟨j, hstep, hj, hpanic⟩ := h.step
        rw [ansiLoop_step hi hstep, ansiLoop_panic hj hpanic, h.chars, Option.map_none]

theorem stripAnsiBytes_eq (s : List Char) : stripAnsiBytes (encode s) = (stripAnsi s).map encode :=
  ansiLoop_eq [] s []

/-- Whole characters and complete sequences, and then a sequence that ends within a
character. -/
def HasTornSequence (s : List Char) : Prop :=
  ∃ (units : List (List Char)) (torn rest : List Char), s = units.flatten ++ (torn ++ rest) ∧
    (∀ u ∈ units, AnsiUnit u) ∧ TornSequence torn

theorem stripAnsi_torn {torn : List Char} (h : TornSequence torn) (rest : List Char) :
    stripAnsi (torn ++ rest) = none := by
  cases h with
  | @charset d c hd hc => exact (stripAnsi_charset hd c rest).trans (if_neg (Nat.not_lt.mpr hc))
  | @single c hc =>
    have hother : c ∉ ['[', ']', '(', ')', '*', '+'] := by
      have hsmall : ∀ d ∈ ['[', ']', '(', ')', '*', '+'], d.toNat < 0x80 := by
        simp only [List.forall_mem_cons, List.not_mem_nil, false_imp_iff, implies_true, and_true]
        decide
      exact fun hmem => absurd (hsmall c hmem) (Nat.not_lt.mpr hc)
    exact (stripAnsi_single hother rest).trans (if_neg (Nat.not_lt.mpr hc))

theorem stripAnsiFrom_csi {body : List Char} {final : Char}
    (hbody : ∀ c ∈ body, isFinalChar c = false) (hfinal : isFinalChar final = true)
    (rest : List Char) : stripAnsiFrom .csi (body ++ final :: rest) = stripAnsi rest := by
  induction body with
  | nil =>
    rw [isFinalChar, Bool.and_eq_true, decide_eq_true_eq, decide_eq_true_eq] at hfinal
    rw [List.nil_append, stripAnsiFrom, if_pos hfinal, stripAnsi]
  | cons c body ih =>
    obtain ⟨hc, hrest⟩ := List.forall_mem_cons.mp hbody
    rw [isFinalChar, Bool.and_eq_false_iff, decide_eq_false_iff_not,
      decide_eq_false_iff_not] at hc
    rw [List.cons_append, stripAnsiFrom, if_neg (by omega), ih hrest]

theorem stripAnsiFrom_osc {body final : List Char} (hbody : OscBody body)
    (hfinal : final = ['\x07'] ∨ final = ['\x1b', '\\']) (rest : List Char) :
    stripAnsiFrom .osc (body ++ (final ++ rest)) = stripAnsi rest := by
  induction body with
  | nil => rcases hfinal with rfl | rfl <;> rfl
  | cons c body ih =>
    obtain ⟨hbel, hterminator⟩ := hbody
    rw [List.mem_cons, not_or] at hbel
    have hrest : OscBody body :=
      ⟨hbel.2, fun hin => hterminator (List.infix_cons hin)⟩
    rw [List.cons_append, stripAnsiFrom, if_neg (Ne.symm hbel.1)]
    by_cases hc : c = '\x1b'
    · obtain ⟨d, ds, hd, hne⟩ : ∃ d ds, body ++ (final ++ rest) = d :: ds ∧ d ≠ '\\' := by
        cases body with
        | nil => rcases hfinal with rfl | rfl <;> exact ⟨_, _, rfl, by decide⟩
        | cons d body =>
          refine ⟨d, _, rfl, ?_⟩
          rintro rfl
          rw [hc] at hterminator
          exact hterminator (List.IsPrefix.isInfix ⟨body, rfl⟩)
      rw [if_pos hc, hd, oscEscape_eq hne, ← hd, ih hrest]
    · rw [if_neg hc, ih hrest]

/-- A sequence that is complete leaves nothing behind. -/
theorem stripAnsi_sequence {sequence : List Char} (h : AnsiUnit ('\x1b' :: sequence))
    (rest : List Char) : stripAnsi ('\x1b' :: sequence ++ rest) = stripAnsi rest := by
  have hosc : ∀ {body final : List Char}, OscBody body →
      (final = ['\x07'] ∨ final = ['\x1b', '\\']) →
      stripAnsi ('\x1b' :: ']' :: (body ++ final) ++ rest) = stripAnsi rest := by
    intro body final hbody hfinal
    rw [List.cons_append, List.cons_append, List.append_assoc, stripAnsi, stripAnsiFrom,
      if_pos rfl, stripAnsiFrom, if_neg (by decide), if_pos rfl, stripAnsiFrom_osc hbody hfinal]
  cases h with
  | text hc => exact absurd rfl hc
  | @csi body final hbody hfinal =>
    rw [List.cons_append, List.cons_append, List.append_assoc, List.singleton_append, stripAnsi,
      stripAnsiFrom, if_pos rfl, stripAnsiFrom, if_pos rfl, stripAnsiFrom_csi hbody hfinal]
  | bel hbody => exact hosc hbody (Or.inl rfl)
  | terminator hbody => exact hosc hbody (Or.inr rfl)
  | @charset d c hd hc => exact (stripAnsi_charset hd c rest).trans (if_pos hc)
  | @single c hc hsmall => exact (stripAnsi_single hc rest).trans (if_pos hsmall)

/-- A unit in front changes nothing about a panic. -/
theorem stripAnsi_unit {unit : List Char} (h : AnsiUnit unit) (rest : List Char) :
    (stripAnsi (unit ++ rest)).isSome = (stripAnsi rest).isSome := by
  cases h with
  | text hc => rw [List.singleton_append, stripAnsi_text hc, Option.isSome_map]
  | csi hbody hfinal => rw [stripAnsi_sequence (.csi hbody hfinal)]
  | bel hbody => rw [stripAnsi_sequence (.bel hbody)]
  | terminator hbody => rw [stripAnsi_sequence (.terminator hbody)]
  | charset hd hc => rw [stripAnsi_sequence (.charset hd hc)]
  | single hc hsmall => rw [stripAnsi_sequence (.single hc hsmall)]

theorem stripAnsi_units {units : List (List Char)} (h : ∀ u ∈ units, AnsiUnit u)
    (rest : List Char) : (stripAnsi (units.flatten ++ rest)).isSome = (stripAnsi rest).isSome := by
  induction units with
  | nil => rfl
  | cons u units ih =>
    obtain ⟨hu, hunits⟩ := List.forall_mem_cons.mp h
    rw [List.flatten_cons, List.append_assoc, stripAnsi_unit hu, ih hunits]

theorem torn_of_stripAnsi (s : List Char) (h : stripAnsi s = none) : HasTornSequence s := by
  induction hn : s.length using Nat.strong_induction_on generalizing s with
  | _ n ih =>
    have hs : s ≠ [] := by
      rintro rfl
      cases h
    rcases turn_cases [] hs with ⟨used, rest, kept, hturn⟩ | ⟨torn, rest, hturn⟩
    · have hrest : stripAnsi rest = none := by
        rwa [hturn.chars, Option.map_eq_none_iff] at h
      have hunit : AnsiUnit used := by
        rcases hturn.unit with ⟨rfl, -⟩ | hunit
        · cases hrest
        · exact hunit
      have hshorter : rest.length < n := by
        have hlength := congrArg List.length hturn.split
        have hused := List.length_pos_iff.mpr hturn.progress
        rw [List.length_append] at hlength
        omega
      obtain ⟨units, torn, tail, heq, hunits, htorn⟩ := ih rest.length hshorter rest hrest rfl
      refine ⟨used :: units, torn, tail, ?_, List.forall_mem_cons.mpr ⟨hunit, hunits⟩, htorn⟩
      rw [hturn.split, heq, List.flatten_cons, List.append_assoc]
    · exact ⟨[], torn, rest, hturn.split, nofun, hturn.torn⟩

theorem stripAnsi_isSome_iff (s : List Char) :
    (stripAnsi s).isSome = true ↔ ¬ HasTornSequence s := by
  constructor
  · rintro hsome ⟨units, torn, rest, rfl, hunits, htorn⟩
    rw [stripAnsi_units hunits, stripAnsi_torn htorn] at hsome
    cases hsome
  · intro h
    rw [Option.isSome_iff_ne_none]
    exact mt (torn_of_stripAnsi s) h

/-- `sanitize_tool_output` and what it calls return a text exactly where no sequence of
the raw text ends within a character; the index of the scanner is further on after every
turn of the loop. -/
theorem sanitizer_returns_iff (nfc : List Char → List Char) (toolName : String)
    (raw : List Char) :
    (∀ i j out, i < (encode raw).length → ansiStep (encode raw) i = some (j, out) → i < j) ∧
      ((stripAnsiBytes (encode raw)).isSome = true ↔ ¬ HasTornSequence raw) ∧
      ((normaliseFreeText nfc raw).isSome = true ↔ ¬ HasTornSequence raw) ∧
      ((sanitizeToolOutput nfc toolName raw).isSome = true ↔ ¬ HasTornSequence raw) := by
  refine ⟨fun i j out hi h => ansiStep_advances hi h, ?_, ?_, ?_⟩
  · rw [stripAnsiBytes_eq, Option.isSome_map, stripAnsi_isSome_iff]
  · rw [normaliseFreeText, Option.isSome_map, stripAnsi_isSome_iff]
  · rw [sanitizeToolOutput_isSome, stripAnsi_isSome_iff]

/-- `ESC` and a letter of two bytes. -/
theorem stripAnsiBytes_panics :
    ¬ ∀ raw : List Char, (stripAnsiBytes (encode raw)).isSome = true := by
  intro hall
  have hpanic := hall ['\x1b', 'é']
  rw [stripAnsiBytes_eq] at hpanic
  exact absurd hpanic (by decide)

end Sysknife
