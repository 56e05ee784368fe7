import Mathlib.Tactic

/-!
# UTF-8

The bytes of a text, the places where its characters begin, and which byte sequences
are the bytes of a text.
-/

namespace Utf8

/-! ## Encoding -/

/-- The bytes of a text. -/
def encode (s : List Char) : List UInt8 := s.flatMap String.utf8EncodeChar

theorem encode_nil : encode [] = [] := rfl

theorem encode_cons (c : Char) (s : List Char) :
    encode (c :: s) = String.utf8EncodeChar c ++ encode s := rfl

theorem encode_append (a b : List Char) : encode (a ++ b) = encode a ++ encode b :=
  List.flatMap_append

/-- A byte that no character begins with. -/
def isContinuation (b : UInt8) : Bool := 0x80 ≤ b && b < 0xc0

/-- A character of one byte, or a leading byte with continuation bytes. -/
theorem encodeChar_cases (c : Char) :
    (c.toNat < 0x80 ∧ String.utf8EncodeChar c = [UInt8.ofNat c.toNat]) ∨
      ∃ lead tail, String.utf8EncodeChar c = lead :: tail ∧ 0x80 ≤ c.toNat ∧
        0xc0 ≤ lead ∧ tail ≠ [] ∧ ∀ b ∈ tail, isContinuation b = true := by
  have hcontinuation : ∀ n, isContinuation (UInt8.ofNat (n % 0x40 + 0x80)) = true := by
    intro n
    rw [isContinuation, Bool.and_eq_true, decide_eq_true_eq, decide_eq_true_eq,
      UInt8.le_iff_toNat_le, UInt8.lt_iff_toNat_lt, UInt8.toNat_ofNat']
    have hlow : UInt8.toNat 0x80 = 0x80 := rfl
    have hhigh : UInt8.toNat 0xc0 = 0xc0 := rfl
    omega
  have hlead : ∀ n k, 0xc0 ≤ k → n + k < 0x100 → 0xc0 ≤ UInt8.ofNat (n + k) := by
    intro n k hk hn
    have hhigh : UInt8.toNat 0xc0 = 0xc0 := rfl
    rw [UInt8.le_iff_toNat_le, UInt8.toNat_ofNat']
    omega
  have hvalue : c.toNat = c.val.toNat := rfl
  rw [String.utf8EncodeChar]
  by_cases h1 : c.val.toNat ≤ 0x7f
  · simp only [h1, if_true]
    exact Or.inl ⟨by omega, rfl⟩
  · by_cases h2 : c.val.toNat ≤ 0x7ff
    · simp only [h1, h2, if_false, if_true]
      refine Or.inr ⟨_, _, rfl, by omega, hlead _ _ (by omega) (by omega), nofun, ?_⟩
      exact List.forall_mem_singleton.mpr (hcontinuation _)
    · by_cases h3 : c.val.toNat ≤ 0xffff
      · simp only [h1, h2, h3, if_false, if_true]
        refine Or.inr ⟨_, _, rfl, by omega, hlead _ _ (by omega) (by omega), nofun, ?_⟩
        exact List.forall_mem_cons.mpr ⟨hcontinuation _,
          List.forall_mem_singleton.mpr (hcontinuation _)⟩
      · simp only [h1, h2, h3, if_false]
        refine Or.inr ⟨_, _, rfl, by omega, hlead _ _ (by omega) (by omega), nofun, ?_⟩
        exact List.forall_mem_cons.mpr ⟨hcontinuation _, List.forall_mem_cons.mpr
          ⟨hcontinuation _, List.forall_mem_singleton.mpr (hcontinuation _)⟩⟩

/-- A byte below `0x80` is a character of its own. -/
theorem eq_of_mem_encodeChar {c : Char} {b : UInt8} (hb : b < 0x80)
    (h : b ∈ String.utf8EncodeChar c) : String.utf8EncodeChar c = [b] ∧ c.toNat = b.toNat := by
  have hlow : UInt8.toNat 0x80 = 0x80 := rfl
  have hhigh : UInt8.toNat 0xc0 = 0xc0 := rfl
  rcases encodeChar_cases c with ⟨hsmall, heq⟩ | ⟨lead, tail, heq, -, hlead, -, htail⟩
  · rw [heq, List.mem_singleton] at h
    subst h
    refine ⟨heq, ?_⟩
    rw [UInt8.toNat_ofNat']
    omega
  · rw [UInt8.lt_iff_toNat_lt] at hb
    rw [UInt8.le_iff_toNat_le] at hlead
    rw [heq] at h
    rcases List.mem_cons.mp h with rfl | h
    · omega
    · have hcontinuation := htail b h
      rw [isContinuation, Bool.and_eq_true, decide_eq_true_eq, UInt8.le_iff_toNat_le]
        at hcontinuation
      omega

theorem encodeChar_utf8Size (c : Char) : c.utf8Size = 1 ↔ c.toNat < 0x80 := by
  rw [← String.length_utf8EncodeChar]
  rcases encodeChar_cases c with ⟨hsmall, heq⟩ | ⟨lead, tail, heq, hlarge, -, hne, -⟩
  · rw [heq]
    exact ⟨fun _ => hsmall, fun _ => rfl⟩
  · rw [heq, List.length_cons]
    have htail := List.length_pos_iff.mpr hne
    constructor
    · intro hone
      omega
    · intro hsmall
      omega

theorem encodeChar_ascii {c : Char} (h : c.toNat < 0x80) :
    String.utf8EncodeChar c = [UInt8.ofNat c.toNat] := by
  rcases encodeChar_cases c with ⟨-, heq⟩ | ⟨-, -, -, hlarge, -⟩
  · exact heq
  · omega

/-! ## Boundaries -/

/-- `i` is the start of a character, or the end of the text. -/
def isCharBoundary (bytes : List UInt8) (i : Nat) : Bool :=
  i == 0 || match bytes[i]? with
    | some b => !isContinuation b
    | none => i == bytes.length

theorem isCharBoundary_length (bytes : List UInt8) : isCharBoundary bytes bytes.length = true := by
  rw [isCharBoundary, List.getElem?_eq_none (le_refl _)]
  simp

theorem isCharBoundary_of_get {bytes : List UInt8} {i : Nat} {b : UInt8} (h : bytes[i]? = some b)
    (hb : isContinuation b = false) : isCharBoundary bytes i = true := by
  rw [isCharBoundary, h]
  simp [hb]

theorem not_isCharBoundary {bytes : List UInt8} {i : Nat} {b : UInt8} (h : bytes[i]? = some b)
    (hb : isContinuation b = true) (hi : 0 < i) : isCharBoundary bytes i = false := by
  rw [isCharBoundary, h]
  simp [hb, Nat.ne_of_gt hi]

/-- The byte at the end of a first part. -/
theorem get_length (a : List UInt8) (b : UInt8) (r : List UInt8) :
    (a ++ b :: r)[a.length]? = some b := by
  simp

theorem get_length_add (a r : List UInt8) (k : Nat) : (a ++ r)[a.length + k]? = r[k]? := by
  rw [List.getElem?_append_right (Nat.le_add_right _ _), Nat.add_sub_cancel_left]

/-- The byte that a text begins with is the first of a character. -/
theorem encode_head (c : Char) (s : List Char) :
    ∃ lead tail, encode (c :: s) = lead :: tail ∧ isContinuation lead = false := by
  rw [encode_cons]
  rcases encodeChar_cases c with ⟨hsmall, heq⟩ | ⟨lead, tail, heq, -, hlead, -⟩
  · refine ⟨UInt8.ofNat c.toNat, encode s, by rw [heq]; rfl, ?_⟩
    rw [isContinuation, Bool.and_eq_false_iff, decide_eq_false_iff_not, UInt8.le_iff_toNat_le,
      UInt8.toNat_ofNat']
    have hlow : UInt8.toNat 0x80 = 0x80 := rfl
    omega
  · refine ⟨lead, tail ++ encode s, by rw [heq]; rfl, ?_⟩
    rw [isContinuation, Bool.and_eq_false_iff, decide_eq_false_iff_not, decide_eq_false_iff_not]
    exact Or.inr (by simpa using hlead)

theorem isCharBoundary_encode (a : List UInt8) (s : List Char) :
    isCharBoundary (a ++ encode s) a.length = true := by
  cases s with
  | nil =>
    rw [encode_nil, List.append_nil]
    exact isCharBoundary_length a
  | cons c s =>
    obtain ⟨lead, tail, heq, hlead⟩ := encode_head c s
    rw [heq]
    exact isCharBoundary_of_get (get_length a lead tail) hlead

/-! ## Decoding -/

/-- The bytes are those of a text. -/
def Valid (bytes : List UInt8) : Prop := ∃ s, encode s = bytes

/-- The text of the bytes, if they are those of one. -/
def decode (bytes : List UInt8) : Option (List Char) :=
  (String.fromUTF8? bytes.toByteArray).map String.toList

theorem decode_eq_some {bytes : List UInt8} {s : List Char} :
    decode bytes = some s ↔ encode s = bytes := by
  have hencode : ∀ t : List Char, t.utf8Encode = (encode t).toByteArray := fun _ => rfl
  unfold decode String.fromUTF8?
  constructor
  · intro h
    split at h
    · next hvalid =>
      have hs : (String.fromUTF8 bytes.toByteArray hvalid).toList = s := Option.some.inj h
      have hbytes : s.utf8Encode = bytes.toByteArray := by
        rw [← hs, String.utf8Encode_toList]
        rfl
      rwa [hencode, List.toByteArray_inj] at hbytes
    · cases h
  · rintro rfl
    have hvalid : (encode s).toByteArray.IsValidUTF8 := ⟨s, rfl⟩
    have htext : String.fromUTF8 (encode s).toByteArray hvalid = String.ofList s := by
      rw [← String.toByteArray_inj]
      exact (hencode s).symm.trans (String.toByteArray_ofList ..).symm
    rw [dif_pos hvalid, htext, Option.map_some, String.toList_ofList]

theorem decode_isSome {bytes : List UInt8} : (decode bytes).isSome = true ↔ Valid bytes := by
  rw [Option.isSome_iff_exists]
  exact exists_congr fun s => decode_eq_some

theorem decode_eq_none {bytes : List UInt8} : decode bytes = none ↔ ¬ Valid bytes := by
  rw [← decode_isSome, Option.not_isSome_iff_eq_none]

/-- A byte below `0x80` in the bytes of a text is one of its characters. -/
theorem encode_eq_append {s : List Char} {a b : List UInt8} {x : UInt8} (hx : x < 0x80)
    (h : encode s = a ++ x :: b) :
    ∃ p c q, s = p ++ c :: q ∧ encode p = a ∧ String.utf8EncodeChar c = [x] ∧ encode q = b := by
  induction s generalizing a with
  | nil => exact absurd h.symm (by simp [encode])
  | cons d s ih =>
    rw [encode_cons] at h
    rcases List.append_eq_append_iff.mp h with ⟨a', rfl, hrest⟩ | ⟨t, hd, hrest⟩
    · obtain ⟨p, c, q, rfl, rfl, hc, hq⟩ := ih hrest
      exact ⟨d :: p, c, q, rfl, rfl, hc, hq⟩
    · cases t with
      | nil =>
        rw [List.append_nil] at hd
        obtain ⟨p, c, q, rfl, hp, hc, hq⟩ := ih (a := []) hrest.symm
        refine ⟨d :: p, c, q, rfl, ?_, hc, hq⟩
        rw [encode_cons, hp, List.append_nil, hd]
      | cons y t =>
        obtain ⟨rfl, rfl⟩ := List.cons.inj hrest
        have hmem : x ∈ String.utf8EncodeChar d := by
          rw [hd]
          exact List.mem_append_right _ (List.mem_cons_self ..)
        have hone := (eq_of_mem_encodeChar hx hmem).1
        rw [hone] at hd
        -- the character is this byte alone
        have ha : a = [] := by
          cases a with
          | nil => rfl
          | cons z a => simp at hd
        subst ha
        have ht : t = [] := (List.cons.inj hd).2.symm
        subst ht
        exact ⟨[], d, s, rfl, rfl, hone, rfl⟩

/-- Around a byte below `0x80` the two parts are texts of their own. -/
theorem valid_append_cons {a b : List UInt8} {x : UInt8} (hx : x < 0x80) :
    Valid (a ++ x :: b) ↔ Valid a ∧ Valid b := by
  constructor
  · intro ⟨s, hs⟩
    obtain ⟨p, c, q, -, hp, -, hq⟩ := encode_eq_append hx hs
    exact ⟨⟨p, hp⟩, ⟨q, hq⟩⟩
  · intro ⟨⟨p, hp⟩, ⟨q, hq⟩⟩
    have hascii : ∀ n < 0x80, String.utf8EncodeChar (Char.ofNat n) = [UInt8.ofNat n] := by decide
    have hchar : String.utf8EncodeChar (Char.ofNat x.toNat) = [x] := by
      rw [hascii _ (UInt8.lt_iff_toNat_lt.mp hx), UInt8.ofNat_toNat]
    refine ⟨p ++ Char.ofNat x.toNat :: q, ?_⟩
    rw [encode_append, encode_cons, hchar, hp, hq]
    rfl

/-! ## Decoding with replacement -/

/-- A second byte that may follow the first one of three or four. -/
def secondFits (first second : UInt8) : Bool :=
  if first == 0xe0 then 0xa0 ≤ second && second < 0xc0
  else if first == 0xed then 0x80 ≤ second && second < 0xa0
  else if first == 0xf0 then 0x90 ≤ second && second < 0xc0
  else if first == 0xf4 then 0x80 ≤ second && second < 0x90
  else 0xe0 ≤ first && first < 0xf4 && isContinuation second

/-- How many bytes that no character begins with are replaced by one character: the longest
part of them that could have begun one. -/
def brokenLength : List UInt8 → Nat
  | first :: second :: rest =>
    if secondFits first second then
      if 0xf0 ≤ first && rest.head?.any isContinuation then 3 else 2
    else 1
  | _ => 1

/-- The text behind `skip` bytes that are dealt with. -/
def decodeLossyFrom : Nat → List UInt8 → List Char
  | _, [] => []
  | skip + 1, _ :: bytes => decodeLossyFrom skip bytes
  | 0, b :: bytes =>
    match (b :: bytes).toByteArray.utf8DecodeChar? 0 with
    | some c => c :: decodeLossyFrom (c.utf8Size - 1) bytes
    | none => '\uFFFD' :: decodeLossyFrom (brokenLength (b :: bytes) - 1) bytes

/-- The text of any bytes: U+FFFD stands for what is none. -/
def decodeLossy (bytes : List UInt8) : List Char := decodeLossyFrom 0 bytes

theorem decodeLossyFrom_append (a b : List UInt8) :
    decodeLossyFrom a.length (a ++ b) = decodeLossyFrom 0 b := by
  induction a with
  | nil => rfl
  | cons x a ih => exact ih

/-- The bytes of a text stand for that text. -/
theorem decodeLossy_encode (s : List Char) : decodeLossy (encode s) = s := by
  induction s with
  | nil => rfl
  | cons c s ih =>
    obtain ⟨lead, tail, hc⟩ : ∃ lead tail, String.utf8EncodeChar c = lead :: tail := by
      rcases encodeChar_cases c with ⟨-, heq⟩ | ⟨lead, tail, heq, -⟩
      · exact ⟨_, _, heq⟩
      · exact ⟨lead, tail, heq⟩
    have hsize : c.utf8Size - 1 = tail.length := by
      rw [← String.length_utf8EncodeChar, hc]
      rfl
    have hbytes : (encode (c :: s)).toByteArray = [c].utf8Encode ++ (encode s).toByteArray := by
      rw [encode_cons, List.toByteArray_append, List.utf8Encode_singleton]
    have hfirst : (lead :: (tail ++ encode s)).toByteArray.utf8DecodeChar? 0 = some c := by
      rw [← List.cons_append, ← hc, ← encode_cons, hbytes]
      exact List.utf8DecodeChar?_utf8Encode_singleton_append
    rw [decodeLossy, encode_cons, hc, List.cons_append, decodeLossyFrom, hfirst]
    dsimp only
    rw [hsize, decodeLossyFrom_append]
    exact congrArg (c :: ·) ih

example : decodeLossy [0x61, 0xe2, 0x82, 0x62, 0xff] = ['a', '\uFFFD', 'b', '\uFFFD'] := by
  decide +kernel

end Utf8
