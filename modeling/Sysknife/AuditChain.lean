import Sysknife.Lib.Codec
import Sysknife.Lib.HashChain
import Sysknife.Types

/-!
# The audit hash chain

The canonical encoding of a row's immutable fields, the chain hash over it and
`verify_chain`. The encoding ends in an undelimited previous hash, so unique
decoding is needed in front of any rest, not only between whole encodings.
-/

namespace Sysknife

open Codec HashChain

/-- `CURRENT_KEY_ID`. -/
def currentKeyId : String := "v1"

/-- A loaded key. Every way to make one gives it the current identifier. -/
structure AuditKey where
  keyId : String
  keyBytes : List UInt8
  keyId_eq : keyId = currentKeyId

/-- Immutable fields hashed into the chain. -/
structure ChainContent where
  seq : Nat
  keyId : String
  transactionId : String
  requestId : String
  requestHash : String
  actionName : String
  riskLevel : RiskLevel
  summary : String
  approvalId : Option String
  warningsJson : String
  createdAt : String
  deriving DecidableEq

/-! ## Canonical bytes -/

/-- The escapes of `push_field`. -/
def escapeByte (b : UInt8) : List UInt8 :=
  if b = 0x5C then [0x5C, 0x5C]
  else if b = 0x00 then [0x5C, 0x30]
  else if b = 0x1E then [0x5C, 0x31, 0x45]
  else if b = 0x1F then [0x5C, 0x31, 0x46]
  else [b]

/-- `tag RS value US`, the value escaped. -/
def pushField (tag value : String) : List UInt8 :=
  utf8 tag ++ (0x1E :: ((utf8 value).flatMap escapeByte ++ [0x1F]))

def riskLevelStr : RiskLevel → String
  | .low => "low"
  | .medium => "medium"
  | .high => "high"

def ChainContent.canonicalBytes (c : ChainContent) : List UInt8 :=
  pushField "seq" (toString c.seq) ++ pushField "key_id" c.keyId ++
  pushField "transaction_id" c.transactionId ++ pushField "request_id" c.requestId ++
  pushField "request_hash" c.requestHash ++ pushField "action_name" c.actionName ++
  pushField "risk_level" (riskLevelStr c.riskLevel) ++ pushField "summary" c.summary ++
  pushField "approval_id" (c.approvalId.getD "") ++ pushField "warnings_json" c.warningsJson ++
  pushField "created_at" c.createdAt

/-- One byte that `escapeByte` wrote, with the rest. -/
def readByte : List UInt8 → Option (UInt8 × List UInt8)
  | 0x5C :: 0x5C :: rest => some (0x5C, rest)
  | 0x5C :: 0x30 :: rest => some (0x00, rest)
  | 0x5C :: 0x31 :: 0x45 :: rest => some (0x1E, rest)
  | 0x5C :: 0x31 :: 0x46 :: rest => some (0x1F, rest)
  | 0x5C :: _ => none
  | 0x1F :: _ => none
  | b :: rest => some (b, rest)
  | [] => none

theorem readByte_escapeByte (b : UInt8) (rest : List UInt8) :
    readByte (escapeByte b ++ rest) = some (b, rest) := by
  unfold escapeByte
  split
  · subst_vars; rfl
  split
  · subst_vars; rfl
  split
  · subst_vars; rfl
  split
  · subst_vars; rfl
  · rename_i hslash _ _ _
    simp [readByte, hslash]

theorem delimited_escapeByte : Delimited escapeByte := by
  intro a b s t he
  have hread := congrArg readByte he
  rw [readByte_escapeByte, readByte_escapeByte] at hread
  simpa using hread

theorem escapeByte_ne_terminator (b : UInt8) (s t : List UInt8) :
    escapeByte b ++ s ≠ 0x1F :: t := by
  intro he
  have hread := congrArg readByte he
  rw [readByte_escapeByte] at hread
  simp [readByte] at hread

/-- A field is found again in front of anything. -/
theorem delimited_pushField (tag : String) : Delimited (pushField tag) := by
  have hbody := delimited_escaped delimited_escapeByte escapeByte_ne_terminator
  have hvalue := (hbody.comp utf8_injective).header (utf8 tag ++ [0x1E])
  intro a b s t he
  exact hvalue a b s t (by simpa [pushField] using he)

theorem toString_nat_inj {m n : Nat} (h : toString m = toString n) : m = n := by
  have ht := congrArg String.toList h
  simp only [Nat.toString_eq_ofList_toDigits, String.toList_ofList] at ht
  have hval := congrArg (fun ds => Nat.ofDigitChars 10 ds 0) ht
  simpa [Nat.ofDigitChars_ten_toDigits] using hval

theorem riskLevelStr_inj {a b : RiskLevel} (h : riskLevelStr a = riskLevelStr b) : a = b := by
  cases a <;> cases b <;> first | rfl | exact absurd h (by decide)

/-- A missing approval id and an empty one are the same content. -/
def ChainContent.normalise (c : ChainContent) : ChainContent :=
  { c with approvalId := some (c.approvalId.getD "") }

/-- The canonical bytes determine the content, whatever follows them. -/
theorem canonicalBytes_unique {c d : ChainContent} {s t : List UInt8}
    (he : c.canonicalBytes ++ s = d.canonicalBytes ++ t) :
    c.normalise = d.normalise ∧ s = t := by
  simp only [ChainContent.canonicalBytes, List.append_assoc] at he
  obtain ⟨hseq, he⟩ := delimited_pushField _ _ _ _ _ he
  obtain ⟨hkey, he⟩ := delimited_pushField _ _ _ _ _ he
  obtain ⟨htx, he⟩ := delimited_pushField _ _ _ _ _ he
  obtain ⟨hreq, he⟩ := delimited_pushField _ _ _ _ _ he
  obtain ⟨hhash, he⟩ := delimited_pushField _ _ _ _ _ he
  obtain ⟨haction, he⟩ := delimited_pushField _ _ _ _ _ he
  obtain ⟨hrisk, he⟩ := delimited_pushField _ _ _ _ _ he
  obtain ⟨hsummary, he⟩ := delimited_pushField _ _ _ _ _ he
  obtain ⟨happroval, he⟩ := delimited_pushField _ _ _ _ _ he
  obtain ⟨hwarnings, he⟩ := delimited_pushField _ _ _ _ _ he
  obtain ⟨hcreated, he⟩ := delimited_pushField _ _ _ _ _ he
  refine ⟨?_, he⟩
  simp only [ChainContent.normalise, toString_nat_inj hseq, hkey, htx, hreq, hhash, haction,
    riskLevelStr_inj hrisk, hsummary, happroval, hwarnings, hcreated]

theorem canonicalBytes_normalise (c : ChainContent) :
    c.normalise.canonicalBytes = c.canonicalBytes := rfl

/-- Two encodings with something behind them are the same only for the same content with
the same behind it. -/
theorem canonicalBytes_append_eq_iff (c d : ChainContent) (s t : List UInt8) :
    c.canonicalBytes ++ s = d.canonicalBytes ++ t ↔ c.normalise = d.normalise ∧ s = t := by
  constructor
  · exact canonicalBytes_unique
  · intro h
    obtain ⟨hcontent, rfl⟩ := h
    rw [← canonicalBytes_normalise c, hcontent, canonicalBytes_normalise]

/-! ## Chain hashes -/

/-- The bytes `chain_hash` authenticates. -/
def macInput (content : ChainContent) (prevChainHash : String) : List UInt8 :=
  content.canonicalBytes ++ utf8 prevChainHash

/-- `AuditKey::chain_hash`. -/
def AuditKey.chainHash (crypto : Crypto) (key : AuditKey) (content : ChainContent)
    (prevChainHash : String) : String :=
  hexEncode (crypto.hmacSha256 key.keyBytes (macInput content prevChainHash))

theorem macInput_unique {c d : ChainContent} {p q : String}
    (h : macInput c p = macInput d q) : c.normalise = d.normalise ∧ p = q := by
  obtain ⟨hcd, hpq⟩ := canonicalBytes_unique h
  exact ⟨hcd, utf8_injective hpq⟩

theorem hexByte_delimited : Delimited hexByte := by
  intro a b s t he
  simp only [hexByte, List.cons_append, List.nil_append, List.cons.injEq] at he
  obtain ⟨hhigh, hlow, hst⟩ := he
  refine ⟨?_, hst⟩
  have ha := a.toNat_lt
  have hb := b.toNat_lt
  have hh := congrArg hexValue hhigh
  have hl := congrArg hexValue hlow
  rw [hexValue_hexDigit _ (by omega), hexValue_hexDigit _ (by omega)] at hh hl
  apply UInt8.toNat_inj.mp
  omega

theorem flatMap_injective {α γ : Type*} {enc : α → List γ} (h : Delimited enc) :
    ∀ xs ys : List α, xs.length = ys.length → xs.flatMap enc = ys.flatMap enc → xs = ys := by
  intro xs
  induction xs with
  | nil => intro ys hlen _; exact (List.length_eq_zero_iff.mp hlen.symm).symm
  | cons x xs ih =>
    intro ys hlen he
    cases ys with
    | nil => simp at hlen
    | cons y ys =>
      obtain ⟨rfl, htail⟩ := h x y _ _ (by simpa only [List.flatMap_cons] using he)
      rw [ih ys (by simpa using hlen) htail]

theorem hexEncode_injective : Function.Injective hexEncode := by
  intro a b h
  have ht := congrArg String.toList h
  simp only [hexEncode, String.toList_ofList] at ht
  have hlist := flatMap_injective hexByte_delimited a.toList b.toList (by simp) ht
  exact Vector.toList_inj.mp hlist

/-! ## Verification -/

/-- One row's worth of chain data, as fetched from the store. -/
structure ChainRow extends ChainContent where
  prevChainHash : String
  chainHash : String
  deriving DecidableEq

/-- The arguments of the message of `CannotVerify`. -/
structure UnknownKey where
  seq : Nat
  keyId : String
  loaded : String
  deriving DecidableEq

inductive VerifyOutcome where
  | intact (rowsChecked : Nat)
  | broken (rowsChecked firstBrokenSeq : Nat) (firstBrokenTransactionId expected actual : String)
  | cannotVerify (reason : UnknownKey)
  deriving DecidableEq

section Verify
variable (crypto : Crypto) (key : AuditKey)

/-- The loop of `verify_chain`. -/
def verifyLoop (lastHash : String) (rowsChecked : Nat) : List ChainRow → VerifyOutcome
  | [] => .intact rowsChecked
  | row :: rest =>
    if row.keyId ≠ key.keyId then
      .cannotVerify ⟨row.seq, row.keyId, key.keyId⟩
    else if row.prevChainHash ≠ lastHash then
      .broken rowsChecked row.seq row.transactionId ("prev_chain_hash=" ++ lastHash)
        ("prev_chain_hash=" ++ row.prevChainHash)
    else
      let expected := key.chainHash crypto row.toChainContent row.prevChainHash
      if expected ≠ row.chainHash then
        .broken rowsChecked row.seq row.transactionId expected row.chainHash
      else
        verifyLoop row.chainHash (rowsChecked + 1) rest

def verifyChain (rows : List ChainRow) : VerifyOutcome := verifyLoop crypto key "" 0 rows

/-- A row as a block of the abstract chain. -/
def ChainRow.block (row : ChainRow) : Block ChainContent String :=
  ⟨row.toChainContent.normalise, row.prevChainHash, row.chainHash⟩

/-- What the loop demands of the rows it walks over. -/
structure Accepted (lastHash : String) (rows : List ChainRow) : Prop where
  keyId : ∀ row ∈ rows, row.keyId = key.keyId
  linked : Linked (key.chainHash crypto) lastHash (rows.map ChainRow.block)

variable {crypto key}

theorem accepted_nil (lastHash : String) : Accepted crypto key lastHash [] :=
  ⟨fun _ hrow => absurd hrow List.not_mem_nil, trivial⟩

theorem accepted_cons {lastHash : String} {row : ChainRow} {rest : List ChainRow} :
    Accepted crypto key lastHash (row :: rest) ↔
      (row.keyId = key.keyId ∧ row.prevChainHash = lastHash ∧
        row.chainHash = key.chainHash crypto row.toChainContent row.prevChainHash) ∧
      Accepted crypto key row.chainHash rest := by
  constructor
  · intro h
    obtain ⟨hkey, hprev, htag, hrest⟩ := h
    obtain ⟨hrow, hkeys⟩ := List.forall_mem_cons.mp hkey
    exact ⟨⟨hrow, hprev, htag⟩, hkeys, hrest⟩
  · intro h
    obtain ⟨⟨hrow, hprev, htag⟩, hkeys, hrest⟩ := h
    exact ⟨List.forall_mem_cons.mpr ⟨hrow, hkeys⟩, hprev, htag, hrest⟩

/-- The loop walks over accepted rows. -/
theorem verifyLoop_accepted {lastHash : String} {p : List ChainRow}
    (hp : Accepted crypto key lastHash p) (n : Nat) (q : List ChainRow) :
    verifyLoop crypto key lastHash n (p ++ q) =
      verifyLoop crypto key (tip lastHash (p.map ChainRow.block)) (n + p.length) q := by
  induction p generalizing lastHash n with
  | nil => rfl
  | cons row p ih =>
    obtain ⟨⟨hkey, hprev, htag⟩, hrest⟩ := accepted_cons.mp hp
    have hlen : n + (row :: p).length = n + 1 + p.length := by
      rw [List.length_cons]
      omega
    have hstep : verifyLoop crypto key lastHash n (row :: (p ++ q)) =
        verifyLoop crypto key row.chainHash (n + 1) (p ++ q) := by
      rw [hprev] at htag
      simp [verifyLoop, hkey, hprev, ← htag]
    rw [hlen, List.cons_append, hstep, ih hrest]
    rfl

/-- The loop stops at a row it does not accept, and names it when it calls the
chain broken. -/
theorem verifyLoop_rejected {lastHash : String} {row : ChainRow}
    (hrow : ¬ Accepted crypto key lastHash [row]) (n : Nat) (rest : List ChainRow) :
    (∀ m, verifyLoop crypto key lastHash n (row :: rest) ≠ .intact m) ∧
    ∀ m seq id expected actual,
      verifyLoop crypto key lastHash n (row :: rest) = .broken m seq id expected actual →
        seq = row.seq := by
  have hone : ¬ (row.keyId = key.keyId ∧ row.prevChainHash = lastHash ∧
      row.chainHash = key.chainHash crypto row.toChainContent row.prevChainHash) := fun h =>
    hrow (accepted_cons.mpr ⟨h, accepted_nil _⟩)
  rw [verifyLoop]
  split
  · constructor <;> intros <;> simp_all
  split
  · constructor
    · simp
    · intro m seq id expected actual he
      simp only [VerifyOutcome.broken.injEq] at he
      exact he.2.1.symm
  · rename_i hkey hprev
    have htag : key.chainHash crypto row.toChainContent row.prevChainHash ≠ row.chainHash :=
      fun h => hone ⟨not_not.mp hkey, not_not.mp hprev, h.symm⟩
    simp only [ne_eq, htag, not_false_eq_true, if_true]
    constructor
    · simp
    · intro m seq id expected actual he
      simp only [VerifyOutcome.broken.injEq] at he
      exact he.2.1.symm

theorem verifyChain_accepted {rows : List ChainRow} (h : Accepted crypto key "" rows) :
    verifyChain crypto key rows = .intact rows.length := by
  have hloop := verifyLoop_accepted h 0 []
  simpa [verifyLoop, verifyChain] using hloop

/-- Rows split at the first one that is not accepted. -/
theorem exists_rejected {lastHash : String} {rows : List ChainRow}
    (h : ¬ Accepted crypto key lastHash rows) :
    ∃ p row q, rows = p ++ row :: q ∧ Accepted crypto key lastHash p ∧
      ¬ Accepted crypto key (tip lastHash (p.map ChainRow.block)) [row] := by
  induction rows generalizing lastHash with
  | nil => exact absurd (accepted_nil _) h
  | cons row rest ih =>
    by_cases hrow : Accepted crypto key lastHash [row]
    · have hone := (accepted_cons.mp hrow).1
      obtain ⟨p, r, q, rfl, hp, hr⟩ := ih fun hrest => h (accepted_cons.mpr ⟨hone, hrest⟩)
      exact ⟨row :: p, r, q, rfl, accepted_cons.mpr ⟨hone, hp⟩, hr⟩
    · exact ⟨[], row, rest, rfl, accepted_nil _, hrow⟩

/-- The verifier says `Intact` of the accepted chains only. -/
theorem verifyChain_intact_iff {rows : List ChainRow} {n : Nat} :
    verifyChain crypto key rows = .intact n ↔ Accepted crypto key "" rows ∧ n = rows.length := by
  constructor
  · intro h
    by_cases ha : Accepted crypto key "" rows
    · rw [verifyChain_accepted ha] at h
      exact ⟨ha, (VerifyOutcome.intact.inj h).symm⟩
    · obtain ⟨p, row, q, rfl, hp, hrow⟩ := exists_rejected ha
      rw [verifyChain, verifyLoop_accepted hp] at h
      exact absurd h ((verifyLoop_rejected hrow _ q).1 n)
  · intro h
    obtain ⟨ha, rfl⟩ := h
    exact verifyChain_accepted ha

theorem Accepted.append {lastHash : String} {p q : List ChainRow} :
    Accepted crypto key lastHash (p ++ q) ↔
      Accepted crypto key lastHash p ∧
        Accepted crypto key (tip lastHash (p.map ChainRow.block)) q := by
  induction p generalizing lastHash with
  | nil => simp [accepted_nil]
  | cons row p ih =>
    simp only [List.cons_append, accepted_cons, ih, List.map_cons, tip, and_assoc,
      ChainRow.block]

end Verify

end Sysknife
