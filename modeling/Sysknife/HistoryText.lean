import Sysknife.Lib.Columns
import Sysknife.Lib.TextTrim
import Sysknife.Dispatcher
import Sysknife.Prefs

/-!
# The history as text

`ListJobHistory` answers with a text of padded columns, and the MCP server takes the
rows out of it again. The theorem says for which records the rows come back.
-/

namespace Sysknife

open Columns TextTrim

/-! ## Reading the text -/

structure HistoryEntry where
  transactionId : String
  action : String
  status : String
  summary : String
  createdAt : Option String
  riskLevel : Option String
  deriving DecidableEq

def historyHeader : List Char := "Transaction history".toList

def noHistory : List Char := "No transactions found".toList

/-- One turn of the loop of `parse_history_text`; `none` is a line that it skips. -/
def parseHistoryLine (line : List Char) : Option HistoryEntry :=
  let trimmed := line.dropWhile isWhitespace
  if trimmed.isEmpty || historyHeader.isPrefixOf trimmed || noHistory.isPrefixOf trimmed then none
  else match columns ' ' trimmed with
    | id :: action :: status :: summary :: more =>
      some {
        transactionId := String.ofList (trim id)
        action := String.ofList (trim action)
        status := String.ofList (trim status)
        summary := String.ofList (trim (joinPairs ' ' (summary :: more)))
        createdAt := none
        riskLevel := none }
    | _ => none

def parseHistoryText (raw : String) : List HistoryEntry :=
  (lines raw.toList).filterMap parseHistoryLine

/-! ## What the rows are to be -/

/-- `TRANSACTION_ID_DISPLAY_PREFIX_LEN` characters of the id. -/
def idPrefix (r : TransactionRecord) : List Char := r.transactionId.toList.take 8

/-- The entry of a record, its status spelled as the filter of `list_transactions` is. -/
def entryOf (r : TransactionRecord) : HistoryEntry where
  transactionId := String.ofList (idPrefix r)
  action := r.actionName
  status := UnitEnum.variantName r.status
  summary := r.summary
  createdAt := none
  riskLevel := none

/-- A text that comes back out of a padded column. -/
structure ColumnText (s : List Char) : Prop where
  nonempty : s ≠ []
  line : '\n' ∉ s
  trimmed : Trimmed isWhitespace s
  noPair : ¬ [' ', ' '] <:+: s

/-- A text that comes back out of the last column. Its padding leaves a blank behind two of
the statuses, and the blank keeps the row of an empty text. -/
structure SummaryText (status : JobState) (s : List Char) : Prop where
  line : '\n' ∉ s
  trimmed : Trimmed isWhitespace s
  noRun : ¬ [' ', ' ', ' ', ' '] <:+: s
  empty : s = [] → status = .running ∨ status = .succeeded

structure ComesBack (r : TransactionRecord) : Prop where
  id : ColumnText (idPrefix r)
  action : ColumnText r.actionName.toList
  status : r.status ≠ .rolledBack ∧ r.status ≠ .needsReboot
  summary : SummaryText r.status r.summary.toList

/-! ## The lines of the text -/

/-- The text of a record's line without the line feed. -/
def historyRow (r : TransactionRecord) : List Char :=
  ' ' :: ' ' :: (idPrefix r ++ ' ' :: ' ' :: (r.actionName.toList ++
    (List.replicate (30 - r.actionName.toList.length) ' ' ++ ' ' :: ' ' ::
      (r.status.debugLower.toList ++
        (List.replicate (12 - r.status.debugLower.toList.length) ' ' ++
          ' ' :: ' ' :: r.summary.toList)))))

theorem historyLine_toList (r : TransactionRecord) :
    (historyLine r).toList = historyRow r ++ ['\n'] := by
  simp [historyLine, historyRow, padRight, idPrefix, String.toList_append]

/-- The lines behind the header are the rows, as long as no field breaks its line. -/
theorem lines_rows {records : List TransactionRecord}
    (h : ∀ r ∈ records, '\n' ∉ historyRow r) :
    linesFrom [] (String.join (records.map historyLine)).toList =
      records.map fun r => stripReturn (historyRow r) := by
  induction records with
  | nil => rfl
  | cons r records ih =>
    have hjoin : (String.join ((r :: records).map historyLine)).toList =
        historyRow r ++ '\n' :: (String.join (records.map historyLine)).toList := by
      simp [String.join_cons, historyLine_toList, String.toList_append]
    rw [hjoin, linesFrom_line (h r (List.mem_cons_self ..)), List.nil_append,
      ih fun s hs => h s (List.mem_cons_of_mem r hs)]
    rfl

theorem parseHistoryLine_header {line : List Char} (h : historyHeader <+: line) :
    parseHistoryLine line = none := by
  have hhead : historyHeader = 'T' :: "ransaction history".toList := by decide
  obtain ⟨rest, rfl⟩ := h
  have hfront : (historyHeader ++ rest).dropWhile isWhitespace = historyHeader ++ rest := by
    rw [hhead, List.cons_append]
    exact List.dropWhile_cons_of_neg (by decide)
  have hpre : historyHeader.isPrefixOf (historyHeader ++ rest) = true :=
    List.isPrefixOf_iff_prefix.mpr (List.prefix_append ..)
  simp only [parseHistoryLine, hfront, hpre, Bool.or_true, Bool.true_or, if_true]

theorem parseHistoryText_rows {records : List TransactionRecord}
    (h : ∀ r ∈ records, '\n' ∉ historyRow r) :
    parseHistoryText (formatJobHistory records) =
      records.filterMap fun r => parseHistoryLine (stripReturn (historyRow r)) := by
  by_cases hnone : records = []
  · subst hnone
    decide +kernel
  · have hsome : records.isEmpty = false := by simpa using hnone
    let header := historyHeader ++ (" (".toList ++ (toString records.length).toList ++
      " entries):".toList)
    have htext : (formatJobHistory records).toList =
        header ++ '\n' :: ([] ++ '\n' :: (String.join (records.map historyLine)).toList) := by
      have hfront : "Transaction history (".toList = historyHeader ++ " (".toList := by
        decide +kernel
      have hback : " entries):\n\n".toList = " entries):".toList ++ ['\n', '\n'] := by
        decide +kernel
      rw [formatJobHistory, hsome, if_neg Bool.false_ne_true, String.toList_append,
        String.toList_append, String.toList_append, hfront, hback]
      simp only [header, List.append_assoc, List.cons_append, List.nil_append]
    have hline : '\n' ∉ header := by
      have hnumber : '\n' ∉ (toString records.length).toList := by
        intro hin
        rw [Nat.toString_eq_ofList_toDigits, String.toList_ofList] at hin
        have hdigit := Nat.isDigit_of_mem_toDigits (by decide) (by decide) hin
        exact absurd hdigit (by decide)
      have hfirst : '\n' ∉ historyHeader := by decide
      have hopen : '\n' ∉ " (".toList := by decide
      have hclose : '\n' ∉ " entries):".toList := by decide
      simp only [header, List.mem_append, not_or]
      exact ⟨hfirst, ⟨hopen, hnumber⟩, hclose⟩
    have hend : stripReturn header = header := by
      have hlast : header.getLast? = some ':' := by
        have hclose : " entries):".toList = " entries)".toList ++ [':'] := by decide
        simp only [header, hclose, ← List.append_assoc, List.getLast?_concat]
      rw [stripReturn, hlast, if_neg (by decide)]
    have hblank : parseHistoryLine (stripReturn []) = none := rfl
    rw [parseHistoryText, lines, htext, linesFrom_line hline, List.nil_append, hend,
      linesFrom_line List.not_mem_nil, List.append_nil, lines_rows h, List.filterMap_cons_none
        (parseHistoryLine_header (List.prefix_append ..)), List.filterMap_cons_none hblank,
      List.filterMap_map]
    rfl

/-! ## The columns of a row -/

theorem ColumnText.head_ne {s : List Char} (h : ColumnText s) : s.head? ≠ some ' ' :=
  h.trimmed.head?_ne (by decide)

theorem ColumnText.last_ne {s : List Char} (h : ColumnText s) : s.getLast? ≠ some ' ' :=
  h.trimmed.getLast?_ne (by decide)

/-- The word of a status. -/
theorem debugLower_column (status : JobState) : ColumnText status.debugLower.toList := by
  have hword : status.debugLower.toList ≠ [] ∧
      (status.debugLower.toList.all fun c => !isWhitespace c) = true := by
    cases status <;> decide +kernel
  obtain ⟨hne, hall⟩ := hword
  have hplain : ∀ c ∈ status.debugLower.toList, isWhitespace c = false :=
    fun c hc => by simpa using List.all_eq_true.mp hall c hc
  refine ⟨hne, ?_, ⟨fun c hc => hplain c (List.mem_of_mem_head? hc),
    fun c hc => hplain c (List.mem_of_getLast? hc)⟩, ?_⟩
  · intro hin
    exact absurd (hplain _ hin) (by decide)
  · intro hin
    exact absurd (hplain _ (hin.subset (List.mem_cons_self ..))) (by decide)

/-- The padding behind the status: an odd number of blanks for two of those that keep their
spelling. -/
theorem debugLower_padding {status : JobState}
    (h : status ≠ .rolledBack ∧ status ≠ .needsReboot) :
    ((12 - status.debugLower.toList.length) % 2 = 1 ↔
      status = .running ∨ status = .succeeded) := by
  cases status <;> first | exact absurd rfl h.1 | exact absurd rfl h.2 | decide +kernel

theorem debugLower_spelling (status : JobState) :
    status.debugLower = UnitEnum.variantName status ↔
      status ≠ .rolledBack ∧ status ≠ .needsReboot := by
  cases status <;> decide +kernel

/-- What is behind the id, from the action on. -/
def rowTail (action status summary : List Char) : List Char :=
  action ++ (List.replicate (30 - action.length) ' ' ++ ' ' :: ' ' ::
    (status ++ (List.replicate (12 - status.length) ' ' ++ ' ' :: ' ' :: summary)))

theorem historyRow_eq (r : TransactionRecord) :
    historyRow r = ' ' :: ' ' :: (idPrefix r ++ ' ' :: ' ' ::
      rowTail r.actionName.toList r.status.debugLower.toList r.summary.toList) := rfl

theorem columns_rowTail {action status : List Char} (haction : ColumnText action)
    (hstatus : ColumnText status) (summary : List Char) :
    columns ' ' (rowTail action status summary) =
      action :: (List.replicate ((30 - action.length) % 2) ' ' ++ status) ::
        columns ' ' (List.replicate (12 - status.length) ' ' ++ summary) := by
  have hfirst := columns_padded haction.nonempty haction.noPair haction.head_ne haction.last_ne 0
    (30 - action.length)
    (status ++ (List.replicate (12 - status.length) ' ' ++ ' ' :: ' ' :: summary))
  have hsecond := columns_padded hstatus.nonempty hstatus.noPair hstatus.head_ne hstatus.last_ne
    (30 - action.length) (12 - status.length) summary
  rw [hsecond] at hfirst
  exact hfirst

/-- A text behind blanks is trimmed to the text. -/
theorem trim_blanks (k : Nat) (s : List Char) : trim (List.replicate k ' ' ++ s) = trim s := by
  refine trim_append_left ?_ s
  intro c hc
  rw [List.eq_of_mem_replicate hc]
  decide

/-! ## The summary -/

/-- Columns are joined to the summary again when no blanks are between two of them. -/
theorem joinPairs_columns_padded {s : List Char} {odd : Nat} (hodd : odd = 0 ∨ odd = 1)
    (hs : s ≠ []) (htrimmed : Trimmed isWhitespace s)
    (hrun : ¬ [' ', ' ', ' ', ' '] <:+: s) :
    joinPairs ' ' (columns ' ' (List.replicate odd ' ' ++ s)) = List.replicate odd ' ' ++ s := by
  have hhead := htrimmed.head?_ne (c := ' ') (by decide)
  have hlast := htrimmed.getLast?_ne (c := ' ') (by decide)
  obtain ⟨c, v, rfl⟩ := List.exists_cons_of_ne_nil hs
  have hc : c ≠ ' ' := fun heq => hhead (congrArg some heq)
  rcases hodd with h0 | h1
  · subst h0
    refine joinPairs_columns hs ?_ hlast hrun
    intro ⟨post, hpost⟩
    exact hc (List.cons.inj hpost).1.symm
  · subst h1
    refine joinPairs_columns (List.cons_ne_nil ' ' _) ?_ ?_ ?_
    · intro ⟨post, hpost⟩
      exact hc (List.cons.inj (List.cons.inj hpost).2).1.symm
    · have hcons : (' ' :: c :: v).getLast? ≠ some ' ' := by
        rwa [List.getLast?_cons_cons]
      exact hcons
    · intro hin
      rcases List.infix_cons_iff.mp hin with ⟨post, hpost⟩ | hin
      · exact hc (List.cons.inj (List.cons.inj hpost).2).1.symm
      · exact hrun hin

theorem summaryText_iff {status : JobState} {s : List Char}
    (hstatus : status ≠ .rolledBack ∧ status ≠ .needsReboot) (hline : '\n' ∉ s) :
    (columns ' ' (List.replicate (12 - status.debugLower.toList.length) ' ' ++ s) ≠ [] ∧
      trim (joinPairs ' ' (columns ' '
        (List.replicate (12 - status.debugLower.toList.length) ' ' ++ s))) = s) ↔
      SummaryText status s := by
  have hpadding := debugLower_padding hstatus
  rw [columns_replicate]
  generalize hodd : (12 - status.debugLower.toList.length) % 2 = odd at hpadding ⊢
  have hcases : odd = 0 ∨ odd = 1 := by omega
  constructor
  · intro ⟨hsome, hback⟩
    refine ⟨hline, ?_, ?_, ?_⟩
    · rw [← hback]
      exact trim_trimmed _
    · -- two columns would be joined by fewer blanks than were between them
      intro hrun
      have hrun' : [' ', ' ', ' ', ' '] <:+: List.replicate odd ' ' ++ s :=
        hrun.trans (List.suffix_append _ s).isInfix
      have hshorter := joinPairs_columns_shorter hrun' hsome
      have hlength := (trim_infix_text (p := isWhitespace) (joinPairs ' '
        (columns ' ' (List.replicate odd ' ' ++ s)))).length_le
      have hback' : (TextTrim.trim isWhitespace (joinPairs ' '
          (columns ' ' (List.replicate odd ' ' ++ s)))).length = s.length := congrArg _ hback
      rw [List.length_append, List.length_replicate] at hshorter
      omega
    · intro hs
      refine hpadding.mp ?_
      rcases hcases with h | h
      · rw [h, hs] at hsome
        exact absurd rfl hsome
      · exact h
  · intro h
    by_cases hs : s = []
    · have hone : odd = 1 := hpadding.mpr (h.empty hs)
      rw [hs, hone]
      decide
    · have hwhole := joinPairs_columns_padded hcases hs h.trimmed h.noRun
      constructor
      · intro hnone
        rw [hnone] at hwhole
        exact hs (List.append_eq_nil_iff.mp hwhole.symm).2
      · rw [hwhole, trim_blanks]
        exact trim_of_trimmed h.trimmed

/-! ## One row -/

theorem parseHistoryLine_some {line : List Char} {entry : HistoryEntry}
    (h : parseHistoryLine line = some entry) :
    ∃ id action status summary more,
      columns ' ' (line.dropWhile isWhitespace) = id :: action :: status :: summary :: more ∧
      entry = { transactionId := String.ofList (trim id), action := String.ofList (trim action),
                status := String.ofList (trim status),
                summary := String.ofList (trim (joinPairs ' ' (summary :: more))),
                createdAt := none, riskLevel := none } := by
  simp only [parseHistoryLine] at h
  split at h
  · cases h
  · split at h
    · next id action status summary more hcolumns =>
      exact ⟨id, action, status, summary, more, hcolumns, (Option.some.inj h).symm⟩
    · cases h

/-- A column that has been trimmed, as long as it is not all blank. -/
theorem columnText_trim {s column : List Char} (hcolumn : column ∈ columns ' ' s)
    (hne : trim column ≠ []) (hline : '\n' ∉ trim column) : ColumnText (trim column) := by
  refine ⟨hne, hline, trim_trimmed _, ?_⟩
  intro hin
  exact no_pair_columns hcolumn (hin.trans (trim_infix_text _))

/-- The rows do not look like the two lines that are skipped: the pair of blanks behind the
id comes too early. -/
theorem not_skipped {skipped id rest : List Char} (hpair : ¬ [' ', ' '] <:+: skipped)
    (hlength : 10 ≤ skipped.length) (hid : id.length ≤ 8) :
    ¬ skipped <+: id ++ ' ' :: ' ' :: rest := by
  intro hpre
  have hfront : id ++ [' ', ' '] <+: id ++ ' ' :: ' ' :: rest :=
    ⟨rest, by rw [List.append_assoc]; rfl⟩
  have hshort : (id ++ [' ', ' ']).length ≤ skipped.length := by
    simp only [List.length_append, List.length_cons, List.length_nil]
    omega
  have hinside := List.prefix_of_prefix_length_le hfront hpre hshort
  exact hpair ((List.suffix_append id [' ', ' ']).isInfix.trans hinside.isInfix)

theorem idPrefix_length (r : TransactionRecord) : (idPrefix r).length ≤ 8 := by
  rw [idPrefix, List.length_take]
  exact Nat.min_le_left _ _

theorem dropWhile_row {id : List Char} (hid : ColumnText id) (rest : List Char) :
    (' ' :: ' ' :: (id ++ rest)).dropWhile isWhitespace = id ++ rest := by
  obtain ⟨c, v, rfl⟩ := List.exists_cons_of_ne_nil hid.nonempty
  have hc : isWhitespace c = false := hid.trimmed.1 c rfl
  have hblank : isWhitespace ' ' = true := by decide
  rw [List.dropWhile_cons_of_pos hblank, List.dropWhile_cons_of_pos hblank, List.cons_append,
    List.dropWhile_cons_of_neg (by simp [hc])]

theorem stripReturn_row {r : TransactionRecord}
    (h : Trimmed isWhitespace r.summary.toList) : stripReturn (historyRow r) = historyRow r := by
  have hlast : (historyRow r).getLast? ≠ some '\r' := by
    have hsummary := h.getLast?_ne (c := '\r') (by decide)
    obtain ⟨front, hfront⟩ : ∃ front, historyRow r = front ++ (' ' :: r.summary.toList) := by
      refine ⟨' ' :: ' ' :: (idPrefix r ++ ' ' :: ' ' :: (r.actionName.toList ++
        (List.replicate (30 - r.actionName.toList.length) ' ' ++ ' ' :: ' ' ::
          (r.status.debugLower.toList ++
            (List.replicate (12 - r.status.debugLower.toList.length) ' ' ++ [' ']))))), ?_⟩
      simp only [historyRow, List.append_assoc, List.cons_append, List.nil_append]
    rw [hfront, List.getLast?_append]
    cases hs : r.summary.toList with
    | nil =>
      have hblank : [' '].getLast?.or front.getLast? = some ' ' := rfl
      rw [hblank]
      decide
    | cons c s =>
      rw [hs] at hsummary
      rw [List.getLast?_cons_cons]
      cases hl : (c :: s).getLast? with
      | none => simp at hl
      | some d => rwa [hl] at hsummary
  rw [stripReturn, if_neg hlast]

/-- A record whose row comes back. -/
theorem parseHistoryLine_comesBack {r : TransactionRecord} (h : ComesBack r) :
    parseHistoryLine (stripReturn (historyRow r)) = some (entryOf r) := by
  obtain ⟨hsome, hback⟩ := (summaryText_iff h.status h.summary.line).mpr h.summary
  obtain ⟨summary, more, hsummary⟩ := List.exists_cons_of_ne_nil hsome
  have hcolumns := columns_append h.id.nonempty h.id.noPair h.id.last_ne
    (rowTail r.actionName.toList r.status.debugLower.toList r.summary.toList)
  rw [columns_rowTail h.action (debugLower_column _), hsummary] at hcolumns
  have hheader : ¬ historyHeader <+: idPrefix r ++ ' ' :: ' ' ::
      rowTail r.actionName.toList r.status.debugLower.toList r.summary.toList :=
    not_skipped (by decide) (by decide) (idPrefix_length r)
  have hnone : ¬ noHistory <+: idPrefix r ++ ' ' :: ' ' ::
      rowTail r.actionName.toList r.status.debugLower.toList r.summary.toList :=
    not_skipped (by decide) (by decide) (idPrefix_length r)
  have hempty : (idPrefix r ++ ' ' :: ' ' ::
      rowTail r.actionName.toList r.status.debugLower.toList r.summary.toList).isEmpty = false := by
    simp
  rw [← List.isPrefixOf_iff_prefix, Bool.not_eq_true] at hheader hnone
  rw [stripReturn_row h.summary.trimmed, historyRow_eq, parseHistoryLine,
    dropWhile_row h.id]
  simp only [hempty, hheader, hnone, Bool.or_false, Bool.false_eq_true, if_false, hcolumns]
  have hid : trim (idPrefix r) = idPrefix r := trim_of_trimmed h.id.trimmed
  have haction : trim r.actionName.toList = r.actionName.toList :=
    trim_of_trimmed h.action.trimmed
  have hstatus : trim (List.replicate ((30 - r.actionName.toList.length) % 2) ' ' ++
      r.status.debugLower.toList) = r.status.debugLower.toList :=
    (trim_blanks _ _).trans (trim_of_trimmed (debugLower_column _).trimmed)
  rw [hsummary] at hback
  rw [hid, haction, hstatus, hback, entryOf, String.ofList_toList, String.ofList_toList,
    String.ofList_toList, (debugLower_spelling r.status).mpr h.status]

/-- The first column begins with what is behind the blanks in front. -/
theorem trim_first_ne {line id : List Char} {rest : List (List Char)}
    (h : columns ' ' (line.dropWhile isWhitespace) = id :: rest) : trim id ≠ [] := by
  cases hfront : line.dropWhile isWhitespace with
  | nil =>
    rw [hfront] at h
    cases h
  | cons c s =>
    have hc : isWhitespace c = false := by
      have hnot := List.head?_dropWhile_not isWhitespace line
      rw [hfront] at hnot
      simpa using hnot
    have hne : c ≠ ' ' := by
      rintro rfl
      exact absurd hc (by decide)
    obtain ⟨w, others, hfirst⟩ := columns_cons hne s
    rw [hfront, hfirst] at h
    rw [← (List.cons.inj h).1]
    exact trim_ne_nil hc (List.mem_cons_self ..)

/-- With an empty action the status is the column behind the id. -/
theorem action_ne_nil {action status summary column : List Char} {rest : List (List Char)}
    (hstatus : ColumnText status) (h : columns ' ' (rowTail action status summary) = column :: rest)
    (hcolumn : trim column = action) : action ≠ [] := by
  rintro rfl
  have hpadded := columns_padded hstatus.nonempty hstatus.noPair hstatus.head_ne hstatus.last_ne 32
    (12 - status.length) summary
  have hshift : rowTail [] status summary = List.replicate 32 ' ' ++ (status ++
      (List.replicate (12 - status.length) ' ' ++ ' ' :: ' ' :: summary)) := rfl
  rw [hshift, hpadded] at h
  rw [← (List.cons.inj h).1] at hcolumn
  have hkept : trim status = status := trim_of_trimmed hstatus.trimmed
  exact hstatus.nonempty (hkept.symm.trans hcolumn)

/-- The record of a row that comes back. -/
theorem comesBack_of_parse {r : TransactionRecord} (hid : '\n' ∉ idPrefix r)
    (haction : '\n' ∉ r.actionName.toList) (hsummary : '\n' ∉ r.summary.toList)
    (h : parseHistoryLine (stripReturn (historyRow r)) = some (entryOf r)) : ComesBack r := by
  obtain ⟨id, action, status, summary, more, hcolumns, hentry⟩ := parseHistoryLine_some h
  have hid' : trim id = idPrefix r :=
    (String.ofList_injective (congrArg HistoryEntry.transactionId hentry)).symm
  have haction' : trim action = r.actionName.toList := by
    have heq : r.actionName = String.ofList (trim action) := congrArg HistoryEntry.action hentry
    rw [heq, String.toList_ofList]
  have hstatus' : UnitEnum.variantName r.status = String.ofList (trim status) :=
    congrArg HistoryEntry.status hentry
  have hsummary' : trim (joinPairs ' ' (summary :: more)) = r.summary.toList := by
    have heq : r.summary = String.ofList (trim (joinPairs ' ' (summary :: more))) :=
      congrArg HistoryEntry.summary hentry
    rw [heq, String.toList_ofList]
  have htrimmed : Trimmed isWhitespace r.summary.toList := by
    rw [← hsummary']
    exact trim_trimmed _
  rw [stripReturn_row htrimmed] at hcolumns
  have hidText : ColumnText (idPrefix r) := by
    rw [← hid'] at hid ⊢
    exact columnText_trim (hcolumns ▸ List.mem_cons_self ..) (trim_first_ne hcolumns) hid
  rw [historyRow_eq, dropWhile_row hidText,
    columns_append hidText.nonempty hidText.noPair hidText.last_ne] at hcolumns
  have htail := (List.cons.inj hcolumns).2
  have hactionText : ColumnText r.actionName.toList := by
    have hne := action_ne_nil (debugLower_column _) htail haction'
    rw [← haction'] at haction hne ⊢
    exact columnText_trim (htail ▸ List.mem_cons_self ..) hne haction
  rw [columns_rowTail hactionText (debugLower_column _)] at htail
  have hrest := (List.cons.inj htail).2
  have hspelled : r.status ≠ .rolledBack ∧ r.status ≠ .needsReboot := by
    rw [← debugLower_spelling, hstatus', ← (List.cons.inj hrest).1, trim_blanks]
    have hkept : trim r.status.debugLower.toList = r.status.debugLower.toList :=
      trim_of_trimmed (debugLower_column _).trimmed
    rw [hkept, String.ofList_toList]
  refine ⟨hidText, hactionText, hspelled, ?_⟩
  rw [← summaryText_iff hspelled hsummary, (List.cons.inj hrest).2]
  exact ⟨List.cons_ne_nil _ _, hsummary'⟩

/-! ## All rows -/

/-- The fields of a row are on its line. -/
theorem unbroken_entry {line : List Char} {entry : HistoryEntry} (hline : '\n' ∉ line)
    (h : parseHistoryLine line = some entry) :
    '\n' ∉ entry.transactionId.toList ∧ '\n' ∉ entry.action.toList ∧
      '\n' ∉ entry.summary.toList := by
  obtain ⟨id, action, status, summary, more, hcolumns, rfl⟩ := parseHistoryLine_some h
  have hcolumn : ∀ column ∈ columns ' ' (line.dropWhile isWhitespace), '\n' ∉ column := by
    intro column hcolumn hin
    exact hline ((List.dropWhile_suffix isWhitespace).subset (mem_of_mem_columns hcolumn hin))
  rw [hcolumns] at hcolumn
  simp only [String.toList_ofList]
  refine ⟨?_, ?_, ?_⟩
  · intro hin
    exact hcolumn id (by simp) ((trim_infix_text _).subset hin)
  · intro hin
    exact hcolumn action (by simp) ((trim_infix_text _).subset hin)
  · intro hin
    rcases mem_joinPairs ((trim_infix_text _).subset hin) with heq | ⟨column, hmem, hin⟩
    · exact absurd heq (by decide)
    · refine hcolumn column ?_ hin
      exact List.mem_cons_of_mem _ (List.mem_cons_of_mem _ (List.mem_cons_of_mem _ hmem))

theorem unbroken_row {r : TransactionRecord} (hid : '\n' ∉ idPrefix r)
    (haction : '\n' ∉ r.actionName.toList) (hsummary : '\n' ∉ r.summary.toList) :
    '\n' ∉ historyRow r := by
  have hstatus := (debugLower_column r.status).line
  have hblank : '\n' ≠ ' ' := by decide
  simp [historyRow, hid, haction, hsummary, hstatus, hblank, List.mem_replicate]

/-- The rows come back, each in its place and with the status as the filter spells it, just
for records whose texts survive the columns. -/
theorem parseHistoryText_formatJobHistory_iff (records : List TransactionRecord) :
    parseHistoryText (formatJobHistory records) = records.map entryOf ↔
      ∀ r ∈ records, ComesBack r := by
  constructor
  · intro h
    have hfields : ∀ r ∈ records, '\n' ∉ idPrefix r ∧ '\n' ∉ r.actionName.toList ∧
        '\n' ∉ r.summary.toList := by
      intro r hr
      have hentry : entryOf r ∈ parseHistoryText (formatJobHistory records) := by
        rw [h]
        exact List.mem_map_of_mem hr
      obtain ⟨line, hline, hparse⟩ := List.mem_filterMap.mp hentry
      have hunbroken := unbroken_entry (unbroken_linesFrom List.not_mem_nil hline) hparse
      rwa [entryOf, String.toList_ofList] at hunbroken
    rw [parseHistoryText_rows fun r hr =>
      unbroken_row (hfields r hr).1 (hfields r hr).2.1 (hfields r hr).2.2,
      List.filterMap_eq_map_iff_forall_eq_some] at h
    intro r hr
    exact comesBack_of_parse (hfields r hr).1 (hfields r hr).2.1 (hfields r hr).2.2 (h r hr)
  · intro h
    rw [parseHistoryText_rows fun r hr =>
      unbroken_row (h r hr).id.line (h r hr).action.line (h r hr).summary.line,
      List.filterMap_eq_map_iff_forall_eq_some]
    intro r hr
    exact parseHistoryLine_comesBack (h r hr)

/-- A transaction that was rolled back. -/
def rolledBackRecord : TransactionRecord where
  transactionId := "0b7f2c1e-5a34"
  requestId := "r1"
  requestHash := "h1"
  actionName := "InstallPackages"
  riskLevel := .medium
  status := .rolledBack
  approvalId := none
  summary := "Install vim"
  warnings := []

/-- Its status comes back as "rolledback". -/
theorem rolledBack_notBack :
    ¬ ∀ records : List TransactionRecord,
      (∀ r ∈ records, '\n' ∉ r.summary.toList) →
        parseHistoryText (formatJobHistory records) = records.map entryOf := by
  intro h
  have hback := h [rolledBackRecord] (by decide +kernel)
  have hdiffers : parseHistoryText (formatJobHistory [rolledBackRecord]) ≠
      [rolledBackRecord].map entryOf := by decide +kernel
  exact hdiffers hback

end Sysknife
