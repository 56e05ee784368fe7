import Mathlib.Data.List.ReduceOption
import Mathlib.Logic.Relation
import Sysknife.Lib.TextLines
import Sysknife.Lib.Utf8
import Sysknife.Prefs
import Sysknife.TerminalReply

/-!
# Streamed and buffered execution

`stream_command_with_progress` reads what a child writes line by line while the child runs;
`execute_spec` collects the bytes and decodes them with replacement. The child and the
reader take their steps in any order here.
-/

namespace Sysknife

open TextLines Relation

/-! ## A child process -/

/-- The bytes that a child writes and its exit code, `none` after a signal. -/
structure ChildProcess where
  stdout : List UInt8
  stderr : List UInt8
  code : Option Int
  deriving DecidableEq

/-- `String::from_utf8_lossy`. -/
def lossyText (bytes : List UInt8) : String := String.ofList (Utf8.decodeLossy bytes)

/-- `execute_spec` on a command, where spawning it fails or gives the child. -/
def bufferedOutput : Except String ChildProcess → Except ExecutorError ExecutionOutput
  | .error e => .error (.io e)
  | .ok child => .ok ⟨lossyText child.stdout, lossyText child.stderr, child.code.getD (-1)⟩

/-! ## Reading lines -/

def isLineFeed (b : UInt8) : Bool := b == 0x0a

/-- A line as text, `none` where it is not UTF-8. A carriage return goes with the end of
the line, an incomplete line keeps it. -/
def lineText (complete : Bool) (line : List UInt8) : Option String :=
  (Utf8.decode line).map fun s => String.ofList (if complete then stripReturn s else s)

inductive NextLine where
  /-- More bytes are needed. -/
  | pending
  | ended
  | line (text : Option String) (rest : List UInt8)

/-- `Lines::next_line` on the bytes that have arrived; `closed` is the end of the stream. -/
def nextLine (closed : Bool) (arrived : List UInt8) : NextLine :=
  match split isLineFeed arrived with
  | (line :: _, _) => .line (lineText true line) (arrived.drop (line.length + 1))
  | ([], rest) =>
    if !closed then .pending
    else if rest.isEmpty then .ended
    else .line (lineText false rest) []

/-! ## Reader and child -/

inductive StreamPhase where
  /-- The loop, with the lines that it has read and sent. -/
  | reading (lines : List String)
  | waiting (lines : List String)
  | finished (result : Except ExecutorError ExecutionOutput)

structure StreamState where
  phase : StreamPhase
  unwritten : List UInt8
  /-- Written and not read. -/
  arrived : List UInt8
  closed : Bool
  running : Bool

inductive StreamEvent where
  | writes | closes | exits
  | reads | waits
  deriving DecidableEq

def notUtf8 : String := "stream did not contain valid UTF-8"

def streamStep (child : ChildProcess) (s : StreamState) : StreamEvent → Option StreamState
  | .writes =>
    match s.unwritten with
    | [] => none
    | b :: rest => some { s with unwritten := rest, arrived := s.arrived ++ [b] }
  | .closes => if s.unwritten.isEmpty then some { s with closed := true } else none
  | .exits => some { s with running := false }
  | .reads =>
    match s.phase with
    | .reading lines =>
      match nextLine s.closed s.arrived with
      | .pending => none
      | .ended => some { s with phase := .waiting lines }
      | .line (some text) rest =>
        some { s with phase := .reading (lines ++ [text]), arrived := rest }
      -- the `?` in the loop leaves the function and the child
      | .line none rest =>
        some { s with phase := .finished (.error (.io notUtf8)), arrived := rest }
    | _ => none
  | .waits =>
    match s.phase with
    | .waiting lines =>
      if s.running then none
      else some { s with phase := .finished (.ok ⟨String.join (lines.map (· ++ "\n")),
        lossyText child.stderr, child.code.getD (-1)⟩) }
    | _ => none

def streamInit (child : ChildProcess) : StreamState where
  phase := .reading []
  unwritten := child.stdout
  arrived := []
  closed := false
  running := true

def StreamStep (child : ChildProcess) (s s' : StreamState) : Prop :=
  ∃ event, streamStep child s event = some s'

/-- A state that the streaming path comes to. A command that cannot be spawned leaves no
child. -/
def StreamReached : Except String ChildProcess → StreamState → Prop
  | .error e, s => s = ⟨.finished (.error (.io e)), [], [], true, false⟩
  | .ok child, s => ReflTransGen (StreamStep child) (streamInit child) s

/-! ## The lines of a stream -/

/-- The lines of a whole stream, `none` where one is not UTF-8. -/
def outputTexts (bytes : List UInt8) : List (Option String) :=
  (split isLineFeed bytes).1.map (lineText true) ++
    if (split isLineFeed bytes).2.isEmpty then [] else [lineText false (split isLineFeed bytes).2]

/-- The child as the handlers of the dispatcher meet it. -/
def ChildProcess.run (child : ChildProcess) : ChildRun where
  lines := ((outputTexts child.stdout).takeWhile Option.isSome).reduceOption
  readError := if (outputTexts child.stdout).all Option.isSome then none else some notUtf8
  exit := .ok child.code
  stderr := .ok (lossyText child.stderr)

theorem isLineFeed_iff (b : UInt8) : isLineFeed b = true ↔ b = 0x0a := beq_iff_eq

theorem outputTexts_nil : outputTexts [] = [] := rfl

theorem outputTexts_line {line : List UInt8} (h : Unbroken isLineFeed line) (rest : List UInt8) :
    outputTexts (line ++ 0x0a :: rest) = lineText true line :: outputTexts rest := by
  rw [outputTexts, split_line rfl h]
  rfl

theorem outputTexts_rest {line : List UInt8} (h : Unbroken isLineFeed line) (hne : line ≠ []) :
    outputTexts line = [lineText false line] := by
  have hsome : line.isEmpty = false := by simpa using hne
  rw [outputTexts, split_unbroken h]
  simp [hsome]

theorem lineText_isSome (complete : Bool) (line : List UInt8) :
    (lineText complete line).isSome = true ↔ Utf8.Valid line := by
  rw [lineText, Option.isSome_map, Utf8.decode_isSome]

/-- A stream is UTF-8 just if its lines are. -/
theorem outputTexts_isSome (bytes : List UInt8) :
    (∀ text ∈ outputTexts bytes, text.isSome = true) ↔ Utf8.Valid bytes := by
  obtain ⟨ls, rest, hls, hrest, rfl⟩ := exists_join isLineFeed_iff bytes
  induction ls with
  | nil =>
    have hjoin : join 0x0a [] rest = rest := rfl
    rw [hjoin]
    by_cases hne : rest = []
    · rw [hne, outputTexts_nil]
      exact iff_of_true nofun ⟨[], rfl⟩
    · rw [outputTexts_rest hrest hne, List.forall_mem_singleton, lineText_isSome]
  | cons line ls ih =>
    have hjoin : join 0x0a (line :: ls) rest = line ++ 0x0a :: join 0x0a ls rest := by
      simp [join]
    rw [hjoin, outputTexts_line (hls line (List.mem_cons_self ..)), List.forall_mem_cons,
      lineText_isSome, ih fun l hl => hls l (List.mem_cons_of_mem _ hl),
      Utf8.valid_append_cons (by decide)]

theorem nextLine_line {closed : Bool} {arrived rest more : List UInt8} {text : Option String}
    (h : nextLine closed arrived = .line text rest) (hclosed : closed = true → more = []) :
    outputTexts (arrived ++ more) = text :: outputTexts (rest ++ more) ∧
      rest.length < arrived.length := by
  obtain ⟨ls, last, hls, hlast, rfl⟩ := exists_join isLineFeed_iff arrived
  rw [nextLine, split_join rfl hls hlast] at h
  cases ls with
  | nil =>
    simp only at h
    split at h
    · cases h
    · split at h
      · cases h
      · next hopen hempty =>
        obtain ⟨rfl, rfl⟩ := NextLine.line.inj h
        have hne : last ≠ [] := by simpa using hempty
        have hmore := hclosed (by simpa using hopen)
        have hjoin : join 0x0a [] last = last := rfl
        rw [hmore, List.append_nil, hjoin, outputTexts_rest hlast hne]
        exact ⟨rfl, List.length_pos_iff.mpr hne⟩
  | cons line ls =>
    have hjoin : join 0x0a (line :: ls) last = line ++ 0x0a :: join 0x0a ls last := by
      simp [join]
    obtain ⟨rfl, hrest⟩ := NextLine.line.inj h
    have hdrop : (line ++ 0x0a :: join 0x0a ls last).drop (line.length + 1) =
        join 0x0a ls last := by
      rw [← List.drop_drop, List.drop_left]
      rfl
    rw [hjoin, hdrop] at hrest
    subst hrest
    rw [hjoin, List.append_assoc, List.cons_append,
      outputTexts_line (hls line (List.mem_cons_self ..))]
    refine ⟨rfl, ?_⟩
    rw [List.length_append, List.length_cons]
    omega

theorem nextLine_ended {closed : Bool} {arrived : List UInt8}
    (h : nextLine closed arrived = .ended) : closed = true ∧ arrived = [] := by
  obtain ⟨ls, last, hls, hlast, rfl⟩ := exists_join isLineFeed_iff arrived
  rw [nextLine, split_join rfl hls hlast] at h
  cases ls with
  | cons line ls => cases h
  | nil =>
    simp only at h
    split at h
    · cases h
    · split at h
      · next hopen hempty =>
        have hlast : last = [] := by simpa using hempty
        rw [hlast]
        exact ⟨by simpa using hopen, rfl⟩
      · cases h

theorem nextLine_pending {closed : Bool} {arrived : List UInt8}
    (h : nextLine closed arrived = .pending) : closed = false := by
  rw [nextLine] at h
  split at h
  · cases h
  · split at h
    · next hopen => simpa using hopen
    · split at h <;> cases h

/-! ## What the reader knows -/

/-- The lines read are the first of the stream, and the reader ends with the result of the
run; before the child has ended only where the stream is not UTF-8. -/
def StreamFollows (child : ChildProcess) (s : StreamState) : Prop :=
  (s.closed = true → s.unwritten = []) ∧
    match s.phase with
    | .reading lines =>
      outputTexts child.stdout = lines.map some ++ outputTexts (s.arrived ++ s.unwritten)
    | .waiting lines => outputTexts child.stdout = lines.map some
    | .finished result =>
      result = child.run.result ∧ (s.running = true → ¬ Utf8.Valid child.stdout)

theorem streamInit_follows (child : ChildProcess) : StreamFollows child (streamInit child) :=
  ⟨nofun, rfl⟩

theorem run_result_broken {child : ChildProcess} {lines : List String}
    {more : List (Option String)}
    (h : outputTexts child.stdout = lines.map some ++ none :: more) :
    child.run.result = .error (.io notUtf8) ∧ ¬ Utf8.Valid child.stdout := by
  have hnone : none ∈ outputTexts child.stdout := by
    rw [h]
    exact List.mem_append_right _ (List.mem_cons_self ..)
  have hall : ¬ ∀ text ∈ outputTexts child.stdout, text.isSome = true := by
    intro hsome
    exact absurd (hsome none hnone) (by decide)
  have hread : child.run.readError = some notUtf8 := by
    have hfalse : (outputTexts child.stdout).all Option.isSome = false := by
      rw [← Bool.not_eq_true, List.all_eq_true]
      exact hall
    simp only [ChildProcess.run, hfalse, Bool.false_eq_true, if_false]
  refine ⟨?_, ?_⟩
  · rw [ChildRun.result, hread]
  · rw [← outputTexts_isSome]
    exact hall

theorem run_result_whole {child : ChildProcess} {lines : List String}
    (h : outputTexts child.stdout = lines.map some) :
    child.run.result = .ok ⟨String.join (lines.map (· ++ "\n")), lossyText child.stderr,
      child.code.getD (-1)⟩ := by
  have hsome : ∀ text ∈ lines.map some, Option.isSome text = true := by
    intro text htext
    obtain ⟨line, -, rfl⟩ := List.mem_map.mp htext
    rfl
  have hread : child.run.readError = none := by
    have htrue : (lines.map some).all Option.isSome = true := List.all_eq_true.mpr hsome
    simp only [ChildProcess.run, h, htrue, if_true]
  have hlines : child.run.lines = lines := by
    have hwhole : (lines.map some).takeWhile Option.isSome = lines.map some :=
      List.takeWhile_eq_self_iff.mpr hsome
    simp only [ChildProcess.run, h, hwhole, List.reduceOption, List.filterMap_map]
    exact List.filterMap_some
  simp only [ChildRun.result, hread, hlines]
  rfl

theorem outputTexts_valid {bytes : List UInt8} (h : Utf8.Valid bytes) :
    ∃ lines : List String, outputTexts bytes = lines.map some := by
  refine ⟨(outputTexts bytes).reduceOption, ?_⟩
  have hsome := (outputTexts_isSome bytes).mpr h
  generalize outputTexts bytes = texts at hsome
  induction texts with
  | nil => rfl
  | cons text texts ih =>
    obtain ⟨htext, hrest⟩ := List.forall_mem_cons.mp hsome
    obtain ⟨line, rfl⟩ := Option.isSome_iff_exists.mp htext
    rw [List.reduceOption_cons_of_some, List.map_cons, ← ih hrest]

theorem run_result_valid {child : ChildProcess} (h : Utf8.Valid child.stdout) :
    ∃ stdout, child.run.result =
      .ok ⟨stdout, lossyText child.stderr, child.code.getD (-1)⟩ := by
  obtain ⟨lines, hlines⟩ := outputTexts_valid h
  exact ⟨_, run_result_whole hlines⟩

theorem run_result_invalid {child : ChildProcess} (h : ¬ Utf8.Valid child.stdout) :
    child.run.result = .error (.io notUtf8) := by
  rw [← outputTexts_isSome, ← List.all_eq_true, Bool.not_eq_true] at h
  simp only [ChildRun.result, ChildProcess.run, h, Bool.false_eq_true, if_false]

/-- Reading the next line, the end of the stream or a line that is not UTF-8. -/
theorem reads_follows {child : ChildProcess} {s s' : StreamState}
    (h : streamStep child s .reads = some s') (hs : StreamFollows child s) :
    StreamFollows child s' := by
  obtain ⟨hclosed, hphase⟩ := hs
  simp only [streamStep] at h
  split at h
  · next lines hreading =>
    rw [hreading] at hphase
    split at h
    · cases h
    · next hended =>
      obtain rfl := Option.some.inj h
      obtain ⟨hclose, hempty⟩ := nextLine_ended hended
      refine ⟨hclosed, ?_⟩
      have hlines : outputTexts child.stdout = lines.map some ++ outputTexts [] := by
        rw [hempty, hclosed hclose] at hphase
        exact hphase
      rwa [outputTexts_nil, List.append_nil] at hlines
    · next text rest hline =>
      obtain rfl := Option.some.inj h
      refine ⟨hclosed, ?_⟩
      have htexts := (nextLine_line hline hclosed).1
      simp only [htexts] at hphase
      simpa using hphase
    · next rest hline =>
      obtain rfl := Option.some.inj h
      have htexts := (nextLine_line hline hclosed).1
      simp only [htexts] at hphase
      obtain ⟨hresult, hinvalid⟩ := run_result_broken hphase
      exact ⟨hclosed, hresult.symm, fun _ => hinvalid⟩
  · cases h

theorem streamStep_follows {child : ChildProcess} {s s' : StreamState}
    (h : StreamStep child s s') (hs : StreamFollows child s) : StreamFollows child s' := by
  obtain ⟨event, h⟩ := h
  have ⟨hclosed, hphase⟩ := hs
  cases event with
  | writes =>
    simp only [streamStep] at h
    split at h
    · cases h
    · next b rest hunwritten =>
      obtain rfl := Option.some.inj h
      refine ⟨fun heq => absurd (hclosed heq) (by simp [hunwritten]), ?_⟩
      rw [hunwritten] at hphase
      have hmove : s.arrived ++ b :: rest = s.arrived ++ [b] ++ rest := by simp
      rwa [hmove] at hphase
  | closes =>
    simp only [streamStep] at h
    split at h
    · next hempty =>
      obtain rfl := Option.some.inj h
      exact ⟨fun _ => by simpa using hempty, hphase⟩
    · cases h
  | exits =>
    obtain rfl := Option.some.inj h
    refine ⟨hclosed, ?_⟩
    cases hp : s.phase with
    | reading lines => rwa [hp] at hphase
    | waiting lines => rwa [hp] at hphase
    | finished result =>
      rw [hp] at hphase
      exact ⟨hphase.1, fun heq => absurd heq Bool.false_ne_true⟩
  | reads => exact reads_follows h hs
  | waits =>
    simp only [streamStep] at h
    split at h
    · next lines hwaiting =>
      rw [hwaiting] at hphase
      split at h
      · cases h
      · next hrunning =>
        obtain rfl := Option.some.inj h
        exact ⟨hclosed, (run_result_whole hphase).symm, fun heq => absurd heq hrunning⟩
    · cases h

theorem reached_follows {child : ChildProcess} {s : StreamState}
    (h : StreamReached (.ok child) s) : StreamFollows child s := by
  induction h with
  | refl => exact streamInit_follows child
  | tail _ hstep ih => exact streamStep_follows hstep ih

/-! ## The reader ends -/

/-- What there is left to do. -/
def work (s : StreamState) : Nat :=
  2 * s.unwritten.length + s.arrived.length + (if s.closed then 0 else 1) +
    match s.phase with
    | .reading _ => 1
    | _ => 0

/-- While the loop reads, the child or the reader can take a step, and the child need not
end for it. -/
theorem reading_step (child : ChildProcess) {s : StreamState} {lines : List String}
    (h : s.phase = .reading lines) :
    ∃ s', StreamStep child s s' ∧ s'.running = s.running ∧ work s' < work s := by
  cases hunwritten : s.unwritten with
  | cons b rest =>
    refine ⟨{ s with unwritten := rest, arrived := s.arrived ++ [b] }, ⟨.writes, ?_⟩, rfl, ?_⟩
    · simp only [streamStep, hunwritten]
    · simp only [work, hunwritten, List.length_append, List.length_cons, List.length_nil]
      omega
  | nil =>
    cases hclosed : s.closed with
    | false =>
      refine ⟨{ s with closed := true }, ⟨.closes, ?_⟩, rfl, ?_⟩
      · simp only [streamStep, hunwritten, List.isEmpty_nil, if_true]
      · simp only [work, hclosed, if_true, Bool.false_eq_true, if_false]
        omega
    | true =>
      cases hnext : nextLine s.closed s.arrived with
      | pending =>
        rw [nextLine_pending hnext] at hclosed
        cases hclosed
      | ended =>
        refine ⟨{ s with phase := .waiting lines }, ⟨.reads, ?_⟩, rfl, ?_⟩
        · simp only [streamStep, h, hnext]
        · simp only [work, h]
          omega
      | line text rest =>
        have hshorter := (@nextLine_line _ _ _ [] _ hnext fun _ => rfl).2
        cases text with
        | none =>
          refine ⟨{ s with phase := .finished (.error (.io notUtf8)), arrived := rest },
            ⟨.reads, ?_⟩, rfl, ?_⟩
          · simp only [streamStep, h, hnext]
          · simp only [work, h]
            omega
        | some text =>
          refine ⟨{ s with phase := .reading (lines ++ [text]), arrived := rest },
            ⟨.reads, ?_⟩, rfl, ?_⟩
          · simp only [streamStep, h, hnext]
          · simp only [work, h]
            omega

/-- The loop comes to its end whether the child ends or not. -/
theorem reading_leaves (child : ChildProcess) (s : StreamState) :
    ∃ s', ReflTransGen (StreamStep child) s s' ∧ s'.running = s.running ∧
      ∀ lines, s'.phase ≠ .reading lines := by
  induction hwork : work s using Nat.strong_induction_on generalizing s with
  | _ n ih =>
    cases hphase : s.phase with
    | reading lines =>
      obtain ⟨next, hstep, hrunning, hless⟩ := reading_step child hphase
      obtain ⟨s', hrun, hrunning', hleft⟩ := ih (work next) (hwork ▸ hless) next rfl
      exact ⟨s', .head hstep hrun, hrunning'.trans hrunning, hleft⟩
    | waiting lines => exact ⟨s, .refl, rfl, fun l => by rw [hphase]; exact nofun⟩
    | finished result => exact ⟨s, .refl, rfl, fun l => by rw [hphase]; exact nofun⟩

/-- From every state the streaming path comes to a result once the child ends. -/
theorem stream_finishes (child : ChildProcess) (s : StreamState) :
    ∃ s' result, ReflTransGen (StreamStep child) s s' ∧ s'.phase = .finished result := by
  obtain ⟨mid, hrun, -, hleft⟩ := reading_leaves child s
  cases hphase : mid.phase with
  | reading lines => exact absurd hphase (hleft lines)
  | finished result => exact ⟨mid, result, hrun, hphase⟩
  | waiting lines =>
    have hexit : StreamStep child mid { mid with running := false } := ⟨.exits, rfl⟩
    have hwait : StreamStep child { mid with running := false }
        { mid with running := false, phase := .finished (.ok ⟨String.join (lines.map (· ++ "\n")),
          lossyText child.stderr, child.code.getD (-1)⟩) } := by
      refine ⟨.waits, ?_⟩
      simp only [streamStep, hphase, Bool.false_eq_true, if_false]
    exact ⟨_, _, (hrun.tail hexit).tail hwait, rfl⟩

/-- Where a line is not UTF-8 the streaming path can end while the child goes on. -/
theorem finished_running {child : ChildProcess} (h : ¬ Utf8.Valid child.stdout) :
    ∃ s, StreamReached (.ok child) s ∧ s.phase = .finished (.error (.io notUtf8)) ∧
      s.running = true := by
  obtain ⟨s, hrun, hrunning, hleft⟩ := reading_leaves child (streamInit child)
  have hfollows : StreamFollows child s := reached_follows hrun
  have hphase := hfollows.2
  cases hp : s.phase with
  | reading lines => exact absurd hp (hleft lines)
  | waiting lines =>
    rw [hp] at hphase
    refine absurd ?_ h
    rw [← outputTexts_isSome, hphase]
    intro text htext
    obtain ⟨line, -, rfl⟩ := List.mem_map.mp htext
    rfl
  | finished result =>
    rw [hp] at hphase
    have hresult : child.run.result = .error (.io notUtf8) := run_result_invalid h
    rw [hphase.1, hresult] at hp
    exact ⟨s, hrun, hp, hrunning⟩

/-! ## Streamed and buffered results -/

/-- The two results have the same exit code and settle an action in the same status. -/
structure SameOutcome (actionName : String) (spec : ActionSpec)
    (streamed buffered : Except ExecutorError ExecutionOutput) : Prop where
  exitCode : streamed.toOption.map ExecutionOutput.exitCode =
    buffered.toOption.map ExecutionOutput.exitCode
  status : (initialOutcome actionName spec streamed).1 = (initialOutcome actionName spec buffered).1

/-- What the dispatcher's model calls the output of a streamed command. -/
theorem finished_output {o : Outside} {child : ChildProcess} {spec : ActionSpec}
    {program : String} {args : List String} (hspec : spec.mechanism = .command program args)
    (hchild : o.child = .ok child.run) {s : StreamState}
    {result : Except ExecutorError ExecutionOutput} (h : StreamReached (.ok child) s)
    (hresult : s.phase = .finished result) : o.output spec = result := by
  have hphase := (reached_follows h).2
  rw [hresult] at hphase
  simp only [Outside.output, hspec, hchild, hphase.1]

theorem sameOutcome_of_valid {child : ChildProcess} (h : Utf8.Valid child.stdout)
    (actionName : String) (spec : ActionSpec) :
    SameOutcome actionName spec child.run.result (bufferedOutput (.ok child)) := by
  obtain ⟨stdout, hresult⟩ := run_result_valid h
  rw [hresult]
  exact ⟨rfl, rfl⟩

/-- Streamed and buffered execution of a command agree, and no outcome comes before the end
of the child, just if the child's standard output is UTF-8. -/
theorem streamed_agrees_iff (spawned : Except String ChildProcess) (actionName : String)
    (spec : ActionSpec) :
    ((∃ s result, StreamReached spawned s ∧ s.phase = .finished result) ∧
      ∀ s result, StreamReached spawned s → s.phase = .finished result →
        SameOutcome actionName spec result (bufferedOutput spawned) ∧ s.running = false) ↔
      ∀ child, spawned = .ok child → Utf8.Valid child.stdout := by
  cases spawned with
  | error e =>
    refine iff_of_true ⟨⟨_, _, rfl, rfl⟩, ?_⟩ nofun
    intro s result hreached hresult
    obtain rfl : s = _ := hreached
    obtain rfl := StreamPhase.finished.inj hresult
    exact ⟨⟨rfl, rfl⟩, rfl⟩
  | ok child =>
    constructor
    · intro hfinal run hrun
      obtain rfl := Except.ok.inj hrun
      by_contra hinvalid
      obtain ⟨s, hreached, hresult, hrunning⟩ := finished_running hinvalid
      have hended := (hfinal.2 s _ hreached hresult).2
      rw [hrunning] at hended
      cases hended
    · intro h
      have hvalid := h child rfl
      obtain ⟨s, result, hreached, hresult⟩ := stream_finishes child (streamInit child)
      refine ⟨⟨s, result, hreached, hresult⟩, ?_⟩
      intro s' result' hreached' hresult'
      have hphase := (reached_follows hreached').2
      rw [hresult'] at hphase
      obtain ⟨rfl, hrunning⟩ := hphase
      refine ⟨sameOutcome_of_valid hvalid actionName spec, ?_⟩
      rw [← Bool.not_eq_true]
      exact fun hrun => hrunning hrun hvalid

/-- A child that writes one byte that is not UTF-8 and would end with success. -/
def latinChild : ChildProcess := ⟨[0xe9, 0x0a], [], some 0⟩

/-- It is still running when the streaming path reports a failure. -/
theorem streamed_fails_running :
    ¬ ∀ (spawned : Except String ChildProcess) (actionName : String) (spec : ActionSpec)
        (s : StreamState) (result : Except ExecutorError ExecutionOutput),
      StreamReached spawned s → s.phase = .finished result →
        SameOutcome actionName spec result (bufferedOutput spawned) ∧ s.running = false := by
  intro h
  have hinvalid : ¬ Utf8.Valid latinChild.stdout := by
    rw [← Utf8.decode_eq_none]
    decide +kernel
  obtain ⟨s, hreached, hresult, hrunning⟩ := finished_running hinvalid
  have hended := (h _ "GetDateTime" Actions.getDatetime s _ hreached hresult).2
  rw [hrunning] at hended
  cases hended

end Sysknife
