import Sysknife.PlannerRun

/-!
# The conversation of the planner

Which requests have an answer to every tool call, and where the text of the state
client stands in them.
-/

namespace Sysknife

open Interaction

def completionOf : PlannerCall → Option Completion
  | ⟨.complete _ _, .ok completion⟩ => some completion
  | _ => none

/-- The responses of a run. -/
def completions (events : List PlannerCall) : List Completion := events.filterMap completionOf

/-! ## Well-formed histories -/

def ToolCall.key (call : ToolCall) : String × Option String := (call.id, call.callId)

def ToolResultBlock.key (result : ToolResultBlock) : String × Option String :=
  (result.toolUseId, result.callId)

/-- Every call has exactly one result, and no result is without its call. -/
structure OneResultEach (calls : List ToolCall) (results : List ToolResultBlock) : Prop where
  once : ∀ call ∈ calls, (results.map ToolResultBlock.key).count call.key = 1
  called : ∀ result ∈ results, ∃ call ∈ calls, call.key = result.key

/-- A history behind a message with the calls `pending`. -/
def WellFormedAfter : List ToolCall → List Message → Prop
  | pending, [] => pending = []
  | pending, message :: messages =>
    OneResultEach pending message.results ∧ WellFormedAfter message.calls messages

def WellFormed (messages : List Message) : Prop := WellFormedAfter [] messages

/-- The loop answers a response if its calls come with a stop reason for them, and no two
of them have the same identifiers. -/
structure Answerable (completion : Completion) : Prop where
  reason : completion.stopReason = .endTurn → completion.calls = []
  distinct : (completion.calls.map ToolCall.key).Nodup

theorem oneResultEach_nil_iff {calls : List ToolCall} : OneResultEach calls [] ↔ calls = [] := by
  constructor
  · rintro ⟨once, -⟩
    refine List.eq_nil_iff_forall_not_mem.mpr fun call hcall => ?_
    cases once call hcall
  · intro rfl
    exact ⟨fun _ hcall => (List.not_mem_nil hcall).elim,
      fun _ hresult => (List.not_mem_nil hresult).elim⟩

theorem oneResultEach_iff_nodup {calls : List ToolCall} {results : List ToolResultBlock}
    (h : results.map ToolResultBlock.key = calls.map ToolCall.key) :
    OneResultEach calls results ↔ (calls.map ToolCall.key).Nodup := by
  rw [List.nodup_iff_count_eq_one]
  constructor
  · rintro ⟨once, -⟩ key hkey
    obtain ⟨call, hcall, rfl⟩ := List.mem_map.mp hkey
    rw [← h]
    exact once call hcall
  · intro hnodup
    refine ⟨fun call hcall => ?_, fun result hresult => ?_⟩
    · rw [h]
      exact hnodup _ (List.mem_map_of_mem hcall)
    · have hkey := List.mem_map_of_mem (f := ToolResultBlock.key) hresult
      rw [h] at hkey
      exact List.mem_map.mp hkey

section History
variable {lib : PlannerLib} {planner : LlmPlanner} {intent : String} {system : List Char}
  {messages : List Message} {events : List PlannerCall}

theorem Batch.keys {calls : List ToolCall} {results : List ToolResultBlock}
    (h : Batch lib planner intent calls events (.ok results)) :
    results.map ToolResultBlock.key = calls.map ToolCall.key := by
  generalize hout : Except.ok results = out at h
  induction h generalizing results with
  | nil =>
    cases hout
    rfl
  | stop => cases hout
  | next answered following ih =>
    rename_i out
    cases out with
    | error outcome => cases hout
    | ok others =>
      cases hout
      obtain ⟨⟨hid, hcallId⟩, -⟩ := performCall_result answered
      rw [List.map_cons, List.map_cons, ih rfl, ToolResultBlock.key, hid, hcallId]
      rfl

theorem results_toolResults (results : List ToolResultBlock) :
    (Message.toolResults results).results = results := by
  rw [Message.results, Message.toolResults, List.filterMap_map]
  exact List.filterMap_some

theorem results_spoken {content : List ContentBlock} (h : Spoken content) :
    (Message.mk .assistant content).results = [] :=
  List.filterMap_eq_nil_iff.mpr h

/-- A round leaves no call open exactly if its response can be answered. -/
theorem GoesOn.oneResultEach_iff {round : PlanRound} (h : GoesOn lib planner intent round events) :
    OneResultEach round.completion.calls round.reply.results ↔ Answerable round.completion := by
  cases h with
  | corrected reason =>
    refine oneResultEach_nil_iff.trans ⟨fun hcalls => ⟨fun _ => hcalls, ?_⟩, ?_⟩
    · rw [hcalls]
      exact List.nodup_nil
    · exact fun hgood => hgood.reason reason
  | answered reason calls =>
    rw [results_toolResults, oneResultEach_iff_nodup calls.keys]
    refine ⟨fun hnodup => ⟨fun hend => ?_, hnodup⟩, fun hgood => hgood.distinct⟩
    cases reason.symm.trans hend

theorem GoesOn.reply_user {round : PlanRound} (h : GoesOn lib planner intent round events) :
    round.reply.role = .user := by
  cases h <;> rfl

theorem Rounds.wellFormed_iff {rounds : List PlanRound}
    (h : Rounds lib planner intent system messages rounds events)
    (hspoken : ∀ round ∈ rounds, Spoken round.completion.content) :
    WellFormed (rounds.flatMap PlanRound.messages) ↔
      ∀ round ∈ rounds, Answerable round.completion := by
  induction h with
  | nil => simp [WellFormed, WellFormedAfter]
  | cons turn following ih =>
    rename_i round rounds first rest
    rw [List.forall_mem_cons] at hspoken ⊢
    have hreply : round.reply.calls = [] := by rw [Message.calls, turn.reply_user]
    rw [← ih hspoken.2, ← turn.oneResultEach_iff, List.flatMap_cons]
    show OneResultEach [] (round.completion.message.results) ∧
      OneResultEach round.completion.calls round.reply.results ∧
        WellFormedAfter round.reply.calls (rounds.flatMap PlanRound.messages) ↔ _
    rw [hreply, Completion.message, results_spoken hspoken.1,
      and_iff_right (oneResultEach_nil_iff.mpr rfl)]
    rfl

theorem completionOf_toolOp {event : PlannerCall} (h : isToolOp event.op = true) :
    completionOf event = none := by
  unfold completionOf
  split
  · cases h
  · rfl

theorem GoesOn.completions_eq {round : PlanRound} (h : GoesOn lib planner intent round events) :
    completions events = [] := by
  cases h with
  | corrected => rfl
  | answered reason calls =>
    exact List.filterMap_eq_nil_iff.mpr fun event hevent =>
      completionOf_toolOp (calls.toolOp event hevent)

theorem Rounds.completions_eq {rounds : List PlanRound}
    (h : Rounds lib planner intent system messages rounds events) :
    completions events = rounds.map PlanRound.completion := by
  induction h with
  | nil => rfl
  | cons turn following ih =>
    rw [List.map_cons, ← ih, completions, List.filterMap_append, List.filterMap_append]
    rw [show List.filterMap completionOf _ = [] from turn.completions_eq, List.nil_append]
    rfl

theorem completions_opening (h : ∀ event ∈ events, Opening event) : completions events = [] := by
  refine List.filterMap_eq_nil_iff.mpr fun event hevent => ?_
  rcases h event hevent with rfl | hop
  · rfl
  · obtain ⟨op, answer⟩ := event
    obtain rfl : op = .readPrefs := hop
    rfl

/-- A request is well formed exactly if each response before it could be answered. -/
theorem history_wellFormed_iff
    (h : Sends lib planner intent events system messages)
    (hadapter : ∀ completion ∈ completions events,
      FromAdapter lib.parseJson lib.debugStr completion) :
    WellFormed messages ↔ ∀ completion ∈ completions events, Answerable completion := by
  obtain ⟨front, rounds, rest, rfl, hfront, hrounds, rfl⟩ := h.rounds
  have hcompletions : completions (front ++ (rest ++ [⟨.emit .thinking, ()⟩])) =
      rounds.map PlanRound.completion := by
    have hfirst := completions_opening hfront
    have hlast : completions [⟨.emit .thinking, ()⟩] = [] := rfl
    rw [completions] at hfirst hlast
    rw [completions, List.filterMap_append, List.filterMap_append, hfirst, hlast,
      List.append_nil, List.nil_append]
    exact hrounds.completions_eq
  rw [hcompletions] at hadapter ⊢
  rw [List.forall_mem_map] at hadapter ⊢
  rw [← hrounds.wellFormed_iff fun round hround => (hadapter round hround).spoken]
  exact and_iff_right (oneResultEach_nil_iff.mpr rfl)

/-- A response that asks for the user's name. -/
def whoAmI : Completion :=
  ⟨[.toolUse "call_1" none "query_current_user" (.object [])], .toolUse⟩

def whoAmIResult : ToolResultBlock where
  toolUseId := "call_1"
  callId := none
  content := "<untrusted_tool_output source=\"query_current_user\">\nCurrent user: root\n" ++
    "</untrusted_tool_output>"
  isError := false

def whoAmITurn : List PlannerCall :=
  asked plainSystem [.userText "show disks"] (.ok whoAmI) ++
    [⟨.emit (.queryingTool "query current user"), ()⟩, ⟨.currentUser, .ok "root"⟩]

theorem whoAmI_sends :
    Sends plainLib plainPlanner "show disks" (whoAmITurn ++ [⟨.emit .thinking, ()⟩]) plainSystem
      [.userText "show disks", whoAmI.message, .toolResults [whoAmIResult]] := by
  have hsanitized : sanitizeToolOutput plainLib.nfc "query_current_user"
      ("Current user: ".toList ++ "root".toList) = some whoAmIResult.content.toList := by
    decide +kernel
  have hcall : Trace (performCall plainLib plainPlanner "show disks"
      ⟨"call_1", none, "query_current_user", .object []⟩)
      [⟨.emit (.queryingTool "query current user"), ()⟩, ⟨.currentUser, .ok "root"⟩]
      (.ret (.ok whoAmIResult)) := by
    rw [performCall]
    refine trace_ask (trace_ask ?_)
    show Trace (pure (ToolCall.sanitized _ _ _ _ _)) _ _
    rw [ToolCall.sanitized, hsanitized]
    dsimp only
    rw [String.ofList_toList]
    exact .done _
  have hcalls := performCalls_single hcall
  exact plainRun_sends (planTurn_performs whoAmI rfl rfl hcalls)

/-- `whoAmI` as the model gives it. -/
def whoAmIChoice : OpenaiChoice where
  finishReason := some .toolCalls
  content := none
  toolCalls := some [.function "call_1" "query_current_user" "\x7b\x7d"]

theorem history_wellFormed_iff_whoAmI :
    WellFormed [.userText "show disks", whoAmI.message, .toolResults [whoAmIResult]] ↔
      ∀ completion ∈ completions (whoAmITurn ++ [⟨.emit .thinking, ()⟩]),
        Answerable completion := by
  refine history_wellFormed_iff whoAmI_sends fun completion hcompletion => ?_
  rw [List.mem_singleton.mp hcompletion]
  exact Or.inl ⟨[whoAmIChoice], rfl⟩

/-- The events of a first turn whose response is corrected, up to the next request. -/
def correctedTurn (completion : Completion) : List PlannerCall :=
  asked plainSystem [.userText "show disks"] (.ok completion) ++ [⟨.emit .thinking, ()⟩]

theorem correctedTurn_sends {completion : Completion} (hreason : completion.stopReason = .endTurn)
    (htext : completion.content.any ContentBlock.isText = true) :
    Sends plainLib plainPlanner "show disks" (correctedTurn completion) plainSystem
      [.userText "show disks", completion.message, .userText correction] :=
  plainRun_sends (planTurn_corrected hreason htext)

/-- A response with a call that says it has stopped. -/
def stoppedChoice : OpenaiChoice where
  finishReason := some .stop
  content := some "Checking."
  toolCalls := some [.function "call_1" "query_disk_usage" "\x7b\x7d"]

def stoppedCall : Completion :=
  ⟨[.text "Checking.", .toolUse "call_1" none "query_disk_usage" (.object [])], .endTurn⟩

theorem stoppedCall_unanswered :
    fromOpenaiResponse plainLib.parseJson plainLib.debugStr [stoppedChoice] = .ok stoppedCall ∧
      Sends plainLib plainPlanner "show disks" (correctedTurn stoppedCall) plainSystem
        [.userText "show disks", stoppedCall.message, .userText correction] ∧
      ¬ WellFormed [.userText "show disks", stoppedCall.message, .userText correction] := by
  refine ⟨rfl, correctedTurn_sends rfl rfl, ?_⟩
  rintro ⟨-, -, hopen, -⟩
  exact List.cons_ne_nil _ _ (oneResultEach_nil_iff.mp hopen)

/-! ## Text of the state client -/

/-- The result comes from the call within `events`; with text of the state client it is
contained. -/
def ResultOf (lib : PlannerLib) (planner : LlmPlanner) (intent : String)
    (events : List PlannerCall) (call : ToolCall) (result : ToolResultBlock) : Prop :=
  ∃ own, own <:+: events ∧ Trace (performCall lib planner intent call) own (.ret (.ok result)) ∧
    ((∃ event ∈ own, AsksClient event.op) → Contained result.content.toList)

theorem ResultOf.within {events' : List PlannerCall} {call : ToolCall}
    {result : ToolResultBlock} (h : ResultOf lib planner intent events call result)
    (hwithin : events <:+: events') : ResultOf lib planner intent events' call result := by
  obtain ⟨own, hown, htrace, hcontained⟩ := h
  exact ⟨own, hown.trans hwithin, htrace, hcontained⟩

/-- The results in a message of the planner are, one by one, those of the calls of the
message before it, which are `pending`. -/
def ResultsContained (resultOf : ToolCall → ToolResultBlock → Prop) :
    List ToolCall → List Message → Prop
  | _, [] => True
  | pending, message :: messages =>
    (message.role = .user → message.results ≠ [] →
      List.Forall₂ resultOf pending message.results) ∧
    ResultsContained resultOf message.calls messages

theorem Batch.resultOf {calls : List ToolCall} {results : List ToolResultBlock}
    (h : Batch lib planner intent calls events (.ok results)) :
    List.Forall₂ (ResultOf lib planner intent events) calls results := by
  generalize hout : Except.ok results = out at h
  induction h generalizing results with
  | nil =>
    cases hout
    exact .nil
  | stop => cases hout
  | next answered following ih =>
    rename_i call calls first rest result out
    cases out with
    | error outcome => cases hout
    | ok others =>
      cases hout
      refine .cons ?_ ((ih rfl).imp fun call result hresult => ?_)
      · exact ⟨first, (List.prefix_append _ _).isInfix, answered, (performCall_result answered).2⟩
      · exact hresult.within (List.suffix_append _ _).isInfix

theorem GoesOn.resultOf {round : PlanRound} (h : GoesOn lib planner intent round events)
    (hresults : round.reply.results ≠ []) :
    List.Forall₂ (ResultOf lib planner intent events) round.completion.calls
      round.reply.results := by
  cases h with
  | corrected => exact absurd rfl hresults
  | answered reason calls =>
    rw [results_toolResults]
    exact calls.resultOf

theorem Rounds.resultsContained {rounds : List PlanRound} {all : List PlannerCall}
    (h : Rounds lib planner intent system messages rounds events) (hwithin : events <:+: all) :
    ResultsContained (ResultOf lib planner intent all) []
      (rounds.flatMap PlanRound.messages) := by
  induction h with
  | nil => trivial
  | cons turn following ih =>
    rename_i round rounds first rest
    have hreply : round.reply.calls = [] := by rw [Message.calls, turn.reply_user]
    have hboth : first ++ rest <:+: all := (List.suffix_append _ _).isInfix.trans hwithin
    have hfirst : first <:+: all := (List.prefix_append _ _).isInfix.trans hboth
    have hrest : rest <:+: all := (List.suffix_append _ _).isInfix.trans hboth
    rw [List.flatMap_cons]
    refine ⟨nofun, fun _ hresults => ?_, ?_⟩
    · exact (turn.resultOf hresults).imp fun call result hresult => hresult.within hfirst
    · rw [hreply]
      exact ih hrest

/-- Text of the state client stands in its envelope in every request. -/
theorem client_text_contained
    (h : Sends lib planner intent events system messages) :
    ResultsContained (ResultOf lib planner (trimmed intent) events) [] messages := by
  obtain ⟨front, rounds, rest, rfl, -, hrounds, rfl⟩ := h.rounds
  refine ⟨fun _ hresults => absurd rfl hresults, ?_⟩
  exact hrounds.resultsContained ⟨front, [⟨.emit .thinking, ()⟩], by rw [List.append_assoc]⟩

theorem client_text_contained_whoAmI :
    ResultsContained
      (ResultOf plainLib plainPlanner (trimmed "show disks")
        (whoAmITurn ++ [⟨.emit .thinking, ()⟩])) []
      [.userText "show disks", whoAmI.message, .toolResults [whoAmIResult]] :=
  client_text_contained whoAmI_sends

end History

end Sysknife
