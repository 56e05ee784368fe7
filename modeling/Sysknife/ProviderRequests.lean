import Sysknife.Lib.Dialogue
import Sysknife.PlannerHistory

/-!
# The requests of the adapters

Each adapter turns the planner's conversation into the messages of its client library. A
provider takes the request only if each tool call of an assistant message is answered right
behind it; what the model has said before is there as it said it.
-/

namespace Sysknife

open Dialogue Interaction

/-! ## The adapter for async-openai -/

structure OpenaiFunctionCall where
  id : String
  name : String
  arguments : String

/-- `ChatCompletionRequestMessage`, as far as it is made. -/
inductive OpenaiMessage where
  | system (content : String)
  | user (content : String)
  | tool (content toolCallId : String)
  | assistant (content : Option String) (toolCalls : Option (List OpenaiFunctionCall))

def ContentBlock.textOf : ContentBlock → Option String
  | .text s => some s
  | _ => none

/-- All blocks are tool results, and there is one. -/
def allResults (content : List ContentBlock) : Bool :=
  !content.isEmpty && content.all fun block => block.result.isSome

def ToolResultBlock.text (result : ToolResultBlock) : String :=
  if result.isError then "[TOOL ERROR] " ++ result.content else result.content

def joinedText (content : List ContentBlock) : String :=
  "\n".intercalate (content.filterMap ContentBlock.textOf)

def openaiUser (content : List ContentBlock) : List OpenaiMessage :=
  if allResults content then
    (content.filterMap ContentBlock.result).map fun result => .tool result.text result.toolUseId
  else [.user (joinedText content)]

def ToolCall.openai (call : ToolCall) : OpenaiFunctionCall :=
  ⟨call.id, call.name, String.ofList (compact call.input)⟩

def emptyAssistantText (position : Nat) : String :=
  "assistant message at history position " ++ toString position ++
    " has no text and no tool calls — this indicates a conversation history bug"

def openaiAssistantMessage (content : List ContentBlock) : OpenaiMessage :=
  let textParts := content.filterMap ContentBlock.textOf
  let toolCalls := (content.filterMap ContentBlock.toolCall).map ToolCall.openai
  .assistant (if textParts.isEmpty then none else some ("\n".intercalate textParts))
    (if toolCalls.isEmpty then none else some toolCalls)

/-- No text and no tool call. -/
def silent (content : List ContentBlock) : Bool :=
  (content.filterMap ContentBlock.textOf).isEmpty &&
    (content.filterMap ContentBlock.toolCall).isEmpty

def openaiAssistant (position : Nat) (content : List ContentBlock) :
    Except String OpenaiMessage :=
  if silent content then .error (emptyAssistantText position)
  else .ok (openaiAssistantMessage content)

/-- The loop of `to_openai_messages`. -/
def openaiMessages : List OpenaiMessage → List Message → Except String (List OpenaiMessage)
  | result, [] => .ok result
  | result, ⟨.user, content⟩ :: messages => openaiMessages (result ++ openaiUser content) messages
  | result, ⟨.assistant, content⟩ :: messages => do
    let message ← openaiAssistant result.length content
    openaiMessages (result ++ [message]) messages

def toOpenaiMessages (system : String) (messages : List Message) :
    Except String (List OpenaiMessage) :=
  openaiMessages [.system system] messages

/-! ## The adapter for Rig -/

inductive RigUserContent where
  | text (text : String)
  | toolResult (id : String) (callId : Option String) (content : String)

inductive RigMessage where
  | system (content : String)
  | user (content : List RigUserContent)
  | assistant (content : List AssistantContent)

def ToolResultBlock.rig (result : ToolResultBlock) : RigUserContent :=
  .toolResult result.toolUseId (some (result.callId.getD result.toolUseId)) result.text

/-- A message without content is not sent. -/
def rigUser (content : List ContentBlock) : List RigMessage :=
  if allResults content then
    let toolResults := (content.filterMap ContentBlock.result).map ToolResultBlock.rig
    if toolResults.isEmpty then [] else [.user toolResults]
  else [.user [.text (joinedText content)]]

def ContentBlock.rig : ContentBlock → Option AssistantContent
  | .text s => some (.text s)
  | .toolUse id callId name input => some (.toolCall id (some (callId.getD id)) name input)
  | .toolResult .. => none

def rigAssistant (content : List ContentBlock) : List RigMessage :=
  let assistantContent := content.filterMap ContentBlock.rig
  if assistantContent.isEmpty then [] else [.assistant assistantContent]

def rigMessage (message : Message) : List RigMessage :=
  match message.role with
  | .user => rigUser message.content
  | .assistant => rigAssistant message.content

def toRigMessages (system : String) (messages : List Message) : List RigMessage :=
  .system system :: messages.flatMap rigMessage

/-! ## What a provider checks -/

/-- A message as the calls it makes and answers, by their `tool_call_id`. -/
def OpenaiMessage.turn : OpenaiMessage → Utterance String
  | .system _ => .speaks
  | .user _ => .speaks
  | .tool _ toolCallId => .answers toolCallId
  | .assistant _ toolCalls => .asks ((toolCalls.getD []).map OpenaiFunctionCall.id)

def RigUserContent.turn : RigUserContent → Utterance String
  | .text _ => .speaks
  | .toolResult id callId _ => .answers (callId.getD id)

def AssistantContent.key : AssistantContent → Option String
  | .toolCall id callId _ _ => some (callId.getD id)
  | _ => none

/-- The same by the `call_id`. -/
def RigMessage.turns : RigMessage → List (Utterance String)
  | .system _ => [.speaks]
  | .user content => content.map RigUserContent.turn
  | .assistant content => [.asks (content.filterMap AssistantContent.key)]

/-! ## The conversation of the planner as a dialogue -/

section Turns
variable (f : String × Option String → String)

def Message.turns (message : Message) : List (Utterance String) :=
  match message.role with
  | .assistant => [.asks (message.calls.map fun call => f call.key)]
  | .user =>
    if allResults message.content then message.results.map fun result => .answers (f result.key)
    else [.speaks]

/-- `Answerable`, with the identifiers that the provider compares. -/
structure AnswerableBy (completion : Completion) : Prop where
  reason : completion.stopReason = .endTurn → completion.calls = []
  distinct : (completion.calls.map fun call => f call.key).Nodup

theorem round_turns (round : PlanRound) : round.messages.flatMap (Message.turns f) =
    .asks (round.completion.calls.map fun call => f call.key) :: round.reply.turns f := by
  rw [PlanRound.messages, List.flatMap_cons, List.flatMap_singleton]
  rfl

theorem userText_turns (text : String) : (Message.userText text).turns f = [.speaks] := rfl

theorem toolResults_turns (results : List ToolResultBlock) :
    (Message.toolResults results).turns f = if results.isEmpty then [.speaks] else
      results.map fun result => .answers (f result.key) := by
  have hall : allResults (Message.toolResults results).content = !results.isEmpty := by
    cases results with
    | nil => rfl
    | cons result results => simp [allResults, Message.toolResults, ContentBlock.result]
  have hturns : (Message.toolResults results).turns f =
      if allResults (Message.toolResults results).content then
        (Message.toolResults results).results.map fun result => .answers (f result.key)
      else [.speaks] := rfl
  rw [hturns, hall, results_toolResults]
  cases results <;> rfl

variable {f} {lib : PlannerLib} {planner : LlmPlanner} {intent : String} {system : List Char}
  {messages : List Message} {events : List PlannerCall}

theorem corrected_settles_iff {completion : Completion} (reason : completion.stopReason = .endTurn)
    (turns : List (Utterance String)) :
    Settles (.asks (completion.calls.map fun call => f call.key) :: .speaks :: turns) ↔
      AnswerableBy f completion ∧ Settles turns := by
  rw [settles_unanswered, List.map_eq_nil_iff]
  refine and_congr_left fun _ => ⟨fun hcalls => ⟨fun _ => hcalls, ?_⟩, fun h => h.reason reason⟩
  rw [hcalls]
  exact List.nodup_nil

theorem answered_settles_iff {completion : Completion} {results : List ToolResultBlock}
    (reason : completion.stopReason = .toolUse)
    (calls : Batch lib planner intent completion.calls events (.ok results))
    (turns : List (Utterance String)) :
    Settles (.asks (completion.calls.map fun call => f call.key) ::
        ((Message.toolResults results).turns f ++ turns)) ↔
      AnswerableBy f completion ∧ Settles turns := by
  have hkeys : results.map (fun result => f result.key) =
      completion.calls.map fun call => f call.key := by
    have hmap := congrArg (List.map f) calls.keys
    rw [List.map_map, List.map_map] at hmap
    exact hmap
  have hanswerable : AnswerableBy f completion ↔
      (completion.calls.map fun call => f call.key).Nodup := by
    refine ⟨fun h => h.distinct, fun h => ⟨fun hend => ?_, h⟩⟩
    cases reason.symm.trans hend
  rw [hanswerable, ← hkeys, toolResults_turns]
  cases results with
  | nil =>
    -- no call, and a message without results
    rw [List.map_nil, List.isEmpty_nil, if_pos rfl, List.singleton_append, settles_unanswered]
    exact and_congr_left fun _ => iff_of_true rfl List.nodup_nil
  | cons result results =>
    rw [List.isEmpty_cons, if_neg Bool.false_ne_true, ← settles_answered, List.map_map]
    rfl

/-- A round is settled exactly if its response can be answered. -/
theorem GoesOn.settles_iff {round : PlanRound} (h : GoesOn lib planner intent round events)
    (turns : List (Utterance String)) :
    Settles (round.messages.flatMap (Message.turns f) ++ turns) ↔
      AnswerableBy f round.completion ∧ Settles turns := by
  rw [round_turns, List.cons_append]
  cases h with
  | corrected reason => exact corrected_settles_iff reason turns
  | answered reason calls => exact answered_settles_iff reason calls turns

theorem Rounds.settles_iff {rounds : List PlanRound}
    (h : Rounds lib planner intent system messages rounds events) :
    Settles ((rounds.flatMap PlanRound.messages).flatMap (Message.turns f)) ↔
      ∀ round ∈ rounds, AnswerableBy f round.completion := by
  induction h with
  | nil => exact iff_of_true rfl fun _ hround => (List.not_mem_nil hround).elim
  | cons turn following ih =>
    rw [List.flatMap_cons, List.flatMap_append, turn.settles_iff, ih, List.forall_mem_cons]

end Turns

/-! ## What async-openai is given -/

def OpenaiMessage.isAssistant : OpenaiMessage → Bool
  | .assistant .. => true
  | _ => false

def OpenaiChoice.functionCalls (choice : OpenaiChoice) : List OpenaiFunctionCall :=
  (choice.toolCalls.getD []).filterMap fun
    | .function id name arguments => some ⟨id, name, arguments⟩
    | .custom => none

/-- The same call, its arguments read and written again. -/
structure SameCall (parseJson : String → Except String Json) (given sent : OpenaiFunctionCall) :
    Prop where
  id : sent.id = given.id
  name : sent.name = given.name
  arguments : ∃ input, parseJson given.arguments = .ok input ∧
    sent.arguments = String.ofList (compact input)

/-- The message says what the model has said: the text and the function calls of the first
choice. -/
def OpenaiEcho (parseJson : String → Except String Json) (choices : List OpenaiChoice)
    (message : OpenaiMessage) : Prop :=
  ∃ choice rest calls, choices = choice :: rest ∧
    message = .assistant (choice.content.filter fun s => s != "")
      (if calls.isEmpty then none else some calls) ∧
    List.Forall₂ (SameCall parseJson) choice.functionCalls calls

section Openai
variable {parseJson : String → Except String Json} {debug : String → String}

/-- A message of the conversation on its own. -/
def openaiMessage (message : Message) : List OpenaiMessage :=
  match message.role with
  | .user => openaiUser message.content
  | .assistant => [openaiAssistantMessage message.content]

theorem openaiMessages_eq {messages : List Message} (result : List OpenaiMessage)
    (h : ∀ message ∈ messages, message.role = .assistant → silent message.content = false) :
    openaiMessages result messages = .ok (result ++ messages.flatMap openaiMessage) := by
  induction messages generalizing result with
  | nil =>
    rw [List.flatMap_nil, List.append_nil]
    rfl
  | cons message messages ih =>
    obtain ⟨role, content⟩ := message
    rw [List.forall_mem_cons] at h
    rw [List.flatMap_cons, ← List.append_assoc]
    cases role with
    | user => exact ih _ h.2
    | assistant =>
      have hspeaks : openaiAssistant result.length content = .ok (openaiAssistantMessage content) :=
        if_neg (by rw [h.1 rfl]; exact Bool.false_ne_true)
      rw [openaiMessages, hspeaks]
      exact ih _ h.2

theorem openaiMessage_turns (message : Message) :
    (openaiMessage message).map OpenaiMessage.turn = message.turns Prod.fst := by
  obtain ⟨role, content⟩ := message
  cases role with
  | user =>
    show (openaiUser content).map OpenaiMessage.turn = if _ then _ else _
    unfold openaiUser
    split
    · rw [List.map_map]
      rfl
    · rfl
  | assistant =>
    show [Utterance.asks _] = [Utterance.asks _]
    congr 2
    cases hcalls : content.filterMap ContentBlock.toolCall with
    | nil => simp [Message.calls, hcalls]
    | cons call calls => simp [Message.calls, hcalls, ToolCall.openai, ToolCall.key]

theorem openaiMessage_assistants (message : Message) :
    (openaiMessage message).filter OpenaiMessage.isAssistant =
      match message.role with
      | .user => []
      | .assistant => [openaiAssistantMessage message.content] := by
  obtain ⟨role, content⟩ := message
  cases role with
  | user =>
    show (openaiUser content).filter _ = []
    unfold openaiUser
    split
    · refine List.filter_eq_nil_iff.mpr fun sent hsent => ?_
      obtain ⟨result, -, rfl⟩ := List.mem_map.mp hsent
      exact Bool.false_ne_true
    · rfl
  | assistant => rfl

def ToolCall.block (call : ToolCall) : ContentBlock :=
  .toolUse call.id call.callId call.name call.input

theorem openaiToolUses_ok {toolCalls : List OpenaiToolCall} {blocks : List ContentBlock}
    (h : openaiToolUses parseJson debug toolCalls = .ok blocks) :
    ∃ calls : List ToolCall, blocks = calls.map ToolCall.block ∧
      List.Forall₂ (SameCall parseJson)
        (OpenaiChoice.functionCalls ⟨none, none, some toolCalls⟩) (calls.map ToolCall.openai) := by
  induction toolCalls generalizing blocks with
  | nil =>
    cases h
    exact ⟨[], rfl, .nil⟩
  | cons toolCall toolCalls ih =>
    cases toolCall with
    | custom => exact ih h
    | function id name arguments =>
      rw [openaiToolUses, openaiToolUse] at h
      cases hparse : parseJson arguments with
      | error e =>
        rw [hparse] at h
        cases h
      | ok input =>
        rw [hparse] at h
        cases hrest : openaiToolUses parseJson debug toolCalls with
        | error e =>
          rw [hrest] at h
          cases h
        | ok rest =>
          rw [hrest] at h
          cases h
          obtain ⟨calls, rfl, hsame⟩ := ih hrest
          exact ⟨⟨id, none, name, input⟩ :: calls, rfl, .cons ⟨rfl, rfl, input, hparse, rfl⟩ hsame⟩

theorem textBlock_eq (said : Option String) :
    said.elim [] textBlock = ((said.filter fun s => s != "").map ContentBlock.text).toList := by
  cases said with
  | none => rfl
  | some text =>
    by_cases htext : text = ""
    · subst htext
      rfl
    · have hkept : (some text).filter (fun s => s != "") = some text :=
        Option.filter_some_pos (bne_iff_ne.mpr htext)
      rw [hkept, Option.elim_some, textBlock, if_neg htext]
      rfl

/-- The text and the calls of a response. -/
theorem content_parts (said : Option String) (calls : List ToolCall) :
    ((said.map ContentBlock.text).toList ++ calls.map ToolCall.block).filterMap
        ContentBlock.textOf = said.toList ∧
      ((said.map ContentBlock.text).toList ++ calls.map ToolCall.block).filterMap
        ContentBlock.toolCall = calls := by
  have hnotext : (calls.map ToolCall.block).filterMap ContentBlock.textOf = [] := by
    rw [List.filterMap_map]
    exact List.filterMap_eq_nil_iff.mpr fun _ _ => rfl
  have hcalls : (calls.map ToolCall.block).filterMap ContentBlock.toolCall = calls := by
    rw [List.filterMap_map]
    exact List.filterMap_some
  rw [List.filterMap_append, List.filterMap_append, hnotext, hcalls, List.append_nil]
  cases said <;> exact ⟨rfl, rfl⟩

/-- What was said and called is what the message says and calls. -/
theorem openaiAssistantMessage_parts (said : Option String) (calls : List ToolCall)
    (h : ((said.map ContentBlock.text).toList ++ calls.map ToolCall.block).isEmpty = false) :
    silent ((said.map ContentBlock.text).toList ++ calls.map ToolCall.block) = false ∧
      openaiAssistantMessage ((said.map ContentBlock.text).toList ++ calls.map ToolCall.block) =
        .assistant said (if (calls.map ToolCall.openai).isEmpty then none else
          some (calls.map ToolCall.openai)) := by
  obtain ⟨htexts, hcalls⟩ := content_parts said calls
  unfold silent openaiAssistantMessage
  rw [htexts, hcalls]
  cases said with
  | some text => exact ⟨rfl, rfl⟩
  | none =>
    cases calls with
    | nil => cases h
    | cons call calls => exact ⟨rfl, rfl⟩

/-- What the model has said goes back as it was. -/
theorem openai_echo {choices : List OpenaiChoice} {completion : Completion}
    (h : fromOpenaiResponse parseJson debug choices = .ok completion) :
    silent completion.content = false ∧
      OpenaiEcho parseJson choices (openaiAssistantMessage completion.content) := by
  cases choices with
  | nil => cases h
  | cons choice choices =>
    rw [fromOpenaiResponse] at h
    split at h
    · cases h
    · cases huses : openaiToolUses parseJson debug (choice.toolCalls.getD []) with
      | error e =>
        rw [huses] at h
        cases h
      | ok blocks =>
        rw [huses] at h
        change (if _ then _ else _) = _ at h
        split at h
        · cases h
        next hcontent =>
          cases h
          obtain ⟨calls, rfl, hsame⟩ := openaiToolUses_ok huses
          rw [textBlock_eq] at hcontent ⊢
          obtain ⟨hspeaks, hmessage⟩ := openaiAssistantMessage_parts _ calls
            (Bool.eq_false_iff.mpr hcontent)
          exact ⟨hspeaks, choice, choices, calls.map ToolCall.openai, rfl, hmessage, hsame⟩

end Openai

/-! ## What Rig is given -/

def RigMessage.isAssistant : RigMessage → Bool
  | .assistant _ => true
  | _ => false

/-- A part of a response as it goes back. -/
def AssistantContent.echo : AssistantContent → Option AssistantContent
  | .text s => if s = "" then none else some (.text s)
  | .toolCall id callId name arguments =>
    some (.toolCall id (some ((callId.filter fun s => s != "").getD id)) name arguments)
  | .reasoning => none
  | .image => none

section Rig

theorem allResults_ne_nil {content : List ContentBlock} (h : allResults content = true) :
    content.filterMap ContentBlock.result ≠ [] := by
  cases content with
  | nil => cases h
  | cons block content =>
    have hblock : block.result.isSome = true := by
      simp only [allResults, List.isEmpty_cons, Bool.not_false, Bool.true_and, List.all_cons,
        Bool.and_eq_true] at h
      exact h.1
    obtain ⟨result, hresult⟩ := Option.isSome_iff_exists.mp hblock
    rw [List.filterMap_cons_some hresult]
    exact List.cons_ne_nil _ _

theorem rig_keys (content : List ContentBlock) :
    (content.filterMap ContentBlock.rig).filterMap AssistantContent.key =
      (content.filterMap ContentBlock.toolCall).map fun call => call.key.2.getD call.key.1 := by
  rw [List.filterMap_filterMap, List.map_filterMap]
  refine List.filterMap_congr fun block _ => ?_
  cases block <;> rfl

theorem rigMessage_turns {message : Message}
    (h : message.role = .assistant → message.content.filterMap ContentBlock.rig ≠ []) :
    (rigMessage message).flatMap RigMessage.turns =
      message.turns fun key => key.2.getD key.1 := by
  obtain ⟨role, content⟩ := message
  cases role with
  | user =>
    show (rigUser content).flatMap RigMessage.turns = if _ then _ else _
    unfold rigUser
    split
    next hall =>
      dsimp only
      rw [List.isEmpty_map, List.isEmpty_eq_false_iff.mpr (allResults_ne_nil hall),
        if_neg Bool.false_ne_true, List.flatMap_singleton, RigMessage.turns, List.map_map]
      rfl
    · rfl
  | assistant =>
    show (rigAssistant content).flatMap RigMessage.turns = [.asks _]
    unfold rigAssistant
    dsimp only
    rw [List.isEmpty_eq_false_iff.mpr (h rfl), if_neg Bool.false_ne_true, List.flatMap_singleton,
      RigMessage.turns, rig_keys]
    rfl

theorem rigBlocks_rig (item : AssistantContent) :
    (rigBlocks item).filterMap ContentBlock.rig = item.echo.toList := by
  cases item with
  | text s =>
    show (textBlock s).filterMap ContentBlock.rig = (if s = "" then none else some _).toList
    unfold textBlock
    split <;> rfl
  | toolCall id callId name arguments => rfl
  | reasoning | image => rfl

theorem rigMessage_assistants {message : Message} :
    (rigMessage message).filter RigMessage.isAssistant =
      match message.role with
      | .user => []
      | .assistant => rigAssistant message.content := by
  obtain ⟨role, content⟩ := message
  cases role with
  | user =>
    show (rigUser content).filter _ = []
    unfold rigUser
    split
    · dsimp only
      split <;> rfl
    · rfl
  | assistant =>
    show (rigAssistant content).filter _ = rigAssistant content
    unfold rigAssistant
    dsimp only
    split <;> rfl

/-- What the model has said goes back but for what is never shown to the planner. -/
theorem rig_echo {choice : List AssistantContent} {completion : Completion}
    (h : fromRigResponse choice = .ok completion) (hchoice : choice ≠ []) :
    completion.content.filterMap ContentBlock.rig = choice.filterMap AssistantContent.echo ∧
      completion.content.filterMap ContentBlock.rig ≠ [] := by
  rw [fromRigResponse] at h
  split at h
  · cases h
  next hcontent =>
    cases h
    have hspoken : Spoken (choice.flatMap rigBlocks) := by
      intro block hblock
      obtain ⟨item, -, hblock⟩ := List.mem_flatMap.mp hblock
      exact rigBlocks_spoken item block hblock
    have hecho : (choice.flatMap rigBlocks).filterMap ContentBlock.rig =
        choice.filterMap AssistantContent.echo := by
      rw [List.filterMap_flatMap, List.filterMap_eq_flatMap_toList]
      exact List.flatMap_congr fun item _ => rigBlocks_rig item
    refine ⟨hecho, fun hnone => ?_⟩
    have hall := List.filterMap_eq_nil_iff.mp hnone
    cases hblocks : choice.flatMap rigBlocks with
    | nil => simp [hblocks, hchoice] at hcontent
    | cons block blocks =>
      have hmem : block ∈ choice.flatMap rigBlocks := by
        rw [hblocks]
        exact List.mem_cons_self
      have hrig := hall block hmem
      have hresult := hspoken block hmem
      cases block with
      | text s => cases hrig
      | toolUse => cases hrig
      | toolResult => cases hresult

end Rig

/-! ## The requests of a run -/

section Run
variable {lib : PlannerLib} {planner : LlmPlanner} {intent : String} {system : List Char}
  {messages : List Message} {events : List PlannerCall}

/-- A request is the intent and the rounds so far, each response in its place. -/
structure Transcript (intent : String) (events : List PlannerCall) (rounds : List PlanRound)
    (messages : List Message) : Prop where
  messages_eq : messages = .userText (trimmed intent) :: rounds.flatMap PlanRound.messages
  completions_eq : completions events = rounds.map PlanRound.completion
  replies : ∀ round ∈ rounds, round.reply.role = .user
  settles_iff : ∀ f : String × Option String → String,
    Settles (messages.flatMap (Message.turns f)) ↔
      ∀ round ∈ rounds, AnswerableBy f round.completion

theorem completions_append (first rest : List PlannerCall) :
    completions (first ++ rest) = completions first ++ completions rest :=
  List.filterMap_append ..

theorem Rounds.replies {rounds : List PlanRound}
    (h : Rounds lib planner intent system messages rounds events) :
    ∀ round ∈ rounds, round.reply.role = .user := by
  induction h with
  | nil => exact fun _ hround => (List.not_mem_nil hround).elim
  | cons turn following ih => exact List.forall_mem_cons.mpr ⟨turn.reply_user, ih⟩

theorem Sends.transcript (h : Sends lib planner intent events system messages) :
    ∃ rounds, Transcript intent events rounds messages := by
  obtain ⟨front, rounds, rest, rfl, hfront, hrounds, rfl⟩ := h.rounds
  refine ⟨rounds, rfl, ?_, hrounds.replies, fun f => ?_⟩
  · have hlast : completions [⟨.emit .thinking, ()⟩] = [] := rfl
    rw [completions_append, completions_append, completions_opening hfront, hlast,
      List.append_nil, List.nil_append]
    exact hrounds.completions_eq
  · rw [List.flatMap_cons, userText_turns, List.singleton_append, settles_speaks]
    exact hrounds.settles_iff

theorem openai_assistants {rounds : List PlanRound}
    (hreplies : ∀ round ∈ rounds, round.reply.role = .user) :
    ((rounds.flatMap PlanRound.messages).flatMap openaiMessage).filter
        OpenaiMessage.isAssistant =
      rounds.map fun round => openaiAssistantMessage round.completion.content := by
  induction rounds with
  | nil => rfl
  | cons round rounds ih =>
    rw [List.forall_mem_cons] at hreplies
    have hround : (round.messages.flatMap openaiMessage).filter OpenaiMessage.isAssistant =
        [openaiAssistantMessage round.completion.content] := by
      rw [PlanRound.messages, List.flatMap_cons, List.flatMap_singleton, List.filter_append,
        openaiMessage_assistants, openaiMessage_assistants, hreplies.1]
      rfl
    rw [List.flatMap_cons, List.flatMap_append, List.filter_append, hround, ih hreplies.2]
    rfl

theorem rig_assistants {rounds : List PlanRound}
    (hreplies : ∀ round ∈ rounds, round.reply.role = .user) :
    ((rounds.flatMap PlanRound.messages).flatMap rigMessage).filter RigMessage.isAssistant =
      rounds.flatMap fun round => rigAssistant round.completion.content := by
  induction rounds with
  | nil => rfl
  | cons round rounds ih =>
    rw [List.forall_mem_cons] at hreplies
    have hround : (round.messages.flatMap rigMessage).filter RigMessage.isAssistant =
        rigAssistant round.completion.content := by
      rw [PlanRound.messages, List.flatMap_cons, List.flatMap_singleton, List.filter_append,
        rigMessage_assistants, rigMessage_assistants, hreplies.1]
      exact List.append_nil _
    rw [List.flatMap_cons, List.flatMap_append, List.filter_append, hround, ih hreplies.2]
    rfl

theorem exists_of_forall₂ {α β : Type} {R : α → β → Prop} {as : List α} {bs : List β}
    (h : List.Forall₂ R as bs) : ∀ b ∈ bs, ∃ a ∈ as, R a b := by
  induction h with
  | nil => exact fun _ hb => (List.not_mem_nil hb).elim
  | cons hab _ ih =>
    refine List.forall_mem_cons.mpr ⟨⟨_, List.mem_cons_self, hab⟩, fun b hb => ?_⟩
    obtain ⟨a, ha, hab⟩ := ih b hb
    exact ⟨a, List.mem_cons_of_mem _ ha, hab⟩

/-- A response in a conversation is one that a round had. -/
theorem assistant_of_rounds {rounds : List PlanRound}
    (hreplies : ∀ round ∈ rounds, round.reply.role = .user) {message : Message}
    (hmessage : message ∈ rounds.flatMap PlanRound.messages) (hrole : message.role = .assistant) :
    ∃ round ∈ rounds, message = round.completion.message := by
  obtain ⟨round, hround, hmessage⟩ := List.mem_flatMap.mp hmessage
  rcases List.mem_pair.mp hmessage with rfl | rfl
  · exact ⟨round, hround, rfl⟩
  · rw [hreplies round hround] at hrole
    cases hrole

/-- Whenever a run of the planner sends a request through async-openai, the conversation is
one that the adapter takes, each response so far stands in it as the model gave it, with the
arguments of its calls printed again from the values they parse to, and every call in it is
answered right behind it exactly if each response had a stop reason for its calls and no
identifier twice. -/
theorem openai_requests_settled_iff (h : Sends lib planner intent events system messages)
    (responses : List (List OpenaiChoice))
    (hresponses : List.Forall₂ (fun choices completion =>
      fromOpenaiResponse lib.parseJson lib.debugStr choices = .ok completion) responses
      (completions events)) :
    ∃ wire, toOpenaiMessages (String.ofList system) messages =
        .ok (.system (String.ofList system) :: .user (trimmed intent) :: wire) ∧
      List.Forall₂ (OpenaiEcho lib.parseJson) responses (wire.filter OpenaiMessage.isAssistant) ∧
      (Settles (wire.map OpenaiMessage.turn) ↔
        ∀ completion ∈ completions events, AnswerableBy Prod.fst completion) := by
  obtain ⟨rounds, htranscript⟩ := h.transcript
  obtain ⟨rfl, hcompletions, hreplies, hsettles⟩ := htranscript
  rw [hcompletions] at hresponses ⊢
  refine ⟨(rounds.flatMap PlanRound.messages).flatMap openaiMessage, ?_, ?_, ?_⟩
  · have hspeaks : ∀ message ∈ Message.userText (trimmed intent) ::
        rounds.flatMap PlanRound.messages,
        message.role = .assistant → silent message.content = false := by
      intro message hmessage hrole
      rcases List.mem_cons.mp hmessage with rfl | hmessage
      · cases hrole
      · obtain ⟨round, hround, rfl⟩ := assistant_of_rounds hreplies hmessage hrole
        obtain ⟨choices, -, hanswer⟩ :=
          exists_of_forall₂ hresponses _ (List.mem_map_of_mem hround)
        exact (openai_echo hanswer).1
    rw [toOpenaiMessages, openaiMessages_eq _ hspeaks]
    rfl
  · rw [openai_assistants hreplies, List.forall₂_map_right_iff]
    rw [List.forall₂_map_right_iff] at hresponses
    exact hresponses.imp fun choices round hanswer => (openai_echo hanswer).2
  · rw [List.map_flatMap, List.forall_mem_map, ← hsettles, List.flatMap_cons, userText_turns,
      List.singleton_append, settles_speaks]
    simp only [openaiMessage_turns]

/-- The same of Rig, which never refuses a conversation. -/
theorem rig_requests_settled_iff (h : Sends lib planner intent events system messages)
    (responses : List (List AssistantContent)) (hnonempty : ∀ choice ∈ responses, choice ≠ [])
    (hresponses : List.Forall₂ (fun choice completion => fromRigResponse choice = .ok completion)
      responses (completions events)) :
    ∃ wire, toRigMessages (String.ofList system) messages =
        .system (String.ofList system) :: .user [.text (trimmed intent)] :: wire ∧
      wire.filter RigMessage.isAssistant = responses.map (fun choice =>
        .assistant (choice.filterMap AssistantContent.echo)) ∧
      (Settles (wire.flatMap RigMessage.turns) ↔ ∀ completion ∈ completions events,
        AnswerableBy (fun key => key.2.getD key.1) completion) := by
  obtain ⟨rounds, htranscript⟩ := h.transcript
  obtain ⟨rfl, hcompletions, hreplies, hsettles⟩ := htranscript
  rw [hcompletions, List.forall₂_map_right_iff] at hresponses
  refine ⟨(rounds.flatMap PlanRound.messages).flatMap rigMessage, rfl, ?_, ?_⟩
  · rw [rig_assistants hreplies]
    clear hreplies hsettles hcompletions h
    induction hresponses with
    | nil => rfl
    | cons hanswer _ ih =>
      rw [List.forall_mem_cons] at hnonempty
      obtain ⟨hecho, hsome⟩ := rig_echo hanswer hnonempty.1
      rw [List.flatMap_cons, List.map_cons, ih hnonempty.2, ← hecho, rigAssistant]
      rw [List.isEmpty_eq_false_iff.mpr hsome]
      rfl
  · rw [hcompletions, List.forall_mem_map, ← hsettles, List.flatMap_cons, userText_turns,
      List.singleton_append, settles_speaks, List.flatMap_assoc]
    have hturns : ∀ message ∈ rounds.flatMap PlanRound.messages,
        (rigMessage message).flatMap RigMessage.turns =
          message.turns fun key => key.2.getD key.1 := by
      intro message hmessage
      refine rigMessage_turns fun hrole => ?_
      obtain ⟨round, hround, rfl⟩ := assistant_of_rounds hreplies hmessage hrole
      obtain ⟨choice, hchoice, hanswer⟩ := exists_of_forall₂ hresponses round hround
      exact (rig_echo hanswer (hnonempty choice hchoice)).2
    rw [List.flatMap_congr hturns]

end Run

/-! ## One request of each -/

theorem openai_requests_settled_iff_whoAmI :
    ∃ wire, toOpenaiMessages (String.ofList plainSystem)
        [.userText "show disks", whoAmI.message, .toolResults [whoAmIResult]] =
          .ok (.system (String.ofList plainSystem) :: .user (trimmed "show disks") :: wire) ∧
      List.Forall₂ (OpenaiEcho plainLib.parseJson) [[whoAmIChoice]]
        (wire.filter OpenaiMessage.isAssistant) ∧
      (Settles (wire.map OpenaiMessage.turn) ↔
        ∀ completion ∈ completions (whoAmITurn ++ [⟨.emit .thinking, ()⟩]),
          AnswerableBy Prod.fst completion) :=
  openai_requests_settled_iff whoAmI_sends [[whoAmIChoice]] (.cons rfl .nil)

theorem rig_requests_settled_iff_whoAmI :
    ∃ wire, toRigMessages (String.ofList plainSystem)
        [.userText "show disks", whoAmI.message, .toolResults [whoAmIResult]] =
          .system (String.ofList plainSystem) :: .user [.text (trimmed "show disks")] :: wire ∧
      wire.filter RigMessage.isAssistant =
        [[AssistantContent.toolCall "call_1" none "query_current_user" (.object [])]].map
          (fun choice => .assistant (choice.filterMap AssistantContent.echo)) ∧
      (Settles (wire.flatMap RigMessage.turns) ↔
        ∀ completion ∈ completions (whoAmITurn ++ [⟨.emit .thinking, ()⟩]),
          AnswerableBy (fun key => key.2.getD key.1) completion) := by
  refine rig_requests_settled_iff whoAmI_sends
    [[.toolCall "call_1" none "query_current_user" (.object [])]] ?_ (.cons rfl .nil)
  intro choice hchoice
  rw [List.mem_singleton.mp hchoice]
  exact List.cons_ne_nil _ _

end Sysknife
