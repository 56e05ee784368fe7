import Sysknife.Json

/-!
# The language model

The planner's conversation and the answers of a provider, and the two adapters that
make an answer from the response of a client library.
-/

namespace Sysknife

inductive Role where
  | user | assistant
  deriving DecidableEq, Repr

inductive ContentBlock where
  | text (text : String)
  | toolUse (id : String) (callId : Option String) (name : String) (input : Json)
  | toolResult (toolUseId : String) (callId : Option String) (content : String) (isError : Bool)

structure Message where
  role : Role
  content : List ContentBlock

inductive StopReason where
  | endTurn | toolUse | maxTokens
  deriving DecidableEq, Repr

structure Completion where
  content : List ContentBlock
  stopReason : StopReason

inductive ProviderError where
  | http (status : Nat) (body : String)
  | auth (message : String)
  | rateLimit
  | parse (message : String)
  | request (message : String)

def ProviderError.text : ProviderError → String
  | .http status body => "http error " ++ toString status ++ ": " ++ body
  | .auth message => "authentication failed: " ++ message
  | .rateLimit => "rate limited"
  | .parse message => "invalid response: " ++ message
  | .request message => "request error: " ++ message

/-- A tool call of an assistant message. -/
structure ToolCall where
  id : String
  callId : Option String
  name : String
  input : Json

structure ToolResultBlock where
  toolUseId : String
  callId : Option String
  content : String
  isError : Bool

namespace ContentBlock

def isText : ContentBlock → Bool
  | .text _ => true
  | _ => false

def toolCall : ContentBlock → Option ToolCall
  | .toolUse id callId name input => some ⟨id, callId, name, input⟩
  | _ => none

def result : ContentBlock → Option ToolResultBlock
  | .toolResult toolUseId callId content isError => some ⟨toolUseId, callId, content, isError⟩
  | _ => none

end ContentBlock

namespace Message

def userText (text : String) : Message := ⟨.user, [.text text]⟩

def toolResults (results : List ToolResultBlock) : Message :=
  ⟨.user, results.map fun r => .toolResult r.toolUseId r.callId r.content r.isError⟩

/-- The tool calls of an assistant message. -/
def calls (message : Message) : List ToolCall :=
  match message.role with
  | .assistant => message.content.filterMap ContentBlock.toolCall
  | .user => []

/-- The tool results of a message. -/
def results (message : Message) : List ToolResultBlock :=
  message.content.filterMap ContentBlock.result

end Message

/-! ## The adapter for async-openai -/

inductive FinishReason where
  | stop | length | toolCalls | contentFilter | functionCall
  deriving DecidableEq, Repr

inductive OpenaiToolCall where
  | function (id name arguments : String)
  /-- A call of another kind, which is only reported. -/
  | custom

/-- `ChatChoice`, as far as it is read. -/
structure OpenaiChoice where
  finishReason : Option FinishReason
  content : Option String
  toolCalls : Option (List OpenaiToolCall)

section Openai

-- `parseJson` is `serde_json::from_str` with the text of its error, `debug` the text of a
-- string under `{:?}`
variable (parseJson : String → Except String Json) (debug : String → String)

def openaiToolUse (id name arguments : String) : Except ProviderError ContentBlock :=
  match parseJson arguments with
  | .ok input => .ok (.toolUse id none name input)
  | .error e => .error (.parse ("tool call '" ++ name ++ "' has invalid JSON arguments: " ++ e ++
      " — raw: " ++ debug arguments))

def openaiToolUses : List OpenaiToolCall → Except ProviderError (List ContentBlock)
  | [] => .ok []
  | .custom :: toolCalls => openaiToolUses toolCalls
  | .function id name arguments :: toolCalls => do
    let block ← openaiToolUse parseJson debug id name arguments
    let blocks ← openaiToolUses toolCalls
    .ok (block :: blocks)

def textBlock (text : String) : List ContentBlock := if text = "" then [] else [.text text]

def openaiStopReason : Option FinishReason → StopReason
  | some .toolCalls => .toolUse
  | some .length => .maxTokens
  | _ => .endTurn

/-- `from_openai_response`, of the choices of a response. -/
def fromOpenaiResponse : List OpenaiChoice → Except ProviderError Completion
  | [] => .error (.parse "response contained no choices")
  | choice :: _ =>
    if choice.finishReason = some .contentFilter then
      .error (.request ("OpenAI content filter blocked the response — " ++
        "the request was refused on content-policy grounds"))
    else do
      let blocks ← openaiToolUses parseJson debug (choice.toolCalls.getD [])
      let content := (choice.content.elim [] textBlock) ++ blocks
      if content.isEmpty then .error (.parse "model response contained no text or tool calls")
      else .ok ⟨content, openaiStopReason choice.finishReason⟩

end Openai

/-! ## The adapter for Rig -/

inductive AssistantContent where
  | text (text : String)
  | toolCall (id : String) (callId : Option String) (name : String) (arguments : Json)
  | reasoning
  | image

def AssistantContent.isToolCall : AssistantContent → Bool
  | .toolCall .. => true
  | _ => false

def rigBlocks : AssistantContent → List ContentBlock
  | .text text => textBlock text
  | .toolCall id callId name arguments =>
    [.toolUse id (callId.filter fun s => s != "") name arguments]
  | .reasoning | .image => []

def fromRigResponse (choice : List AssistantContent) : Except ProviderError Completion :=
  let content := choice.flatMap rigBlocks
  if content.isEmpty && !choice.isEmpty then
    .error (.parse ("model response contained only unsupported content types " ++
      "(reasoning/image); no text or tool calls found"))
  else .ok ⟨content, if choice.any AssistantContent.isToolCall then .toolUse else .endTurn⟩

/-- What a provider can answer through one of the adapters. -/
def FromAdapter (parseJson : String → Except String Json) (debug : String → String)
    (completion : Completion) : Prop :=
  (∃ choices, fromOpenaiResponse parseJson debug choices = .ok completion) ∨
    ∃ choice, fromRigResponse choice = .ok completion

/-! ## What the adapters make -/

/-- Text and tool calls, as an assistant message may have. -/
def Spoken (content : List ContentBlock) : Prop := ∀ block ∈ content, block.result = none

theorem textBlock_spoken (text : String) : Spoken (textBlock text) := by
  intro block hblock
  rw [textBlock] at hblock
  split at hblock
  · cases hblock
  · rw [List.mem_singleton.mp hblock]
    rfl

theorem openaiToolUses_spoken {parseJson : String → Except String Json} {debug : String → String}
    {toolCalls : List OpenaiToolCall} {blocks : List ContentBlock}
    (h : openaiToolUses parseJson debug toolCalls = .ok blocks) : Spoken blocks := by
  induction toolCalls generalizing blocks with
  | nil =>
    cases h
    exact fun _ hblock => by cases hblock
  | cons toolCall toolCalls ih =>
    cases toolCall with
    | custom => exact ih h
    | function id name arguments =>
      rw [openaiToolUses, openaiToolUse] at h
      cases hparse : parseJson arguments with
      | error e =>
        rw [hparse] at h
        cases h
      | ok input =>
        rw [hparse] at h
        cases hrest : openaiToolUses parseJson debug toolCalls with
        | error e =>
          rw [hrest] at h
          cases h
        | ok rest =>
          rw [hrest] at h
          cases h
          intro block hblock
          rcases List.mem_cons.mp hblock with rfl | hblock
          · rfl
          · exact ih hrest block hblock

theorem fromOpenaiResponse_spoken {parseJson : String → Except String Json}
    {debug : String → String} {choices : List OpenaiChoice} {completion : Completion}
    (h : fromOpenaiResponse parseJson debug choices = .ok completion) :
    Spoken completion.content := by
  cases choices with
  | nil => cases h
  | cons choice choices =>
    rw [fromOpenaiResponse] at h
    split at h
    · cases h
    · cases huses : openaiToolUses parseJson debug (choice.toolCalls.getD []) with
      | error e =>
        rw [huses] at h
        cases h
      | ok blocks =>
        rw [huses] at h
        change (if _ then _ else _) = _ at h
        split at h
        · cases h
        · cases h
          intro block hblock
          rcases List.mem_append.mp hblock with hblock | hblock
          · cases hcontent : choice.content with
            | none =>
              rw [hcontent] at hblock
              cases hblock
            | some text =>
              rw [hcontent] at hblock
              exact textBlock_spoken text block hblock
          · exact openaiToolUses_spoken huses block hblock

theorem rigBlocks_spoken (item : AssistantContent) : Spoken (rigBlocks item) := by
  cases item with
  | text text => exact textBlock_spoken text
  | toolCall id callId name arguments =>
    intro block hblock
    rw [List.mem_singleton.mp hblock]
    rfl
  | reasoning | image => exact fun _ hblock => by cases hblock

theorem FromAdapter.spoken {parseJson : String → Except String Json} {debug : String → String}
    {completion : Completion} (h : FromAdapter parseJson debug completion) :
    Spoken completion.content := by
  rcases h with ⟨choices, h⟩ | ⟨choice, h⟩
  · exact fromOpenaiResponse_spoken h
  · rw [fromRigResponse] at h
    split at h
    · cases h
    · cases h
      intro block hblock
      obtain ⟨item, -, hblock⟩ := List.mem_flatMap.mp hblock
      exact rigBlocks_spoken item block hblock

end Sysknife
