import Mathlib.Data.List.Forall2
import Sysknife.FreeText
import Sysknife.Planner
import Sysknife.ShellState

/-!
# The review of an execution

`review_execution` of the shell with `LlmPlanner::summarize`, as a program over the calls
that leave it. A result in the shell's own hands has the fields that its window has of it.
-/

namespace Sysknife

open Fallible Interaction

/-! ## The text of a result -/

inductive ReviewOp where
  | checkAndConsume
  /-- Without tools. -/
  | complete (system : String) (messages : List Message) (maxTokens : Nat)

def ReviewOp.Resp : ReviewOp → Type
  | .checkAndConsume => Except Nat Unit
  | .complete .. => Except ProviderError Completion

abbrev ReviewCallEvent := Event ReviewOp ReviewOp.Resp

def summarizationMaxTokens : Nat := 512

def summarizeSystem : String :=
  "You are a concise technical writer. Respond with a short plain-language summary. Do not " ++
    "use markdown formatting."

def ContentBlock.asText : ContentBlock → Option String
  | .text s => some s
  | _ => none

/-- The text blocks of an answer, one below the other. -/
def Completion.text (completion : Completion) : String :=
  String.intercalate "\n" (completion.content.filterMap ContentBlock.asText)

def Completion.summary (completion : Completion) : Except PlanningError String :=
  if completion.text = "" then .error .noPlanProposed else .ok completion.text

section Review
-- `lowercase` is `str::to_lowercase`
variable (lowercase : String → String) (rateLimiter : Bool)

end Review

/-! ## Cuts of lines -/

section Answers
variable {lowercase : String → String} {rateLimiter : Bool}

/-- The model was asked, and this is its text. -/
def ModelSummary (events : List ReviewCallEvent) (text : String) : Prop :=
  ∃ completion : Completion, completion.text = text ∧ ∃ prompt,
    (⟨.complete summarizeSystem [.userText prompt] summarizationMaxTokens, .ok completion⟩ :
      ReviewCallEvent) ∈ events

theorem ModelSummary.cons {events : List ReviewCallEvent} {text : String}
    (h : ModelSummary events text) (event : ReviewCallEvent) :
    ModelSummary (event :: events) text := by
  obtain ⟨completion, htext, prompt, hmem⟩ := h
  exact ⟨completion, htext, prompt, List.mem_cons_of_mem _ hmem⟩

end Answers

end Sysknife
