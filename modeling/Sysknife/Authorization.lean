import Sysknife.ActionTraits
import Sysknife.Replay

/-!
# Authorization of everything the daemon runs

The policy knows a role for each action, the executor a risk level for each
spec. They are kept in two tables; `risk_le_minRole` and `low_of_observer` are
all that has to hold between them.
-/

namespace Sysknife

open Interaction

/-! ## The two tables -/

/-- No spec is riskier than the role its action asks for. -/
theorem risk_le_minRole (action : ActionName) :
    roleRank (roleForRiskLevel (specTraits action).riskLevel) ≤ roleRank (minRoleFor action) := by
  cases action <;> decide

theorem low_of_observer {action : ActionName} (h : minRoleFor action = .observer) :
    (specTraits action).riskLevel = .low := by
  have hle := risk_le_minRole action
  rw [h] at hle
  generalize (specTraits action).riskLevel = riskLevel at hle ⊢
  cases riskLevel with
  | low => rfl
  | medium => exact absurd hle (by decide)
  | high => exact absurd hle (by decide)

/-- Only actions of an admin are rolled back, by a spec of the highest risk. -/
theorem rollback_risk_le_minRole {action : ActionName} {spec : ActionSpec}
    (h : rollbackFor action = some spec) :
    roleRank (roleForRiskLevel spec.riskLevel) ≤ roleRank (minRoleFor action) := by
  have hadmin : minRoleFor action = .admin := by
    revert h
    cases action <;> first | exact fun _ => rfl | exact fun h => by cases h
  rw [hadmin]
  cases spec.riskLevel <;> decide

/-! ## What the daemon runs -/

/-- The operation runs the spec. -/
def DaemonOp.Runs (spec : ActionSpec) : DaemonOp → Prop
  | .spawn program args => spec.mechanism = .command program args
  | .executeSpec other => other = spec
  | .execute other => other = spec
  | _ => False

/-- The caller may have the spec run for the action, as its own or as its
rollback. -/
structure MayExecute (config : DaemonConfig) (caller : CallerRole) (actionName : String)
    (params : Json) (spec : ActionSpec) : Prop where
  spec_of : buildActionSpec actionName params = .ok spec ∨ rollbackSpecFor actionName = some spec
  role : ∃ action, ActionName.ofText actionName = some action ∧
    config.riskOverrides.requiredRank action ≤ roleRank caller
  risk : roleRank (roleForRiskLevel spec.riskLevel) ≤ roleRank caller

/-- Anyone may have the spec run as a query. -/
structure MayQuery (config : DaemonConfig) (actionName : String) (params : Json)
    (spec : ActionSpec) : Prop where
  spec_of : buildActionSpec actionName params = .ok spec
  role : ∃ action, ActionName.ofText actionName = some action ∧
    config.riskOverrides.requiredRank action = roleRank .observer
  risk : spec.riskLevel = .low

section Tables
variable {crypto : Crypto} {config : DaemonConfig} {role : Nat → CallerRole}

theorem baseline_le_required (raw : RiskOverrides) (action : ActionName) :
    roleRank (minRoleFor action) ≤ raw.requiredRank action := Nat.le_max_left _ _

theorem Admitted.required_le {x : Execution} {spec : ActionSpec}
    (h : Admitted crypto config role x spec) :
    ActionName.ofText x.actionName = some spec.actionName ∧
      config.riskOverrides.requiredRank spec.actionName ≤ roleRank (role x.connection) := by
  obtain ⟨hname, -⟩ := buildActionSpec_written h.built
  exact ⟨hname, actionAllowed_rank config.policy_built hname h.allowed⟩

theorem Admitted.mayExecute {x : Execution} {spec : ActionSpec}
    (h : Admitted crypto config role x spec) :
    MayExecute config (role x.connection) x.actionName x.params spec := by
  obtain ⟨hname, hrank⟩ := h.required_le
  obtain ⟨-, htraits⟩ := buildActionSpec_written h.built
  refine ⟨Or.inl h.built, ⟨_, hname, hrank⟩, ?_⟩
  have hrisk := risk_le_minRole spec.actionName
  rw [← htraits] at hrisk
  exact hrisk.trans ((baseline_le_required _ _).trans hrank)

theorem Admitted.mayRollBack {x : Execution} {built spec : ActionSpec}
    (h : Admitted crypto config role x built) (hrb : rollbackSpecFor x.actionName = some spec) :
    MayExecute config (role x.connection) x.actionName x.params spec := by
  obtain ⟨hname, hrank⟩ := h.required_le
  refine ⟨Or.inr hrb, ⟨_, hname, hrank⟩, ?_⟩
  unfold rollbackSpecFor at hrb
  rw [hname] at hrb
  exact (rollback_risk_le_minRole hrb).trans ((baseline_le_required _ _).trans hrank)

theorem mayQuery {actionName : String} {params : Json} {spec : ActionSpec}
    (hrole : config.policy.minRoleForAction actionName = some .observer)
    (hspec : buildActionSpec actionName params = .ok spec) :
    MayQuery config actionName params spec := by
  obtain ⟨hname, htraits⟩ := buildActionSpec_written hspec
  obtain ⟨effective, heffective, hrank⟩ := minRoleForAction_rank config.policy_built hname
  obtain rfl := Option.some.inj (hrole.symm.trans heffective)
  refine ⟨hspec, ⟨_, hname, hrank.symm⟩, ?_⟩
  have hbaseline := baseline_le_required config.riskOverrides spec.actionName
  rw [← hrank] at hbaseline
  have hobserver : minRoleFor spec.actionName = .observer := by
    generalize minRoleFor spec.actionName = baseline at hbaseline ⊢
    cases baseline with
    | observer => rfl
    | _ => exact absurd hbaseline (by decide)
  show spec.traits.riskLevel = .low
  rw [htraits]
  exact low_of_observer hobserver

end Tables

/-- Whatever is sent on a connection and in whatever order: a spec is run only
for an `execute` of a caller who may have it run, or as a query anyone may
make. -/
theorem runs_authorized (crypto : Crypto) (config : DaemonConfig) (role : Nat → CallerRole)
    (inputs : List DaemonInput) :
    let P := (daemonSystem crypto config role).run inputs
    ∀ pre e suf, P.log = pre ++ e :: suf → e.op.starts = true →
      (∃ x spec, taskOf P e.thread = some (Execution.task x) ∧ e.op.Runs spec ∧
        MayExecute config (role x.connection) x.actionName x.params spec) ∨
      ∃ connection requestId actionName params spec,
        taskOf P e.thread = some (.request connection (.queryAction requestId actionName params)) ∧
          e.op.Runs spec ∧ MayQuery config actionName params spec := by
  intro P pre e suf hlog hstarts
  obtain ⟨before, p, hp⟩ := entry_checked hlog
  have hexpected := hp.expected
  have htask := hp.task
  generalize e.op = o at hexpected hstarts ⊢
  cases o with
  | spawn program args =>
    obtain ⟨x, spec, hspec, hmech, ⟨hx, -⟩, -⟩ := hexpected
    exact Or.inl ⟨x, spec, hx ▸ htask, hmech, hspec.mayExecute⟩
  | executeSpec spec =>
    obtain ⟨x, hspec, ⟨hx, -⟩, -⟩ := hexpected
    exact Or.inl ⟨x, spec, hx ▸ htask, rfl, hspec.mayExecute⟩
  | execute spec =>
    rcases hexpected with ⟨x, built, hspec, hrb, ⟨hx, -⟩⟩ | ⟨c, r, a, params, hq, hrole, hspec⟩
    · exact Or.inl ⟨x, spec, hx ▸ htask, rfl, hspec.mayRollBack hrb⟩
    · exact Or.inr ⟨c, r, a, params, spec, hq ▸ htask, rfl, mayQuery hrole hspec⟩
  | _ => cases hstarts

end Sysknife
