import Remediator.Operator

set_option autoImplicit false

/-! # The system

Any number of worker loops, Slack clicks and operator actions on one case, with deliveries
arriving, time passing, leases being extended and late sessions appearing in between. A job
may stop at any action.
-/

namespace Remediator

open Interleave

inductive Job
  /-- one iteration of a loop of the process -/
  | iterate (process rounds : Nat)
  | slack (action : SlackActionInput)
  | cancel
  | retry
  | reconcileSession (rounds : Nat)
  | retryCi
  | retryProbe
  | retryOutbox (id : Nat)
  | expireApproval (id : Nat)

def Job.program (cfg : Settings) (o : Owner) : Job → P Unit
  | .iterate process rounds => Worker.iterate ⟨cfg, o, process, rounds⟩
  | .slack action => slackClick cfg o action
  | .cancel => cancelCase o
  | .retry => retryCase cfg o
  | .reconcileSession rounds => Remediator.reconcileSession cfg o rounds
  | .retryCi => Remediator.retryCi o
  | .retryProbe => Remediator.retryProbe o
  | .retryOutbox id => Remediator.retryOutbox o id
  | .expireApproval id => Remediator.expireApproval cfg o id

/-- A delivery as `receive_webhook` stores it. -/
def WebhookEvent.fresh (e : WebhookEvent) : Bool :=
  decide (e.status = .pending) && e.claimedBy.isNone && e.leaseExpiresAt.isNone &&
    decide (e.attemptsCount = 0) && e.processedAt.isNone && !e.hasCase

/-- The label snapshot of a delivery contains the remediation label, or there is none. -/
def WebhookEvent.carriesLabel (cfg : Settings) (e : WebhookEvent) : Bool :=
  e.issueLabels.all (fun ls => decide (cfg.remediationLabel ∈ ls))

/-- What happens on its own; people add and remove the label as they like. -/
def environment (cfg : Settings) (s : Store) : Op → Bool
  | .tick _ => true
  | .heartbeat _ _ => true
  | .land a => s.history.limbo a
  | .receive e => e.fresh
  | .setLabel _ => true
  | .deliver e => e.fresh && e.remediationLabel && e.carriesLabel cfg &&
      decide (0 < s.label.inFlight)
  | _ => false

def system (cfg : Settings) : System Store Input Op Err Job where
  apply := Op.apply
  job := Job.program cfg
  leave := .leave
  env := environment cfg

/-- The pools that can be reached from the empty store. -/
abbrev Reachable (cfg : Settings) : Pool Store Input Op Err → Prop :=
  Pool.Reachable (system cfg) {}

/-! ## Schedules -/

/-- The pool a schedule leads to, if all its choices are available. -/
def runSchedule (cfg : Settings) (chs : List (Choice Input Op Job)) :
    Option (Pool Store Input Op Err) :=
  Pool.execAll (system cfg) ⟨{}, fun _ => none⟩ chs

/-- What a schedule shows is shown by a reachable pool. -/
theorem reachable_of_runSchedule (cfg : Settings) {α : Type} (chs : List (Choice Input Op Job))
    (view : Store → α) (x : α)
    (h : (runSchedule cfg chs).map (fun c => view c.store) = some x) :
    ∃ c, Reachable cfg c ∧ view c.store = x := by
  cases hrun : runSchedule cfg chs with
  | none => simp [hrun] at h
  | some c =>
      rw [hrun] at h
      exact ⟨c, Pool.Reachable.init.execAll hrun, Option.some.inj h⟩

/-- What a schedule and one more choice show is shown by a step of a reachable pool. -/
theorem step_of_runSchedule (cfg : Settings) {α : Type} (chs : List (Choice Input Op Job))
    (ch : Choice Input Op Job) (view : Store → Store → α) (x : α)
    (h : (runSchedule cfg chs).bind (fun c => (c.exec (system cfg) ch).map (fun c' =>
      view c.store c'.store)) = some x) :
    ∃ c c', Reachable cfg c ∧ c.exec (system cfg) ch = some c' ∧ view c.store c'.store = x := by
  obtain ⟨c, hrun, h⟩ := Option.bind_eq_some_iff.mp h
  obtain ⟨c', hstep, hview⟩ := Option.map_eq_some_iff.mp h
  exact ⟨c, c', Pool.Reachable.init.execAll hrun, hstep, hview⟩

/-- `n` actions of a thread, with the same answers. -/
def actions (o n : Nat) (i : Input) : List (Choice Input Op Job) := List.replicate n (.step o i)

/-- A configuration to run schedules with. -/
def demoSettings : Settings where
  repository := "apache/superset"
  issueNumber := 4213
  repositoryAllowed := true
  githubBaseRef := "master"
  remediationLabel := "devin:remediate"
  approverUserIds := ["U1"]
  probeRequired := false
  maxAttemptsPerKind := 3
  eventMaxAttempts := 3
  outboxMaxAttempts := 3
  reconcileMaxAttempts := 1
  workerLeaseSeconds := 60
  outboxLeaseSeconds := 60
  triageTimeoutSeconds := 1000
  remediationTimeoutSeconds := 1000
  ciTimeoutSeconds := 1000
  tokenTtlSeconds := 1000
  capacityWaitBackoffSeconds := 10
  devinPollIntervalSeconds := 10
  ciPollIntervalSeconds := 10
  humanBlockedReconcileIntervalSeconds := 10
  branchPrefix := "devin/"
  prAuthorLogins := ["devin-ai-integration[bot]"]
  probeRoot := "probes"
  maxChangedFiles := 5
  requiredChecks := []
  validateTriage := some
  sha256 := fun text => "sha256:" ++ text
  triageResultHash := fun doc => "sha256:" ++ doc
  validateRemediation := fun _ _ => none

/-- A delivery for an eligible issue. -/
def issueOpened : WebhookEvent := { remediationLabel := false, issueLabels := none, eligible := true }

end Remediator
