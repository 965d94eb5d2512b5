import Mathlib.Data.List.Basic

set_option autoImplicit false

/-! # The case lifecycle

`remediator/lifecycle.py`: the states of a case, which of them are terminal, which belong to
the remediation pipeline, and the transitions that may be committed. `transition` itself acts
on the database; its conditional update is in `Remediator/Store.lean`.
-/

namespace Remediator

inductive CaseState
  | received
  | eligibilityEvaluated
  | triageCreateIntent
  | triaging
  | triaged
  | awaitingRemediationApproval
  | approvalDeliveryFailed
  | remediationApproved
  | remediationRejected
  | remediationCreateIntent
  | remediationReconcilingCreate
  | remediating
  | remediationHumanBlocked
  | outputValidating
  | prDiscovered
  | prValidating
  | probeValidatingBase
  | probeInfrastructureBlocked
  | probeValidatingHead
  | prValidated
  | ciPending
  | ciPassed
  | ciFailed
  | remediationFailed
  | remediationTerminationPending
  | remediationTimedOut
  | remediationCancelled
  | humanBlocked
  | reconcilingCreate
  | terminationPending
  | timedOut
  | policyRejected
  | failed
  | cancelled
  deriving DecidableEq, Repr

namespace CaseState

/-- `TERMINAL_STATES`. -/
def terminal : CaseState → Bool
  | ciPassed | ciFailed | timedOut | policyRejected | remediationRejected | remediationFailed
  | remediationTimedOut | remediationCancelled | failed | cancelled => true
  | _ => false

/-- `REMEDIATION_PHASE_STATES`. -/
def remediationPhase : CaseState → Bool
  | remediationApproved | remediationCreateIntent | remediationReconcilingCreate | remediating
  | remediationHumanBlocked | outputValidating | prDiscovered | prValidating
  | probeValidatingBase | probeInfrastructureBlocked | probeValidatingHead | prValidated
  | ciPending | ciPassed | ciFailed | remediationFailed | remediationTerminationPending
  | remediationTimedOut | remediationCancelled => true
  | _ => false

/-- `REMEDIATION_SESSION_STATES`. -/
def remediationSession : CaseState → Bool
  | remediationCreateIntent | remediationReconcilingCreate | remediating
  | remediationTerminationPending => true
  | _ => false

/-- `REMEDIATION_RETRYABLE_STATES`. -/
def remediationRetryable : CaseState → Bool
  | remediationFailed | remediationTimedOut | remediationHumanBlocked => true
  | _ => false

/-- `TRANSITIONS`, with the edges that the loop over `_ACTIVE - REMEDIATION_PHASE_STATES` after it
adds to those written out. The only new one is that from `TERMINATION_PENDING` to itself. -/
def transitions : CaseState → List CaseState
  | received => [eligibilityEvaluated, failed, cancelled, terminationPending]
  | eligibilityEvaluated =>
      [triageCreateIntent, policyRejected, failed, cancelled, terminationPending]
  | triageCreateIntent => [reconcilingCreate, triaging, failed, cancelled, terminationPending]
  | triaging => [triaged, humanBlocked, timedOut, failed, cancelled, terminationPending]
  | triaged => [awaitingRemediationApproval, policyRejected, failed, cancelled, terminationPending]
  | awaitingRemediationApproval =>
      [remediationApproved, remediationRejected, approvalDeliveryFailed, failed, cancelled,
        terminationPending]
  | approvalDeliveryFailed => [remediationApproved, failed, cancelled, terminationPending]
  | remediationRejected => []
  | remediationApproved =>
      [probeValidatingBase, remediationHumanBlocked, remediationFailed, remediationCancelled]
  | probeValidatingBase =>
      [remediationCreateIntent, probeInfrastructureBlocked, remediationHumanBlocked,
        remediationFailed, remediationCancelled]
  | probeInfrastructureBlocked => [probeValidatingBase, remediationCancelled]
  | remediationCreateIntent =>
      [remediationReconcilingCreate, remediating, remediationTerminationPending,
        remediationFailed, remediationCancelled]
  | remediationReconcilingCreate =>
      [remediating, remediationHumanBlocked, remediationTerminationPending, remediationFailed,
        remediationCancelled]
  | remediating =>
      [outputValidating, remediationHumanBlocked, remediationTimedOut,
        remediationTerminationPending, remediationFailed, remediationCancelled]
  | outputValidating =>
      [prDiscovered, remediationHumanBlocked, remediationFailed, remediationCancelled]
  | prDiscovered => [prValidating, remediationHumanBlocked, remediationFailed, remediationCancelled]
  | prValidating =>
      [probeValidatingHead, remediationHumanBlocked, remediationFailed, remediationCancelled]
  | probeValidatingHead =>
      [prValidated, remediationHumanBlocked, remediationFailed, remediationCancelled]
  | prValidated => [ciPending, remediationFailed, remediationCancelled]
  | ciPending =>
      [ciPassed, ciFailed, remediationHumanBlocked, remediationFailed, remediationCancelled]
  | ciPassed => []
  | ciFailed => [ciPending, remediationCancelled]
  | remediationHumanBlocked =>
      [remediationApproved, remediationTerminationPending, remediationFailed,
        remediationCancelled]
  | remediationTerminationPending =>
      [outputValidating, remediationHumanBlocked, remediationTimedOut, remediationFailed,
        remediationCancelled]
  | remediationFailed => [remediationApproved, probeValidatingHead, ciPending, remediationCancelled]
  | remediationTimedOut => [remediationApproved, remediationCancelled]
  | remediationCancelled => []
  | humanBlocked => [cancelled, failed, received, terminationPending, triaging]
  | reconcilingCreate => [triaging, humanBlocked, failed, cancelled, terminationPending]
  | terminationPending =>
      [timedOut, triaged, humanBlocked, cancelled, failed, terminationPending]
  | timedOut => [received]
  | policyRejected => []
  | failed => [received]
  | cancelled => []

/-- `PROBE_NOT_CONFIGURED_TRANSITIONS`. -/
def probeNotConfiguredTransitions : CaseState → List CaseState
  | remediationApproved => [remediationCreateIntent]
  | prValidating => [prValidated]
  | _ => []

/-- The states `transition` may move to, `probe_not_configured` edges included on request. -/
def allowed (st : CaseState) (probeNotConfigured : Bool) : List CaseState :=
  if probeNotConfigured then st.transitions ++ st.probeNotConfiguredTransitions
  else st.transitions

end CaseState

/-- `AttemptKind`. -/
inductive AttemptKind
  | triage
  | remediation
  deriving DecidableEq, Repr

/-- `PhaseStates`: the states a session-running phase uses for one attempt kind. -/
structure PhaseStates where
  intent : CaseState
  running : CaseState
  reconciling : CaseState
  humanBlocked : CaseState
  terminationPending : CaseState
  timedOut : CaseState
  failed : CaseState
  cancelled : CaseState

def triagePhase : PhaseStates where
  intent := .triageCreateIntent
  running := .triaging
  reconciling := .reconcilingCreate
  humanBlocked := .humanBlocked
  terminationPending := .terminationPending
  timedOut := .timedOut
  failed := .failed
  cancelled := .cancelled

def remediationPhase : PhaseStates where
  intent := .remediationCreateIntent
  running := .remediating
  reconciling := .remediationReconcilingCreate
  humanBlocked := .remediationHumanBlocked
  terminationPending := .remediationTerminationPending
  timedOut := .remediationTimedOut
  failed := .remediationFailed
  cancelled := .remediationCancelled

/-- `phase_for_state`. -/
def phaseForState (st : CaseState) : PhaseStates :=
  if st.remediationPhase then remediationPhase else triagePhase

/-- `phase_for_kind` of the runner. -/
def phaseForKind : AttemptKind → PhaseStates
  | .triage => triagePhase
  | .remediation => remediationPhase

end Remediator
