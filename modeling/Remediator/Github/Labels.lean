import Mathlib.Data.List.Nodup
import Remediator.Lib.Json
import Remediator.Rounds.Confirmation

set_option autoImplicit false

/-! # How label names are compared

A label of a repository keeps the spelling it was created with, and its name is taken without case:
a repository has no two labels that differ in case only. A delivery is recognised without case as
well; the label snapshot of a delivery, the labels before a write and those at dispatch are compared
by spelling.
-/

namespace Remediator

open Interleave

/-! ## The delivery -/

/-- The columns of a `WebhookEvent` that a label delivery is read from. -/
structure LabelDelivery where
  eventType : String
  action : String
  payload : List (String × Json.Value)

section Delivery

variable (repr : Json.Value → String)

/-- `str(payload_label.get("name", ""))`, if the payload has a label. -/
def LabelDelivery.name (event : LabelDelivery) : String :=
  match List.lookup "label" event.payload with
  | some (.dict label) => ((List.lookup "name" label).map (·.text repr)).getD ""
  | _ => ""

/-- `is_remediation_label_event`, with `str.lower` as a parameter. -/
def isRemediationLabelEvent (lower : String → String) (event : LabelDelivery) (label : String) :
    Bool :=
  if event.eventType ≠ "issues" ∨ event.action ≠ "labeled" then false
  else decide (lower (event.name repr) = lower label)

/-- `issue_label_names`. -/
def issueLabelNames (issue : Option Json.Value) : Option (List String) :=
  match issue with
  | some (.dict items) =>
      match List.lookup "labels" items with
      | some (.list labels) => some (labels.filterMap fun
          | .dict label => (Json.orNone (List.lookup "name" label)).map (·.text repr)
          | _ => none)
      | _ => none
  | _ => none

/-- A delivery about a label that GitHub has added to the issue; the names on the issue differ in
more than case. -/
structure LabelAddition (lower : String → String) where
  event : LabelDelivery
  /-- the labels of the issue, as GitHub spells them -/
  labels : List String
  snapshot : issueLabelNames repr (List.lookup "issue" event.payload) = some labels
  added : event.name repr ∈ labels
  distinct : (labels.map lower).Nodup

variable {repr} {lower : String → String}

/-- The label that was added is on the issue under its stored spelling only. -/
theorem LabelAddition.mem_iff (addition : LabelAddition repr lower) {label : String}
    (h : isRemediationLabelEvent repr lower addition.event label = true) :
    label ∈ addition.labels ↔ addition.event.name repr = label := by
  have hlower : lower (addition.event.name repr) = lower label := by
    unfold isRemediationLabelEvent at h
    split at h
    · cases h
    · exact of_decide_eq_true h
  constructor
  · exact fun hmem => List.inj_on_of_nodup_map addition.distinct addition.added hmem hlower
  · rintro rfl
    exact addition.added

end Delivery

/-! ## The four comparisons -/

section Checks

variable {cfg : Settings} {labels : List String}

/-- A delivery that would be confirmed without a snapshot. -/
theorem confirmLabelWebhook_iff {st : CaseState} {id : Nat} {r : ApprovalRequest} {t : Txn}
    {s : Store} (h : labelAccepts cfg st id r none s = true) (hst : s.case.state = st) :
    (confirmLabelWebhook cfg st id r (some labels) t s).2 = true ↔
      cfg.remediationLabel ∈ labels := by
  have hawaits := labelAccepts_awaits h
  by_cases hmem : cfg.remediationLabel ∈ labels
  · have hacc : labelAccepts cfg st id r (some labels) s = true := by
      simpa [labelAccepts, hmem] using h
    rw [confirm_accepted hacc]
    exact iff_of_true ((confirmMove_ok hawaits s.case).trans (decide_eq_true hst)) hmem
  · have hacc : labelAccepts cfg st id r (some labels) s = false := by
      simp [labelAccepts, hmem]
    rw [confirm_refused hacc]
    exact iff_of_false Bool.false_ne_true hmem

/-- A requested label counts as applied when its spelling is on the issue. -/
theorem requestLabel_iff {d : Dispatcher} {r : RequestObj} (h : r.row.labelRequestedAt.isSome) :
    d.requestLabel r labels = pure (.inl r) ↔ d.cfg.remediationLabel ∈ labels := by
  unfold Dispatcher.requestLabel
  constructor
  · intro heq
    by_contra hmem
    rw [if_neg fun hboth => hmem hboth.2] at heq
    cases heq
  · exact fun hmem => if_pos ⟨h, hmem⟩

/-- `add_label` once GitHub has answered about the issue. -/
def addLabelOn (cfg : Settings) (issue : IssueAnswer) : P (Answer Unit) :=
  if issue.retryable then pure .retryable
  else if issue.refused then pure .refused
  else if cfg.remediationLabel ∈ issue.labels then pure (.ok ())
  else postLabel

theorem addLabel_eq (cfg : Settings) : addLabel cfg = (getIssue cfg).bind (addLabelOn cfg) := rfl

/-- GitHub answers that the issue is open and has the labels. -/
def IssueAnswer.openWith (labels : List String) : IssueAnswer := { labels := labels }

theorem addLabelOn_iff :
    addLabelOn cfg (.openWith labels) = pure (.ok ()) ↔ cfg.remediationLabel ∈ labels := by
  change (if cfg.remediationLabel ∈ labels then pure (.ok ()) else postLabel) = _ ↔ _
  constructor
  · intro heq
    by_contra hmem
    rw [if_neg hmem] at heq
    cases heq
  · exact fun hmem => if_pos hmem

/-- `_dispatch` once GitHub has answered about the issue. -/
def Runner.dispatchIssue (r : Runner) (st : CaseState) (request : ApprovalRequest)
    (issue : IssueAnswer) : P CaseState :=
  if issue.retryable then throw .transientVerification
  else if issue.refused ∨ r.cfg.remediationLabel ∉ issue.labels then r.failDispatch st
  else if issue.state ≠ "open" then r.humanBlock st .other
  else do
    let busy ← tx r.owner (fun _ s => .ok (r.txn,
      s.core.attempts.any (activeOfKind .remediation) ||
        s.core.evidence.any (fun e => e.valid)))
    if busy then r.humanBlock st .other
    else
      match ← ask (fun i => i.registry) with
      | .missing =>
          if r.cfg.probeRequired then r.humanBlock st .missingProbe
          else r.dispatchWithoutProbe st request.triageResultHash
      | .invalid => r.humanBlock st .other
      | .probe p =>
          tx r.owner (fun _ _ => .ok ({ r.txn with
            snapshots := [p]
            moves := [r.move st .probeValidatingBase] }, .probeValidatingBase))

theorem dispatch_eq (r : Runner) (st : CaseState) : r.dispatch st =
    if r.cfg.repositoryAllowed = false then r.failDispatch st
    else (tx r.owner (fun _ s => .ok (r.txn, authorised r.cfg s.approvals s.core.attempts))).bind
      fun
      | none => r.failDispatch st
      | some (_, request) =>
          if Devin.normalize r.cfg.githubBaseRef = "" then r.failDispatch st
          else (getIssue r.cfg).bind (r.dispatchIssue st request) := rfl

/-- The operation commits a `fail_case`. -/
def Op.failing : Op → Bool
  | .commit _ t => t.failing
  | _ => false

/-- No action of the program fails the case. -/
def Accepts {α : Type} (p : P α) : Prop :=
  p.Each (fun _ op => op.failing = false) (fun _ => True) (fun _ => True)

theorem accepts_tx {α : Type} {o : Owner} {body : Input → Store → Except Err (Txn × α)}
    (h : ∀ i s t a, body i s = .ok (t, a) → t.failing = false) : Accepts (tx o body) :=
  each_tx (fun _ => rfl) (fun _ _ _ _ => trivial) fun i s t a hbody _ => ⟨h i s t a hbody, trivial⟩

theorem Accepts.bind {α β : Type} {p : P α} {k : α → P β} (hp : Accepts p)
    (hk : ∀ a, Accepts (k a)) : Accepts (p.bind k) :=
  Prog.Each.bind hp fun a _ => hk a

theorem accepts_unlessFault {α : Type} (i : Input) (a : α) : Accepts (unlessFault i a) := by
  unfold unlessFault
  split
  · exact trivial
  · exact trivial

theorem accepts_ask {α : Type} (answer : Input → α) : Accepts (ask answer) :=
  fun i _ => ⟨rfl, accepts_unlessFault i (answer i)⟩

theorem accepts_humanBlock (r : Runner) (st : CaseState) (reason : Reason) :
    Accepts (r.humanBlock st reason) := by
  refine accepts_tx fun i s t a hbody => ?_
  cases hbody
  rfl

theorem accepts_dispatchWithoutProbe (r : Runner) (st : CaseState) (hash : String) :
    Accepts (r.dispatchWithoutProbe st hash) := by
  have hlast : ∀ sha : Option String,
      Accepts (tx r.owner (r.decideWithoutProbe st hash sha)) := by
    intro sha
    refine accepts_tx fun i s t a hbody => ?_
    unfold Runner.decideWithoutProbe at hbody
    split at hbody
    · split at hbody
      · cases hbody
      · cases hbody
        rfl
    · cases hbody
      rfl
  refine Accepts.bind (accepts_tx fun i s t a hbody => ?_) fun existing => ?_
  · cases hbody
    rfl
  · cases existing with
    | true => exact hlast none
    | false =>
        refine Accepts.bind (accepts_ask _) fun answer => ?_
        cases answer with
        | some sha => exact hlast (some sha)
        | none => exact trivial

/-- The refusal at dispatch fails an approved case. -/
theorem not_accepts_failDispatch (r : Runner) :
    ¬ Accepts (r.failDispatch .remediationApproved) := by
  intro h
  -- the case is as the runner has loaded it
  let s : Store := { case := { state := .remediationApproved, claimedBy := r.claim } }
  have hmoves : movesOk (failCase r.claim .remediationApproved r.txn s).1.moves s.case = true := by
    change movesOk [⟨.remediationApproved, .remediationFailed, .worker, r.claim, false⟩] s.case =
      true
    simp [movesOk, Move.ok, s, CaseState.allowed, CaseState.transitions]
  have hout : Txn.outcome (fun _ s => .ok (failCase r.claim .remediationApproved r.txn s)) {} s =
      .ok (failCase r.claim .remediationApproved r.txn s) := by
    unfold Txn.outcome
    dsimp only
    rw [hmoves]
    rfl
  have hfailing := (h {} s).1
  dsimp only at hfailing
  rw [hout] at hfailing
  cases hfailing

/-- An open issue is accepted at dispatch when the label's spelling is on it. -/
theorem dispatchIssue_iff {r : Runner} {request : ApprovalRequest} :
    Accepts (r.dispatchIssue .remediationApproved request (.openWith labels)) ↔
      r.cfg.remediationLabel ∈ labels := by
  constructor
  · intro h
    by_contra hmem
    have hmissing : (IssueAnswer.openWith labels).refused = true ∨
        r.cfg.remediationLabel ∉ (IssueAnswer.openWith labels).labels := Or.inr hmem
    unfold Runner.dispatchIssue at h
    rw [if_neg (by exact Bool.false_ne_true), if_pos hmissing] at h
    exact not_accepts_failDispatch r h
  · intro hmem
    have hopen : ¬ (IssueAnswer.openWith labels).state ≠ "open" := not_not.mpr rfl
    unfold Runner.dispatchIssue
    rw [if_neg (by exact Bool.false_ne_true), if_neg (by simp [IssueAnswer.openWith, hmem]),
      if_neg hopen]
    refine Accepts.bind (accepts_tx fun i s t a hbody => ?_) fun busy => ?_
    · cases hbody
      rfl
    · cases busy with
      | true => exact accepts_humanBlock r _ .other
      | false =>
          refine Accepts.bind (accepts_ask _) fun registry => ?_
          cases registry with
          | missing =>
              dsimp only
              split
              · exact accepts_humanBlock r _ .missingProbe
              · exact accepts_dispatchWithoutProbe r _ _
          | invalid => exact accepts_humanBlock r _ .other
          | probe p =>
              refine accepts_tx fun i s t a hbody => ?_
              cases hbody
              rfl

/-! ## Agreement -/

/-- All comparisons find the label among the labels of the issue: a delivery with this snapshot is
confirmed when nothing else stands against it, a requested label counts as applied, `add_label` does
not write it, and `_dispatch` accepts the open issue. -/
structure LabelFound (cfg : Settings) (labels : List String) : Prop where
  confirmed : ∀ st id r t s, labelAccepts cfg st id r none s = true → s.case.state = st →
    (confirmLabelWebhook cfg st id r (some labels) t s).2 = true
  applied : ∀ (d : Dispatcher) r, d.cfg = cfg → r.row.labelRequestedAt.isSome →
    d.requestLabel r labels = pure (.inl r)
  present : addLabelOn cfg (.openWith labels) = pure (.ok ())
  dispatched : ∀ (r : Runner) request, r.cfg = cfg →
    Accepts (r.dispatchIssue .remediationApproved request (.openWith labels))

theorem labelFound_iff : LabelFound cfg labels ↔ cfg.remediationLabel ∈ labels := by
  constructor
  · exact fun h => addLabelOn_iff.mp h.present
  · intro hmem
    constructor
    · exact fun st id r t s h hst => (confirmLabelWebhook_iff h hst).mpr hmem
    · rintro d r rfl h
      exact (requestLabel_iff h).mpr hmem
    · exact addLabelOn_iff.mpr hmem
    · rintro r request rfl
      exact dispatchIssue_iff.mpr hmem

/-- None of the comparisons finds the label, so a recognised delivery is never confirmed. -/
structure LabelMissed (cfg : Settings) (labels : List String) : Prop where
  refused : ∀ st id r t s, labelAccepts cfg st id r none s = true → s.case.state = st →
    (confirmLabelWebhook cfg st id r (some labels) t s).2 = false
  written : addLabelOn cfg (.openWith labels) = postLabel
  failed : ∀ (r : Runner) request, r.cfg = cfg →
    ¬ Accepts (r.dispatchIssue .remediationApproved request (.openWith labels))

theorem labelMissed_of_not_mem (h : cfg.remediationLabel ∉ labels) : LabelMissed cfg labels := by
  constructor
  · intro st id r t s hacc hst
    rw [← Bool.not_eq_true, confirmLabelWebhook_iff hacc hst]
    exact h
  · exact if_neg h
  · rintro r request rfl
    rwa [dispatchIssue_iff]

end Checks

/-- **The comparisons agree on a label that was added exactly when its stored spelling is the
configured one**, whatever `str.lower` is; with another spelling the delivery is recognised and
nothing behind it finds the label. -/
theorem label_comparisons_agree_iff (repr : Json.Value → String) (lower : String → String)
    (cfg : Settings) (addition : LabelAddition repr lower) :
    ((isRemediationLabelEvent repr lower addition.event cfg.remediationLabel = true →
        LabelFound cfg addition.labels) ↔
      (isRemediationLabelEvent repr lower addition.event cfg.remediationLabel = true →
        addition.event.name repr = cfg.remediationLabel)) ∧
      (isRemediationLabelEvent repr lower addition.event cfg.remediationLabel = true →
        addition.event.name repr ≠ cfg.remediationLabel → LabelMissed cfg addition.labels) := by
  constructor
  · exact imp_congr_right fun h => labelFound_iff.trans (addition.mem_iff h)
  · intro h hname
    rw [ne_eq, ← addition.mem_iff h] at hname
    exact labelMissed_of_not_mem hname

/-- `str.lower` of ASCII. -/
def lowerAscii (t : String) : String := String.ofList (t.toList.map Char.toLower)

/-- GitHub has the label as `Devin:Remediate`. -/
def capitalAddition : LabelAddition (fun _ => "") lowerAscii where
  event :=
    { eventType := "issues"
      action := "labeled"
      payload := [("label", .dict [("name", .str "Devin:Remediate")]),
        ("issue", .dict [("labels", .list [.dict [("name", .str "Devin:Remediate")]])])] }
  labels := ["Devin:Remediate"]
  snapshot := rfl
  added := List.mem_singleton_self _
  distinct := List.nodup_singleton _

theorem capital_recognised : isRemediationLabelEvent (fun _ => "") lowerAscii capitalAddition.event
    demoSettings.remediationLabel = true := by
  have hname : capitalAddition.event.name (fun _ => "") = "Devin:Remediate" := rfl
  have hlower : lowerAscii "Devin:Remediate" = lowerAscii "devin:remediate" := by
    refine congrArg String.ofList ?_
    rw [String.toList_ofList, String.toList_ofList]
    decide +kernel
  unfold isRemediationLabelEvent
  rw [hname, if_neg (by decide)]
  exact decide_eq_true hlower

/-- The delivery is recognised, and nothing behind it finds the label. -/
theorem capital_label_missed :
    ¬ ∀ (repr : Json.Value → String) (lower : String → String) (cfg : Settings)
      (addition : LabelAddition repr lower),
      isRemediationLabelEvent repr lower addition.event cfg.remediationLabel = true →
        LabelFound cfg addition.labels := by
  intro h
  have hfound := labelFound_iff.mp (h _ _ demoSettings capitalAddition capital_recognised)
  exact absurd (List.mem_singleton.mp hfound) (by decide)

end Remediator
