import Remediator.Lib.RowLocks
import Remediator.Models

set_option autoImplicit false

/-! # The order of row locks

The transactions that touch a case, its approval requests and its outbox rows, as the sequences
of row locks that their statements take: `SELECT ... FOR UPDATE` and `FOR NO KEY UPDATE`, the
implicit lock of an `UPDATE`, and the `KEY SHARE` locks that an `INSERT` takes on the rows its
foreign keys refer to. Pending changes are flushed before the next statement and at the commit,
parents first. Rows that a transaction inserts itself are left out: nobody else sees them.

The order that the sources document is case, then approval request, then outbox row
(`open_request_for_case`, `OutboxDispatcher._lock_case`).
-/

namespace Remediator.Locks

open RowLocks

/-! ## Rows and modes -/

inductive Row
  | case (c : Nat)
  | request (r : Nat)
  | outbox (o : Nat)
  deriving DecidableEq

inductive Mode
  | keyShare
  | noKeyUpdate
  | update
  deriving DecidableEq

/-- The documented order. -/
def Row.rank : Row → Nat
  | case _ => 0
  | request _ => 1
  | outbox _ => 2

def Mode.strength : Mode → Nat
  | keyShare => 0
  | noKeyUpdate => 1
  | update => 2

/-- The conflicts of row locks in PostgreSQL. -/
def Mode.conflicts : Mode → Mode → Bool
  | keyShare, keyShare | keyShare, noKeyUpdate | noKeyUpdate, keyShare => false
  | keyShare, update | update, keyShare => true
  | noKeyUpdate, noKeyUpdate | noKeyUpdate, update | update, noKeyUpdate | update, update => true

/-- The rows and modes. Of the upgrades only the one from `KEY SHARE` to `NO KEY UPDATE` is
harmless: what waits for a `KEY SHARE` lock wants `UPDATE`. -/
def table : Table Row Mode where
  rank := Row.rank
  conflicts := Mode.conflicts
  covers held requested := decide (requested.strength ≤ held.strength)
  upgrades held requested := decide (held = .keyShare) && decide (requested = .noKeyUpdate)
  strength := Mode.strength
  upgrades_lt := by
    intro held requested other hup hconflict
    simp only [Bool.and_eq_true, decide_eq_true_eq] at hup
    obtain ⟨rfl, rfl⟩ := hup
    cases other <;> simp_all [Mode.conflicts, Mode.strength]

/-! ## Statements -/

abbrev Stmts := List (Lock Row Mode)

def forUpdate (row : Row) : Stmts := [⟨row, .update⟩]
def forNoKeyUpdate (row : Row) : Stmts := [⟨row, .noKeyUpdate⟩]

def updateCase (c : Nat) : Stmts := [⟨.case c, .noKeyUpdate⟩]
def updateRequest (r : Nat) : Stmts := [⟨.request r, .noKeyUpdate⟩]
def updateOutbox (o : Nat) : Stmts := [⟨.outbox o, .noKeyUpdate⟩]

/-- `action_token_hash` is unique, so an `UPDATE` of it is the update of a key. -/
def updateToken (r : Nat) : Stmts := [⟨.request r, .update⟩]

/-- An insert with a foreign key to the case only: a transition, an attempt of triage, a probe
snapshot or execution, a capacity lease, evidence. -/
def insertOfCase (c : Nat) : Stmts := [⟨.case c, .keyShare⟩]

/-- `notification_outbox`, and the remediation `attempts`: first the case, then the request. -/
def insertOfBoth (c : Nat) : Option Nat → Stmts
  | none => [⟨.case c, .keyShare⟩]
  | some r => [⟨.case c, .keyShare⟩, ⟨.request r, .keyShare⟩]

/-- `approval_events`: first the request, then the case. -/
def insertEvent (c r : Nat) : Stmts := [⟨.request r, .keyShare⟩, ⟨.case c, .keyShare⟩]

def insertSlackAction (r : Nat) : Stmts := [⟨.request r, .keyShare⟩]

/-- `transition`. -/
def transition (c : Nat) : Stmts := updateCase c ++ insertOfCase c

/-! ## Pieces of transactions -/

/-- `process_slack_action` once the token has resolved to the round `r` of the case `c`; the
click may find that the token has expired. -/
def slackDecision (c r : Nat) (expires : Bool) : ActionOutcome → Stmts
  | .approved => updateToken r ++ insertSlackAction r ++ insertEvent c r ++
      insertOfBoth c (some r) ++ insertOfBoth c (some r)
  | .rejected => updateToken r ++ insertSlackAction r ++ insertEvent c r ++ transition c ++
      insertOfBoth c (some r) ++ insertOfBoth c (some r)
  | .expiredToken => (if expires then updateToken r else []) ++ insertSlackAction r ++
      (if expires then insertEvent c r else []) ++ insertOfBoth c (some r)
  | .unauthorized | .staleToken | .incompatibleState =>
      insertSlackAction r ++ insertEvent c r ++ insertOfBoth c (some r)
  | .alreadyDecided => insertSlackAction r ++ insertOfBoth c (some r)
  | .duplicate | .unknownToken | .unknownAction => []

/-- How `confirm_label_webhook` ends on the newest round. -/
inductive Confirmation
  | ignored
  | unexpected
  | confirmed

/-- `confirm_label_webhook`, with `open_request_for_case(for_update=True)`. -/
def confirmLabelWebhook (c : Nat) : Option (Nat × Confirmation) → Stmts
  | none => forNoKeyUpdate (.case c)
  | some (r, result) => forNoKeyUpdate (.case c) ++ forNoKeyUpdate (.request r) ++
      match result with
      | .ignored => []
      | .unexpected => insertEvent c r
      | .confirmed => updateRequest r ++ insertEvent c r ++ transition c ++ insertOfBoth c (some r)

/-- `_finish_triage` with `create_approval_request`, which supersedes the round `stale`. -/
def finishTriage (c : Nat) (stale : Option Nat) : Stmts :=
  transition c ++
    (match stale with
      | none => []
      | some r => forUpdate (.request r) ++ updateToken r ++ insertEvent c r ++
          insertOfBoth c (some r)) ++
    insertOfCase c ++ insertOfBoth c none ++ transition c

/-- What the first transaction of a dispatch does with the row. -/
inductive Handler
  /-- a kind without an approval request: record-only, `_github_not_feasible`, unknown -/
  | withoutRequest
  /-- `_load_request`, and then the row is skipped, or the handler raises -/
  | loads (r : Nat)
  /-- the handler ends in its first transaction and leaves an event -/
  | notifies (r : Nat)
  /-- the token and the `SENDING` marker are committed -/
  | storesToken (r : Nat)
  /-- `label_requested_at` or `comment_requested_at` is committed -/
  | storesIntent (r : Nat)

/-- `_load_request`. -/
def loadRequest (c r : Nat) : Stmts := forNoKeyUpdate (.request r) ++ forNoKeyUpdate (.case c)

def Handler.locks (c o : Nat) : Handler → Stmts
  | withoutRequest => updateOutbox o
  | loads r => loadRequest c r ++ updateOutbox o
  | notifies r => loadRequest c r ++ updateRequest r ++ updateOutbox o ++ insertEvent c r
  | storesToken r => loadRequest c r ++ updateToken r
  | storesIntent r => loadRequest c r ++ updateRequest r

/-! ## Transactions -/

inductive Txn
  /-- a click whose token does not resolve, or with an unknown action -/
  | unknownClick
  | slackAction (c r : Nat) (expires : Bool) (outcome : ActionOutcome)
  /-- `process_event` for the remediation label, on the newest round -/
  | labelWebhook (c : Nat) (round : Option (Nat × Confirmation))
  /-- `process_event` for any other delivery -/
  | issueEvent (c : Nat)
  /-- `OutboxDispatcher.claim` -/
  | outboxClaim (o : Nat)
  /-- the first transaction of `dispatch` -/
  | dispatch (c o : Nat) (handler : Handler)
  /-- `_github_apply_label` after `add_label` -/
  | labelApplied (c r : Nat)
  /-- `replay_label_webhooks_after_delivery`, with a delivery to replay -/
  | replay (c : Nat) (round : Option (Nat × Confirmation))
  /-- `_ensure_comment` after the label was committed -/
  | commentIntent (r : Nat)
  /-- the last transaction of a dispatch that has committed before -/
  | delivered (c o r : Nat)
  /-- `_fail`; a terminal failure with an approval request goes on to it -/
  | deliveryFailed (c o : Nat) (terminal : Option Nat)
  /-- `_claim_case`, `_heartbeat`, `_release_case` -/
  | caseClaim (c : Nat)
  | caseLease (c : Nat)
  /-- a stage of the case processor: inserts, a transition, an outbox row -/
  | stage (c : Nat)
  /-- `_approved_request` and the stage that follows it -/
  | preconditions (c r : Nat)
  /-- `allocate_attempt_ordinal` and the attempt -/
  | createAttempt (c : Nat) (request : Option Nat)
  | triageFinished (c : Nat) (stale : Option Nat)
  /-- `_notify` -/
  | progress (c r : Nat)
  /-- `_case_action`, with the round that `_notify_remediation` finds -/
  | caseAction (c : Nat) (request : Option Nat)
  /-- `_verified_attempt_action` and `retry_probe` -/
  | attemptAction (c : Nat) (request : Option Nat)
  | reconcileSession (c : Nat) (stale : Option Nat)
  /-- `retry_outbox`; a `FAILED` row with an approval request goes on to it -/
  | retryOutbox (c o : Nat) (failed : Bool) (request : Option Nat)
  /-- `expire_approval` -/
  | expireApproval (c r : Nat) (pending : Bool)

/-- The row locks of a transaction, in the order of its statements. -/
def Txn.locks : Txn → Stmts
  | unknownClick => []
  | slackAction c r expires outcome =>
      forUpdate (.request r) ++ forUpdate (.case c) ++ slackDecision c r expires outcome
  | labelWebhook c round => confirmLabelWebhook c round ++ insertOfCase c
  | issueEvent c => updateCase c ++ insertOfCase c
  | outboxClaim o => forUpdate (.outbox o)
  | dispatch c o handler =>
      forNoKeyUpdate (.case c) ++ forNoKeyUpdate (.outbox o) ++ handler.locks c o
  | labelApplied c r => updateRequest r ++ insertEvent c r
  | replay c round => confirmLabelWebhook c round
  | commentIntent r => updateRequest r
  | delivered c o r =>
      updateRequest r ++ updateOutbox o ++ insertEvent c r ++ insertOfBoth c (some r)
  | deliveryFailed c o terminal =>
      forNoKeyUpdate (.case c) ++ forNoKeyUpdate (.outbox o) ++
        (match terminal with
          | none => []
          | some r => forNoKeyUpdate (.request r) ++ transition c ++ updateRequest r ++
              insertEvent c r ++ insertOfBoth c (some r)) ++ updateOutbox o
  | caseClaim c => forUpdate (.case c)
  | caseLease c => updateCase c
  | stage c => insertOfCase c ++ transition c ++ insertOfBoth c none
  | preconditions c r =>
      forNoKeyUpdate (.case c) ++ forNoKeyUpdate (.request r) ++ insertOfCase c ++ transition c
  | createAttempt c request => forNoKeyUpdate (.case c) ++ insertOfBoth c request
  | triageFinished c stale => finishTriage c stale
  | progress c r => insertOfBoth c (some r)
  | caseAction c request => transition c ++ insertOfBoth c request
  | attemptAction c request => forUpdate (.case c) ++ transition c ++ insertOfBoth c request
  | reconcileSession c stale => forUpdate (.case c) ++ finishTriage c stale
  | retryOutbox c o failed request =>
      forUpdate (.outbox o) ++
        (match failed, request with
          | true, some r => updateRequest r ++ updateOutbox o ++ insertEvent c r
          | true, none => updateOutbox o
          | false, _ => [])
  | expireApproval c r pending =>
      forUpdate (.request r) ++
        (if pending then updateToken r ++ insertEvent c r ++ insertOfBoth c (some r) else [])

/-- The first transaction of a dispatch follows the order if the row has no approval request:
the outbox row is locked before the request is. -/
def Handler.follows : Handler → Bool
  | withoutRequest => true
  | loads _ | notifies _ | storesToken _ | storesIntent _ => false

/-- The transactions that follow the documented order. -/
def Txn.follows : Txn → Bool
  -- the request is locked before the case
  | slackAction _ _ _ _ | labelApplied _ _ | delivered _ _ _ => false
  | expireApproval _ _ pending => !pending
  -- the outbox row is locked before the request
  | dispatch _ _ handler => handler.follows
  | deliveryFailed _ _ terminal => terminal.isNone
  | retryOutbox _ _ failed request => !(failed && request.isSome)
  | _ => true

/-! ## Who follows the order -/

section Evaluation

variable (held : Stmts) (l : Lock Row Mode) (ls : Stmts)

@[simp] theorem ordered_nil : ordered table held [] = true := rfl

@[simp] theorem ordered_cons :
    ordered table held (l :: ls) =
      ((covered table held l || held.all (fun h => ahead table h l)) &&
        ordered table (l :: held) ls) := rfl

@[simp] theorem covered_cons (h : Lock Row Mode) :
    covered table (h :: held) l =
      ((decide (h.row = l.row) && decide (l.mode.strength ≤ h.mode.strength)) ||
        covered table held l) := rfl

@[simp] theorem covered_nil : covered table [] l = false := rfl

@[simp] theorem ahead_eq (h : Lock Row Mode) :
    ahead table h l = (decide (h.row.rank < l.row.rank) || (decide (h.row = l.row) &&
      (decide (h.mode = .keyShare) && decide (l.mode = .noKeyUpdate)))) := rfl

end Evaluation

attribute [local simp] forUpdate forNoKeyUpdate updateCase updateRequest updateOutbox updateToken
  insertOfCase insertOfBoth insertEvent insertSlackAction transition Row.rank Mode.strength

/-- Exactly these transactions request their locks in the documented order. -/
theorem ordered_eq_follows (t : Txn) : ordered table [] t.locks = t.follows := by
  cases t with
  | slackAction c r expires outcome =>
      simp [Txn.locks, Txn.follows]
  | labelWebhook c round =>
      rcases round with _ | ⟨r, _ | _ | _⟩ <;> simp [Txn.locks, Txn.follows, confirmLabelWebhook]
  | replay c round =>
      rcases round with _ | ⟨r, _ | _ | _⟩ <;> simp [Txn.locks, Txn.follows, confirmLabelWebhook]
  | dispatch c o handler =>
      cases handler <;> simp [Txn.locks, Txn.follows, Handler.locks, Handler.follows, loadRequest]
  | deliveryFailed c o terminal => cases terminal <;> simp [Txn.locks, Txn.follows]
  | createAttempt c request => cases request <;> simp [Txn.locks, Txn.follows]
  | triageFinished c stale => cases stale <;> simp [Txn.locks, Txn.follows, finishTriage]
  | caseAction c request => cases request <;> simp [Txn.locks, Txn.follows]
  | attemptAction c request => cases request <;> simp [Txn.locks, Txn.follows]
  | reconcileSession c stale => cases stale <;> simp [Txn.locks, Txn.follows, finishTriage]
  | retryOutbox c o failed request =>
      cases failed <;> cases request <;> simp [Txn.locks, Txn.follows]
  | expireApproval c r pending => cases pending <;> simp [Txn.locks, Txn.follows]
  | _ => simp [Txn.locks, Txn.follows]

/-! ## Runs -/

/-- Only transactions that follow the order begin. -/
def following (_ : State Row Mode) : Act Txn → Bool
  | .begin t => t.follows
  | _ => true

theorem following_eq : following = orderedOnly table Txn.locks := by
  funext s a
  cases a with
  | begin t => exact (ordered_eq_follows t).symm
  | _ => rfl

/-- Row locks are requested in the documented order, and no transactions wait for one another in
a cycle. -/
def LockOrder (s : State Row Mode) : Prop :=
  (∀ t ∈ s, t.InOrder table) ∧ NoCycle table s

/-- **One global lock order**, in every run of transactions that follow it. -/
theorem lockOrder_of_following (s : State Row Mode)
    (hs : Machine.Reaches (step table Txn.locks) following [] s) : LockOrder s := by
  rw [following_eq] at hs
  have hord := ordered_of_reaches hs
  refine ⟨?_, noCycle_of_ordered hord⟩
  intro t ht
  obtain ⟨i, hi⟩ := List.mem_iff_getElem?.mp ht
  exact (hord i t hi).inOrder

theorem lockOrder_of_following_demo :
    ∃ s, Machine.Reaches (step table Txn.locks) following [] s ∧ s.length = 2 ∧ LockOrder s := by
  obtain ⟨s, hs, hlen⟩ := Machine.exists_of_runAll (step table Txn.locks) following []
    [.begin (.labelWebhook 0 (some (0, .confirmed))), .begin (.caseAction 0 (some 0)),
      .acquire 0, .acquire 0]
    List.length 2 (by decide)
  exact ⟨s, hs, hlen, lockOrder_of_following s hs⟩

/-- A repeated click holds its approval request and requests the case, while the label webhook
holds the case and requests the approval request. -/
def crossed : State Row Mode :=
  [⟨[⟨.request 0, .update⟩], (Txn.slackAction 0 0 false .alreadyDecided).locks.tail⟩,
    ⟨[⟨.case 0, .noKeyUpdate⟩], (Txn.labelWebhook 0 (some (0, .confirmed))).locks.tail⟩]

/-- The click and the webhook of one approval request wait for each other. -/
theorem click_and_webhook_deadlock :
    ¬ ∀ s, Machine.Reaches (step table Txn.locks) (fun _ _ => true) [] s → LockOrder s := by
  intro hall
  obtain ⟨s, hs, rfl⟩ := Machine.exists_of_runAll (step table Txn.locks) (fun _ _ => true) []
    [.begin (.slackAction 0 0 false .alreadyDecided),
      .begin (.labelWebhook 0 (some (0, .confirmed))), .acquire 0, .acquire 1]
    id crossed (by decide)
  have hclick : WaitsFor table crossed 0 1 :=
    ⟨_, ⟨.case 0, .update⟩, _, rfl, rfl, by decide, by decide⟩
  have hwebhook : WaitsFor table crossed 1 0 :=
    ⟨_, ⟨.request 0, .noKeyUpdate⟩, _, rfl, rfl, by decide, by decide⟩
  exact (hall _ hs).2 0 (.tail (.single hclick) hwebhook)

end Remediator.Locks
