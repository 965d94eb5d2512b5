import Remediator.Outbox.Delivery

set_option autoImplicit false

/-! # External writes happen once

Whatever was accepted has left its intent in the row: the hash of the token before the message,
`label_requested_at` before the label, `comment_requested_at` before the comment. A dispatch that
finds the intent looks before it writes, so a write is accepted only when nothing was (`StageOk`,
`Accounted`).
-/

namespace Remediator.Outbox.Delivery

/-! ## The object of the session -/

/-- The object was loaded or flushed from the row, in the columns that nobody else writes while
the request is open. -/
structure Tracks (o : RequestObj) (r : ApprovalRequest) : Prop where
  label : o.loaded.labelRequestedAt = r.labelRequestedAt
  comment : o.loaded.commentRequestedAt = r.commentRequestedAt
  token : r.decision = .pending → o.loaded.actionTokenHash = r.actionTokenHash
  decision : o.row.decision = o.loaded.decision
  decided : o.row.decision ≠ .pending → r.decision = o.row.decision

/-- And it has no changes to them. -/
structure Synced (o : RequestObj) (r : ApprovalRequest) : Prop extends Tracks o r where
  rowLabel : o.row.labelRequestedAt = r.labelRequestedAt
  rowComment : o.row.commentRequestedAt = r.commentRequestedAt
  rowToken : r.decision = .pending → o.row.actionTokenHash = r.actionTokenHash

section Objects

variable {o : RequestObj} {r r' row : ApprovalRequest}

theorem synced_self (r : ApprovalRequest) : Synced ⟨r, r⟩ r where
  label := rfl
  comment := rfl
  token := fun _ => rfl
  decision := rfl
  decided := fun _ => rfl
  rowLabel := rfl
  rowComment := rfl
  rowToken := fun _ => rfl

/-- The object is assigned to. -/
theorem Tracks.set (h : Tracks o r) (hdecision : row.decision = o.row.decision) :
    Tracks (o.set row) r where
  label := h.label
  comment := h.comment
  token := h.token
  decision := hdecision.trans h.decision
  decided := by
    intro hne
    dsimp only [RequestObj.set] at hne ⊢
    rw [hdecision] at hne ⊢
    exact h.decided hne

/-- Other columns of the object are assigned to. -/
theorem Synced.set (h : Synced o r) (hdecision : row.decision = o.row.decision)
    (hlabel : row.labelRequestedAt = o.row.labelRequestedAt)
    (hcomment : row.commentRequestedAt = o.row.commentRequestedAt)
    (htoken : row.actionTokenHash = o.row.actionTokenHash) : Synced (o.set row) r where
  toTracks := h.toTracks.set hdecision
  rowLabel := hlabel.trans h.rowLabel
  rowComment := hcomment.trans h.rowComment
  rowToken := fun hopen => htoken.trans (h.rowToken hopen)

theorem Tracks.merge_label (h : Tracks o r) :
    (o.merge r).labelRequestedAt = o.row.labelRequestedAt := by
  simp only [RequestObj.merge, ApprovalRequest.merge]
  rw [h.label, pick_row]

theorem Tracks.merge_comment (h : Tracks o r) :
    (o.merge r).commentRequestedAt = o.row.commentRequestedAt := by
  simp only [RequestObj.merge, ApprovalRequest.merge]
  rw [h.comment, pick_row]

theorem Tracks.merge_decision (h : Tracks o r) : (o.merge r).decision = r.decision := by
  simp only [RequestObj.merge, ApprovalRequest.merge]
  rw [h.decision, pick_self]

theorem Tracks.merge_token (h : Tracks o r) (hopen : r.decision = .pending) :
    (o.merge r).actionTokenHash = o.row.actionTokenHash := by
  simp only [RequestObj.merge, ApprovalRequest.merge]
  rw [h.token hopen, pick_row]

/-- After a commit the object agrees with the row. -/
theorem Tracks.commit (h : Tracks o r) : Synced o.flushed (o.merge r) where
  label := h.merge_label.symm
  comment := h.merge_comment.symm
  token := fun hopen => (h.merge_token (h.merge_decision ▸ hopen)).symm
  decision := rfl
  decided := fun hne => h.merge_decision.trans (h.decided hne)
  rowLabel := h.merge_label.symm
  rowComment := h.merge_comment.symm
  rowToken := fun hopen => (h.merge_token (h.merge_decision ▸ hopen)).symm

/-- What other transactions may do to the row meanwhile. -/
structure Moves (r r' : ApprovalRequest) : Prop where
  label : r'.labelRequestedAt = r.labelRequestedAt
  comment : r'.commentRequestedAt = r.commentRequestedAt
  decided : r.decision ≠ .pending → r'.decision = r.decision
  token : r'.decision = .pending → r'.actionTokenHash = r.actionTokenHash

theorem Moves.open (h : Moves r r') (hopen : r'.decision = .pending) : r.decision = .pending := by
  by_contra hne
  exact hne ((h.decided hne).symm.trans hopen)

theorem Synced.moves (h : Synced o r) (hm : Moves r r') : Synced o r' where
  label := h.label.trans hm.label.symm
  comment := h.comment.trans hm.comment.symm
  token := fun hopen => (h.token (hm.open hopen)).trans (hm.token hopen).symm
  decision := h.decision
  decided := by
    intro hne
    have hr := h.decided hne
    exact (hm.decided (hr ▸ hne)).trans hr
  rowLabel := h.rowLabel.trans hm.label.symm
  rowComment := h.rowComment.trans hm.comment.symm
  rowToken := fun hopen => (h.rowToken (hm.open hopen)).trans (hm.token hopen).symm

end Objects

/-! ## The invariant -/

/-- The decision whose comment carries the marker. -/
def Marker.decision : Marker → ApprovalDecision
  | approval => .approved
  | rejection => .rejected

theorem Marker.decision_inj {m m' : Marker} (h : m.decision = m'.decision) : m = m' := by
  cases m <;> cases m' <;> first | rfl | cases h

theorem Marker.decision_ne (m : Marker) : m.decision ≠ .pending := by
  cases m <;> exact nofun

/-- What holds of the outside world and the row while the handler is at a stage. -/
def StageOk (cfg : Config) (w : World) (r : ApprovalRequest) : Stage → Prop
  | .claimed | .failing _ => True
  | .findMessage o | .finish o => Synced o r
  | .storeToken o => Synced o r ∧ w.messages = []
  | .postMessage o token => Synced o r ∧ w.messages = [] ∧
      (r.decision = .pending → r.actionTokenHash = some (cfg.hashActionToken token))
  | .getIssue o | .storeLabel o | .replay o => Synced o r ∧ r.decision = .approved
  | .storeLabelIntent o => Synced o r ∧ r.decision = .approved ∧ w.labelAdditions = 0
  | .checkLabel o | .postLabel o => Synced o r ∧ r.decision = .approved ∧
      w.labelAdditions = 0 ∧ r.labelRequestedAt.isSome
  | .findComment o m => Synced o r ∧ r.decision = m.decision ∧ r.commentRequestedAt.isSome
  | .storeCommentIntent o m => Synced o r ∧ r.decision = m.decision ∧ w.comments = []
  | .postComment o m => Synced o r ∧ r.decision = m.decision ∧ w.comments = [] ∧
      r.commentRequestedAt.isSome

/-- What was accepted, and the intents in the row that a later dispatch will find. -/
structure Accounted (cfg : Config) (w : World) (r : ApprovalRequest) : Prop where
  messages : w.messages.length ≤ 1
  token : r.decision = .pending → ∀ t ∈ w.messages, r.actionTokenHash = some (cfg.hashActionToken t)
  additions : w.labelAdditions ≤ 1
  labelIntent : w.labelAdditions ≠ 0 → w.labelled = true ∧ r.labelRequestedAt.isSome
  comments : w.comments.length ≤ 1
  commentIntent : ∀ m ∈ w.comments, r.commentRequestedAt.isSome ∧ r.decision = m.decision

structure Inv (cfg : Config) (s : State) : Prop where
  accounted : Accounted cfg s.world s.request
  stage : ∀ kind stage, s.dispatch = some (kind, stage) → StageOk cfg s.world s.request stage

section Stages

variable {cfg : Config} {w : World} {r r' : ApprovalRequest} {o : RequestObj}

theorem Accounted.moves (h : Accounted cfg w r) (hm : Moves r r') : Accounted cfg w r' where
  messages := h.messages
  token := fun hopen t ht => (hm.token hopen).trans (h.token (hm.open hopen) t ht)
  additions := h.additions
  labelIntent := by
    rw [hm.label]
    exact h.labelIntent
  comments := h.comments
  commentIntent := by
    intro m hmem
    obtain ⟨hreq, hdec⟩ := h.commentIntent m hmem
    rw [hm.comment]
    exact ⟨hreq, (hm.decided (hdec ▸ m.decision_ne)).trans hdec⟩

theorem StageOk.moves {stage : Stage} (h : StageOk cfg w r stage) (hm : Moves r r') :
    StageOk cfg w r' stage := by
  have happroved : r.decision = .approved → r'.decision = .approved := fun ha =>
    (hm.decided (ha ▸ nofun)).trans ha
  have hmarker : ∀ m : Marker, r.decision = m.decision → r'.decision = m.decision := fun m hd =>
    (hm.decided (hd ▸ m.decision_ne)).trans hd
  cases stage with
  | claimed => trivial
  | failing permanent => trivial
  | findMessage o => exact Synced.moves h hm
  | finish o => exact Synced.moves h hm
  | storeToken o => exact ⟨h.1.moves hm, h.2⟩
  | postMessage o token =>
      exact ⟨h.1.moves hm, h.2.1, fun hopen => (hm.token hopen).trans (h.2.2 (hm.open hopen))⟩
  | getIssue o => exact ⟨h.1.moves hm, happroved h.2⟩
  | storeLabel o => exact ⟨h.1.moves hm, happroved h.2⟩
  | replay o => exact ⟨h.1.moves hm, happroved h.2⟩
  | storeLabelIntent o => exact ⟨h.1.moves hm, happroved h.2.1, h.2.2⟩
  | checkLabel o => exact ⟨h.1.moves hm, happroved h.2.1, h.2.2.1, hm.label ▸ h.2.2.2⟩
  | postLabel o => exact ⟨h.1.moves hm, happroved h.2.1, h.2.2.1, hm.label ▸ h.2.2.2⟩
  | findComment o m => exact ⟨h.1.moves hm, hmarker m h.2.1, hm.comment ▸ h.2.2⟩
  | storeCommentIntent o m => exact ⟨h.1.moves hm, hmarker m h.2.1, h.2.2⟩
  | postComment o m => exact ⟨h.1.moves hm, hmarker m h.2.1, h.2.2.1, hm.comment ▸ h.2.2.2⟩

/-- Nobody has commented while no intent is stored. -/
theorem Accounted.comments_eq_nil (h : Accounted cfg w r) (hnone : r.commentRequestedAt = none) :
    w.comments = [] := by
  cases hc : w.comments with
  | nil => rfl
  | cons m ms =>
      have hreq := (h.commentIntent m (by simp [hc])).1
      rw [hnone] at hreq
      cases hreq

theorem ensureComment_ok {m : Marker} (h : Accounted cfg w r) (ho : Synced o r)
    (hm : r.decision = m.decision) : StageOk cfg w r (ensureComment o m) := by
  unfold ensureComment
  split
  · next hreq =>
      rw [ho.rowComment] at hreq
      exact ⟨ho, hm, hreq⟩
  · next hreq =>
      rw [ho.rowComment, Option.not_isSome_iff_eq_none] at hreq
      exact ⟨ho, hm, h.comments_eq_nil hreq⟩

theorem auditComment_ok (h : Accounted cfg w r) (ho : Synced o r) (ha : r.decision = .approved) :
    StageOk cfg w r (auditComment o) := by
  unfold auditComment
  split
  · exact ensureComment_ok h ho ha
  · exact ho.set rfl rfl rfl rfl

theorem onIssue_ok (h : Accounted cfg w r) (ho : Synced o r) (ha : r.decision = .approved) :
    StageOk cfg w r (onIssue w.labelled o) := by
  unfold onIssue
  split
  · split
    · exact ⟨ho, ha⟩
    · next hnot =>
        refine ⟨ho, ha, ?_⟩
        by_contra hne
        obtain ⟨hlabelled, hreq⟩ := h.labelIntent hne
        exact hnot ⟨by rw [ho.rowLabel]; exact hreq, hlabelled⟩
  · exact auditComment_ok h ho ha

theorem load_ok (h : Accounted cfg w r) (kind : Kind) (allowed : Bool) :
    StageOk cfg w r (load kind allowed r) := by
  cases kind with
  | slackApprovalRequest =>
      simp only [load, slackApprovalRequest]
      split
      · exact synced_self r
      · next hgo =>
          have hopen : r.decision = .pending := by
            by_contra hne
            exact hgo (.inr (.inl hne))
          split
          · exact synced_self r
          · next hnone =>
              refine ⟨synced_self r, ?_⟩
              -- a message would have left the hash of its token
              cases hm : w.messages with
              | nil => rfl
              | cons t ts =>
                  have hhash := h.token hopen t (by simp [hm])
                  rw [hhash] at hnone
                  exact absurd rfl hnone
  | githubApplyLabel =>
      simp only [load, githubApplyLabel]
      split
      · trivial
      · next hgo =>
          refine ⟨synced_self r, ?_⟩
          by_contra hne
          exact hgo (.inl hne)
  | githubRejectionComment =>
      simp only [load, githubRejectionComment]
      split
      · trivial
      · next hrejected =>
          split
          · exact synced_self r
          · split
            · trivial
            · exact ensureComment_ok h (synced_self r) (not_not.mp hrejected)

theorem commented_synced (ho : Synced o r) (m : Marker) (id : Nat) : Synced (commented o m id) r := by
  cases m <;> exact ho.set rfl rfl rfl rfl

theorem afterRead_ok {stage next : Stage} {answer : Answer} (h : Accounted cfg w r)
    (hok : StageOk cfg w r stage) (hnext : afterRead w stage answer = some next) :
    StageOk cfg w r next := by
  cases stage with
  | findMessage o =>
      cases answer with
      | ok =>
          cases hnext
          split
          · next hnone => exact ⟨hok, hnone⟩
          · exact Synced.set hok rfl rfl rfl rfl
      | refused => cases hnext; trivial
      | retryable => cases hnext; trivial
  | getIssue o =>
      cases answer with
      | ok =>
          cases hnext
          exact onIssue_ok h hok.1 hok.2
      | refused => cases hnext; trivial
      | retryable => cases hnext; trivial
  | checkLabel o =>
      cases answer with
      | ok =>
          cases hnext
          split
          · exact ⟨hok.1, hok.2.1⟩
          · exact hok
      | refused => cases hnext; trivial
      | retryable => cases hnext; trivial
  | findComment o m =>
      cases answer with
      | ok =>
          cases hnext
          split
          · exact commented_synced hok.1 m _
          · next hnew =>
              refine ⟨hok.1, hok.2.1, ?_, hok.2.2⟩
              -- a comment on the request would carry this marker
              cases hc : w.comments with
              | nil => rfl
              | cons m' ms =>
                  have hm' := (h.commentIntent m' (by simp [hc])).2
                  have heq : m = m' := Marker.decision_inj (hok.2.1.symm.trans hm')
                  exact absurd (by simp [hc, heq]) hnew
      | refused => cases hnext; trivial
      | retryable => cases hnext; trivial
  | _ => cases hnext

/-- A commit keeps the account if the object carries the intents. -/
theorem Accounted.commit (h : Accounted cfg w r) (ho : Tracks o r)
    (hlabel : w.labelAdditions ≠ 0 → o.row.labelRequestedAt.isSome)
    (hcomment : w.comments ≠ [] → o.row.commentRequestedAt.isSome)
    (htoken : r.decision = .pending → ∀ t ∈ w.messages,
      o.row.actionTokenHash = some (cfg.hashActionToken t)) : Accounted cfg w (o.merge r) where
  messages := h.messages
  token := by
    intro hopen t ht
    rw [ho.merge_decision] at hopen
    rw [ho.merge_token hopen]
    exact htoken hopen t ht
  additions := h.additions
  labelIntent := by
    intro hne
    rw [ho.merge_label]
    exact ⟨(h.labelIntent hne).1, hlabel hne⟩
  comments := h.comments
  commentIntent := by
    intro m hm
    rw [ho.merge_comment, ho.merge_decision]
    exact ⟨hcomment (List.ne_nil_of_mem hm), (h.commentIntent m hm).2⟩

theorem Accounted.commit_synced (h : Accounted cfg w r) (ho : Synced o r) :
    Accounted cfg w (o.merge r) := by
  refine h.commit ho.toTracks ?_ ?_ ?_
  · intro hne
    rw [ho.rowLabel]
    exact (h.labelIntent hne).2
  · intro hne
    obtain ⟨m, hm⟩ := List.exists_mem_of_ne_nil _ hne
    rw [ho.rowComment]
    exact (h.commentIntent m hm).1
  · intro hopen t ht
    rw [ho.rowToken hopen]
    exact h.token hopen t ht

theorem commitStage_ok {stage next : Stage} {o' : RequestObj} {now : Nat} {token : String}
    {confirms : Bool} (h : Accounted cfg w r) (hok : StageOk cfg w r stage)
    (hnext : commitStage cfg now token confirms stage = some (o', next)) :
    Accounted cfg w (o'.merge r) ∧ StageOk cfg w (o'.merge r) next := by
  cases stage with
  | storeToken o =>
      cases hnext
      obtain ⟨ho, hnone⟩ := hok
      have ht : Tracks (withToken cfg o token) r := ho.toTracks.set rfl
      refine ⟨h.commit ht ?_ ?_ ?_, ht.commit, hnone, ?_⟩
      · intro hne
        exact ho.rowLabel ▸ (h.labelIntent hne).2
      · intro hne
        obtain ⟨m, hm⟩ := List.exists_mem_of_ne_nil _ hne
        exact ho.rowComment ▸ (h.commentIntent m hm).1
      · intro _ t hmem
        rw [hnone] at hmem
        cases hmem
      · intro hopen
        rw [ht.merge_decision] at hopen
        exact ht.merge_token hopen
  | storeLabelIntent o =>
      cases hnext
      obtain ⟨ho, happroved, hzero⟩ := hok
      have ht : Tracks (o.set { o.row with labelRequestedAt := some now }) r := ho.toTracks.set rfl
      refine ⟨h.commit ht (fun _ => rfl) ?_ ?_, ht.commit, ht.merge_decision.trans happroved, hzero,
        by rw [ht.merge_label]; rfl⟩
      · intro hne
        obtain ⟨m, hm⟩ := List.exists_mem_of_ne_nil _ hne
        exact ho.rowComment ▸ (h.commentIntent m hm).1
      · exact fun hopen t hmem => (ho.rowToken hopen).trans (h.token hopen t hmem)
  | storeLabel o =>
      cases hnext
      obtain ⟨ho, happroved⟩ := hok
      have hset : Synced (o.set { o.row with
          labelAppliedAt := some now, deliveryStatus := .labelApplied }) r :=
        ho.set rfl rfl rfl rfl
      exact ⟨h.commit_synced hset, hset.commit, hset.merge_decision.trans happroved⟩
  | replay o =>
      cases hnext
      obtain ⟨ho, happroved⟩ := hok
      have hset : Synced (if confirms then o.set { o.row with
          deliveryStatus := .confirmed, labelConfirmedAt := some now } else o) r := by
        split
        · exact ho.set rfl rfl rfl rfl
        · exact ho
      have hacc := h.commit_synced hset
      exact ⟨hacc, auditComment_ok hacc hset.commit (hset.merge_decision.trans happroved)⟩
  | storeCommentIntent o m =>
      cases hnext
      obtain ⟨ho, hmarker, hnone⟩ := hok
      have ht : Tracks (o.set { o.row with commentRequestedAt := some now }) r :=
        ho.toTracks.set rfl
      refine ⟨h.commit ht ?_ (fun _ => rfl) ?_, ht.commit, ht.merge_decision.trans hmarker, hnone,
        by rw [ht.merge_comment]; rfl⟩
      · intro hne
        exact ho.rowLabel ▸ (h.labelIntent hne).2
      · exact fun hopen t hmem => (ho.rowToken hopen).trans (h.token hopen t hmem)
  | _ => cases hnext

/-- An accepted write is the first of its kind. -/
theorem post_ok {stage : Stage} (h : Accounted cfg w r) (hok : StageOk cfg w r stage) :
    Accounted cfg (w.post stage) r := by
  cases stage with
  | postMessage o token =>
      obtain ⟨-, hnone, hhash⟩ := hok
      refine { h with messages := ?_, token := ?_ }
      · simp [World.post, hnone]
      · intro hopen t ht
        have heq : t = token := by simpa [World.post, hnone] using ht
        rw [heq]
        exact hhash hopen
  | postLabel o =>
      obtain ⟨-, -, hzero, hreq⟩ := hok
      refine { h with additions := ?_, labelIntent := fun _ => ⟨rfl, hreq⟩ }
      simp [World.post, hzero]
  | postComment o m =>
      obtain ⟨-, hmarker, hnone, hreq⟩ := hok
      refine { h with comments := ?_, commentIntent := ?_ }
      · simp [World.post, hnone]
      · intro m' hm'
        have heq : m' = m := by simpa [World.post, hnone] using hm'
        rw [heq]
        exact ⟨hreq, hmarker⟩
  | _ => exact h

theorem afterPost_ok {stage next : Stage} {outcome : Outcome} (hok : StageOk cfg w r stage)
    (hnext : afterPost w stage outcome = some next) (w' : World) : StageOk cfg w' r next := by
  cases stage with
  | postMessage o token =>
      cases outcome with
      | accepted =>
          cases hnext
          exact hok.1.set rfl rfl rfl rfl
      | lost => cases hnext; trivial
      | refused permanent => cases hnext; trivial
  | postLabel o =>
      cases outcome with
      | accepted =>
          cases hnext
          exact ⟨hok.1, hok.2.1⟩
      | lost => cases hnext; trivial
      | refused permanent => cases hnext; trivial
  | postComment o m =>
      cases outcome with
      | accepted =>
          cases hnext
          exact commented_synced hok.1 m _
      | lost => cases hnext; trivial
      | refused permanent => cases hnext; trivial
  | _ => cases hnext

end Stages

/-! ## What the others write -/

theorem moves_onTerminalFailure (kind : Kind) (r : ApprovalRequest) :
    Moves r (onTerminalFailure kind r) := by
  unfold onTerminalFailure
  split
  · exact ⟨rfl, rfl, fun _ => rfl, fun _ => rfl⟩
  · split <;> exact ⟨rfl, rfl, fun _ => rfl, fun _ => rfl⟩
  · exact ⟨rfl, rfl, fun _ => rfl, fun _ => rfl⟩

theorem moves_requeue (kind : Kind) (r : ApprovalRequest) : Moves r (requeue kind r) := by
  unfold requeue
  split
  · split <;> exact ⟨rfl, rfl, fun _ => rfl, fun _ => rfl⟩
  · split <;> exact ⟨rfl, rfl, fun _ => rfl, fun _ => rfl⟩
  · exact ⟨rfl, rfl, fun _ => rfl, fun _ => rfl⟩

theorem moves_decide (cfg : Config) {decision : ApprovalDecision} {r : ApprovalRequest}
    (hopen : r.decision = .pending) (hdecided : decision ≠ .pending) :
    Moves r (decide cfg decision r) where
  label := rfl
  comment := rfl
  decided := fun hne => absurd hopen hne
  token := fun h => absurd h hdecided

theorem Inv.moves {cfg : Config} {s : State} {r' : ApprovalRequest} (h : Inv cfg s)
    (hm : Moves s.request r') : Inv cfg { s with request := r' } where
  accounted := h.accounted.moves hm
  stage := fun kind stage hd => (h.stage kind stage hd).moves hm

theorem Inv.idle {cfg : Config} {w : World} {r : ApprovalRequest} (h : Accounted cfg w r) :
    Inv cfg { request := r, world := w, dispatch := none } where
  accounted := h
  stage := by
    intro kind stage hd
    cases hd

theorem Inv.running {cfg : Config} {w : World} {r : ApprovalRequest} {kind : Kind} {stage : Stage}
    (h : Accounted cfg w r) (hok : StageOk cfg w r stage) :
    Inv cfg { request := r, world := w, dispatch := some (kind, stage) } where
  accounted := h
  stage := by
    intro kind' stage' hd
    cases hd
    exact hok

/-! ## Runs -/

theorem inv_init (cfg : Config) (attemptId : Nat) (resultHash : String)
    (createdAt tokenExpiresAt : Nat) (labelled : Bool) :
    Inv cfg (init attemptId resultHash createdAt tokenExpiresAt labelled) where
  accounted := {
    messages := Nat.zero_le _
    token := fun _ _ ht => absurd ht List.not_mem_nil
    additions := Nat.zero_le _
    labelIntent := fun h => absurd rfl h
    comments := Nat.zero_le _
    commentIntent := fun _ hm => absurd hm List.not_mem_nil }
  stage := by
    intro kind stage hd
    cases hd

theorem inv_step {cfg : Config} {s s' : State} {a : Act} (h : Inv cfg s)
    (hs : step cfg s a = some s') : Inv cfg s' := by
  cases a with
  | begin kind =>
      simp only [step] at hs
      split at hs
      · cases hs
        exact .running h.accounted trivial
      · cases hs
  | load allowed =>
      simp only [step] at hs
      split at hs
      · cases hs
        exact .running h.accounted (load_ok h.accounted _ _)
      · cases hs
  | read answer =>
      obtain ⟨⟨kind, stage⟩, hd, hs⟩ := Option.bind_eq_some_iff.mp hs
      obtain ⟨next, hnext, hs⟩ := Option.bind_eq_some_iff.mp hs
      cases hs
      exact .running h.accounted (afterRead_ok h.accounted (h.stage kind stage hd) hnext)
  | commit now token confirms =>
      obtain ⟨⟨kind, stage⟩, hd, hs⟩ := Option.bind_eq_some_iff.mp hs
      obtain ⟨⟨o, next⟩, hnext, hs⟩ := Option.bind_eq_some_iff.mp hs
      cases hs
      obtain ⟨hacc, hok⟩ := commitStage_ok h.accounted (h.stage kind stage hd) hnext
      exact .running hacc hok
  | post outcome =>
      obtain ⟨⟨kind, stage⟩, hd, hs⟩ := Option.bind_eq_some_iff.mp hs
      obtain ⟨next, hnext, hs⟩ := Option.bind_eq_some_iff.mp hs
      cases hs
      have hok := h.stage kind stage hd
      refine .running ?_ (afterPost_ok hok hnext _)
      split
      · exact post_ok h.accounted hok
      · exact h.accounted
  | finish =>
      simp only [step] at hs
      split at hs
      · next kind o hd =>
          cases hs
          exact .idle (h.accounted.commit_synced (h.stage kind _ hd))
      · cases hs
  | settle exhausted =>
      simp only [step] at hs
      split at hs
      · cases hs
        refine .idle ?_
        split
        · exact h.accounted.moves (moves_onTerminalFailure _ _)
        · exact h.accounted
      · cases hs
  | crash =>
      cases hs
      exact .idle h.accounted
  | requeue kind =>
      cases hs
      exact h.moves (moves_requeue kind _)
  | decide decision =>
      simp only [step] at hs
      split at hs
      · next hcond =>
          cases hs
          exact h.moves (moves_decide cfg hcond.1 hcond.2)
      · cases hs
  | confirm now =>
      cases hs
      exact h.moves ⟨rfl, rfl, fun _ => rfl, fun _ => rfl⟩
  | labelByOthers =>
      cases hs
      refine ⟨{ h.accounted with labelIntent := fun hne => ⟨rfl, (h.accounted.labelIntent hne).2⟩ }, ?_⟩
      intro kind stage hd
      have hok := h.stage kind stage hd
      cases stage <;> exact hok

/-- **External writes happen once.** In every run, Slack has accepted one message for the request
at most, and while the request is open its row holds the hash of that message's token; GitHub has
accepted one label addition and one comment at most. -/
theorem written_once (cfg : Config) (attemptId : Nat) (resultHash : String)
    (createdAt tokenExpiresAt : Nat) (labelled : Bool) (s : State)
    (hs : Machine.Reaches (step cfg) (fun _ _ => true)
      (init attemptId resultHash createdAt tokenExpiresAt labelled) s) :
    s.world.messages.length ≤ 1 ∧
      (s.request.decision = .pending → ∀ t ∈ s.world.messages,
        s.request.actionTokenHash = some (cfg.hashActionToken t)) ∧
      s.world.labelAdditions ≤ 1 ∧ s.world.comments.length ≤ 1 := by
  have hinv : Inv cfg s :=
    hs.inv (inv_init cfg attemptId resultHash createdAt tokenExpiresAt labelled)
      (fun _ _ _ h _ hstep => inv_step h hstep)
  exact ⟨hinv.accounted.messages, hinv.accounted.token, hinv.accounted.additions,
    hinv.accounted.comments⟩

/-- The answer to the message is lost, and so is the process that posts the label. -/
theorem written_once_demo :
    ∃ s, Machine.Reaches (step ⟨fun t => "sha256:" ++ t, fun h => "retired:" ++ h⟩)
        (fun _ _ => true) (init 0 "result" 10 20 false) s ∧
      (s.world.messages, s.world.labelAdditions, s.world.comments) =
        (["second"], 1, [Marker.approval]) ∧
      s.world.messages.length ≤ 1 ∧ s.world.labelAdditions ≤ 1 ∧ s.world.comments.length ≤ 1 := by
  obtain ⟨s, hs, hview⟩ := Machine.exists_of_runAll
    (step ⟨fun t => "sha256:" ++ t, fun h => "retired:" ++ h⟩) (fun _ _ => true)
    (init 0 "result" 10 20 false)
    [.begin .slackApprovalRequest, .load true, .commit 11 "first" false, .crash,
      .begin .slackApprovalRequest, .load true, .read .ok, .commit 12 "second" false, .post .lost,
      .settle false,
      .begin .slackApprovalRequest, .load true, .read .ok, .finish, .decide .approved,
      .begin .githubApplyLabel, .load true, .read .ok, .commit 13 "" false, .read .ok,
      .post .accepted, .crash,
      .begin .githubApplyLabel, .load true, .read .ok, .commit 14 "" false, .commit 14 "" false,
      .commit 15 "" false, .post .lost, .settle true, .requeue .githubApplyLabel,
      .begin .githubApplyLabel, .load true, .read .ok, .read .ok, .finish]
    (fun s => (s.world.messages, s.world.labelAdditions, s.world.comments))
    (["second"], 1, [Marker.approval]) (by decide)
  obtain ⟨hmessages, -, hlabels, hcomments⟩ := written_once _ 0 "result" 10 20 false s hs
  exact ⟨s, hs, hview, hmessages, hlabels, hcomments⟩

end Remediator.Outbox.Delivery
