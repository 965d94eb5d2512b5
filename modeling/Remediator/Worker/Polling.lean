import Remediator.Clients.Devin
import Remediator.Effects
import Remediator.Runs
import Remediator.Worker.Loop

set_option autoImplicit false

/-! # Reads of a session that is polled

The poll loop of the runner over the live client. The loop tolerates a `DevinError`; a reply
that the client accepts and cannot decode leaves it as another exception, and the handlers of
the worker loop end the attempt.
-/

namespace Remediator

open Interleave Json

/-! ## What the client makes of the replies -/

namespace Clients

/-- `LiveDevinClient`, as it reads sessions. -/
structure LiveDevinClient where
  maxRetries : Nat
  /-- `repr`, as `str` uses it; it raises where a value is nested too deeply -/
  repr : Value → Except Exc String
  /-- the structured output as the attempt stores it -/
  document : List (String × Value) → Doc

/-- The replies to the requests of one read. -/
abbrev Exchanges := Nat → Reply Body

/-- The snapshot as the runner looks at it. -/
def LiveDevinClient.observed (c : LiveDevinClient) (snap : SessionSnapshot) :
    Devin.SessionSnapshot where
  status := snap.status
  statusDetail := snap.statusDetail.getD ""
  structuredOutput := snap.structuredOutput.map c.document
  pullRequests := snap.pullRequests

/-- What one read is to the runner, and the exception that is no `DevinError`. -/
def LiveDevinClient.answer (c : LiveDevinClient) (replies : Exchanges) : GetResult × Option Fault :=
  match getSession c.repr c.maxRetries replies with
  | .ok snap => (.snapshot (c.observed snap), none)
  | .error (.client .sessionNotFound) => (.notFound, none)
  | .error (.client _) => (.error, none)
  | .error (.python _) => (.error, some .other)

/-- `str(value)` does not raise. -/
def Printable (repr : Value → Except Exc String) (value : Value) : Prop :=
  ∃ text, value.display repr = .ok text

/-- The body is a session: an object with an id whose time, tags and consumption can be read and
whose texts can be printed. -/
structure IsSession (repr : Value → Except Exc String) (payload : List (String × Value))
    (tags : List Value) : Prop where
  id : (List.lookup "session_id" payload).isSome = true
  updatedAt : readUpdatedAt (List.lookup "updated_at" payload) = .ok ()
  iterates : iterateOrNil (List.lookup "tags" payload) = .ok tags
  acus : readAcus (List.lookup "acus_consumed" payload) = .ok ()
  texts : ∀ key ∈ ["session_id", "url", "status", "status_detail"],
    ∀ value, List.lookup key payload = some value → Printable repr value
  printed : ∀ tag ∈ tags, Printable repr tag

def Decodable (repr : Value → Except Exc String) (body : Body) : Prop :=
  ∃ payload tags, body.json = .ok (.dict payload) ∧ IsSession repr payload tags

/-- A message can be made of the body: it is JSON that can be printed, or no JSON but a text. -/
def Readable (repr : Value → Except Exc String) (body : Body) : Prop :=
  ∃ message, problemMessage repr body = .ok message

/-- The client asks once more. -/
def Retried (repr : Value → Except Exc String) : Reply Body → Prop
  | .failed _ => True
  | .response status body => status ∈ devinRetryable ∧ Readable repr body

/-- The client can make nothing of the reply: it is an error whose message cannot be read, or it
has no error status and is not a session. -/
def Unreadable (repr : Value → Except Exc String) (status : Nat) (body : Body) : Prop :=
  if status ∈ devinRetryable ∨ 400 ≤ status then ¬ Readable repr body else ¬ Decodable repr body

/-- The read comes to a reply that the client can make nothing of. -/
def LiveDevinClient.Undecodable (c : LiveDevinClient) (replies : Exchanges) : Prop :=
  ∃ k status body, k ≤ c.maxRetries ∧ (∀ j < k, Retried c.repr (replies j)) ∧
    replies k = .response status body ∧ Unreadable c.repr status body

section Snapshots

variable {repr : Value → Except Exc String}

theorem displayed_ok_iff {found : Option Value} :
    (∃ text, displayed repr found = .ok text) ↔ ∀ value, found = some value → Printable repr value := by
  cases found with
  | none => exact ⟨fun _ => nofun, fun _ => ⟨"", rfl⟩⟩
  | some value => exact ⟨fun h v hv => Option.some.inj hv ▸ h, fun h => h value rfl⟩

theorem displayedOrNone_ok_iff {found : Option Value} :
    (∃ text, displayedOrNone repr found = .ok text) ↔
      ∀ value, found = some value → Printable repr value := by
  cases found with
  | none => exact ⟨fun _ => nofun, fun _ => ⟨none, rfl⟩⟩
  | some value =>
      have hsome : (∃ text, (value.display repr).map some = .ok text) ↔ Printable repr value := by
        unfold Printable
        cases value.display repr <;> simp [Except.map]
      have hall : (∀ v, some value = some v → Printable repr v) ↔ Printable repr value :=
        ⟨fun h => h value rfl, fun h v hv => Option.some.inj hv ▸ h⟩
      rw [hall]
      cases value with
      | null => exact ⟨fun _ => ⟨_, rfl⟩, fun _ => ⟨none, rfl⟩⟩
      | _ => exact hsome

theorem mapM_ok_iff {α β ε : Type} {f : α → Except ε β} {xs : List α} :
    (∃ ys, xs.mapM f = .ok ys) ↔ ∀ x ∈ xs, ∃ y, f x = .ok y := by
  induction xs with
  | nil => exact ⟨fun _ => nofun, fun _ => ⟨[], rfl⟩⟩
  | cons x xs ih =>
      rw [List.forall_mem_cons, ← ih]
      simp only [List.mapM_cons, bind, Except.bind, pure, Except.pure]
      cases f x with
      | error e => simp
      | ok y => cases List.mapM f xs <;> simp

/-- A step of a computation that succeeds. -/
theorem bind_ok_iff {α β ε : Type} {x : Except ε α} {f : α → Except ε β} :
    (∃ b, x >>= f = .ok b) ↔ ∃ a, x = .ok a ∧ ∃ b, f a = .ok b := by
  cases x with
  | error e => exact ⟨fun ⟨_, h⟩ => (by cases h), fun ⟨_, h, _⟩ => (by cases h)⟩
  | ok a =>
      constructor
      · rintro ⟨b, h⟩
        exact ⟨a, rfl, b, h⟩
      · rintro ⟨a', ha, h⟩
        cases ha
        exact h

theorem parseSnapshot_ok_iff (value : Value) :
    (∃ snap, parseSnapshot repr value = .ok snap) ↔
      ∃ payload tags, value = .dict payload ∧ IsSession repr payload tags := by
  cases value with
  | dict payload =>
      unfold parseSnapshot
      constructor
      · intro h
        obtain ⟨u, hupdated, h⟩ := bind_ok_iff.mp h
        cases hid : List.lookup "session_id" payload with
        | none =>
            rw [hid] at h
            obtain ⟨snap, h⟩ := h
            cases h
        | some sessionId =>
            rw [hid] at h
            obtain ⟨id, hsession, h⟩ := bind_ok_iff.mp h
            obtain ⟨url, hurl, h⟩ := bind_ok_iff.mp h
            obtain ⟨status, hstatus, h⟩ := bind_ok_iff.mp h
            obtain ⟨detail, hdetail, h⟩ := bind_ok_iff.mp h
            obtain ⟨tags, htags, h⟩ := bind_ok_iff.mp h
            obtain ⟨texts, htexts, h⟩ := bind_ok_iff.mp h
            obtain ⟨u', hacus, -⟩ := bind_ok_iff.mp h
            refine ⟨payload, tags, rfl, by rw [hid]; rfl, hupdated, htags, hacus, ?_,
              mapM_ok_iff.mp ⟨texts, htexts⟩⟩
            simp only [List.forall_mem_cons, List.not_mem_nil, false_implies, implies_true, and_true]
            refine ⟨fun v hv => ?_, displayed_ok_iff.mp ⟨url, hurl⟩,
              displayed_ok_iff.mp ⟨status, hstatus⟩, displayedOrNone_ok_iff.mp ⟨detail, hdetail⟩⟩
            exact ⟨id, Option.some.inj (hid.symm.trans hv) ▸ hsession⟩
      · rintro ⟨payload', tags, heq, hsession⟩
        cases heq
        obtain ⟨sessionId, hid⟩ := Option.isSome_iff_exists.mp hsession.id
        have htext := fun key hkey => hsession.texts key hkey
        obtain ⟨id, hprinted⟩ := htext "session_id" (by simp) sessionId hid
        obtain ⟨url, hurl⟩ := displayed_ok_iff.mpr (htext "url" (by simp))
        obtain ⟨status, hstatus⟩ := displayed_ok_iff.mpr (htext "status" (by simp))
        obtain ⟨detail, hdetail⟩ := displayedOrNone_ok_iff.mpr (htext "status_detail" (by simp))
        obtain ⟨texts, htexts⟩ := mapM_ok_iff.mpr hsession.printed
        refine bind_ok_iff.mpr ⟨(), hsession.updatedAt, ?_⟩
        rw [hid]
        refine bind_ok_iff.mpr ⟨id, hprinted, bind_ok_iff.mpr ⟨url, hurl, ?_⟩⟩
        refine bind_ok_iff.mpr ⟨status, hstatus, bind_ok_iff.mpr ⟨detail, hdetail, ?_⟩⟩
        refine bind_ok_iff.mpr ⟨tags, hsession.iterates, bind_ok_iff.mpr ⟨texts, htexts, ?_⟩⟩
        exact bind_ok_iff.mpr ⟨(), hsession.acus, ⟨_, rfl⟩⟩
  | null | bool _ | number _ | str _ | list _ =>
      refine ⟨fun ⟨_, h⟩ => ?_, fun ⟨_, _, h, _⟩ => ?_⟩
      · cases h
      · cases h

/-- The body of an accepted reply is a session exactly when the client makes a snapshot of it. -/
theorem decodable_iff (body : Body) :
    Decodable repr body ↔ ∃ value snap, body.json = .ok value ∧ parseSnapshot repr value = .ok snap := by
  constructor
  · rintro ⟨payload, tags, hjson, hsession⟩
    obtain ⟨snap, hsnap⟩ := (parseSnapshot_ok_iff (.dict payload)).mpr ⟨payload, tags, rfl, hsession⟩
    exact ⟨_, snap, hjson, hsnap⟩
  · rintro ⟨value, snap, hjson, hsnap⟩
    obtain ⟨payload, tags, rfl, hsession⟩ := (parseSnapshot_ok_iff value).mp ⟨snap, hsnap⟩
    exact ⟨payload, tags, hjson, hsession⟩

theorem not_readable_iff (body : Body) :
    ¬ Readable repr body ↔ ∃ e, problemMessage repr body = .error e := by
  unfold Readable
  cases problemMessage repr body <;> simp

end Snapshots

section Reads

variable (repr : Value → Except Exc String) (replies : Exchanges)

/-- What becomes of the payload of a read. -/
def read (payload : Except (Raised DevinError) Value) : Except (Raised DevinError) SessionSnapshot :=
  match payload with
  | .ok payload => escape (parseSnapshot repr payload)
  | .error e => .error e

/-- An exception of Python leaves the client. -/
def Escapes {α : Type} (r : Except (Raised DevinError) α) : Prop := ∃ e, r = .error (.python e)

theorem escapes_accepted (body : Body) :
    Escapes (read repr (escape body.json)) ↔ ¬ Decodable repr body := by
  rw [decodable_iff]
  unfold Escapes read
  cases body.json with
  | error e => simp [escape]
  | ok value => cases hsnap : parseSnapshot repr value <;> simp [escape, hsnap]

/-- The loop lets an exception of Python escape, or leads to a body that does, exactly when it
comes to a reply that the client can make nothing of. -/
theorem retryLoop_escapes (n k : Nat) (last : DevinError) :
    Escapes (read repr (retryLoop repr replies n k last)) ↔
      ∃ j status body, j < n ∧ (∀ i < j, Retried repr (replies (k + i))) ∧
        replies (k + j) = .response status body ∧ Unreadable repr status body := by
  induction n generalizing k last with
  | zero => simp [retryLoop, read, Escapes]
  | succ n ih =>
      -- a retried request moves the window by one
      have hnext : Retried repr (replies k) → ∀ last',
          (Escapes (read repr (retryLoop repr replies n (k + 1) last')) ↔
          ∃ j status body, j < n + 1 ∧ (∀ i < j, Retried repr (replies (k + i))) ∧
            replies (k + j) = .response status body ∧ Unreadable repr status body) := by
        intro hk last'
        rw [ih (k + 1) last']
        constructor
        · rintro ⟨j, status, body, hj, hpre, hat, hrest⟩
          refine ⟨j + 1, status, body, by omega, fun i hi => ?_, ?_, hrest⟩
          · cases i with
            | zero => exact hk
            | succ i =>
                have h := hpre i (by omega)
                rwa [show k + 1 + i = k + (i + 1) by omega] at h
          · rwa [show k + (j + 1) = k + 1 + j by omega]
        · rintro ⟨j, status, body, hj, hpre, hat, hun⟩
          cases j with
          | zero =>
              rw [Nat.add_zero] at hat
              rw [hat] at hk
              rw [Unreadable, if_pos (Or.inl hk.1)] at hun
              exact absurd hk.2 hun
          | succ j =>
              refine ⟨j, status, body, by omega, fun i hi => ?_, ?_, hun⟩
              · have h := hpre (i + 1) (by omega)
                rwa [show k + (i + 1) = k + 1 + i by omega] at h
              · rwa [show k + 1 + j = k + (j + 1) by omega]
      -- a request that is not retried is the last one
      have hend : ∀ status body, replies k = .response status body → ¬ Retried repr (replies k) →
          ((∃ j status body, j < n + 1 ∧ (∀ i < j, Retried repr (replies (k + i))) ∧
            replies (k + j) = .response status body ∧ Unreadable repr status body) ↔
          Unreadable repr status body) := by
        intro status body hreply hk
        constructor
        · rintro ⟨j, status', body', -, hpre, hat, hun⟩
          cases j with
          | zero =>
              rw [Nat.add_zero, hreply] at hat
              cases hat
              exact hun
          | succ j => exact absurd (hpre 0 (by omega)) hk
        · exact fun hun => ⟨0, status, body, by omega, fun i hi => by omega, hreply, hun⟩
      unfold retryLoop
      cases hk : replies k with
      | failed error => exact hnext (by rw [hk]; trivial) .transport
      | response status body =>
          dsimp only
          by_cases hretry : status ∈ devinRetryable
          · rw [if_pos hretry]
            cases hmessage : problemMessage repr body with
            | ok message => exact hnext (by rw [hk]; exact ⟨hretry, message, hmessage⟩) (.api status)
            | error e =>
                have hnot : ¬ Readable repr body := (not_readable_iff body).mpr ⟨e, hmessage⟩
                rw [hend status body hk (by rw [hk]; exact fun h => hnot h.2), Unreadable,
                  if_pos (Or.inl hretry)]
                exact iff_of_true ⟨e, rfl⟩ hnot
          · rw [if_neg hretry, hend status body hk (by rw [hk]; exact fun h => hretry h.1), Unreadable]
            by_cases hstatus : 400 ≤ status
            · rw [if_pos hstatus, if_pos (Or.inr hstatus), not_readable_iff]
              cases problemMessage repr body with
              | ok message => simp [Escapes, read]
              | error e => simp [Escapes, read]
            · rw [if_neg hstatus, if_neg (by simp [hretry, hstatus])]
              exact escapes_accepted repr body

end Reads

/-- The exceptions that are no `DevinError` come from the replies that the client can make nothing
of. -/
theorem getSession_python_iff (c : LiveDevinClient) (replies : Exchanges) :
    (∃ e, getSession c.repr c.maxRetries replies = .error (.python e)) ↔ c.Undecodable replies := by
  have hloop := retryLoop_escapes c.repr replies (c.maxRetries + 1) 0 .transport
  simp only [Nat.zero_add] at hloop
  have hundecodable : c.Undecodable replies ↔ ∃ j status body, j < c.maxRetries + 1 ∧
      (∀ i < j, Retried c.repr (replies i)) ∧ replies j = .response status body ∧
      Unreadable c.repr status body := by
    simp only [LiveDevinClient.Undecodable, Nat.lt_succ_iff]
  rw [hundecodable, ← hloop]
  unfold getSession getWithRetries Escapes read
  cases retryLoop c.repr replies (c.maxRetries + 1) 0 .transport with
  | ok value => exact Iff.rfl
  | error e =>
      cases e with
      | python e => exact iff_of_true ⟨e, rfl⟩ ⟨e, rfl⟩
      | client e =>
          refine iff_of_false ?_ (fun ⟨_, h⟩ => by cases h)
          rintro ⟨e', h⟩
          split at h
          · next hok => cases hok
          · cases h
          · next herror =>
              cases herror
              cases h

theorem answer_fault_iff (c : LiveDevinClient) (replies : Exchanges) :
    (c.answer replies).2 ≠ none ↔ c.Undecodable replies := by
  rw [← getSession_python_iff]
  unfold LiveDevinClient.answer
  cases getSession c.repr c.maxRetries replies with
  | ok snap => simp
  | error e =>
      cases e with
      | client e => cases e <;> simp
      | python e => simp

theorem answer_fault (c : LiveDevinClient) (replies : Exchanges) :
    (c.answer replies).2 = none ∨ (c.answer replies).2 = some .other := by
  unfold LiveDevinClient.answer
  cases getSession c.repr c.maxRetries replies with
  | ok snap => exact Or.inl rfl
  | error e =>
      cases e with
      | client e => cases e <;> exact Or.inl rfl
      | python e => exact Or.inr rfl

end Clients

/-! ## The loop and its handlers -/

/-- The handlers of `_iterate`, for the job of an event or of a case. -/
def Worker.handlers (w : Worker) : Option Nat → Err → P Unit
  | some event => w.onEventError event
  | none => w.onCaseError

abbrev PollStep := Prog.Step Store Input Op

/-- A classification that ends the poll loop. -/
def Devin.Disposition.final (d : Devin.Disposition) : Prop :=
  d = .failed ∨ d = .finished ∨ d = .waitingForHuman

/-- A reason to end a running attempt: the session is reported as gone, or a snapshot is
classified as an end; or a cancel or the deadline is seen in the database. -/
def Cause (deadline : Option Nat) (step : PollStep) : Prop :=
  match step.op with
  | .get _ _ res => step.answer.fault = none ∧ (res = .notFound ∨
      ∃ snap, res = .snapshot snap ∧ (Devin.disposition snap).disposition.final)
  | _ => step.store.case.state.terminating = true ∨
      deadline.any (fun t => decide (t ≤ step.store.now)) = true

/-- The step takes the attempt out of polling, or moves the case. -/
def Ends (attempt : Nat) (step : PollStep) : Prop :=
  ∃ o t, step.op = .commit o t ∧ (t.moves ≠ [] ∨ ∃ w ∈ t.writes, w.id = attempt ∧
    w.changed.status ≠ .running ∧ w.changed.status ≠ .reconciling)

def Reads (step : PollStep) : Prop := ∃ sid purpose res, step.op = .get sid purpose res

/-- The step records the read before it: the attempt is `RECONCILING`, or `RUNNING` when a
snapshot was read. -/
def Records (attempt : Nat) (read step : PollStep) : Prop :=
  ∃ o t w, step.op = .commit o t ∧ t.moves = [] ∧ t.writes = [w] ∧ w.id = attempt ∧
    (w.changed.status = .reconciling ∨ w.changed.status = .running ∧
      ∃ sid purpose snap, read.op = .get sid purpose (.snapshot snap) ∧ read.answer.fault = none)

/-- A read is answered with what the client makes of the replies; the database answers. -/
def Served (c : Clients.LiveDevinClient) (step : PollStep) (replies : Clients.Exchanges) : Prop :=
  match step.op with
  | .get _ _ res => (res, step.answer.fault) = c.answer replies
  | .skip | .commit _ _ => step.answer.fault = none
  | _ => True

/-! ## One action -/

/-- What a run needs of its answers: the database answers, and a read raises nothing that has to
do with it. -/
def Answered (step : PollStep) : Prop :=
  match step.op with
  | .get _ _ _ => step.answer.fault = none ∨ step.answer.fault = some .other
  | .skip | .commit _ _ => step.answer.fault = none
  | _ => True

theorem Served.answered {c : Clients.LiveDevinClient} {step : PollStep}
    {replies : Clients.Exchanges} (h : Served c step replies) : Answered step := by
  unfold Served at h
  unfold Answered
  cases hop : step.op with
  | get sid purpose res =>
      rw [hop] at h
      have hfault : step.answer.fault = (c.answer replies).2 := congrArg Prod.snd h
      dsimp only
      rw [hfault]
      exact Clients.answer_fault c replies
  | skip =>
      rw [hop] at h
      exact h
  | commit o t =>
      rw [hop] at h
      exact h
  | post o a r => trivial
  | delete sid res => trivial
  | find a purpose found => trivial
  | leave o => trivial
  | tick n => trivial
  | heartbeat o n => trivial
  | land a => trivial
  | receive e => trivial
  | setLabel on => trivial
  | deliver e => trivial

section Actions

variable {α : Type} {R : Store → Store → Prop} {s s' : Store} {l : List (Input × Store)}

theorem getSession_step {apply : Op → Store → Store} {sid : SessionId} {purpose : GetPurpose}
    {r : Except Err GetResult} (h : (getSession sid purpose).Runs apply R s l r s') :
    ∃ i s₁, (getSession sid purpose).steps l = [⟨i, s₁, .get sid purpose i.get⟩] ∧
      (i.fault = none ∧ r = .ok i.get ∨ ∃ f, i.fault = some f ∧ r = .error f.err) := by
  obtain ⟨i, s₁, l', -, rfl, hn⟩ := Prog.Runs.act_inv h
  refine ⟨i, s₁, ?_, ?_⟩
  · show _ :: (unlessFault i i.get).steps l' = _
    unfold unlessFault
    cases i.fault with
    | none => rfl
    | some f => rfl
  · unfold unlessFault at hn
    cases hf : i.fault with
    | none =>
        rw [hf] at hn
        exact Or.inl ⟨rfl, hn.ret_inv.2.1⟩
    | some f =>
        rw [hf] at hn
        exact Or.inr ⟨f, rfl, hn.raise_inv.2.1⟩

end Actions

/-! ## The rounds of the loop -/

/-- The step is of no account to the attempt. -/
structure Quiet (deadline : Option Nat) (attempt : Nat) (step : PollStep) : Prop where
  cause : ¬ Cause deadline step
  ends : ¬ Ends attempt step
  reads : ¬ Reads step

/-- The runs of the loop, round by round: it ends when a round finds a reason, when it is
followed no further, or with the exception of a read. -/
inductive Polled (deadline : Option Nat) (attempt : Nat) :
    List PollStep → Except Err (CaseState × RunOutcome) → Prop
  | out : Polled deadline attempt [] (.error .halt)
  | round {check read record : PollStep} {rest : List PollStep}
      {r : Except Err (CaseState × RunOutcome)} : Quiet deadline attempt check → Reads read →
      ¬ Cause deadline read → read.answer.fault = none → Records attempt read record →
      Polled deadline attempt rest r → Polled deadline attempt (check :: read :: record :: rest) r
  | caused {check : PollStep} (rest : List PollStep) (r : Except Err (CaseState × RunOutcome)) :
      Cause deadline check → Polled deadline attempt (check :: rest) r
  | final {check read : PollStep} (rest : List PollStep)
      (r : Except Err (CaseState × RunOutcome)) : Quiet deadline attempt check →
      Cause deadline read → Polled deadline attempt (check :: read :: rest) r
  | lost {check read : PollStep} : Quiet deadline attempt check → Reads read →
      read.answer.fault ≠ none → Polled deadline attempt [check, read] (.error .other)

theorem Polled.nil {deadline : Option Nat} {attempt : Nat}
    {r : Except Err (CaseState × RunOutcome)} (h : Polled deadline attempt [] r) :
    r = .error .halt := by
  cases h
  rfl

theorem terminating_iff (st : CaseState) :
    st.terminating = true ↔ st = .terminationPending ∨ st = .remediationTerminationPending := by
  simp [CaseState.terminating]

/-- The rest of a round, after the read. -/
def Runner.afterRead (r : Runner) (sid : SessionId) (n : Nat) (st : CaseState) (a : AttemptObj) :
    GetResult → P (CaseState × RunOutcome)
  | .notFound => r.fail st a
  | .error => do
      let a ← r.recordPoll a .reconciling (some .other)
      r.poll sid n st a
  | .snapshot snap =>
      match (Devin.disposition snap).disposition with
      | .unknown => do
          let a ← r.recordPoll a .reconciling (some .other)
          r.poll sid n st a
      | .live => do
          let a ← r.recordPoll a .running none
          r.poll sid n st a
      | d => do
          let a ← r.recordPoll a .running none
          r.settle st a snap d

/-- The rest of a round, after its check. -/
def Runner.afterCheck (r : Runner) (sid : SessionId) (n : Nat) (a : AttemptObj) :
    PollCheck → P (CaseState × RunOutcome)
  | .cancel st a => r.handleTimeout st a sid
  | .expired st => r.handleTimeout st a sid
  | .goOn st => getSession sid .settle >>= r.afterRead sid n st a

theorem poll_succ (r : Runner) (sid : SessionId) (n : Nat) (st : CaseState) (a : AttemptObj) :
    r.poll sid (n + 1) st a = r.pollCheck a >>= r.afterCheck sid n a := by
  unfold Runner.poll
  refine congrArg (r.pollCheck a).bind (funext fun check => ?_)
  cases check with
  | cancel st a => rfl
  | expired st => rfl
  | goOn st =>
      refine congrArg (getSession sid .settle).bind (funext fun got => ?_)
      cases got with
      | notFound => rfl
      | error => rfl
      | snapshot snap =>
          unfold Runner.afterRead
          cases hd : (Devin.disposition snap).disposition <;> simp only [hd]

section Rounds

variable (r : Runner) (sid : SessionId) {n : Nat} {st : CaseState} {a : AttemptObj}
  {R : Store → Store → Prop} {s s' : Store} {l : List (Input × Store)}
  {res : Except Err (CaseState × RunOutcome)}

end Rounds

/-! ## The handlers -/

theorem Served.fault {c : Clients.LiveDevinClient} {step : PollStep}
    {replies : Clients.Exchanges} (h : Served c step replies) (hreads : Reads step) :
    step.answer.fault ≠ none ↔ c.Undecodable replies := by
  obtain ⟨sid, purpose, res, hop⟩ := hreads
  unfold Served at h
  rw [hop] at h
  rw [← Clients.answer_fault_iff c replies, ← h]

section Verdict

variable {c : Clients.LiveDevinClient} {deadline : Option Nat} {attempt : Nat} {halted : Prop}
  {step : PollStep} {replies : Clients.Exchanges} {rest : List PollStep}
  {xs : List (PollStep × Clients.Exchanges)}

end Verdict

end Remediator
