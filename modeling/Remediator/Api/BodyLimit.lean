import Mathlib.Algebra.Ring.Nat
import Mathlib.Data.List.Induction
import Remediator.Lib.Text

set_option autoImplicit false

/-! # The body limit

`BodySizeLimitMiddleware` of `api/hardening.py` counts the body as the application reads it. The
application drives it in any order: its tasks may wait in `limited_receive` and in `guarded_send`
at once, so the model takes one event at a time, each of them a piece of the code between two
awaits that can be interrupted.
-/

namespace Remediator

/-- A message of the server: `message["type"]` and `message.get("body", b"")`. -/
structure Inbound where
  type : String
  body : List UInt8
  deriving DecidableEq, Repr

/-- A message of the application, or of `JSONResponse`. -/
inductive Outbound
  | start (status : ℕ)
  | body (content : String)
  | other (type : String)
  deriving DecidableEq, Repr

def Outbound.isStart : Outbound → Bool
  | .start _ => true
  | .body _ => false
  | .other _ => false

/-- The scope of a connection. -/
structure Scope where
  type : String
  headers : List (List UInt8 × List UInt8)

namespace Scope

/-- `headers.get(name)` of the dictionary of lower-case names: of equal names the last one counts. -/
def header (name : Text) (scope : Scope) : Option Text :=
  (scope.headers.reverse.find? fun h => Text.lowerLatin1 (Text.decodeLatin1 h.1) = name).map
    fun h => Text.decodeLatin1 h.2

/-- The two messages of `JSONResponse({"detail": detail}, status_code=status)`. -/
def jsonResponse (status : ℕ) (detail : String) : List Outbound :=
  [.start status, .body ("\x7b\"detail\":\"" ++ detail ++ "\"\x7d")]

/-- What `_reject` sends when nothing else is said. -/
def tooLarge : List Outbound := jsonResponse 413 "request body too large"

def invalidLength : List Outbound := jsonResponse 400 "invalid content-length"

/-- The response the declared length calls for; `none` runs the application. -/
def declared (maxBytes : ℕ) (scope : Scope) : Option (List Outbound) :=
  match scope.header "content-length".toList with
  | none => none
  | some value =>
      match value.toInt with
      | none => some invalidLength
      | some n => if n > maxBytes then some tooLarge else none

end Scope

/-! ## The machine -/

namespace BodyLimit

/-- What can happen while the application runs: a `receive()` of the server resolves in one of its
tasks, it calls `send`, the body of a 413 response goes out after its start, or the application
ends with an exception. -/
inductive Event
  | receive (message : Inbound)
  | send (message : Outbound)
  | proceed
  | raise

/-- The three variables of `__call__`, with what went out to the client, what `_reject` has still
to send, what `limited_receive` returned, and whether an exception left the middleware. -/
structure State where
  received : ℕ := 0
  rejected : Bool := false
  responseStarted : Bool := false
  sent : List Outbound := []
  pending : List Outbound := []
  handed : List Inbound := []
  raised : Bool := false

def disconnect : Inbound := { type := "http.disconnect", body := [] }

/-- The bytes of a message that count as body. -/
def bytes (message : Inbound) : ℕ := if message.type = "http.request" then message.body.length else 0

/-- `limited_receive`, from the message on: the start of a 413 response goes out at once. -/
def limitedReceive (maxBytes : ℕ) (message : Inbound) (s : State) : State :=
  if message.type = "http.request" then
    let s := { s with received := s.received + message.body.length }
    if s.received > maxBytes ∧ s.rejected = false then
      let s := { s with rejected := true }
      if s.responseStarted then { s with handed := s.handed ++ [disconnect] }
      else { s with
        sent := s.sent ++ Scope.tooLarge.take 1
        pending := Scope.tooLarge.drop 1 }
    else { s with handed := s.handed ++ [message] }
  else { s with handed := s.handed ++ [message] }

/-- `guarded_send`. -/
def guardedSend (message : Outbound) (s : State) : State :=
  if s.rejected then s
  else { s with responseStarted := true, sent := s.sent ++ [message] }

/-- `_reject` sends its next message, and `limited_receive` returns after the last one. -/
def proceed (s : State) : State :=
  match s.pending with
  | [] => s
  | [message] =>
      { s with sent := s.sent ++ [message], pending := [], handed := s.handed ++ [disconnect] }
  | message :: rest => { s with sent := s.sent ++ [message], pending := rest }

def step (maxBytes : ℕ) (s : State) : Event → State
  | .receive message => limitedReceive maxBytes message s
  | .send message => guardedSend message s
  | .proceed => proceed s
  | .raise => if s.rejected then s else { s with raised := true }

def run (maxBytes : ℕ) (s : State) (events : List Event) : State := events.foldl (step maxBytes) s

/-- Without the guard the application talks to the server itself. -/
def openStep (s : State) : Event → State
  | .receive message => { s with handed := s.handed ++ [message] }
  | .send message => { s with sent := s.sent ++ [message] }
  | .proceed => s
  | .raise => { s with raised := true }

/-- `__call__`, with what the application does. -/
def call (maxBytes : ℕ) (scope : Scope) (events : List Event) : State :=
  if scope.type ≠ "http" then events.foldl openStep {}
  else
    match scope.declared maxBytes with
    | some response => { sent := response }
    | none => run maxBytes {} events

/-! ## What the application does -/

/-- The body bytes the application reads. -/
def readBytes (events : List Event) : ℕ :=
  (events.map fun e => match e with
    | .receive message => bytes message
    | _ => 0).sum

/-- The messages the application sends. -/
def appSends (events : List Event) : List Outbound :=
  events.filterMap fun e => match e with
    | .send message => some message
    | _ => none

/-- The body bytes of what was handed over. -/
def State.bodyBytes (s : State) : ℕ := (s.handed.map bytes).sum

/-- The response starts among some messages. -/
def starts (messages : List Outbound) : ℕ := messages.countP Outbound.isStart

section Lemmas

variable {maxBytes : ℕ} {s : State}

@[simp]
theorem readBytes_nil : readBytes [] = 0 := rfl

@[simp]
theorem readBytes_receive (message : Inbound) (events : List Event) :
    readBytes (.receive message :: events) = bytes message + readBytes events := by
  simp [readBytes]

@[simp]
theorem readBytes_send (message : Outbound) (events : List Event) :
    readBytes (.send message :: events) = readBytes events := by
  simp [readBytes]

@[simp]
theorem readBytes_proceed (events : List Event) :
    readBytes (.proceed :: events) = readBytes events := by
  simp [readBytes]

@[simp]
theorem readBytes_raise (events : List Event) :
    readBytes (.raise :: events) = readBytes events := by
  simp [readBytes]

@[simp]
theorem appSends_nil : appSends [] = [] := rfl

@[simp]
theorem appSends_send (message : Outbound) (events : List Event) :
    appSends (.send message :: events) = message :: appSends events := rfl

@[simp]
theorem appSends_receive (message : Inbound) (events : List Event) :
    appSends (.receive message :: events) = appSends events := rfl

@[simp]
theorem appSends_proceed (events : List Event) : appSends (.proceed :: events) = appSends events :=
  rfl

@[simp]
theorem appSends_raise (events : List Event) : appSends (.raise :: events) = appSends events := rfl

@[simp]
theorem run_nil : run maxBytes s [] = s := rfl

@[simp]
theorem run_cons (e : Event) (events : List Event) :
    run maxBytes s (e :: events) = run maxBytes (step maxBytes s e) events := rfl

theorem run_append (before after : List Event) :
    run maxBytes s (before ++ after) = run maxBytes (run maxBytes s before) after :=
  List.foldl_append

/-- Nothing was rejected so far: what the application read and sent went through. -/
structure Open (s : State) (read : ℕ) (said : List Outbound) : Prop where
  received : s.received = read
  rejected : s.rejected = false
  responseStarted : s.responseStarted = !said.isEmpty
  sent : s.sent = said
  pending : s.pending = []
  bodyBytes : s.bodyBytes = read

theorem limitedReceive_within {read : ℕ} {said : List Outbound} (h : Open s read said)
    {message : Inbound} (hmax : read + bytes message ≤ maxBytes) :
    Open (limitedReceive maxBytes message s) (read + bytes message) said := by
  unfold limitedReceive
  by_cases htype : message.type = "http.request"
  · have hbytes : bytes message = message.body.length := by simp [bytes, htype]
    have hle : ¬ (s.received + message.body.length > maxBytes) := by
      rw [h.received, ← hbytes]
      omega
    rw [if_pos htype]
    dsimp only
    rw [if_neg fun hand => hle hand.1]
    exact ⟨by rw [h.received, hbytes], h.rejected, h.responseStarted, h.sent, h.pending, by
      have := h.bodyBytes
      simp_all [State.bodyBytes]⟩
  · have hbytes : bytes message = 0 := by simp [bytes, htype]
    rw [if_neg htype]
    exact ⟨by rw [h.received, hbytes]; rfl, h.rejected, h.responseStarted, h.sent, h.pending, by
      have := h.bodyBytes
      simp_all [State.bodyBytes]⟩

/-- **As long as the limit is not crossed everything goes through.** -/
theorem run_within (events : List Event) :
    ∀ (s : State) (read : ℕ) (said : List Outbound), Open s read said →
      read + readBytes events ≤ maxBytes →
      Open (run maxBytes s events) (read + readBytes events) (said ++ appSends events) := by
  induction events with
  | nil =>
      intro s read said h _
      simpa using h
  | cons e events ih =>
      intro s read said h hmax
      cases e with
      | receive message =>
          rw [readBytes_receive] at hmax
          have hstep : Open (step maxBytes s (.receive message)) (read + bytes message) said :=
            limitedReceive_within h (by omega)
          have hrest := ih _ _ _ hstep (by omega)
          simpa [Nat.add_assoc] using hrest
      | send message =>
          have hstep : Open (step maxBytes s (.send message)) read (said ++ [message]) := by
            show Open (guardedSend message s) read _
            rw [guardedSend, if_neg (by simp [h.rejected])]
            exact ⟨h.received, h.rejected, by simp, by simp [h.sent], h.pending, h.bodyBytes⟩
          have hrest := ih _ _ _ hstep (by simpa using hmax)
          simpa using hrest
      | proceed =>
          have hstep : Open (step maxBytes s .proceed) read said := by
            show Open (proceed s) read said
            simpa [proceed, h.pending] using h
          simpa using ih _ _ _ hstep (by simpa using hmax)
      | raise =>
          have hstep : Open (step maxBytes s .raise) read said := by
            rw [step, if_neg (by simp [h.rejected])]
            exact ⟨h.received, h.rejected, h.responseStarted, h.sent, h.pending, h.bodyBytes⟩
          simpa using ih _ _ _ hstep (by simpa using hmax)

/-- The body was rejected, `said` is what the client gets in the end, and `read` bytes were handed
over. -/
structure Closed (s : State) (read : ℕ) (said : List Outbound) : Prop where
  rejected : s.rejected = true
  sent : s.sent ++ s.pending = said
  pending : starts s.pending = 0
  bodyBytes : s.bodyBytes = read

theorem bytes_disconnect : bytes disconnect = 0 := by decide

theorem Closed.proceed {read : ℕ} {said : List Outbound} (h : Closed s read said) :
    Closed (proceed s) read said := by
  have hsent := h.sent
  unfold BodyLimit.proceed
  split
  · exact h
  · next message hpending =>
      refine ⟨h.rejected, ?_, rfl, ?_⟩
      · simpa [hpending] using hsent
      · simpa [State.bodyBytes, bytes_disconnect] using h.bodyBytes
  · next message rest hrest hpending =>
      have hstarts := h.pending
      rw [hpending] at hstarts
      refine ⟨h.rejected, by simpa [hpending] using hsent, ?_, h.bodyBytes⟩
      exact Nat.le_zero.mp (hstarts ▸ (List.sublist_cons_self message rest).countP_le)

/-- **After the rejection the client hears nothing new, but the application goes on reading.** -/
theorem run_closed (events : List Event) :
    ∀ (s : State) (read : ℕ) (said : List Outbound), Closed s read said →
      Closed (run maxBytes s events) (read + readBytes events) said := by
  induction events with
  | nil =>
      intro s read said h
      simpa using h
  | cons e events ih =>
      intro s read said h
      cases e with
      | receive message =>
          have hstep : Closed (step maxBytes s (.receive message)) (read + bytes message) said := by
            have hbytes := h.bodyBytes
            show Closed (limitedReceive maxBytes message s) _ _
            unfold limitedReceive
            split
            · dsimp only
              rw [if_neg (by simp [h.rejected])]
              exact ⟨h.rejected, h.sent, h.pending, by simp_all [State.bodyBytes]⟩
            · exact ⟨h.rejected, h.sent, h.pending, by simp_all [State.bodyBytes]⟩
          simpa [Nat.add_assoc] using ih _ _ _ hstep
      | send message =>
          have hstep : Closed (step maxBytes s (.send message)) read said := by
            show Closed (guardedSend message s) read said
            simpa [guardedSend, h.rejected] using h
          simpa using ih _ _ _ hstep
      | proceed =>
          have hstep : Closed (step maxBytes s .proceed) read said := h.proceed
          simpa using ih _ _ _ hstep
      | raise =>
          have hstep : Closed (step maxBytes s .raise) read said := by
            simpa [step, h.rejected] using h
          simpa using ih _ _ _ hstep

/-- The message that crosses the limit is not handed over, and a client that heard nothing yet
gets the 413. -/
theorem limitedReceive_crossing {read : ℕ} {said : List Outbound} (h : Open s read said)
    {message : Inbound} (hmax : maxBytes < read + bytes message) (hread : read ≤ maxBytes) :
    Closed (limitedReceive maxBytes message s) read
      (if said = [] then Scope.tooLarge else said) := by
  have hpos : bytes message ≠ 0 := by omega
  have htype : message.type = "http.request" := by
    by_contra hne
    exact hpos (by simp [bytes, hne])
  have hbytes : bytes message = message.body.length := by simp [bytes, htype]
  have hover : s.received + message.body.length > maxBytes := by
    rw [h.received, ← hbytes]
    exact hmax
  have hbody := h.bodyBytes
  unfold limitedReceive
  rw [if_pos htype]
  dsimp only
  rw [if_pos ⟨hover, h.rejected⟩]
  cases said with
  | nil =>
      have hstarted : s.responseStarted = false := by simpa using h.responseStarted
      simp only [hstarted]
      exact ⟨rfl, by rw [h.sent]; rfl, rfl, hbody⟩
  | cons first rest =>
      have hstarted : s.responseStarted = true := by simpa using h.responseStarted
      simp only [hstarted]
      refine ⟨rfl, ?_, ?_, ?_⟩
      · simp [h.sent, h.pending]
      · simp [h.pending, starts]
      · simpa [State.bodyBytes, bytes_disconnect] using hbody

end Lemmas

/-! ## The limit -/

/-- The message `message`, read after `before`, is the one that crosses the limit. -/
def Crosses (maxBytes : ℕ) (before : List Event) (message : Inbound) : Prop :=
  readBytes before ≤ maxBytes ∧ maxBytes < readBytes before + bytes message

/-- A stream of events stays within the limit or crosses it once. -/
theorem crossing_or_within (maxBytes : ℕ) (events : List Event) :
    readBytes events ≤ maxBytes
      ∨ ∃ before message after, events = before ++ .receive message :: after
          ∧ Crosses maxBytes before message := by
  induction events using List.reverseRecOn with
  | nil => exact Or.inl (Nat.zero_le _)
  | append_singleton events e ih =>
      rcases ih with hle | ⟨before, message, after, rfl, hcross⟩
      · have happend : readBytes (events ++ [e]) = readBytes events + readBytes [e] := by
          simp [readBytes]
        by_cases hnext : readBytes events + readBytes [e] ≤ maxBytes
        · exact Or.inl (happend ▸ hnext)
        · right
          cases e with
          | receive message =>
              refine ⟨events, message, [], rfl, hle, ?_⟩
              simp at hnext
              omega
          | send message => simp at hnext; omega
          | proceed => simp at hnext; omega
          | raise => simp at hnext; omega
      · exact Or.inr ⟨before, message, after ++ [e], by simp, hcross⟩

/-- The body is more than the limit, by its declared length or as it was read, before the
application started a response. -/
def ExceedsFirst (maxBytes : ℕ) (scope : Scope) (events : List Event) : Prop :=
  match scope.declared maxBytes with
  | some response => response = Scope.tooLarge
  | none => ∃ before message after, events = before ++ .receive message :: after
      ∧ Crosses maxBytes before message ∧ starts (appSends before) = 0

/-- What the middleware is for: it ends in the state `s`. -/
structure Limits (maxBytes : ℕ) (scope : Scope) (events : List Event) (s : State) : Prop where
  bodyBytes : s.bodyBytes ≤ maxBytes
  starts : starts s.sent ≤ 1
  rejection : ExceedsFirst maxBytes scope events → s.sent ++ s.pending = Scope.tooLarge

/-- The application reads no more than the limit besides the message that crosses it, and up to
there it speaks as an application does: one start, before anything else. -/
structure Modest (maxBytes : ℕ) (events : List Event) : Prop where
  within : readBytes events ≤ maxBytes → starts (appSends events) ≤ 1
  crossing : ∀ before message after, events = before ++ .receive message :: after →
    Crosses maxBytes before message →
      readBytes before + readBytes after ≤ maxBytes ∧ starts (appSends before) ≤ 1
        ∧ (starts (appSends before) = 0 → appSends before = [])

theorem starts_tooLarge : starts Scope.tooLarge = 1 := by decide

theorem open_init : Open {} 0 [] := ⟨rfl, rfl, rfl, rfl, rfl, rfl⟩

/-- **A run that crosses the limit**: the crossing message is dropped, the rest is handed over. -/
theorem run_crossing {maxBytes : ℕ} {before after : List Event} {message : Inbound}
    (hcross : Crosses maxBytes before message) :
    Closed (run maxBytes {} (before ++ .receive message :: after))
      (readBytes before + readBytes after)
      (if appSends before = [] then Scope.tooLarge else appSends before) := by
  have hopen := @run_within maxBytes before {} 0 [] open_init (by
    have := hcross.1
    omega)
  rw [Nat.zero_add, List.nil_append] at hopen
  rw [run_append, run_cons]
  exact run_closed after _ _ _ (limitedReceive_crossing hopen hcross.2 hcross.1)

theorem Closed.starts_eq {s : State} {read : ℕ} {said : List Outbound} (h : Closed s read said) :
    starts s.sent = starts said := by
  have hadd : starts (s.sent ++ s.pending) = starts s.sent + starts s.pending :=
    List.countP_append
  rw [h.sent, h.pending] at hadd
  exact hadd.symm

theorem readBytes_append (before after : List Event) :
    readBytes (before ++ after) = readBytes before + readBytes after := by
  simp [readBytes]

/-- A stream with a crossing message is over the limit. -/
theorem Crosses.over {maxBytes : ℕ} {before : List Event} {message : Inbound}
    (h : Crosses maxBytes before message) (after : List Event) :
    maxBytes < readBytes (before ++ .receive message :: after) := by
  have hover := h.2
  rw [readBytes_append, readBytes_receive]
  omega

theorem declared_cases {maxBytes : ℕ} {scope : Scope} {response : List Outbound}
    (h : scope.declared maxBytes = some response) :
    response = Scope.invalidLength ∨ response = Scope.tooLarge := by
  unfold Scope.declared at h
  split at h
  · cases h
  · split at h
    · exact Or.inl (Option.some.inj h).symm
    · split at h
      · exact Or.inr (Option.some.inj h).symm
      · cases h

/-- The limit on a run of the application, over what it reads and sends. -/
theorem limits_run_iff (maxBytes : ℕ) (scope : Scope) (hdeclared : scope.declared maxBytes = none)
    (events : List Event) :
    Limits maxBytes scope events (run maxBytes {} events) ↔ Modest maxBytes events := by
  have hexceeds : ExceedsFirst maxBytes scope events ↔ ∃ before message after,
      events = before ++ .receive message :: after
        ∧ Crosses maxBytes before message ∧ starts (appSends before) = 0 := by
    simp only [ExceedsFirst, hdeclared]
  rcases crossing_or_within maxBytes events with hle | ⟨before, message, after, hevents, hcross⟩
  · -- nothing crosses the limit
    have hopen := @run_within maxBytes events {} 0 [] open_init (by simpa using hle)
    rw [Nat.zero_add, List.nil_append] at hopen
    have hnone : ∀ before message after, events = before ++ .receive message :: after →
        ¬ Crosses maxBytes before message := by
      intro before message after hevents hcross
      have hover := hcross.over after
      rw [← hevents] at hover
      omega
    constructor
    · intro h
      refine ⟨fun _ => hopen.sent ▸ h.starts, ?_⟩
      intro before message after hevents hcross
      exact absurd hcross (hnone _ _ _ hevents)
    · intro h
      refine ⟨hopen.bodyBytes ▸ hle, hopen.sent.symm ▸ h.within hle, ?_⟩
      intro hfirst
      obtain ⟨before, message, after, hevents, hcross, -⟩ := hexceeds.mp hfirst
      exact absurd hcross (hnone _ _ _ hevents)
  · have hover : ¬ readBytes events ≤ maxBytes := by
      have := hcross.over after
      rw [← hevents] at this
      omega
    constructor
    · intro h
      refine ⟨fun hle => absurd hle hover, ?_⟩
      intro before message after hevents hcross
      have hclosed := @run_crossing maxBytes before after message hcross
      rw [← hevents] at hclosed
      have hsaid : starts (appSends before) = 0 → appSends before = [] := by
        intro hzero
        by_contra hne
        have hsent := h.rejection (hexceeds.mpr ⟨before, message, after, hevents, hcross, hzero⟩)
        rw [hclosed.sent, if_neg hne] at hsent
        rw [hsent, starts_tooLarge] at hzero
        omega
      refine ⟨hclosed.bodyBytes ▸ h.bodyBytes, ?_, hsaid⟩
      by_cases hnil : appSends before = []
      · simp [hnil, starts]
      · have hstarts := h.starts
        rwa [hclosed.starts_eq, if_neg hnil] at hstarts
    · intro h
      have hclosed := @run_crossing maxBytes before after message hcross
      rw [← hevents] at hclosed
      obtain ⟨hbytes, hstarts, -⟩ := h.crossing _ _ _ hevents hcross
      refine ⟨hclosed.bodyBytes ▸ hbytes, ?_, ?_⟩
      · rw [hclosed.starts_eq]
        split
        · exact Nat.le_of_eq starts_tooLarge
        · exact hstarts
      · intro hfirst
        obtain ⟨before', message', after', hevents', hcross', hzero⟩ := hexceeds.mp hfirst
        have hclosed' := @run_crossing maxBytes before' after' message' hcross'
        rw [← hevents'] at hclosed'
        rw [hclosed'.sent, if_pos ((h.crossing _ _ _ hevents' hcross').2.2 hzero)]

/-- **The body limit holds of a request exactly when the application, if it runs, is modest.** -/
theorem body_limit_iff (maxBytes : ℕ) (scope : Scope) (hscope : scope.type = "http")
    (events : List Event) :
    Limits maxBytes scope events (call maxBytes scope events)
      ↔ (scope.declared maxBytes = none → Modest maxBytes events) := by
  have hhttp : ¬ scope.type ≠ "http" := not_not.mpr hscope
  cases hdeclared : scope.declared maxBytes with
  | some response =>
      -- the application does not run
      have hcall : call maxBytes scope events = { sent := response } := by
        simp [call, hhttp, hdeclared]
      rw [hcall]
      refine iff_of_true ⟨Nat.zero_le _, ?_, ?_⟩ (fun h => absurd h (by simp))
      · rcases declared_cases hdeclared with rfl | rfl <;> decide
      · intro hexceeds
        simpa [ExceedsFirst, hdeclared] using hexceeds
  | none =>
      have hcall : call maxBytes scope events = run maxBytes {} events := by
        simp [call, hhttp, hdeclared]
      rw [hcall, limits_run_iff maxBytes scope hdeclared]
      exact ⟨fun h _ => h, fun h => h rfl⟩

/-- A request of some bytes, in chunks. -/
def chunk (n : ℕ) : Inbound := { type := "http.request", body := List.replicate n 0 }

/-- A request without a declared length. -/
def plainScope : Scope := { type := "http", headers := [] }

theorem body_limit_iff_demo :
    Limits 10 plainScope [.receive (chunk 4), .send (.start 200)]
        (call 10 plainScope [.receive (chunk 4), .send (.start 200)]) ∧
      ¬ Limits 10 plainScope [.receive (chunk 11), .receive (chunk 11)]
        (call 10 plainScope [.receive (chunk 11), .receive (chunk 11)]) := by
  constructor
  · refine (body_limit_iff 10 plainScope rfl _).mpr fun _ => ⟨fun _ => by decide, ?_⟩
    intro before message after hevents hcross
    have hover := hcross.over after
    rw [← hevents] at hover
    exact absurd hover (by decide)
  · intro h
    have hmodest := (body_limit_iff 10 plainScope rfl _).mp h rfl
    have hcross : Crosses 10 [] (chunk 11) := ⟨by decide, by decide⟩
    have hbytes := (hmodest.crossing [] (chunk 11) [.receive (chunk 11)] rfl hcross).1
    exact absurd hbytes (by decide)

/-- The application reads on after the disconnect and gets the second chunk, limit or not. -/
theorem reads_past_limit :
    ¬ Limits 10 plainScope [.receive (chunk 11), .proceed, .receive (chunk 11)]
      (call 10 plainScope [.receive (chunk 11), .proceed, .receive (chunk 11)]) := by
  intro h
  exact absurd h.bodyBytes (by decide)

end BodyLimit

end Remediator
