import Mathlib.Tactic.Linarith
import Remediator.Lib.Binary64
import Remediator.Lib.Text

set_option autoImplicit false

/-! # The signatures of requests

`github/signature.py`, `verifier/protocol.py` and `require_operator` of `api/auth.py`: three checks
of what a header says. `hmac.compare_digest` takes texts only when they are ASCII, and a number of
seconds that is too large has no float, so a check may raise where it should refuse.
-/

namespace Remediator.Signatures

open Text

/-- A header as it is decoded. -/
abbrev Header : Type := {t : Text // t.IsLatin1}

/-- What leaves a check as an exception. -/
inductive Raised
  | typeError
  | overflowError
  deriving DecidableEq, Repr

/-- `time.time()`. -/
structure Clock where
  seconds : ℚ
  isFloat : Binary64.IsFloat seconds

/-! ## Digests -/

/-- `str.encode()`. -/
def encode (t : Text) : List UInt8 := t.flatMap String.utf8EncodeChar

def hexDigit (n : ℕ) : Char := Char.ofNat (if n < 10 then 48 + n else 87 + n)

/-- `hexdigest()` of the bytes of a digest. -/
def hex (digest : List UInt8) : Text :=
  digest.flatMap fun b => [hexDigit (b.toNat / 16), hexDigit (b.toNat % 16)]

theorem isAscii_hexDigit {n : ℕ} (h : n < 16) : (hexDigit n).toNat < 128 := by
  revert n
  decide

theorem isAscii_hex (digest : List UInt8) : (hex digest).IsAscii := by
  intro c hc
  obtain ⟨b, -, hc⟩ := List.mem_flatMap.mp hc
  have hb := b.toNat_lt
  rcases List.mem_cons.mp hc with rfl | hc
  · exact isAscii_hexDigit (by omega)
  · rw [List.mem_singleton.mp hc]
    exact isAscii_hexDigit (by omega)

/-- `hmac.compare_digest` of two texts. -/
def compareDigest (a b : Text) : Except Raised Bool :=
  if a.IsAscii ∧ b.IsAscii then .ok (a == b) else .error .typeError

/-! ## The checks -/

section Checks

-- the bytes of HMAC-SHA256, of a key and a message
variable (hmac : List UInt8 → List UInt8 → List UInt8)

/-- `hmac.new(secret.encode(), message, hashlib.sha256).hexdigest()`. -/
def hexdigest (secret : Text) (message : List UInt8) : Text := hex (hmac (encode secret) message)

def githubStart : Text := "sha256=".toList

namespace Github

/-- `verify_signature`. -/
def verifySignature (secret : Text) (body : List UInt8) : Option Header → Except Raised Bool
  | none => .ok false
  | some header =>
      if startsWith githubStart header.1 then
        compareDigest (hexdigest hmac secret body) (removeStart githubStart header.1)
      else .ok false

/-- The answer of `github_webhook` to a delivery that it does not take; `none` goes on with it. -/
def refusal (secret : Text) (body : List UInt8) (header : Option Header) :
    Except Raised (Option (ℕ × String)) := do
  let authentic ← verifySignature hmac secret body header
  if authentic then .ok none else .ok (some (401, "invalid signature"))

end Github

namespace Verifier

def maxClockSkewSeconds : ℚ := 300

/-- `sign`. -/
def sign (secret timestamp : Text) (body : List UInt8) : Text :=
  githubStart ++ hexdigest hmac secret (encode (timestamp ++ ['.']) ++ body)

/-- `abs(current - sent)`. -/
def skew (current : Clock) (sent : ℤ) : Except Raised ℚ :=
  match Binary64.ofInt sent with
  | some sent => .ok |Binary64.round (current.seconds - sent)|
  | none => .error .overflowError

/-- The end of `verify_signature`, for a timestamp that is a number of seconds. -/
def verifyAt (secret timestamp signature : Text) (body : List UInt8) (skew : Except Raised ℚ) :
    Except Raised (Option String) := do
  let skew ← skew
  if maxClockSkewSeconds < skew then .ok (some "timestamp outside the accepted window")
  else
    let equal ← compareDigest (sign hmac secret timestamp body) signature
    .ok (if equal then none else some "signature mismatch")

/-- `verify_signature`: why the request is not authentic, or `none` when it is. -/
def verifySignature (secret : Text) (timestamp signature : Option Header) (body : List UInt8)
    (current : Clock) : Except Raised (Option String) :=
  if secret = [] then .ok (some "verifier has no shared secret configured")
  else
    match timestamp, signature with
    | some timestamp, some signature =>
        if timestamp.1 = [] ∨ signature.1 = [] then .ok (some "missing signature headers")
        else
          match toInt timestamp.1 with
          | none => .ok (some "malformed timestamp")
          | some sent => verifyAt hmac secret timestamp.1 signature.1 body (skew current sent)
    | _, _ => .ok (some "missing signature headers")

end Verifier

namespace Operator

/-- The headers of a request that `require_operator` reads. -/
structure Request where
  authorization : Header
  cookie : Header
  hxRequest : Header
  accept : Header
  path : Text

/-- How a request is refused. -/
inductive Refusal
  /-- 401 with `HX-Redirect` -/
  | redirect
  /-- 401 -/
  | unauthorized
  /-- `OperatorAuthRequired` -/
  | loginPage
  deriving DecidableEq, Repr

def bearerStart : Text := "Bearer ".toList

/-- `_cookie_value`. -/
def cookieValue (token exp : Text) : Text := exp ++ '.' :: hexdigest hmac token (encode exp)

/-- `int(time.time())`. -/
def wholeSeconds (now : Clock) : ℤ := if 0 ≤ now.seconds then ⌊now.seconds⌋ else ⌈now.seconds⌉

/-- The cookie is a session of the operator; its `ValueError` and `TypeError` are caught. -/
def validCookie (operatorToken : Text) (now : Clock) (cookie : Text) : Bool :=
  match splitOnce '.' cookie with
  | none => false
  | some (exp, signature) =>
      match toInt exp with
      | none => false
      | some end_ =>
          decide (wholeSeconds now ≤ end_) &&
            match compareDigest signature (hexdigest hmac operatorToken (encode exp)) with
            | .ok equal => equal
            | .error _ => false

/-- Which refusal a request gets. -/
def refusal (request : Request) : Refusal :=
  if request.hxRequest.1 = "true".toList then .redirect
  else if contains "application/json".toList request.accept.1 ∨
      startsWith "/api/".toList request.path ∨ request.path = "/metrics".toList then .unauthorized
  else .loginPage

/-- `require_operator` behind the bearer check. -/
def requireCookie (operatorToken : Text) (now : Clock) (request : Request) : Except Refusal Text :=
  if validCookie hmac operatorToken now request.cookie.1 then .ok operatorToken
  else .error (refusal request)

/-- `require_operator`. -/
def requireOperator (operatorToken : Text) (now : Clock) (request : Request) :
    Except Raised (Except Refusal Text) :=
  if startsWith bearerStart request.authorization.1 then do
    let token := removeStart bearerStart request.authorization.1
    let equal ← compareDigest token operatorToken
    .ok (if equal then .ok token else requireCookie hmac operatorToken now request)
  else .ok (requireCookie hmac operatorToken now request)

end Operator

/-! ## What the checks are for -/

/-- The webhook answers every delivery, and takes exactly those with the signature of the body. -/
def Github.Exact (secret : Text) (body : List UInt8) (header : Option Header) : Prop :=
  Github.refusal hmac secret body header =
    .ok (if header.map (·.1) = some (githubStart ++ hexdigest hmac secret body) then none
      else some (401, "invalid signature"))

/-- What is compared is ASCII. -/
def Github.Comparable (header : Option Header) : Prop :=
  ∀ rest, header.map (·.1) = some (githubStart ++ rest) → rest.IsAscii

/-- A request of a holder of the secret, within five minutes of now. -/
def Verifier.Authentic (secret : Text) (timestamp signature : Option Header) (body : List UInt8)
    (current : Clock) : Prop :=
  secret ≠ [] ∧ ∃ stamp sent, timestamp.map (·.1) = some stamp ∧ toInt stamp = some sent ∧
    |current.seconds - sent| ≤ 300 ∧ signature.map (·.1) = some (sign hmac secret stamp body)

/-- The verifier answers every request, and takes exactly the authentic ones. -/
def Verifier.Exact (secret : Text) (timestamp signature : Option Header) (body : List UInt8)
    (current : Clock) : Prop :=
  ∃ answer, Verifier.verifySignature hmac secret timestamp signature body current = .ok answer ∧
    (answer = none ↔ Verifier.Authentic hmac secret timestamp signature body current)

/-- The number of seconds has a float; in the window, as it is computed, the signature is ASCII; and
rounding takes no signed timestamp into the window or out of it. -/
def Verifier.Comparable (secret : Text) (timestamp signature : Option Header) (body : List UInt8)
    (current : Clock) : Prop :=
  secret ≠ [] → ∀ stamp sent shown, timestamp.map (·.1) = some stamp → toInt stamp = some sent →
    signature.map (·.1) = some shown → shown ≠ [] →
      ∃ x, Binary64.ofInt sent = some x ∧
        (|Binary64.round (current.seconds - x)| ≤ 300 → shown.IsAscii) ∧
        (shown = sign hmac secret stamp body →
          (|Binary64.round (current.seconds - x)| ≤ 300 ↔ |current.seconds - sent| ≤ 300))

/-- The cookie of a session that has not ended. -/
def Operator.Session (operatorToken : Text) (now : Clock) (cookie : Text) : Prop :=
  ∃ exp end_, '.' ∉ exp ∧ cookie = Operator.cookieValue hmac operatorToken exp ∧
    toInt exp = some end_ ∧ Operator.wholeSeconds now ≤ end_

/-- Every request is answered; the operator is who presents the token, or a session's cookie. -/
def Operator.Exact (operatorToken : Text) (now : Clock) (request : Operator.Request) : Prop :=
  ∃ answer, Operator.requireOperator hmac operatorToken now request = .ok answer ∧
    (∀ token, answer = .ok token → token = operatorToken) ∧
    (answer = .ok operatorToken ↔
      request.authorization.1 = Operator.bearerStart ++ operatorToken ∨
        Operator.Session hmac operatorToken now request.cookie.1)

/-- A bearer token and the token of the operator are ASCII, where there is one to compare. -/
def Operator.Comparable (operatorToken : Text) (request : Operator.Request) : Prop :=
  ∀ token, request.authorization.1 = Operator.bearerStart ++ token →
    token.IsAscii ∧ operatorToken.IsAscii

/-! ## When they are that -/

theorem compareDigest_ascii {a b : Text} (ha : a.IsAscii) (hb : b.IsAscii) :
    compareDigest a b = .ok (a == b) := if_pos ⟨ha, hb⟩

theorem compareDigest_left {a b : Text} (ha : ¬ a.IsAscii) :
    compareDigest a b = .error .typeError := if_neg fun h => ha h.1

theorem compareDigest_right {a b : Text} (hb : ¬ b.IsAscii) :
    compareDigest a b = .error .typeError := if_neg fun h => hb h.2

theorem isAscii_hexdigest (secret : Text) (message : List UInt8) :
    (hexdigest hmac secret message).IsAscii := isAscii_hex _

theorem isAscii_sign (secret stamp : Text) (body : List UInt8) :
    (Verifier.sign hmac secret stamp body).IsAscii := by
  intro c hc
  rcases List.mem_append.mp hc with hstart | hhex
  · have hascii : githubStart.IsAscii := by decide
    exact hascii c hstart
  · exact isAscii_hexdigest hmac _ _ c hhex

/-- What a header with the start `sha256=` is answered. -/
theorem Github.refusal_start (secret : Text) (body : List UInt8) {header : Header} {rest : Text}
    (h : header.1 = githubStart ++ rest) :
    Github.refusal hmac secret body (some header) =
      compareDigest (hexdigest hmac secret body) rest >>= fun authentic =>
        if authentic then .ok none else .ok (some (401, "invalid signature")) := by
  have hstart : startsWith githubStart header.1 = true := by
    rw [startsWith_iff, h, removeStart_append]
  unfold Github.refusal Github.verifySignature
  simp only [hstart, if_true]
  rw [h, removeStart_append]

theorem Github.exact_iff (secret : Text) (body : List UInt8) (header : Option Header) :
    Github.Exact hmac secret body header ↔ Github.Comparable header := by
  cases header with
  | none =>
      refine iff_of_true rfl ?_
      intro rest h
      cases h
  | some header =>
      by_cases hstart : startsWith githubStart header.1 = true
      · have hheader := startsWith_iff.mp hstart
        generalize removeStart githubStart header.1 = rest at hheader
        unfold Github.Exact Github.Comparable
        rw [Github.refusal_start hmac secret body hheader, Option.map_some, hheader]
        simp only [Option.some.injEq, List.append_cancel_left_eq]
        constructor
        · intro h other hother
          subst hother
          by_contra hascii
          rw [compareDigest_right hascii] at h
          cases h
        · intro h
          rw [compareDigest_ascii (isAscii_hexdigest hmac _ _) (h rest rfl)]
          by_cases heq : rest = hexdigest hmac secret body
          · simp [bind, Except.bind, heq]
          · have hne : (hexdigest hmac secret body == rest) = false :=
              beq_eq_false_iff_ne.mpr fun h => heq h.symm
            simp [bind, Except.bind, heq, hne]
      · -- another header is refused without a comparison
        have hother : ∀ rest, header.1 ≠ githubStart ++ rest := by
          intro rest hrest
          rw [hrest] at hstart
          exact hstart (List.isPrefixOf_iff_prefix.mpr (List.prefix_append _ _))
        refine iff_of_true ?_ ?_
        · unfold Github.Exact Github.refusal Github.verifySignature
          rw [if_neg (by rw [Option.map_some, Option.some.injEq]; exact hother _)]
          simp only [hstart]
          rfl
        · intro rest hrest
          exact absurd (Option.some.inj hrest) (hother rest)

/-- Where a number of seconds has a float, the answer hangs on the window and on the signature. -/
theorem Verifier.verifyAt_ok (secret stamp shown : Text) (body : List UInt8) {skew : ℚ} :
    Verifier.verifyAt hmac secret stamp shown body (.ok skew) =
      if 300 < skew then .ok (some "timestamp outside the accepted window")
      else compareDigest (Verifier.sign hmac secret stamp body) shown >>= fun equal =>
        .ok (if equal then none else some "signature mismatch") := rfl

/-- A signature that is compared is answered exactly when it is ASCII. -/
theorem Verifier.compare_iff (secret stamp shown : Text) (body : List UInt8) :
    (∃ answer, (compareDigest (Verifier.sign hmac secret stamp body) shown >>= fun equal =>
        .ok (if equal then none else some "signature mismatch")) = .ok answer ∧
      (answer = none ↔ shown = Verifier.sign hmac secret stamp body)) ↔ shown.IsAscii := by
  constructor
  · rintro ⟨answer, hanswer, -⟩
    by_contra hascii
    rw [compareDigest_right hascii] at hanswer
    cases hanswer
  · intro hascii
    rw [compareDigest_ascii (isAscii_sign hmac _ _ _) hascii]
    refine ⟨_, rfl, ?_⟩
    by_cases heq : shown = Verifier.sign hmac secret stamp body
    · simp [heq]
    · have hne : (Verifier.sign hmac secret stamp body == shown) = false :=
        beq_eq_false_iff_ne.mpr fun h => heq h.symm
      simp [heq, hne]

/-- A request with a number of seconds and a signature is answered rightly exactly when they can be
compared. -/
theorem Verifier.verifyAt_iff (secret stamp shown : Text) (body : List UInt8) (current : Clock)
    (sent : ℤ) :
    (∃ answer, Verifier.verifyAt hmac secret stamp shown body (Verifier.skew current sent) =
        .ok answer ∧
      (answer = none ↔ |current.seconds - sent| ≤ 300 ∧
        shown = Verifier.sign hmac secret stamp body)) ↔
    ∃ x, Binary64.ofInt sent = some x ∧
      (|Binary64.round (current.seconds - x)| ≤ 300 → shown.IsAscii) ∧
      (shown = Verifier.sign hmac secret stamp body →
        (|Binary64.round (current.seconds - x)| ≤ 300 ↔ |current.seconds - sent| ≤ 300)) := by
  unfold Verifier.skew
  cases hfloat : Binary64.ofInt sent with
  | none =>
      constructor
      · rintro ⟨answer, hanswer, -⟩
        cases hanswer
      · rintro ⟨x, hx, -⟩
        cases hx
  | some x =>
      simp only [Verifier.verifyAt_ok, Option.some.injEq, exists_eq_left']
      by_cases hwindow : |Binary64.round (current.seconds - x)| ≤ 300
      · rw [if_neg (not_lt.mpr hwindow)]
        constructor
        · rintro ⟨answer, hanswer, hiff⟩
          have hascii : shown.IsAscii := by
            by_contra hascii
            rw [compareDigest_right hascii] at hanswer
            cases hanswer
          refine ⟨fun _ => hascii, fun heq => iff_of_true hwindow ?_⟩
          obtain ⟨other, hother, hsigned⟩ := (Verifier.compare_iff hmac secret stamp shown body).mpr
            hascii
          rw [hanswer] at hother
          cases hother
          exact (hiff.mp (hsigned.mpr heq)).1
        · rintro ⟨hascii, hround⟩
          obtain ⟨answer, hanswer, hsigned⟩ := (Verifier.compare_iff hmac secret stamp shown
            body).mpr (hascii hwindow)
          refine ⟨answer, hanswer, hsigned.trans ⟨fun heq => ?_, And.right⟩⟩
          exact ⟨(hround heq).mp hwindow, heq⟩
      · rw [if_pos (not_le.mp hwindow)]
        constructor
        · rintro ⟨answer, hanswer, hiff⟩
          cases hanswer
          refine ⟨fun h => absurd h hwindow, fun heq => iff_of_false hwindow fun hexact => ?_⟩
          cases hiff.mpr ⟨hexact, heq⟩
        · rintro ⟨-, hround⟩
          refine ⟨_, rfl, iff_of_false (by simp) ?_⟩
          rintro ⟨hexact, heq⟩
          exact hwindow ((hround heq).mpr hexact)

theorem Verifier.sign_ne_nil (secret stamp : Text) (body : List UInt8) :
    Verifier.sign hmac secret stamp body ≠ [] := by
  unfold Verifier.sign githubStart
  simp

theorem Verifier.exact_iff (secret : Text) (timestamp signature : Option Header)
    (body : List UInt8) (current : Clock) :
    Verifier.Exact hmac secret timestamp signature body current ↔
      Verifier.Comparable hmac secret timestamp signature body current := by
  -- a request that is refused before the number of seconds counts is not authentic
  have hearly : ∀ reason, Verifier.verifySignature hmac secret timestamp signature body current =
      .ok (some reason) → ¬ Verifier.Authentic hmac secret timestamp signature body current →
      Verifier.Exact hmac secret timestamp signature body current := by
    intro reason hanswer hnot
    exact ⟨some reason, hanswer, iff_of_false (by simp) hnot⟩
  by_cases hsecret : secret = []
  · refine iff_of_true (hearly _ (if_pos hsecret) fun h => h.1 hsecret) fun h => absurd hsecret h
  rcases timestamp with _ | stamp
  · refine iff_of_true (hearly "missing signature headers" (if_neg hsecret) ?_) ?_
    · rintro ⟨-, stamp, sent, hstamp, -⟩
      cases hstamp
    · intro _ stamp sent shown hstamp
      cases hstamp
  rcases signature with _ | shown
  · refine iff_of_true (hearly "missing signature headers" (if_neg hsecret) ?_) ?_
    · rintro ⟨-, stamp', sent, -, -, -, hshown⟩
      cases hshown
    · intro _ stamp' sent shown _ _ hshown
      cases hshown
  by_cases hshown : shown.1 = []
  · refine iff_of_true (hearly "missing signature headers" ?_ ?_) ?_
    · unfold Verifier.verifySignature
      rw [if_neg hsecret]
      exact if_pos (Or.inr hshown)
    · rintro ⟨-, stamp', sent, -, -, -, hsigned⟩
      rw [Option.map_some, Option.some.injEq, hshown] at hsigned
      exact Verifier.sign_ne_nil hmac _ _ _ hsigned.symm
    · intro _ stamp' sent shown' _ _ hsome hne
      cases hsome
      exact absurd hshown hne
  cases hsent : toInt stamp.1 with
  | none =>
      have hanswer : ∃ reason, Verifier.verifySignature hmac secret (some stamp) (some shown) body
          current = .ok (some reason) := by
        unfold Verifier.verifySignature
        rw [if_neg hsecret]
        by_cases hstamp : stamp.1 = []
        · exact ⟨_, if_pos (Or.inl hstamp)⟩
        · refine ⟨"malformed timestamp", ?_⟩
          simp only [hstamp, hshown, or_self, if_false, hsent]
      obtain ⟨reason, hanswer⟩ := hanswer
      refine iff_of_true (hearly reason hanswer ?_) ?_
      · rintro ⟨-, stamp', sent, hstamp, hnumber, -⟩
        cases hstamp
        rw [hsent] at hnumber
        cases hnumber
      · intro _ stamp' sent shown' hstamp hnumber
        cases hstamp
        rw [hsent] at hnumber
        cases hnumber
  | some sent =>
      have hstamp : stamp.1 ≠ [] := by
        intro hnil
        rw [hnil] at hsent
        cases hsent
      have hcall : Verifier.verifySignature hmac secret (some stamp) (some shown) body current =
          Verifier.verifyAt hmac secret stamp.1 shown.1 body (Verifier.skew current sent) := by
        unfold Verifier.verifySignature
        simp only [hsecret, hstamp, hshown, or_self, if_false, hsent]
      have hauthentic : Verifier.Authentic hmac secret (some stamp) (some shown) body current ↔
          |current.seconds - sent| ≤ 300 ∧ shown.1 = Verifier.sign hmac secret stamp.1 body := by
        constructor
        · rintro ⟨-, stamp', sent', hstamp', hnumber, hexact, hsigned⟩
          cases hstamp'
          rw [hsent] at hnumber
          cases hnumber
          exact ⟨hexact, Option.some.inj hsigned⟩
        · rintro ⟨hexact, hsigned⟩
          exact ⟨hsecret, stamp.1, sent, rfl, hsent, hexact, congrArg some hsigned⟩
      have hcomparable : Verifier.Comparable hmac secret (some stamp) (some shown) body current ↔
          ∃ x, Binary64.ofInt sent = some x ∧
            (|Binary64.round (current.seconds - x)| ≤ 300 → shown.1.IsAscii) ∧
            (shown.1 = Verifier.sign hmac secret stamp.1 body →
              (|Binary64.round (current.seconds - x)| ≤ 300 ↔ |current.seconds - sent| ≤ 300)) := by
        constructor
        · exact fun h => h hsecret stamp.1 sent shown.1 rfl hsent rfl hshown
        · intro h _ stamp' sent' shown' hstamp' hnumber hshown' _
          cases hstamp'
          cases hshown'
          rw [hsent] at hnumber
          cases hnumber
          exact h
      unfold Verifier.Exact
      rw [hcall, hauthentic, hcomparable]
      exact Verifier.verifyAt_iff hmac secret stamp.1 shown.1 body current sent

/-- With a clock from the ninth minute of 1970 on, for the next hundred million years, rounding
changes nothing. -/
theorem Verifier.window_iff {current : Clock} (hlow : 2 ^ 9 ≤ current.seconds)
    (hhigh : current.seconds ≤ 2 ^ 52) {sent : ℤ} {x : ℚ} (hx : Binary64.ofInt sent = some x) :
    |Binary64.round (current.seconds - x)| ≤ 300 ↔ |current.seconds - sent| ≤ 300 := by
  rcases Binary64.sub_int current.isFloat hlow hhigh hx with hexact | ⟨hround, hfar⟩
  · rw [hexact]
  · norm_num at hround hfar
    exact iff_of_false (by linarith) (by linarith)

/-- **A cookie is accepted exactly when it is that of a session**: what `compare_digest` raises
there is caught. -/
theorem Operator.validCookie_iff (operatorToken : Text) (now : Clock) (cookie : Text) :
    Operator.validCookie hmac operatorToken now cookie = true ↔
      Operator.Session hmac operatorToken now cookie := by
  constructor
  · intro h
    unfold Operator.validCookie at h
    rcases hsplit : splitOnce '.' cookie with _ | ⟨exp, signature⟩
    · rw [hsplit] at h
      cases h
    obtain ⟨hdot, rfl⟩ := splitOnce_iff.mp hsplit
    simp only [hsplit] at h
    cases hend : toInt exp with
    | none =>
        rw [hend] at h
        cases h
    | some end_ =>
        simp only [hend, Bool.and_eq_true, decide_eq_true_eq] at h
        obtain ⟨hopen, hequal⟩ := h
        by_cases hascii : signature.IsAscii
        · rw [compareDigest_ascii hascii (isAscii_hexdigest hmac _ _)] at hequal
          have hsigned := eq_of_beq hequal
          subst hsigned
          exact ⟨exp, end_, hdot, rfl, hend, hopen⟩
        · rw [compareDigest_left hascii] at hequal
          cases hequal
  · rintro ⟨exp, end_, hdot, rfl, hend, hopen⟩
    have hsplit : splitOnce '.' (Operator.cookieValue hmac operatorToken exp) =
        some (exp, hexdigest hmac operatorToken (encode exp)) := splitOnce_iff.mpr ⟨hdot, rfl⟩
    unfold Operator.validCookie
    rw [hsplit]
    simp only [hend, decide_eq_true hopen, Bool.true_and,
      compareDigest_ascii (isAscii_hexdigest hmac _ _) (isAscii_hexdigest hmac _ _),
      beq_self_eq_true]

theorem Operator.requireCookie_iff (operatorToken : Text) (now : Clock)
    (request : Operator.Request) :
    Operator.requireCookie hmac operatorToken now request = .ok operatorToken ↔
      Operator.Session hmac operatorToken now request.cookie.1 := by
  rw [← Operator.validCookie_iff]
  unfold Operator.requireCookie
  cases Operator.validCookie hmac operatorToken now request.cookie.1 <;> simp

theorem Operator.requireCookie_ok {operatorToken token : Text} {now : Clock}
    {request : Operator.Request}
    (h : Operator.requireCookie hmac operatorToken now request = .ok token) :
    token = operatorToken := by
  unfold Operator.requireCookie at h
  split at h
  · exact (Except.ok.inj h).symm
  · cases h

theorem Operator.exact_iff (operatorToken : Text) (now : Clock) (request : Operator.Request) :
    Operator.Exact hmac operatorToken now request ↔
      Operator.Comparable operatorToken request := by
  unfold Operator.Exact Operator.Comparable Operator.requireOperator
  by_cases hstart : startsWith Operator.bearerStart request.authorization.1 = true
  · have hheader := startsWith_iff.mp hstart
    rw [if_pos hstart]
    generalize removeStart Operator.bearerStart request.authorization.1 = shown at hheader ⊢
    rw [hheader]
    simp only [List.append_cancel_left_eq]
    by_cases hascii : shown.IsAscii ∧ operatorToken.IsAscii
    · refine iff_of_true ?_ fun token htoken => htoken ▸ hascii
      rw [compareDigest_ascii hascii.1 hascii.2]
      by_cases heq : shown = operatorToken
      · refine ⟨_, rfl, ?_, ?_⟩
        · intro token htoken
          rw [heq, beq_self_eq_true, if_pos rfl] at htoken
          exact (Except.ok.inj htoken).symm
        · rw [heq, beq_self_eq_true, if_pos rfl]
          exact iff_of_true rfl (Or.inl rfl)
      · have hne : (shown == operatorToken) = false := beq_eq_false_iff_ne.mpr heq
        refine ⟨Operator.requireCookie hmac operatorToken now request, ?_,
          fun token => Operator.requireCookie_ok hmac, ?_⟩
        · rw [hne]
          rfl
        · rw [Operator.requireCookie_iff]
          exact ⟨Or.inr, fun h => h.resolve_left heq⟩
    · refine iff_of_false ?_ fun h => hascii (h shown rfl)
      rintro ⟨answer, hanswer, -⟩
      have hraise : compareDigest shown operatorToken = .error .typeError := if_neg hascii
      rw [hraise] at hanswer
      cases hanswer
  · -- without a bearer token only the cookie counts
    have hother : ∀ token, request.authorization.1 ≠ Operator.bearerStart ++ token := by
      intro token htoken
      rw [htoken] at hstart
      exact hstart (List.isPrefixOf_iff_prefix.mpr (List.prefix_append _ _))
    rw [if_neg hstart]
    refine iff_of_true ?_ fun token htoken => absurd htoken (hother token)
    refine ⟨_, rfl, fun token => Operator.requireCookie_ok hmac, ?_⟩
    rw [Operator.requireCookie_iff]
    exact ⟨Or.inr, fun h => h.resolve_left (hother _)⟩

/-- **Each of the three checks answers every request and takes exactly those with the credential
exactly when it can compare what it compares**: texts that are ASCII, and numbers of seconds that
have a float. -/
theorem signature_checks_iff :
    (∀ (secret : Text) (body : List UInt8) (header : Option Header),
      Github.Exact hmac secret body header ↔ Github.Comparable header) ∧
    (∀ (secret : Text) (timestamp signature : Option Header) (body : List UInt8) (current : Clock),
      Verifier.Exact hmac secret timestamp signature body current ↔
        Verifier.Comparable hmac secret timestamp signature body current) ∧
    (∀ (operatorToken : Text) (now : Clock) (request : Operator.Request),
      Operator.Exact hmac operatorToken now request ↔
        Operator.Comparable operatorToken request) :=
  ⟨Github.exact_iff hmac, Verifier.exact_iff hmac, Operator.exact_iff hmac⟩

end Checks

/-- A digest of 32 bytes. -/
def demoHmac (_key _message : List UInt8) : List UInt8 := List.replicate 32 0

/-- A delivery whose signature has a character outside ASCII makes the webhook raise. -/
theorem github_header_raises :
    Github.refusal demoHmac "secret".toList [] (some ⟨"sha256=\xe9".toList, by decide⟩) =
      .error .typeError ∧
    ¬ Github.Exact demoHmac "secret".toList [] (some ⟨"sha256=\xe9".toList, by decide⟩) := by
  have hraise : Github.refusal demoHmac "secret".toList []
      (some ⟨"sha256=\xe9".toList, by decide⟩) = .error .typeError := rfl
  refine ⟨hraise, fun h => ?_⟩
  unfold Github.Exact at h
  rw [hraise] at h
  cases h

end Remediator.Signatures
