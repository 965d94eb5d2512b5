import Remediator.Verifier.Connect

set_option autoImplicit false

/-! # The egress proxy

`remediator/verifier/egress_proxy.py`: the only way out of the network of the executor. A
connection reads one `CONNECT` request, dials if the host is on the list, and passes bytes on in
both directions. A stream is what the peer sends before it closes its side.
-/

namespace Remediator.Egress

open Text

/-! ## One connection -/

/-- A stream as its lines, each with its line feed. -/
def lines : List UInt8 → List (List UInt8)
  | [] => []
  | b :: bs =>
      if b = 10 then [b] :: lines bs
      else
        match lines bs with
        | [] => [[b]]
        | l :: ls => (b :: l) :: ls

/-- `_HEADER_LIMIT`. -/
def headerLimit : ℕ := 8 * 1024

/-- There is more before the line feed than a reader keeps. -/
def overrun (line : List UInt8) : Bool :=
  decide (headerLimit < if line.getLast? = some 10 then line.length - 1 else line.length)

/-- `reader.readline()`, with what is left; `none` is a `ValueError`. -/
def readline : List (List UInt8) → Option (List UInt8 × List (List UInt8))
  | [] => some ([], [])
  | l :: ls => if overrun l then none else some (l, ls)

/-- `_discard_headers`, once `total` bytes of them were read. -/
def discardHeaders (total : ℕ) : List (List UInt8) → Option (List (List UInt8))
  | [] => some []
  | l :: ls =>
      if overrun l ∨ headerLimit < total + l.length then none
      else if l = [13, 10] ∨ l = [10] then some ls
      else discardHeaders (total + l.length) ls

/-- How the request comes: in time, too late, or the connection breaks first. -/
inductive Arrival
  | timely
  | late
  | broken
  deriving DecidableEq

/-- The other ends of a connection: what the client sends, and what the host sends if it can be
reached. -/
structure Peers where
  arrival : Arrival
  stream : List UInt8
  upstream : Option (List UInt8)

/-- What `handle` does before the bytes are passed on. -/
inductive Opening
  /-- an exception leaves `handle` -/
  | raised
  | badRequest
  | forbidden (reason : Text)
  | badGateway (host : Text) (port : ℕ)
  /-- with what the two peers have still to send -/
  | tunnel (host : Text) (port : ℕ) (rest upstream : List UInt8)

/-- The part of `handle` after the headers. -/
def dial (allowed : List Text) (peers : Peers) (requestLine rest : List UInt8) : Opening :=
  match parseConnectTarget requestLine with
  | .raised => .raised
  | .other => .forbidden "only CONNECT is supported".toList
  | .connect host port =>
      match refusal allowed host port with
      | some reason => .forbidden reason
      | none =>
          match peers.upstream with
          | none => .badGateway host port
          | some upstream => .tunnel host port rest upstream

/-- `handle` up to the tunnel. -/
def opening (allowed : List Text) (peers : Peers) : Opening :=
  match peers.arrival with
  | .broken => .raised
  | .late => .badRequest
  | .timely =>
      match readline (lines peers.stream) with
      | none => .badRequest
      | some (requestLine, ls) =>
          match discardHeaders 0 ls with
          | none => .badRequest
          | some rest => dial allowed peers requestLine rest.flatten

/-- One direction of a tunnel. -/
structure Pipe where
  pending : List UInt8
  written : List UInt8 := []
  running : Bool := true

/-- One turn of `_pipe`: some bytes are read and written, or it ends, because there is nothing left
or because of an exception. -/
inductive Turn
  | chunk (n : ℕ)
  | ends
  deriving DecidableEq

def Pipe.turn (p : Pipe) : Turn → Pipe
  | .chunk n =>
      if p.running then
        { p with pending := p.pending.drop n, written := p.written ++ p.pending.take n }
      else p
  | .ends => { p with running := false }

/-- Which of the two directions goes on. -/
inductive Side
  | toUpstream
  | toClient
  deriving DecidableEq

structure Tunnel where
  toUpstream : Pipe
  toClient : Pipe

def Tunnel.turn (t : Tunnel) : Side × Turn → Tunnel
  | (.toUpstream, turn) => { t with toUpstream := t.toUpstream.turn turn }
  | (.toClient, turn) => { t with toClient := t.toClient.turn turn }

/-- `asyncio.gather` of the two pipes. -/
def Tunnel.run (t : Tunnel) (turns : List (Side × Turn)) : Tunnel := turns.foldl Tunnel.turn t

/-- The bytes of an ASCII text. -/
def ascii (text : String) : List UInt8 := text.toList.map fun c => UInt8.ofNat c.toNat

/-- `_respond`. -/
def respond (status : String) : List UInt8 :=
  ascii ("HTTP/1.1 " ++ status ++ "\r\nConnection: close\r\n\r\n")

def established : List UInt8 := ascii "HTTP/1.1 200 Connection Established\r\n\r\n"

/-- What is seen of a connection: the dial, and what is written to either side. -/
structure Session where
  dialed : Option (Text × ℕ)
  toUpstream : List UInt8
  toClient : List UInt8

/-- `handle`. -/
def session (allowed : List Text) (peers : Peers) (turns : List (Side × Turn)) : Session :=
  match opening allowed peers with
  | .raised => ⟨none, [], []⟩
  | .badRequest => ⟨none, [], respond "400 Bad Request"⟩
  | .forbidden _ => ⟨none, [], respond "403 Forbidden"⟩
  | .badGateway host port => ⟨some (host, port), [], respond "502 Bad Gateway"⟩
  | .tunnel host port rest upstream =>
      let t := Tunnel.run ⟨{ pending := rest }, { pending := upstream }⟩ turns
      ⟨some (host, port), t.toUpstream.written, established ++ t.toClient.written⟩

/-! ### The header -/

/-- A line with its line feed. -/
def IsLine (l : List UInt8) : Prop := ∃ u, l = u ++ [10] ∧ 10 ∉ u

theorem lines_flatten (s : List UInt8) : (lines s).flatten = s := by
  induction s with
  | nil => rfl
  | cons b s ih =>
      rw [lines]
      split
      · simp [ih]
      · split
        · next hnil =>
            rw [hnil] at ih
            simp [← ih]
        · next l ls hls =>
            rw [hls] at ih
            simp [← ih]

theorem lines_append {l : List UInt8} (hl : IsLine l) (s : List UInt8) :
    lines (l ++ s) = l :: lines s := by
  obtain ⟨u, rfl, hu⟩ := hl
  induction u with
  | nil => simp [lines]
  | cons b u ih =>
      obtain ⟨hb, hu⟩ := List.ne_and_not_mem_of_not_mem_cons hu
      have ih := ih hu
      simp only [List.cons_append] at ih ⊢
      rw [lines, if_neg (Ne.symm hb), ih]

theorem overrun_eq_false {l : List UInt8} (h : l.length ≤ headerLimit) : overrun l = false := by
  unfold overrun
  rw [decide_eq_false_iff_not]
  split <;> omega

/-- A line that ends a header. -/
def Blank (l : List UInt8) : Prop := l = [13, 10] ∨ l = [10]

/-- `head` is the header that stands before the lines `rest`: what comes up to the first blank
line, or all there is where none is blank. -/
inductive Header : List (List UInt8) → List (List UInt8) → Prop
  | blank (fields : List (List UInt8)) (l : List UInt8) (rest : List (List UInt8))
      (hfields : ∀ f ∈ fields, ¬ Blank f) (hl : Blank l) : Header (fields ++ [l]) rest
  | ended (fields : List (List UInt8)) (hfields : ∀ f ∈ fields, ¬ Blank f) : Header fields []

theorem Header.cons {l : List UInt8} {head rest : List (List UInt8)} (hl : ¬ Blank l)
    (h : Header head rest) : Header (l :: head) rest := by
  cases h with
  | blank fields b _ hfields hb =>
      exact .blank (l :: fields) b rest (List.forall_mem_cons.mpr ⟨hl, hfields⟩) hb
  | ended _ hfields => exact .ended _ (List.forall_mem_cons.mpr ⟨hl, hfields⟩)

/-- What is discarded is the header, and within the limit. -/
theorem discardHeaders_header {total : ℕ} {ls rest : List (List UInt8)}
    (htotal : total ≤ headerLimit) (h : discardHeaders total ls = some rest) :
    ∃ head, ls = head ++ rest ∧ Header head rest ∧
      total + head.flatten.length ≤ headerLimit := by
  induction ls generalizing total with
  | nil =>
      cases h
      exact ⟨[], rfl, .ended [] (by simp), by simpa using htotal⟩
  | cons l ls ih =>
      rw [discardHeaders] at h
      split at h
      · cases h
      · next hshort =>
          push Not at hshort
          split at h
          · next hblank =>
              cases h
              exact ⟨[l], rfl, .blank [] l _ (by simp) hblank, by simpa using hshort.2⟩
          · next hfield =>
              obtain ⟨head, rfl, hheader, hlength⟩ := ih hshort.2 h
              refine ⟨l :: head, rfl, hheader.cons hfield, ?_⟩
              simp only [List.flatten_cons, List.length_append]
              omega

/-- The fields of a header: lines that are not blank, and with the blank one within the limit. -/
structure Fields (fields : List (List UInt8)) : Prop where
  lines : ∀ l ∈ fields, IsLine l ∧ l ≠ [13, 10] ∧ l ≠ [10]
  short : (fields.flatten ++ [13, 10]).length ≤ headerLimit

theorem lines_fields {fields : List (List UInt8)} (h : ∀ l ∈ fields, IsLine l)
    (s : List UInt8) : lines (fields.flatten ++ s) = fields ++ lines s := by
  induction fields with
  | nil => rfl
  | cons l ls ih =>
      rw [List.flatten_cons, List.append_assoc, lines_append (h l List.mem_cons_self),
        ih fun l hl => h l (List.mem_cons_of_mem _ hl), List.cons_append]

theorem discardHeaders_fields (total : ℕ) {fields : List (List UInt8)}
    (h : ∀ l ∈ fields, l ≠ [13, 10] ∧ l ≠ [10])
    (hshort : total + (fields.flatten ++ [13, 10]).length ≤ headerLimit)
    (rest : List (List UInt8)) :
    discardHeaders total (fields ++ [13, 10] :: rest) = some rest := by
  induction fields generalizing total with
  | nil =>
      have hblank : overrun [13, 10] = false := by decide
      have hsmall : ¬ headerLimit < total + 2 := by simpa using hshort
      simp [discardHeaders, hblank, hsmall]
  | cons l ls ih =>
      obtain ⟨hcr, hlf⟩ := h l List.mem_cons_self
      simp only [List.flatten_cons, List.append_assoc, List.length_append] at hshort
      have hl : overrun l = false := overrun_eq_false (by omega)
      rw [List.cons_append, discardHeaders, if_neg, if_neg]
      · refine ih _ (fun l hl => h l (List.mem_cons_of_mem _ hl)) ?_
        rw [List.length_append]
        omega
      · simp [hcr, hlf]
      · simp only [hl, Bool.false_eq_true, false_or]
        omega

/-! ### The two directions -/

def Pipe.run (p : Pipe) (turns : List Turn) : Pipe := turns.foldl Pipe.turn p

/-- The turns of one direction. -/
def turnsOf (side : Side) (turns : List (Side × Turn)) : List Turn :=
  (turns.filter fun t => t.1 == side).map (·.2)

/-- The directions do not disturb each other. -/
theorem Tunnel.run_eq (t : Tunnel) (turns : List (Side × Turn)) :
    t.run turns = ⟨t.toUpstream.run (turnsOf .toUpstream turns),
      t.toClient.run (turnsOf .toClient turns)⟩ := by
  induction turns generalizing t with
  | nil => rfl
  | cons turn turns ih =>
      obtain ⟨side, turn⟩ := turn
      have hrun : t.run ((side, turn) :: turns) = (t.turn (side, turn)).run turns := rfl
      rw [hrun, ih]
      cases side <;> rfl

/-- A turn moves bytes; none is lost, made up or put in another place. -/
theorem Pipe.turn_bytes (p : Pipe) (turn : Turn) :
    (p.turn turn).written ++ (p.turn turn).pending = p.written ++ p.pending := by
  cases turn with
  | chunk n =>
      rw [Pipe.turn]
      split
      · simp
      · rfl
  | ends => rfl

theorem Pipe.run_bytes (p : Pipe) (turns : List Turn) :
    (p.run turns).written ++ (p.run turns).pending = p.written ++ p.pending := by
  induction turns generalizing p with
  | nil => rfl
  | cons turn turns ih => exact (ih (p.turn turn)).trans (p.turn_bytes turn)

theorem Pipe.run_prefix (bytes : List UInt8) (turns : List Turn) :
    (Pipe.run { pending := bytes } turns).written <+: bytes :=
  ⟨_, Pipe.run_bytes { pending := bytes } turns⟩

/-- How many bytes a turn reads at most. -/
def Turn.size : Turn → ℕ
  | .chunk n => n
  | .ends => 0

/-- How many bytes the turns read at most. -/
def size : List Turn → ℕ
  | [] => 0
  | turn :: turns => turn.size + size turns

/-- A direction that nothing ends passes on what was asked for. -/
theorem Pipe.run_written (p : Pipe) {turns : List Turn} (hrunning : p.running = true)
    (h : Turn.ends ∉ turns) :
    (p.run turns).written = p.written ++ p.pending.take (size turns) := by
  induction turns generalizing p with
  | nil => simp [Pipe.run, size]
  | cons turn turns ih =>
      obtain ⟨hne, hturns⟩ := List.ne_and_not_mem_of_not_mem_cons h
      cases turn with
      | ends => exact absurd rfl hne
      | chunk n =>
          have hrun : p.run (.chunk n :: turns) = (p.turn (.chunk n)).run turns := rfl
          have hturn : p.turn (.chunk n) =
              { p with pending := p.pending.drop n, written := p.written ++ p.pending.take n } :=
            if_pos hrunning
          rw [hrun, ih (p.turn (.chunk n)) (by rw [hturn]; exact hrunning) hturns, hturn]
          simp [size, Turn.size, List.take_add]

/-! ## What a connection can do -/

/-- What the client asked for, with what it sent after the header: its first line is the request,
and what follows that up to the first blank line is the header. -/
structure Asked (allowed : List Text) (stream : List UInt8) (host : Text) (port : ℕ)
    (rest : List UInt8) : Prop where
  web : port = allowedPort
  listed : host ∈ allowed
  request : ∃ line head tail, lines stream = line :: (head ++ tail) ∧ Header head tail ∧
    head.flatten.length ≤ headerLimit ∧ rest = tail.flatten ∧
    ∃ spelling digits, Connects (decodeLatin1 line) spelling digits ∧
      host = spelling.map Char.toLower ∧ unsignedInt digits = some port

/-- What `handle` has found out when it dials. -/
def Opening.Sound (allowed : List Text) (peers : Peers) : Opening → Prop
  | .badGateway host port =>
      peers.upstream = none ∧ ∃ rest, Asked allowed peers.stream host port rest
  | .tunnel host port rest upstream =>
      peers.upstream = some upstream ∧ Asked allowed peers.stream host port rest
  | _ => True

theorem dial_sound {allowed : List Text} {peers : Peers} {line : List UInt8}
    {head tail : List (List UInt8)} (hlines : lines peers.stream = line :: (head ++ tail))
    (hheader : Header head tail) (hhead : head.flatten.length ≤ headerLimit) :
    (dial allowed peers line tail.flatten).Sound allowed peers := by
  unfold dial
  split
  · trivial
  · trivial
  · next host port hparse =>
      have hconnects := parseConnectTarget_connect hparse
      split
      · trivial
      · next hrefusal =>
          obtain ⟨hallowedPort, hlisted⟩ := refusal_none hrefusal
          obtain ⟨spelling, digits, hline, hhost, hport⟩ := hconnects
          have hasked : Asked allowed peers.stream host port tail.flatten :=
            ⟨hallowedPort, hlisted, line, head, tail, hlines, hheader, hhead, rfl, spelling,
              digits, hline, hhost, hport⟩
          split
          · next hup => exact ⟨hup, _, hasked⟩
          · next upstream hup => exact ⟨hup, hasked⟩

theorem opening_sound (allowed : List Text) (peers : Peers) :
    (opening allowed peers).Sound allowed peers := by
  unfold opening
  split
  · trivial
  · trivial
  · cases hstream : lines peers.stream with
    | nil =>
        -- a client that sends nothing has asked for nothing
        exact trivial
    | cons first ls =>
        rw [readline]
        split
        · trivial
        · next line rest hline =>
            split at hline
            · cases hline
            · cases hline
              split
              · trivial
              · next tail htail =>
                  obtain ⟨head, rfl, hheader, hhead⟩ :=
                    discardHeaders_header (Nat.zero_le _) htail
                  exact dial_sound hstream hheader (by simpa using hhead)

/-- What the list and the proxy let through. -/
def Session.Contained (allowed : List Text) (peers : Peers) (s : Session) : Prop :=
  match s.dialed with
  | none => s.toUpstream = [] ∧
      s.toClient ∈ [[], respond "400 Bad Request", respond "403 Forbidden"]
  | some (host, port) =>
      isHostname host = true ∧ ∃ rest, Asked allowed peers.stream host port rest ∧
        s.toUpstream <+: rest ∧
        match peers.upstream with
        | none => s.toUpstream = [] ∧ s.toClient = respond "502 Bad Gateway"
        | some upstream => ∃ bytes, s.toClient = established ++ bytes ∧ bytes <+: upstream

/-- Whatever a client sends, whatever the host answers and in whatever order the bytes go: a
connection is made to port 443 of an exact host name of the list, which the client named in a
`CONNECT` line, and to nothing else. Nothing of the request, and nothing before there is a
connection, is passed on; and after it both sides get what the other one sent, from its start. -/
theorem session_contained (py : Library) (raw : Option Text) (allowed : List Text)
    (h : parseAllowedHosts py raw = .ok allowed) (peers : Peers) (turns : List (Side × Turn)) :
    (session allowed peers turns).Contained allowed peers := by
  have hsound := opening_sound allowed peers
  have hname := parseAllowedHosts_hostname py h
  unfold session
  cases hopen : opening allowed peers with
  | raised => exact ⟨rfl, by simp⟩
  | badRequest => exact ⟨rfl, by simp⟩
  | forbidden reason => exact ⟨rfl, by simp⟩
  | badGateway host port =>
      rw [hopen] at hsound
      obtain ⟨hup, rest, hasked⟩ := hsound
      refine ⟨hname host hasked.listed, rest, hasked, List.nil_prefix, ?_⟩
      rw [hup]
      exact ⟨rfl, rfl⟩
  | tunnel host port rest upstream =>
      rw [hopen] at hsound
      obtain ⟨hup, hasked⟩ := hsound
      simp only [Tunnel.run_eq, Session.Contained]
      refine ⟨hname host hasked.listed, rest, hasked, Pipe.run_prefix _ _, ?_⟩
      rw [hup]
      exact ⟨_, rfl, Pipe.run_prefix _ _⟩

def demoRequest : List UInt8 :=
  ascii "CONNECT GitHub.com:443 HTTP/1.1\r\nHost: github.com\r\n\r\n"

theorem session_contained_demo :
    (session defaultAllowedHosts ⟨.timely, demoRequest, some [1, 2]⟩
      [(.toClient, .chunk 1)]).Contained defaultAllowedHosts
        ⟨.timely, demoRequest, some [1, 2]⟩ :=
  session_contained demoLibrary none defaultAllowedHosts rfl _ _

/-! ## What the list allows can be reached -/

/-- How many bytes a direction is asked to pass on. -/
def asked (side : Side) (turns : List (Side × Turn)) : ℕ := size (turnsOf side turns)

/-- The first line of a text that has one line feed, at its end. -/
theorem isLine_of_decode {line : List UInt8} {t : Text} (ht : '\n' ∉ t)
    (h : decodeLatin1 line = t ++ ['\n']) : IsLine line := by
  obtain ⟨u, v, rfl, hu, hv⟩ := List.map_eq_append_iff.mp h
  obtain ⟨b, rfl, hb⟩ : ∃ b, v = [b] ∧ Char.ofNat b.toNat = '\n' := by
    simpa [List.map_eq_singleton_iff] using hv
  have hten : b = 10 := by
    have := congrArg Char.toNat hb
    rw [toNat_decode] at this
    exact UInt8.toNat_inj.mp this
  subst hten
  refine ⟨u, rfl, fun hmem => ht ?_⟩
  rw [← hu]
  exact List.mem_map.mpr ⟨10, hmem, rfl⟩

/-- A host of the list is reached under any spelling of its name, with whatever fields the request
has as long as they are within the limit; and when both directions are passed on to their end, the
host gets what the client sent after the header and the client what the host sent, nothing more
and nothing else. -/
theorem allowed_reached (py : Library) (raw : Option Text) (allowed : List Text)
    (h : parseAllowedHosts py raw = .ok allowed) (host spelling : Text) (hhost : host ∈ allowed)
    (hspelling : spelling.map Char.toLower = host) (line : List UInt8)
    (hline : decodeLatin1 line =
      "CONNECT ".toList ++ spelling ++ ":443 HTTP/1.1\r\n".toList)
    (fields : List (List UInt8)) (hfields : Fields fields) (payload upstream : List UInt8)
    (turns : List (Side × Turn)) (hends : ∀ side, (side, Turn.ends) ∉ turns)
    (hup : payload.length ≤ asked .toUpstream turns)
    (hdown : upstream.length ≤ asked .toClient turns) :
    session allowed ⟨.timely, line ++ (fields.flatten ++ ([13, 10] ++ payload)), some upstream⟩
        turns = ⟨some (host, 443), payload, established ++ upstream⟩ := by
  have hname := parseAllowedHosts_hostname py h host hhost
  have hnot : ∀ c, isHostChar c = false → c.toLower = c → c ∉ spelling := by
    intro c hc hlower
    refine not_mem_spelling hlower hspelling fun hmem => ?_
    have := isHostname_chars hname c hmem
    rw [hc] at this
    cases this
  have hne : spelling ≠ [] := by
    rintro rfl
    have := (isHostname_length hname).1
    rw [← hspelling] at this
    cases this
  have hascii := spelling_ascii hname hspelling
  have hlength : line.length ≤ headerLimit := by
    have hbytes : line.length = (decodeLatin1 line).length := (List.length_map _).symm
    have hhostlength := (isHostname_length hname).2
    rw [← hspelling, List.length_map] at hhostlength
    rw [hbytes, hline]
    simp only [List.length_append]
    have hfirst : "CONNECT ".toList.length = 8 := rfl
    have hlast : ":443 HTTP/1.1\r\n".toList.length = 15 := rfl
    have hlimit : headerLimit = 8192 := rfl
    omega
  have hisLine : IsLine line := by
    have hbody : '\n' ∉ "CONNECT ".toList ++ spelling ++ ":443 HTTP/1.1\r".toList := by
      simp [hnot '\n' (by decide) (by decide)]
    refine isLine_of_decode hbody ?_
    rw [hline]
    simp
  have hparse : parseConnectTarget line = .connect host 443 := by
    have hending : ∀ c ∈ ['\r', '\n'], c = '\r' ∨ c = '\n' := by simp
    rw [← hspelling]
    refine parseConnectTarget_spelling hne (hnot ' ' (by decide) (by decide)) hascii hending ?_
    rw [hline]
    simp
  have hlines : lines (line ++ (fields.flatten ++ ([13, 10] ++ payload))) =
      line :: (fields ++ [13, 10] :: lines payload) := by
    have hblank : IsLine [13, 10] := ⟨[13], rfl, by decide⟩
    rw [lines_append hisLine, lines_fields fun l hl => (hfields.lines l hl).1,
      lines_append hblank]
  have hopening : opening allowed
      ⟨.timely, line ++ (fields.flatten ++ ([13, 10] ++ payload)), some upstream⟩ =
        .tunnel host 443 payload upstream := by
    have hdiscard := discardHeaders_fields 0 (fun l hl => (hfields.lines l hl).2)
      (by rw [Nat.zero_add]; exact hfields.short) (lines payload)
    have hrefusal : refusal allowed host 443 = none := refusal_hostname hhost hname
    simp only [opening, hlines, readline, overrun_eq_false hlength, Bool.false_eq_true, if_false,
      hdiscard, dial, hparse, hrefusal, lines_flatten]
  have hside : ∀ side, Turn.ends ∉ turnsOf side turns := by
    intro side hmem
    obtain ⟨⟨s, turn⟩, hfilter, hturn⟩ := List.mem_map.mp hmem
    obtain ⟨hmem, hs⟩ := List.mem_filter.mp hfilter
    cases hturn
    exact hends s hmem
  have hwritten : ∀ side (bytes : List UInt8), bytes.length ≤ asked side turns →
      (Pipe.run { pending := bytes } (turnsOf side turns)).written = bytes := by
    intro side bytes hlength
    rw [Pipe.run_written _ rfl (hside side)]
    exact List.take_of_length_le hlength
  simp only [session, hopening, Tunnel.run_eq, hwritten _ _ hup, hwritten _ _ hdown]

theorem demoFields : Fields [ascii "Host: github.com\r\n"] where
  lines l hl := by
    rw [List.mem_singleton] at hl
    subst hl
    exact ⟨⟨ascii "Host: github.com\r", rfl, by decide⟩, by decide, by decide⟩
  short := by decide

theorem allowed_reached_demo :
    session defaultAllowedHosts
        ⟨.timely, ascii "CONNECT GitHub.com:443 HTTP/1.1\r\n" ++
          ([ascii "Host: github.com\r\n"].flatten ++ ([13, 10] ++ [7])), some [1, 2]⟩
        [(.toClient, .chunk 1), (.toUpstream, .chunk 9), (.toClient, .chunk 4)] =
      ⟨some ("github.com".toList, 443), [7], established ++ [1, 2]⟩ :=
  allowed_reached demoLibrary none defaultAllowedHosts rfl "github.com".toList "GitHub.com".toList
    (by decide) (by decide) _ (by decide) _ demoFields [7] [1, 2] _
    (by intro side; cases side <;> decide) (by decide) (by decide)

end Remediator.Egress
