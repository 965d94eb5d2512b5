import Remediator.Devin.Status
import Remediator.Lib.Text

set_option autoImplicit false

/-! # What the egress proxy permits

`remediator/verifier/egress_proxy.py`: `parse_allowed_hosts`, `parse_connect_target` and `decide`.
What a text is in Unicode's lower case is a parameter; requests are ASCII.
-/

namespace Remediator.Egress

open Text

/-! ## Host names -/

def isAlnum (c : Char) : Bool := c.isLower || c.isDigit

/-- `[a-z0-9]([a-z0-9-]{0,61}[a-z0-9])?`. -/
def isLabel (t : Text) : Bool :=
  decide (t.length ≤ 63) && t.head?.any isAlnum && t.getLast?.any isAlnum &&
    t.all fun c => isAlnum c || c == '-'

/-- `[a-z]{2,63}`. -/
def isTopLevel (t : Text) : Bool := decide (2 ≤ t.length ∧ t.length ≤ 63) && t.all (·.isLower)

/-- `_HOSTNAME`, between its `^` and its `$`. -/
def isHostname (t : Text) : Bool :=
  decide (1 ≤ t.length ∧ t.length ≤ 253) && decide (2 ≤ (t.splitOn '.').length) &&
    (t.splitOn '.').dropLast.all isLabel && (t.splitOn '.').getLast?.any isTopLevel

/-- `DEFAULT_ALLOWED_HOSTS`. -/
def defaultAllowedHosts : List Text :=
  ["github.com", "codeload.github.com", "objects.githubusercontent.com", "registry.npmjs.org",
    "registry.yarnpkg.com", "cdn.sheetjs.com"].map (·.toList)

/-- What Python does with texts that are not ASCII. -/
structure Library where
  /-- `str.lower()` -/
  lower : Text → Text
  /-- `repr` of a text -/
  repr : Text → Text
  lower_line : ∀ t, EndsLine (lower t) → EndsLine t

/-- The loop of `parse_allowed_hosts`; an error is the message of a `ValueError`. -/
def collectHosts (py : Library) : List Text → Except Text (List Text)
  | [] => .ok []
  | item :: items =>
      let host := py.lower (stripBy Devin.isSpace item)
      if host = [] then collectHosts py items
      else if matchLine isHostname host = false then
        .error ("EGRESS_ALLOWED_HOSTS entry is not an exact hostname: ".toList ++ py.repr item)
      else (collectHosts py items).map (·.insert host)

/-- `parse_allowed_hosts`. -/
def parseAllowedHosts (py : Library) : Option Text → Except Text (List Text)
  | none => .ok defaultAllowedHosts
  | some raw =>
      match collectHosts py (raw.splitOn ',') with
      | .error e => .error e
      | .ok [] => .error "EGRESS_ALLOWED_HOSTS must name at least one host".toList
      | .ok hosts => .ok hosts

/-! ## `ipaddress.ip_address` -/

/-- `_parse_octet` accepts. -/
def isOctet (t : Text) : Bool :=
  t != [] && t.all (·.isDigit) && decide (t.length ≤ 3) && (t == ['0'] || t.head? != some '0') &&
    decide ((unsignedInt t).getD 0 ≤ 255)

/-- `IPv4Address` accepts. -/
def isIpv4 (t : Text) : Bool :=
  decide ('/' ∉ t) && decide ((t.splitOn '.').length = 4) && (t.splitOn '.').all isOctet

/-- `_parse_hextet` accepts. -/
def isHextet (t : Text) : Bool :=
  decide (1 ≤ t.length ∧ t.length ≤ 4) &&
    t.all fun c => c.isDigit || "abcdefABCDEF".toList.contains c

/-- The parts before or after a `::`; the end of the address may be right there. -/
def isHalf (parts : List Text) : Bool := parts == [[]] || parts.all isHextet

/-- How many groups they write. -/
def halfLength (parts : List Text) : ℕ := if parts = [[]] then 0 else parts.length

/-- The parts of an address between colons. -/
def isIpv6Parts (parts : List Text) : Bool :=
  if 9 < parts.length then false
  else
    let skips := (parts.drop 1).dropLast.count []
    if skips = 0 then decide (parts.length = 8) && parts.all isHextet
    else if skips = 1 then
      let skip := (parts.drop 1).dropLast.idxOf [] + 1
      let high := parts.take skip
      let low := parts.drop (skip + 1)
      isHalf high && isHalf low && decide (halfLength high + halfLength low ≤ 7)
    else false

/-- An address without its scope. -/
def isIpv6Address (t : Text) : Bool :=
  let parts := t.splitOn ':'
  let last := parts.getLast?.getD []
  if parts.length < 3 then false
  else if '.' ∈ last then
    isIpv4 last && isIpv6Parts (parts.dropLast ++ [['0'], ['0']])
  else isIpv6Parts parts

/-- `IPv6Address` accepts. -/
def isIpv6 (t : Text) : Bool :=
  decide ('/' ∉ t) &&
    match splitOnce '%' t with
    | none => isIpv6Address t
    | some (address, scope) => scope != [] && decide ('%' ∉ scope) && isIpv6Address address

/-- `ip_address` does not raise. -/
def isIpAddress (t : Text) : Bool := isIpv4 t || isIpv6 t

/-! ## What the list of hosts contains -/

/-- The characters of a host name. -/
def isHostChar (c : Char) : Bool := isAlnum c || c == '-' || c == '.'

theorem isLabel_chars {t : Text} (h : isLabel t = true) : ∀ c ∈ t, isHostChar c = true := by
  intro c hc
  simp only [isLabel, Bool.and_eq_true, List.all_eq_true] at h
  simp only [isHostChar, Bool.or_eq_true]
  exact Or.inl (by simpa using h.2 c hc)

theorem isTopLevel_chars {t : Text} (h : isTopLevel t = true) : ∀ c ∈ t, isHostChar c = true := by
  intro c hc
  simp only [isTopLevel, Bool.and_eq_true, List.all_eq_true] at h
  simp [isHostChar, isAlnum, h.2 c hc]

/-- The last part of a host name is a top level domain. -/
theorem isHostname_last {t : Text} (h : isHostname t = true) :
    ∃ front top, t.splitOn '.' = front ++ [top] ∧ front.all isLabel = true ∧
      isTopLevel top = true := by
  simp only [isHostname, Bool.and_eq_true] at h
  obtain ⟨⟨-, hfront⟩, hlast⟩ := h
  obtain ⟨top, htop, hlevel⟩ := (Option.any_eq_true _ _).mp hlast
  exact ⟨(t.splitOn '.').dropLast, top, (List.dropLast_append_getLast? _ htop).symm, hfront, hlevel⟩

theorem isHostname_chars {t : Text} (h : isHostname t = true) : ∀ c ∈ t, isHostChar c = true := by
  intro c hc
  obtain ⟨front, top, hsplit, hfront, htop⟩ := isHostname_last h
  by_cases hdot : c = '.'
  · subst hdot
    decide
  · obtain ⟨part, hpart, hmem⟩ := Text.mem_splitOn '.' hc hdot
    rw [hsplit, List.mem_append, List.mem_singleton] at hpart
    rcases hpart with hpart | rfl
    · exact isLabel_chars (List.all_eq_true.mp hfront part hpart) c hmem
    · exact isTopLevel_chars htop c hmem

theorem isHostname_length {t : Text} (h : isHostname t = true) : 1 ≤ t.length ∧ t.length ≤ 253 := by
  simp only [isHostname, Bool.and_eq_true, decide_eq_true_eq] at h
  exact h.1.1.1

/-- A top level domain is no number. -/
theorem isTopLevel_not_octet {t : Text} (h : isTopLevel t = true) : isOctet t = false := by
  simp only [isTopLevel, Bool.and_eq_true, decide_eq_true_eq, List.all_eq_true] at h
  obtain ⟨⟨hlength, -⟩, hlower⟩ := h
  cases t with
  | nil => simp at hlength
  | cons c t =>
      have hc : c.isLower = true := hlower c List.mem_cons_self
      have hdigit : c.isDigit = false := by
        have hletter := isLower_val hc
        simp only [Char.isDigit, Bool.and_eq_false_iff, decide_eq_false_iff_not, ge_iff_le,
          UInt32.le_iff_toNat_le]
        right
        have hnine : UInt32.toNat '9'.val = 57 := rfl
        omega
      simp [isOctet, hdigit]

theorem isHostname_not_ip {t : Text} (h : isHostname t = true) : isIpAddress t = false := by
  obtain ⟨front, top, hsplit, -, htop⟩ := isHostname_last h
  have hcolon : ':' ∉ t := fun hmem => absurd (isHostname_chars h _ hmem) (by decide)
  have hpercent : '%' ∉ t := fun hmem => absurd (isHostname_chars h _ hmem) (by decide)
  have hfour : isIpv4 t = false := by
    simp [isIpv4, hsplit, List.all_append, isTopLevel_not_octet htop]
  have honce : splitOnce '%' t = none := by
    cases hs : splitOnce '%' t with
    | none => rfl
    | some parts =>
        obtain ⟨-, rfl⟩ := Text.splitOnce_iff.mp (show splitOnce '%' t = some (parts.1, parts.2) from hs)
        exact absurd (by simp) hpercent
  have hsix : isIpv6 t = false := by
    simp [isIpv6, honce, isIpv6Address, List.splitOn_eq_singleton hcolon]
  simp [isIpAddress, hfour, hsix]

/-- A text without the characters to strip is as it was. -/
theorem stripBy_eq_self {p : Char → Bool} {t : Text} (h : ∀ c ∈ t, p c = false) :
    stripBy p t = t := by
  have hdrop : ∀ u : Text, (∀ c ∈ u, p c = false) → u.dropWhile p = u := by
    intro u hu
    cases u with
    | nil => rfl
    | cons c u => simp [hu c List.mem_cons_self]
  unfold stripBy
  rw [hdrop t h, hdrop t.reverse (by simpa using h), List.reverse_reverse]

theorem isHostname_strip {t : Text} (h : isHostname t = true) :
    stripBy (fun c => c == '[' || c == ']') t = t := by
  refine stripBy_eq_self fun c hc => ?_
  have hchar := isHostname_chars h c hc
  by_contra hbracket
  simp only [Bool.not_eq_false, Bool.or_eq_true, beq_iff_eq] at hbracket
  rcases hbracket with rfl | rfl <;> exact absurd hchar (by decide)

/-- `strip` leaves no line feed at the end. -/
theorem stripBy_not_endsLine {p : Char → Bool} (hp : p '\n' = true) (t : Text) :
    ¬ EndsLine (stripBy p t) := by
  rw [Text.endsLine_iff]
  unfold stripBy
  rw [List.getLast?_reverse]
  intro hhead
  have hnot := List.head?_dropWhile_not p (t.dropWhile p).reverse
  rw [hhead] at hnot
  simp [hp] at hnot

theorem collectHosts_hostname (py : Library) {items : List Text} {hosts : List Text}
    (h : collectHosts py items = .ok hosts) : ∀ host ∈ hosts, isHostname host = true := by
  induction items generalizing hosts with
  | nil =>
      cases h
      simp
  | cons item items ih =>
      rw [collectHosts] at h
      split at h
      · exact ih h
      · split at h
        · cases h
        · next hmatch =>
            obtain ⟨rest, hrest, rfl⟩ : ∃ rest, collectHosts py items = .ok rest ∧
                rest.insert (py.lower (stripBy Devin.isSpace item)) = hosts := by
              cases hc : collectHosts py items with
              | error e =>
                  rw [hc] at h
                  cases h
              | ok rest =>
                  rw [hc] at h
                  cases h
                  exact ⟨rest, rfl, rfl⟩
            have hline : ¬ EndsLine (py.lower (stripBy Devin.isSpace item)) := fun hends =>
              stripBy_not_endsLine (by decide) item (py.lower_line _ hends)
            have hname : isHostname (py.lower (stripBy Devin.isSpace item)) = true := by
              rcases Text.matchLine_iff.mp (by simpa using hmatch) with hname | ⟨u, hu, -⟩
              · exact hname
              · exact absurd ⟨u, hu⟩ hline
            intro host hhost
            rcases List.mem_insert_iff.mp hhost with rfl | hhost
            · exact hname
            · exact ih hrest host hhost

/-- Every host of the list is an exact host name. -/
theorem parseAllowedHosts_hostname (py : Library) {raw : Option Text} {hosts : List Text}
    (h : parseAllowedHosts py raw = .ok hosts) : ∀ host ∈ hosts, isHostname host = true := by
  cases raw with
  | none =>
      cases h
      decide
  | some raw =>
      simp only [parseAllowedHosts] at h
      split at h
      · cases h
      · cases h
      · next hc =>
          cases h
          exact collectHosts_hostname py hc

/-! ## Requests -/

/-- What `parse_connect_target` returns; it raises when there are too many digits. -/
inductive Target
  | other
  | connect (host : Text) (port : ℕ)
  | raised

/-- `t.rstrip("\r\n")`. -/
def stripLineEnd (t : Text) : Text :=
  (t.reverse.dropWhile fun c => c == '\r' || c == '\n').reverse

/-- `t.rpartition(sep)`, if there is one. -/
def splitLast (sep : Char) (t : Text) : Option (Text × Text) :=
  (splitOnce sep t.reverse).map fun parts => (parts.2.reverse, parts.1.reverse)

/-- `host:port`. -/
def parseAuthority (authority : Text) : Target :=
  match splitLast ':' authority with
  | none => .other
  | some (host, port) =>
      if port = [] ∨ port.all (·.isDigit) = false ∨ host = [] then .other
      else
        match unsignedInt port with
        | none => .raised
        | some n => .connect (host.map Char.toLower) n

/-- `parse_connect_target`. -/
def parseConnectTarget (requestLine : List UInt8) : Target :=
  if requestLine.all (fun b => decide (b.toNat < 128)) = false then .other
  else
    match (stripLineEnd (decodeLatin1 requestLine)).splitOn ' ' with
    | [method, authority, version] =>
        if method ≠ "CONNECT".toList ∨ startsWith "HTTP/1.".toList version = false then .other
        else parseAuthority authority
    | _ => .other

/-- `_ALLOWED_PORT`. -/
def allowedPort : ℕ := 443

/-- `decide`, of a host and a port; `none` is permitted. -/
def refusal (allowed : List Text) (host : Text) (port : ℕ) : Option Text :=
  if port ≠ allowedPort then
    some ("port ".toList ++ (toString port).toList ++ " is not permitted".toList)
  else if isIpAddress (stripBy (fun c => c == '[' || c == ']') host) then
    some "IP literals are not permitted".toList
  else if host ∉ allowed then
    some ("host ".toList ++ host ++ " is not in the egress allowlist".toList)
  else none

/-- A request line that the proxy takes, up to what ends it: the host in the spelling of the
client, and the digits of the port. -/
structure Connects (text spelling digits : Text) : Prop where
  line : ∃ version ending, text = "CONNECT ".toList ++ spelling ++ ':' :: digits ++ ' ' :: version
    ++ ending ∧ startsWith "HTTP/1.".toList version = true ∧
      ∀ c ∈ ending, c = '\r' ∨ c = '\n'
  named : spelling ≠ []
  number : digits ≠ [] ∧ digits.all (·.isDigit) = true

theorem splitLast_iff {sep : Char} {t first last : Text} :
    splitLast sep t = some (first, last) ↔ sep ∉ last ∧ t = first ++ sep :: last := by
  have hreverse : ∀ a b : Text, (splitOnce sep t.reverse = some (a, b)) ↔
      sep ∉ a ∧ t = b.reverse ++ sep :: a.reverse := by
    intro a b
    rw [Text.splitOnce_iff, List.reverse_eq_iff]
    simp
  constructor
  · intro h
    obtain ⟨⟨a, b⟩, hs, heq⟩ := Option.map_eq_some_iff.mp h
    cases heq
    obtain ⟨hmem, ht⟩ := (hreverse a b).mp hs
    exact ⟨by simpa using hmem, ht⟩
  · rintro ⟨hmem, ht⟩
    refine Option.map_eq_some_iff.mpr ⟨(last.reverse, first.reverse), ?_, by simp⟩
    exact (hreverse _ _).mpr ⟨by simpa using hmem, by simpa using ht⟩

/-- A text is what `stripLineEnd` leaves of it, and line ends. -/
theorem stripLineEnd_spec (t : Text) :
    ∃ ending, t = stripLineEnd t ++ ending ∧ ∀ c ∈ ending, c = '\r' ∨ c = '\n' := by
  refine ⟨(t.reverse.takeWhile fun c => c == '\r' || c == '\n').reverse, ?_, ?_⟩
  · rw [stripLineEnd, ← List.reverse_append, List.takeWhile_append_dropWhile, List.reverse_reverse]
  · intro c hc
    have := List.all_eq_true.mp List.all_takeWhile c (List.mem_reverse.mp hc)
    simpa using this

theorem parseAuthority_connect {authority host : Text} {port : ℕ}
    (h : parseAuthority authority = .connect host port) :
    ∃ spelling digits, authority = spelling ++ ':' :: digits ∧ spelling ≠ [] ∧ digits ≠ [] ∧
      digits.all (·.isDigit) = true ∧ host = spelling.map Char.toLower ∧
      unsignedInt digits = some port := by
  unfold parseAuthority at h
  split at h
  · cases h
  · next spelling digits hs =>
      split at h
      · cases h
      · next hparts =>
          split at h
          · cases h
          · next n hn =>
              cases h
              push Not at hparts
              obtain ⟨hne, hall, hname⟩ := hparts
              exact ⟨spelling, digits, (splitLast_iff.mp hs).2, hname, hne, by simpa using hall,
                rfl, hn⟩

/-- What a request that is read as one for a host and a port looks like. -/
theorem parseConnectTarget_connect {line : List UInt8} {host : Text} {port : ℕ}
    (h : parseConnectTarget line = .connect host port) :
    ∃ spelling digits, Connects (decodeLatin1 line) spelling digits ∧
      host = spelling.map Char.toLower ∧ unsignedInt digits = some port := by
  unfold parseConnectTarget at h
  split at h
  · cases h
  · split at h
    · next method authority version hsplit =>
        split at h
        · cases h
        · next hparts =>
            push Not at hparts
            obtain ⟨hmethod, hversion⟩ := hparts
            obtain ⟨spelling, digits, rfl, hname, hne, hall, hhost, hport⟩ :=
              parseAuthority_connect h
            refine ⟨spelling, digits, ⟨?_, hname, hne, hall⟩, hhost, hport⟩
            obtain ⟨ending, hline, hending⟩ := stripLineEnd_spec (decodeLatin1 line)
            have hjoin : [' '].intercalate ((stripLineEnd (decodeLatin1 line)).splitOn ' ') = _ :=
              List.intercalate_splitOn ' '
            rw [hsplit, hmethod] at hjoin
            refine ⟨version, ending, ?_, by simpa using hversion, hending⟩
            rw [hline, ← hjoin]
            simp [List.intercalate]
    · cases h

theorem stripLineEnd_append (body : Text) {ending : Text} {last : Char}
    (hlast : last ≠ '\r' ∧ last ≠ '\n') (hending : ∀ c ∈ ending, c = '\r' ∨ c = '\n') :
    stripLineEnd (body ++ [last] ++ ending) = body ++ [last] := by
  have hdrop : ∀ (u rest : Text), (∀ c ∈ u, c = '\r' ∨ c = '\n') →
      (u ++ last :: rest).dropWhile (fun c => c == '\r' || c == '\n') = last :: rest := by
    intro u rest hu
    rw [List.dropWhile_append_of_pos fun c hc => by simpa using hu c hc]
    simp [hlast]
  unfold stripLineEnd
  rw [List.reverse_append, List.reverse_append, List.reverse_singleton, List.singleton_append,
    hdrop _ _ fun c hc => hending c (List.mem_reverse.mp hc)]
  simp

theorem toNat_decode (b : UInt8) : (Char.ofNat b.toNat).toNat = b.toNat := by
  have hvalid : b.toNat.isValidChar := Or.inl (by have := b.toNat_lt; omega)
  rw [Char.ofNat, dif_pos hvalid]
  rfl

/-- The bytes of an ASCII text are ASCII. -/
theorem ascii_of_decode {line : List UInt8} (h : (decodeLatin1 line).IsAscii) :
    line.all (fun b => decide (b.toNat < 128)) = true := by
  rw [List.all_eq_true]
  intro b hb
  have := h (Char.ofNat b.toNat) (List.mem_map.mpr ⟨b, hb, rfl⟩)
  rw [toNat_decode] at this
  exact decide_eq_true this

/-- The request of a host in any spelling is read as one for that host. -/
theorem parseConnectTarget_spelling {line : List UInt8} {spelling ending : Text}
    (hname : spelling ≠ []) (hspace : ' ' ∉ spelling) (hascii : spelling.IsAscii)
    (hending : ∀ c ∈ ending, c = '\r' ∨ c = '\n')
    (hline : decodeLatin1 line =
      "CONNECT ".toList ++ spelling ++ ":443 HTTP/1.1".toList ++ ending) :
    parseConnectTarget line = .connect (spelling.map Char.toLower) 443 := by
  have hbytes : line.all (fun b => decide (b.toNat < 128)) = true := by
    refine ascii_of_decode ?_
    rw [hline]
    have hverb : Text.IsAscii "CONNECT ".toList := by decide
    have hversion : Text.IsAscii ":443 HTTP/1.1".toList := by decide
    intro c hc
    simp only [List.mem_append] at hc
    rcases hc with ((hc | hc) | hc) | hc
    · exact hverb c hc
    · exact hascii c hc
    · exact hversion c hc
    · rcases hending c hc with rfl | rfl <;> decide
  have hstrip : stripLineEnd (decodeLatin1 line) =
      "CONNECT".toList ++ ' ' :: ((spelling ++ ":443".toList) ++ ' ' :: "HTTP/1.1".toList) := by
    have hlast : '1' ≠ '\r' ∧ '1' ≠ '\n' := by decide
    have := stripLineEnd_append ("CONNECT ".toList ++ spelling ++ ":443 HTTP/1.".toList) hlast
      hending
    rw [hline]
    simpa using this
  have hsplit : (stripLineEnd (decodeLatin1 line)).splitOn ' ' =
      ["CONNECT".toList, spelling ++ ":443".toList, "HTTP/1.1".toList] := by
    rw [hstrip, List.splitOn_append_cons_self_of_not_mem (by decide),
      List.splitOn_append_cons_self_of_not_mem (by simp [hspace]),
      List.splitOn_eq_singleton (by decide)]
  have hparts : splitLast ':' (spelling ++ ":443".toList) = some (spelling, "443".toList) :=
    splitLast_iff.mpr ⟨by decide, rfl⟩
  have hdigits : unsignedInt "443".toList = some 443 := by decide
  have hversion : startsWith "HTTP/1.".toList "HTTP/1.1".toList = true := by decide
  have hauthority : parseAuthority (spelling ++ ":443".toList) =
      .connect (spelling.map Char.toLower) 443 := by
    unfold parseAuthority
    rw [hparts]
    simp only [hdigits]
    rw [if_neg]
    simp [hname]
  unfold parseConnectTarget
  rw [if_neg (by simp [hbytes]), hsplit]
  simp only [hversion]
  rw [if_neg (by simp), hauthority]

/-! ## Hosts of the list -/

theorem refusal_none {allowed : List Text} {host : Text} {port : ℕ}
    (h : refusal allowed host port = none) : port = allowedPort ∧ host ∈ allowed := by
  unfold refusal at h
  split at h
  · cases h
  · next hport =>
      split at h
      · cases h
      · split at h
        · cases h
        · next hhost => exact ⟨not_not.mp hport, not_not.mp hhost⟩

/-- Only an address or another port can be wrong with a host of the list. -/
theorem refusal_hostname {allowed : List Text} {host : Text} (hhost : host ∈ allowed)
    (hname : isHostname host = true) : refusal allowed host allowedPort = none := by
  unfold refusal
  rw [isHostname_strip hname, isHostname_not_ip hname]
  simp [hhost]

theorem not_mem_spelling {host spelling : Text} {c : Char} (hlower : c.toLower = c)
    (hspelling : spelling.map Char.toLower = host) (h : c ∉ host) : c ∉ spelling := by
  intro hmem
  refine h ?_
  rw [← hspelling, ← hlower]
  exact List.mem_map.mpr ⟨c, hmem, rfl⟩

theorem isHostChar_ascii {c : Char} (h : isHostChar c = true) : c.toNat < 128 := by
  simp only [isHostChar, isAlnum, Char.isDigit, Bool.or_eq_true, Bool.and_eq_true,
    decide_eq_true_eq, beq_iff_eq, ge_iff_le, UInt32.le_iff_toNat_le] at h
  have hnine : UInt32.toNat '9'.val = 57 := rfl
  have hc : c.toNat = c.val.toNat := rfl
  rcases h with ((h | ⟨-, h⟩) | rfl) | rfl
  · have hletter := isLower_val h
    omega
  · omega
  · decide
  · decide

/-- The spelling of a host name is in ASCII. -/
theorem spelling_ascii {host spelling : Text} (hname : isHostname host = true)
    (hspelling : spelling.map Char.toLower = host) : spelling.IsAscii := by
  intro c hc
  have hmem : c.toLower ∈ host := by
    rw [← hspelling]
    exact List.mem_map.mpr ⟨c, hc, rfl⟩
  have hlower := isHostChar_ascii (isHostname_chars hname _ hmem)
  rcases toLower_cases c with heq | ⟨hupper, -⟩
  · rwa [heq] at hlower
  · omega

/-- Texts in ASCII, of which `repr` is not looked at. -/
def demoLibrary : Library where
  lower t := t.map Char.toLower
  repr t := t
  lower_line t h := by
    rw [Text.endsLine_iff, List.getLast?_map] at h
    rw [Text.endsLine_iff]
    obtain ⟨c, hc, hlower⟩ := Option.map_eq_some_iff.mp h
    rcases toLower_cases c with heq | ⟨hupper, heq⟩
    · rw [hc, ← hlower, heq]
    · rw [hlower] at heq
      have : '\n'.toNat = 10 := rfl
      omega

end Remediator.Egress
