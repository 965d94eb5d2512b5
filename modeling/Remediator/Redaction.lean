import Remediator.Lib.Replace

set_option autoImplicit false

/-! # What is logged of the credentials

`adapters.py` and `devin/live.py`: filters that replace the configured credentials in the message
of a log record. The longest credential is replaced first, because one credential can be a part
of another.
-/

namespace Remediator.Redaction

open Text

/-! ## Credentials -/

/-- A configured credential. -/
abbrev Secret : Type := {t : Text // t ≠ []}

/-! ## Records -/

/-- A `LogRecord`: what its message is made of, and the exception and the stack that are printed
after it. -/
structure Record (α : Type) where
  msg : Text
  args : List α
  excInfo : Option Text := none
  stackInfo : Option Text := none

section Records

variable {α : Type} (format : Text → List α → Text)

/-- `getMessage`, with the formatting of arguments as a parameter. -/
def Record.getMessage (r : Record α) : Text := if r.args.isEmpty then r.msg else format r.msg r.args

/-- What stands in the place of a credential. -/
def redacted : Text := "[REDACTED]".toList

/-- `sorted(secrets, key=len, reverse=True)`. -/
def longestFirst (secrets : List Secret) : List Secret :=
  secrets.mergeSort fun a b => decide (b.1.length ≤ a.1.length)

/-- `SettingsRedactingFilter.redact`. -/
def redact (secrets : List Secret) (text : Text) : Text :=
  (longestFirst secrets).foldl (fun text secret => replace secret.1 redacted text) text

/-- `SettingsRedactingFilter.filter`. -/
def settingsFilter (secrets : List Secret) (r : Record α) : Record α :=
  if secrets = [] then r
  else
    let message := r.getMessage format
    let text := redact secrets message
    if text ≠ message then { r with msg := text, args := [] } else r

/-- `SecretRedactingFilter.filter`; the key may be empty. -/
def secretFilter (secret : Text) (r : Record α) : Record α :=
  if secret = [] then r
  else
    let message := r.getMessage format
    if contains secret message then { r with msg := replace secret redacted message, args := [] }
    else r

/-- A filter that is installed on a logger or a handler. -/
inductive Filter
  | settings (secrets : List Secret)
  | apiKey (key : Text)

/-- What a filter must not let through. -/
def Filter.secrets : Filter → List Secret
  | .settings secrets => secrets
  | .apiKey key => if h : key = [] then [] else [⟨key, h⟩]

def Filter.apply (r : Record α) : Filter → Record α
  | .settings secrets => settingsFilter format secrets r
  | .apiKey key => secretFilter format key r

/-- A record goes through the filters one after the other. -/
def emit (filters : List Filter) (r : Record α) : Record α := filters.foldl (Filter.apply format) r

end Records

/-! ## What is left in a message -/

theorem mem_longestFirst {secrets : List Secret} {s : Secret} :
    s ∈ longestFirst secrets ↔ s ∈ secrets := List.mem_mergeSort

theorem longestFirst_pairwise (secrets : List Secret) :
    (longestFirst secrets).Pairwise fun a b => b.1.length ≤ a.1.length := by
  have hsorted : (longestFirst secrets).Pairwise
      fun a b => decide (b.1.length ≤ a.1.length) = true := by
    refine List.pairwise_mergeSort (fun a b c hab hbc => ?_) (fun a b => ?_) secrets
    · simp only [decide_eq_true_eq] at hab hbc ⊢
      omega
    · simp only [Bool.or_eq_true, decide_eq_true_eq]
      omega
  exact hsorted.imp fun h => of_decide_eq_true h

/-- The credential cannot be mixed up with what stands in its place. -/
def Distinct (s : Secret) : Prop := Clear s.1 redacted

/-- Replacing some credentials leaves none of them, and makes none of another one. -/
theorem replaceAll_clean {secrets : List Secret} (hdistinct : ∀ s ∈ secrets, Distinct s)
    (text : Text) :
    (∀ s ∈ secrets, ¬ s.1 <:+:
      secrets.foldl (fun text secret => replace secret.1 redacted text) text) ∧
    ∀ s : Secret, Distinct s → ¬ s.1 <:+: text → ¬ s.1 <:+:
      secrets.foldl (fun text secret => replace secret.1 redacted text) text := by
  induction secrets generalizing text with
  | nil => exact ⟨fun s hs => (by cases hs), fun s _ h => h⟩
  | cons secret secrets ih =>
      have hsecret := hdistinct secret List.mem_cons_self
      obtain ⟨hleft, hmade⟩ := ih (fun s hs => hdistinct s (List.mem_cons_of_mem _ hs))
        (replace secret.1 redacted text)
      refine ⟨fun s hs => ?_, fun s hs h => ?_⟩
      · rcases List.mem_cons.mp hs with rfl | hs
        · exact hmade s hsecret (not_infix_replace s.2 hsecret text)
        · exact hleft s hs
      · exact hmade s hs (not_infix_replace_of_not secret.2 s.2 hs h)

theorem redact_clean {secrets : List Secret} (hdistinct : ∀ s ∈ secrets, Distinct s)
    (text : Text) :
    (∀ s ∈ secrets, ¬ s.1 <:+: redact secrets text) ∧
    ∀ s : Secret, Distinct s → ¬ s.1 <:+: text → ¬ s.1 <:+: redact secrets text := by
  obtain ⟨hleft, hmade⟩ := replaceAll_clean
    (fun s hs => hdistinct s (mem_longestFirst.mp hs)) text
  exact ⟨fun s hs => hleft s (mem_longestFirst.mpr hs), hmade⟩

section Emit

variable {α : Type} {format : Text → List α → Text}

theorem settingsFilter_message (secrets : List Secret) (r : Record α) :
    (settingsFilter format secrets r).getMessage format = redact secrets (r.getMessage format) := by
  unfold settingsFilter
  split
  · next hnil =>
      subst hnil
      simp [redact, longestFirst]
  · dsimp only
    split
    · rfl
    · next heq => exact (not_not.mp heq).symm

theorem secretFilter_message {secret : Text} (h : secret ≠ []) (r : Record α) :
    (secretFilter format secret r).getMessage format = r.getMessage format ∧
        ¬ secret <:+: r.getMessage format ∨
      (secretFilter format secret r).getMessage format =
        replace secret redacted (r.getMessage format) := by
  unfold secretFilter
  rw [if_neg h]
  dsimp only
  split
  · exact Or.inr rfl
  · next hcontains => exact Or.inl ⟨rfl, fun hwithin => hcontains (contains_iff.mpr hwithin)⟩

/-- A filter leaves none of its credentials, and makes none of another filter's. -/
theorem Filter.apply_clean {f : Filter} (hdistinct : ∀ s ∈ f.secrets, Distinct s) (r : Record α) :
    (∀ s ∈ f.secrets, ¬ s.1 <:+: (f.apply format r).getMessage format) ∧
    ∀ s : Secret, Distinct s → ¬ s.1 <:+: r.getMessage format →
      ¬ s.1 <:+: (f.apply format r).getMessage format := by
  cases f with
  | settings secrets =>
      have := redact_clean hdistinct (r.getMessage format)
      rw [← settingsFilter_message] at this
      exact this
  | apiKey key =>
      by_cases h : key = []
      · subst h
        exact ⟨fun s hs => (by cases hs), fun s _ hs => hs⟩
      · have hsecrets : (Filter.apiKey key).secrets = [⟨key, h⟩] := dif_neg h
        rw [hsecrets] at hdistinct ⊢
        have hsecret := hdistinct ⟨key, h⟩ List.mem_cons_self
        have happly : Filter.apply format r (.apiKey key) = secretFilter format key r := rfl
        rw [happly]
        rcases secretFilter_message h r with ⟨heq, hnot⟩ | heq
        · rw [heq]
          refine ⟨fun s hs => ?_, fun s _ hs => hs⟩
          rw [List.mem_singleton.mp hs]
          exact hnot
        · rw [heq]
          refine ⟨fun s hs => ?_, fun s hs hnot => not_infix_replace_of_not h s.2 hs hnot⟩
          rw [List.mem_singleton.mp hs]
          exact not_infix_replace h hsecret _

end Emit

/-- However many filters a message goes through, no credential of any of them is left in it. -/
theorem emit_message {α : Type} (format : Text → List α → Text) (filters : List Filter)
    (hdistinct : ∀ f ∈ filters, ∀ s ∈ f.secrets, Distinct s) (r : Record α) :
    ∀ f ∈ filters, ∀ s ∈ f.secrets, ¬ s.1 <:+: (emit format filters r).getMessage format := by
  have hkeeps : ∀ (filters : List Filter), (∀ f ∈ filters, ∀ s ∈ f.secrets, Distinct s) →
      ∀ (r : Record α) (s : Secret), Distinct s → ¬ s.1 <:+: r.getMessage format →
        ¬ s.1 <:+: (emit format filters r).getMessage format := by
    intro filters
    induction filters with
    | nil => exact fun _ r s _ h => h
    | cons f filters ih =>
        intro hdistinct r s hs h
        exact ih (fun f hf => hdistinct f (List.mem_cons_of_mem _ hf)) (f.apply format r) s hs
          ((Filter.apply_clean (hdistinct f List.mem_cons_self) r).2 s hs h)
  induction filters generalizing r with
  | nil => exact fun f hf => (by cases hf)
  | cons g filters ih =>
      intro f hf s hs
      have hrest : ∀ f ∈ filters, ∀ s ∈ f.secrets, Distinct s :=
        fun f hf => hdistinct f (List.mem_cons_of_mem _ hf)
      rcases List.mem_cons.mp hf with rfl | hf
      · have hg := hdistinct f List.mem_cons_self
        exact hkeeps filters hrest (f.apply format r) s (hg s hs)
          ((Filter.apply_clean hg r).1 s hs)
      · exact ih hrest (g.apply format r) f hf s hs

/-- No filter looks at what is printed after the message. -/
theorem Filter.apply_rest {α : Type} {format : Text → List α → Text} (f : Filter) (r : Record α) :
    (f.apply format r).excInfo = r.excInfo ∧ (f.apply format r).stackInfo = r.stackInfo := by
  cases f with
  | settings secrets =>
      show (settingsFilter format secrets r).excInfo = _ ∧
        (settingsFilter format secrets r).stackInfo = _
      unfold settingsFilter
      dsimp only
      split_ifs <;> exact ⟨rfl, rfl⟩
  | apiKey key =>
      show (secretFilter format key r).excInfo = _ ∧ (secretFilter format key r).stackInfo = _
      unfold secretFilter
      dsimp only
      split_ifs <;> exact ⟨rfl, rfl⟩

/-- **No credential is left in a message, and only the message is looked at.** Whatever a message is
put together from, and however many filters of either kind it goes through in whatever order, no
credential of any of them is left in it, as long as the credentials cannot be mixed up with what
stands in their place. The exception and the stack that are printed after it stay as they are. -/
theorem emit_clean {α : Type} (format : Text → List α → Text) (filters : List Filter)
    (hdistinct : ∀ f ∈ filters, ∀ s ∈ f.secrets, Distinct s) (r : Record α) :
    (∀ f ∈ filters, ∀ s ∈ f.secrets, ¬ s.1 <:+: (emit format filters r).getMessage format) ∧
      (emit format filters r).excInfo = r.excInfo ∧
      (emit format filters r).stackInfo = r.stackInfo := by
  refine ⟨emit_message format filters hdistinct r, ?_⟩
  clear hdistinct
  induction filters generalizing r with
  | nil => exact ⟨rfl, rfl⟩
  | cons f filters ih =>
      obtain ⟨hexc, hstack⟩ := ih (f.apply format r)
      obtain ⟨hexc', hstack'⟩ := f.apply_rest r
      exact ⟨hexc.trans hexc', hstack.trans hstack'⟩

/-! ## What stays in a message -/

/-- The piece as it is logged. -/
def mask (secrets : List Secret) : Piece → Piece
  | .lit t => .lit t
  | .val v => if v ∈ secrets.map (·.1) then .lit redacted else .val v

theorem mem_values_put {old new v : Text} {pieces : List Piece}
    (h : v ∈ values (pieces.map (Piece.put old new))) : v ∈ values pieces ∧ v ≠ old := by
  obtain ⟨q, hq, hv⟩ := List.mem_filterMap.mp h
  obtain ⟨p, hp, rfl⟩ := List.mem_map.mp hq
  cases p with
  | lit t => cases hv
  | val w =>
      rw [Piece.put] at hv
      by_cases hw : w = old
      · rw [if_pos hw] at hv
        cases hv
      · rw [if_neg hw] at hv
        cases hv
        exact ⟨List.mem_filterMap.mpr ⟨_, hp, rfl⟩, hw⟩

theorem mask_put (secret : Secret) (secrets : List Secret) (p : Piece) :
    mask secrets (Piece.put secret.1 redacted p) = mask (secret :: secrets) p := by
  cases p with
  | lit t => rfl
  | val v =>
      by_cases hv : v = secret.1
      · simp [Piece.put, mask, hv]
      · simp [Piece.put, mask, hv]

/-- Longest first, each credential is found whole. -/
theorem replaceAll_join {secrets : List Secret}
    (hsorted : secrets.Pairwise fun a b => b.1.length ≤ a.1.length)
    (hdistinct : ∀ s ∈ secrets, Distinct s) {pieces : List Piece}
    (hformatted : ∀ s ∈ secrets, formatted s.1 pieces = true)
    (hvalues : ∀ v ∈ values pieces, v ∈ secrets.map (·.1) ∨ ∀ s ∈ secrets, ¬ s.1 <:+: v) :
    secrets.foldl (fun text secret => replace secret.1 redacted text) (join pieces) =
      join (pieces.map (mask secrets)) := by
  induction secrets generalizing pieces with
  | nil =>
      have hmask : mask [] = id := by
        funext p
        cases p with
        | lit t => rfl
        | val v => simp [mask]
      rw [hmask, List.map_id]
      rfl
  | cons secret secrets ih =>
      obtain ⟨hshorter, hsorted⟩ := List.pairwise_cons.mp hsorted
      have hmem : ∀ {s}, s ∈ secrets → s ∈ secret :: secrets := fun h => List.mem_cons_of_mem _ h
      have hfirst : ∀ v ∈ values pieces, v = secret.1 ∨ ¬ secret.1 <:+: v := by
        intro v hv
        rcases hvalues v hv with hlisted | hfree
        · obtain ⟨s, hs, rfl⟩ := List.mem_map.mp hlisted
          by_cases hwithin : secret.1 <:+: s.1
          · left
            -- no other credential that is as long contains it
            rcases List.mem_cons.mp hs with rfl | hs
            · rfl
            · exact (hwithin.eq_of_length_le (hshorter s hs)).symm
          · exact Or.inr hwithin
        · exact Or.inr (hfree secret List.mem_cons_self)
      rw [List.foldl_cons, replace_join secret.2 (hformatted secret List.mem_cons_self) hfirst,
        ih hsorted (fun s hs => hdistinct s (hmem hs)) (fun s hs =>
          formatted_put (hdistinct s (hmem hs)) (hformatted s (hmem hs))), List.map_map]
      · exact congrArg join (List.map_congr_left fun p _ => mask_put secret secrets p)
      · intro v hv
        obtain ⟨hv, hne⟩ := mem_values_put hv
        rcases hvalues v hv with hlisted | hfree
        · exact Or.inl ((List.mem_cons.mp hlisted).resolve_left hne)
        · exact Or.inr fun s hs => hfree s (hmem hs)

/-- **Exactly the credentials are taken out.** In a message made of literals that are clear of the
credentials and of values that are credentials or contain none, with a literal between two values,
each credential is replaced as a whole, also when it contains another one, and everything else is
logged as it is. -/
theorem redact_exact (secrets : List Secret) (hdistinct : ∀ s ∈ secrets, Distinct s)
    (pieces : List Piece) (hformatted : ∀ s ∈ secrets, formatted s.1 pieces = true)
    (hvalues : ∀ v ∈ values pieces, v ∈ secrets.map (·.1) ∨ ∀ s ∈ secrets, ¬ s.1 <:+: v) :
    redact secrets (join pieces) = join (pieces.map (mask secrets)) := by
  have hmem : ∀ {s : Secret}, s ∈ longestFirst secrets → s ∈ secrets := fun h =>
    mem_longestFirst.mp h
  have hlisted : ∀ v, v ∈ (longestFirst secrets).map (·.1) ↔ v ∈ secrets.map (·.1) := by
    intro v
    simp only [List.mem_map, mem_longestFirst]
  have hmask : mask (longestFirst secrets) = mask secrets := by
    funext p
    cases p with
    | lit t => rfl
    | val v => simp only [mask, hlisted]
  rw [← hmask]
  refine replaceAll_join (longestFirst_pairwise secrets) (fun s hs => hdistinct s (hmem hs))
    (fun s hs => hformatted s (hmem hs)) fun v hv => ?_
  rw [hlisted]
  exact (hvalues v hv).imp_right fun h s hs => h s (hmem hs)

/-- A password, and the user name and the password of a URL. -/
def demoSecrets : List Secret :=
  [⟨"pw-1234".toList, by decide⟩, ⟨"app:pw-1234".toList, by decide⟩]

theorem demoSecrets_distinct : ∀ s ∈ demoSecrets, Distinct s := by
  have h : ∀ s ∈ demoSecrets, clear s.1 redacted = true := by decide
  exact fun s hs => clear_iff.mp (h s hs)

/-- The filters of a process with a database and an API key. -/
def demoFilters : List Filter := [.settings demoSecrets, .apiKey "key".toList]

theorem demoFilters_distinct : ∀ f ∈ demoFilters, ∀ s ∈ f.secrets, Distinct s := by
  intro f hf
  rcases List.mem_cons.mp hf with rfl | hf
  · exact demoSecrets_distinct
  · rw [List.mem_singleton.mp hf]
    have h : ∀ s ∈ (Filter.apiKey "key".toList).secrets, clear s.1 redacted = true := by decide
    exact fun s hs => clear_iff.mp (h s hs)

/-- A message with two credentials, logged with an exception. -/
def demoRecord : Record Text where
  msg := "no ".toList
  args := ["key".toList, "app:pw-1234".toList]
  excInfo := some "RuntimeError: app:pw-1234".toList

theorem emit_clean_demo :
    ¬ "pw-1234".toList <:+: (emit (fun msg (args : List Text) => msg ++ args.flatten) demoFilters
      demoRecord).getMessage (fun msg args => msg ++ args.flatten) ∧
    (emit (fun msg (args : List Text) => msg ++ args.flatten) demoFilters demoRecord).excInfo =
      some "RuntimeError: app:pw-1234".toList := by
  obtain ⟨hclean, hexc, -⟩ := emit_clean (fun msg (args : List Text) => msg ++ args.flatten)
    demoFilters demoFilters_distinct demoRecord
  exact ⟨hclean (.settings demoSecrets) List.mem_cons_self ⟨"pw-1234".toList, by decide⟩
    List.mem_cons_self, hexc⟩

theorem redact_exact_demo :
    redact demoSecrets (join [.lit "connect ".toList, .val "app:pw-1234".toList,
      .lit "@db: ".toList, .val "refused".toList]) =
    join ([.lit "connect ".toList, .val "app:pw-1234".toList, .lit "@db: ".toList,
      .val "refused".toList].map (mask demoSecrets)) := by
  have hnot : ∀ s ∈ demoSecrets, contains s.1 "refused".toList = false := by decide
  refine redact_exact demoSecrets demoSecrets_distinct _ (by decide) fun v hv => ?_
  rcases List.mem_cons.mp hv with rfl | hv
  · exact Or.inl (by decide)
  · rw [List.mem_singleton.mp hv]
    refine Or.inr fun s hs hwithin => ?_
    exact Bool.noConfusion ((hnot s hs).symm.trans (contains_iff.mpr hwithin))

end Remediator.Redaction
