import Remediator.Lib.Schema
import Remediator.Probes.Registry

set_option autoImplicit false

/-! # Structured outputs

The contracts of `remediator/devin/triage.py` and `remediator/devin/remediation.py`. A session
returns a JSON document; the worker goes on with it only if it meets the schema that was sent with
the request, and reads its fields as if they were typed.
-/

namespace Remediator.Contracts

open Json

/-! ## Reading a document -/

/-- What a validator raises: its own error, by the messages it has, or an exception of Python. -/
inductive Refusal
  | missing
  | notObject
  | invalid (path : Path) (message : String)
  | incomplete
  | python (e : Exc)

/-- The checks before the fields are read; `iterErrors` is the validator of `jsonschema`. The output
`None` is JSON's `null`. -/
def checked (iterErrors : Validator) (schema : Schema) :
    Value → Except Refusal (List (String × Value))
  | .null => .error .missing
  | .dict fields =>
      match iterErrors schema (.dict fields) with
      | .error exc => .error (.python exc)
      | .ok [] => .ok fields
      | .ok (e :: es) =>
          match firstError e es with
          | .ok first => .error (.invalid first.path first.message)
          | .error exc => .error (.python exc)
  | _ => .error .notObject

/-- `output[key]`. -/
def field (key : String) (fields : List (String × Value)) : Except Refusal Value :=
  match List.lookup key fields with
  | some value => .ok value
  | none => .error (.python .keyError)

/-- `output[key][name]`. -/
def fieldOf (name : String) : Value → Except Refusal Value
  | .dict fields => field name fields
  | _ => .error (.python .typeError)

/-- `float(value)` of a number. An integer that is not too large is taken for a float. -/
def float : Value → Except Refusal Number
  | .number (.int n) =>
      if n.natAbs < 2 ^ 1024 - 2 ^ 970 then .ok (.finite n) else .error (.python .overflowError)
  | .number x => .ok x
  | _ => .error (.python .typeError)

/-- `int(value)` of a number. -/
def int : Value → Except Refusal Int
  | value =>
      match value.int (fun _ => none) with
      | .ok n => .ok n
      | .error e => .error (.python e)

/-- `tuple(str(x) for x in value)`. -/
def texts (repr : Value → String) (value : Value) : Except Refusal (List String) :=
  match value.iterate with
  | .ok xs => .ok (xs.map (·.text repr))
  | .error e => .error (.python e)

/-! ## The parts of the schemas -/

/-- `{"type": "string", "maxLength": n}`. -/
def textSchema (n : Nat) : Schema := .all [.type [.string], .maxLength n]

/-- `{"type": "string", "enum": texts}`. -/
def enumSchema (texts : List String) : Schema := .all [.type [.string], .enum texts]

/-- `{"type": "string", "pattern": search}`. -/
def patternSchema (search : Text → Bool) : Schema := .all [.type [.string], .pattern search]

/-- `_STRING_LIST`. -/
def stringList (n : Nat) : Schema := .all [.type [.array], .items (textSchema 2000), .maxItems n]

theorem isKind_string {v : Value} : v.isKind .string = true ↔ ∃ s, v = .str s := by
  cases v with
  | str s => exact ⟨fun _ => ⟨s, rfl⟩, fun _ => rfl⟩
  | number n => cases n <;> exact ⟨nofun, nofun⟩
  | _ => exact ⟨nofun, nofun⟩

theorem isKind_array {v : Value} : v.isKind .array = true ↔ ∃ xs, v = .list xs := by
  cases v with
  | list xs => exact ⟨fun _ => ⟨xs, rfl⟩, fun _ => rfl⟩
  | number n => cases n <;> exact ⟨nofun, nofun⟩
  | _ => exact ⟨nofun, nofun⟩

theorem valid_type {kind : Kind} {v : Value} :
    (Schema.type [kind]).Valid v ↔ v.isKind kind = true := by
  unfold Schema.Valid
  simp only [List.mem_singleton, exists_eq_left]

/-- A schema that starts with the type of texts. -/
theorem valid_string {keywords : List Schema} {v : Value} :
    (Schema.all (.type [.string] :: keywords)).Valid v ↔
      ∃ s, v = .str s ∧ ∀ keyword ∈ keywords, keyword.Valid (.str s) := by
  rw [Schema.valid_all, List.forall_mem_cons, valid_type, isKind_string]
  constructor
  · rintro ⟨⟨s, rfl⟩, h⟩
    exact ⟨s, rfl, h⟩
  · rintro ⟨s, rfl, h⟩
    exact ⟨⟨s, rfl⟩, h⟩

theorem valid_maxLength {n : Nat} {s : String} :
    (Schema.maxLength n).Valid (.str s) ↔ s.length ≤ n := about_iff fun _ _ => Value.str.inj

theorem valid_minLength {n : Nat} {s : String} :
    (Schema.minLength n).Valid (.str s) ↔ n ≤ s.length := about_iff fun _ _ => Value.str.inj

theorem valid_pattern {search : Text → Bool} {s : String} :
    (Schema.pattern search).Valid (.str s) ↔ search s.toList = true :=
  about_iff fun _ _ => Value.str.inj

theorem valid_text {n : Nat} {v : Value} :
    (textSchema n).Valid v ↔ ∃ s, v = .str s ∧ s.length ≤ n := by
  unfold textSchema
  simp only [valid_string, List.mem_singleton, forall_eq, valid_maxLength]

theorem valid_enum {texts : List String} {v : Value} :
    (enumSchema texts).Valid v ↔ ∃ s, v = .str s ∧ s ∈ texts := by
  unfold enumSchema
  simp only [valid_string, List.mem_singleton, forall_eq]
  refine exists_congr fun s => and_congr_right fun _ => ?_
  constructor
  · rintro ⟨t, ht, heq⟩
    rw [Value.str.inj heq]
    exact ht
  · exact fun h => ⟨s, h, rfl⟩

theorem valid_patternSchema {search : Text → Bool} {v : Value} :
    (patternSchema search).Valid v ↔ ∃ s, v = .str s ∧ search s.toList = true := by
  unfold patternSchema
  simp only [valid_string, List.mem_singleton, forall_eq, valid_pattern]

/-- A list of texts. -/
theorem list_of_texts {xs : List Value} {P : String → Prop} :
    (∀ x ∈ xs, ∃ s, x = .str s ∧ P s) ↔ ∃ ts : List String, xs = ts.map .str ∧ ∀ t ∈ ts, P t := by
  induction xs with
  | nil => exact ⟨fun _ => ⟨[], rfl, nofun⟩, fun _ => nofun⟩
  | cons x xs ih =>
      rw [List.forall_mem_cons, ih]
      constructor
      · rintro ⟨⟨s, rfl, hs⟩, ts, rfl, hts⟩
        exact ⟨s :: ts, rfl, List.forall_mem_cons.mpr ⟨hs, hts⟩⟩
      · rintro ⟨ts, heq, hts⟩
        cases ts with
        | nil => cases heq
        | cons t ts =>
            obtain ⟨hx, hxs⟩ := List.cons.inj heq
            obtain ⟨ht, hts⟩ := List.forall_mem_cons.mp hts
            exact ⟨⟨t, hx, ht⟩, ts, hxs, hts⟩

/-- A schema of a list of at most `n` texts. -/
theorem valid_texts {item : Schema} {P : String → Prop}
    (hitem : ∀ v, item.Valid v ↔ ∃ s, v = .str s ∧ P s) {n : Nat} {v : Value} {keywords : List Schema}
    (hkeywords : ∀ w, (∀ keyword ∈ keywords, keyword.Valid w) ↔
      (Schema.items item).Valid w ∧ (Schema.maxItems n).Valid w) :
    (Schema.all (.type [.array] :: keywords)).Valid v ↔
      ∃ ts : List String, v = .list (ts.map .str) ∧ ts.length ≤ n ∧ ∀ t ∈ ts, P t := by
  rw [Schema.valid_all, List.forall_mem_cons, valid_type, isKind_array, hkeywords]
  constructor
  · rintro ⟨⟨xs, rfl⟩, hitems, hlength⟩
    have hitems := (about_iff fun _ _ => Value.list.inj).mp hitems
    have hlength := (about_iff fun _ _ => Value.list.inj).mp hlength
    simp only [hitem] at hitems
    obtain ⟨ts, rfl, hts⟩ := list_of_texts.mp hitems
    rw [List.length_map] at hlength
    exact ⟨ts, rfl, hlength, hts⟩
  · rintro ⟨ts, rfl, hlength, hts⟩
    refine ⟨⟨_, rfl⟩, ?_, ?_⟩
    · refine (about_iff fun _ _ => Value.list.inj).mpr ?_
      simp only [hitem]
      exact list_of_texts.mpr ⟨ts, rfl, hts⟩
    · refine (about_iff fun _ _ => Value.list.inj).mpr ?_
      rw [List.length_map]
      exact hlength

theorem valid_stringList {n : Nat} {v : Value} :
    (stringList n).Valid v ↔ ∃ ts : List String, v = .list (ts.map .str) ∧ ts.length ≤ n ∧
      ∀ t ∈ ts, t.length ≤ 2000 := by
  refine valid_texts (fun _ => valid_text) fun w => ?_
  simp only [List.forall_mem_cons, List.not_mem_nil, false_implies, implies_true, and_true]

/-! ## Typed parts of a document -/

/-- A text of at most `n` characters. -/
abbrev TextUpTo (n : Nat) : Type := {s : String // s.length ≤ n}

/-- One of the texts. -/
abbrev OneOf (texts : List String) : Type := {s : String // s ∈ texts}

/-- A text that the pattern finds. -/
abbrev Matching (search : Text → Bool) : Type := {s : String // search s.toList = true}

/-- At most `n` texts of at most 2000 characters. -/
abbrev Texts (n : Nat) : Type := {ts : List String // ts.length ≤ n ∧ ∀ t ∈ ts, t.length ≤ 2000}

/-! ## Objects by their fields -/

section Fields

variable {required : List String} {schemas : List (String × Schema)}
  {fields : List (String × Value)}

/-- A required field is there and meets its schema. -/
theorem conforms_get (h : Conforms required schemas fields) (i : Nat) {name : String}
    {schema : Schema} (hi : schemas[i]? = some (name, schema)) (hname : name ∈ required) :
    ∃ x, List.lookup name fields = some x ∧ schema.Valid x := by
  obtain ⟨x, hx⟩ := Option.isSome_iff_exists.mp (h.present name hname)
  exact ⟨x, hx, h.valid _ (List.mem_of_getElem? hi) x hx⟩

theorem lookup_isSome_iff {key : String} :
    (List.lookup key fields).isSome = true ↔ key ∈ fields.map Prod.fst := by
  induction fields with
  | nil => exact ⟨nofun, nofun⟩
  | cons p fields ih =>
      rw [List.lookup_cons, List.map_cons, List.mem_cons]
      cases hkey : key == p.1 with
      | true => exact ⟨fun _ => Or.inl (eq_of_beq hkey), fun _ => rfl⟩
      | false =>
          rw [ih]
          exact ⟨Or.inr, fun h => h.resolve_left (ne_of_beq_false hkey)⟩

/-- A dictionary is the same as a list of fields if it has those, and no other. -/
theorem same_of_fields {encoded : List (String × Value)} (hfields : UniqueKeys fields)
    (hencoded : UniqueKeys encoded) (hclosed : ∀ p ∈ fields, p.1 ∈ encoded.map Prod.fst)
    (heach : ∀ p ∈ encoded, ∃ x, List.lookup p.1 fields = some x ∧ x.Same p.2) :
    (Value.dict fields).Same (.dict encoded) := by
  rw [same_dict_iff hfields hencoded]
  intro key
  cases hkey : List.lookup key encoded with
  | some y =>
      obtain ⟨x, hx, hsame⟩ := heach _ (mem_of_lookup hkey)
      dsimp only at hx
      rw [hx]
      exact congrArg some hsame
  | none =>
      cases hx : List.lookup key fields with
      | none => rfl
      | some x =>
          have hmem := lookup_isSome_iff.mpr (hclosed _ (mem_of_lookup hx))
          rw [hkey] at hmem
          cases hmem

/-- What is the same as a list of fields has each of them. -/
theorem same_dict {v : Value} (hv : v.Distinct) {encoded : List (String × Value)}
    (hencoded : UniqueKeys encoded) (h : v.Same (.dict encoded)) :
    ∃ fields, v = .dict fields ∧ ∀ key y, List.lookup key encoded = some y →
      ∃ x, List.lookup key fields = some x ∧ x.Same y := by
  cases v with
  | dict fields =>
      refine ⟨fields, rfl, ?_⟩
      intro key y hy
      have hkey := (same_dict_iff hv.1 hencoded).mp h key
      rw [hy] at hkey
      exact Option.map_eq_some_iff.mp hkey
  | _ => cases h

/-- A list of fields conforms if it has the right names and each value is valid. -/
theorem conforms_of_fields (hkeys : ∀ name ∈ fields.map Prod.fst, name ∈ schemas.map Prod.fst)
    (hpresent : ∀ name ∈ required, name ∈ fields.map Prod.fst)
    (hvalid : ∀ schema ∈ schemas, ∀ x, List.lookup schema.1 fields = some x → schema.2.Valid x) :
    Conforms required schemas fields where
  closed p hp := hkeys _ (List.mem_map.mpr ⟨p, hp, rfl⟩)
  present name hname := lookup_isSome_iff.mpr (hpresent name hname)
  valid := hvalid

/-- The field under a key is the one that is there. -/
theorem valid_at {key : String} {y : Value} {schema : Schema}
    (hy : List.lookup key fields = some y) (h : schema.Valid y) :
    ∀ x, List.lookup key fields = some x → schema.Valid x := by
  intro x hx
  rw [hy] at hx
  exact Option.some.inj hx ▸ h

theorem field_eq {key : String} {x : Value} (h : List.lookup key fields = some x) :
    field key fields = .ok x := by
  unfold field
  rw [h]

theorem distinct_texts (ts : List String) : (Value.list (ts.map .str)).Distinct := by
  change DistinctList (ts.map .str)
  induction ts with
  | nil => trivial
  | cons t ts ih => exact ⟨trivial, ih⟩

theorem texts_list (repr : Value → String) (ts : List String) :
    texts repr (.list (ts.map .str)) = .ok ts := by
  have htexts : (ts.map Value.str).map (·.text repr) = ts := by
    rw [List.map_map]
    exact List.map_id _
  exact congrArg Except.ok htexts

end Fields

/-! ## Accepting and refusing -/

section Checks

variable {iterErrors : Validator} {schema : Schema} {v : Value}

/-- The check accepts exactly the objects that meet the schema. -/
theorem checked_eq_ok (hdraft : iterErrors.Draft7) {fields : List (String × Value)} :
    checked iterErrors schema v = .ok fields ↔ v = .dict fields ∧ schema.Valid v := by
  cases v with
  | dict items =>
      rw [← hdraft.accepts_iff]
      unfold checked
      dsimp only
      cases iterErrors schema (.dict items) with
      | error exc => exact ⟨nofun, fun h => by cases h.2⟩
      | ok es =>
          cases es with
          | nil =>
              constructor
              · intro h
                exact ⟨by rw [Except.ok.inj h], rfl⟩
              · rintro ⟨h, -⟩
                rw [Value.dict.inj h]
          | cons e es =>
              refine ⟨fun h => ?_, fun h => absurd (Except.ok.inj h.2) (List.cons_ne_nil _ _)⟩
              dsimp only at h
              split at h <;> cases h
  | _ => exact ⟨nofun, fun h => by cases h.1⟩

/-- What a refusal says about the output: nothing was there, or no object, or the schema is not met
at the place that the message names, and no error is about a place before it. An exception of Python
is the validator's own. -/
def Explains (iterErrors : Validator) (schema : Schema) (v : Value) : Refusal → Prop
  | .missing => v = .null
  | .notObject => v ≠ .null ∧ ∀ fields, v ≠ .dict fields
  | .invalid path message =>
      SchemaError.Genuine schema v ⟨path, message⟩ ∧ ∃ es, iterErrors schema v = .ok es ∧
        ⟨path, message⟩ ∈ es ∧ ∀ e ∈ es, pathLt e.path path = .ok false
  | .incomplete => False
  | .python exc => iterErrors schema v = .error exc

/-- Every refusal of the check is explained: sorting the errors never raises, as the paths into one
value can be compared. -/
theorem checked_error (hdraft : iterErrors.Draft7) {e : Refusal}
    (h : checked iterErrors schema v = .error e) : Explains iterErrors schema v e := by
  cases v with
  | null =>
      obtain rfl := Except.error.inj h
      rfl
  | dict fields =>
      unfold checked at h
      dsimp only at h
      cases herrors : iterErrors schema (.dict fields) with
      | error exc =>
          rw [herrors] at h
          obtain rfl := Except.error.inj h
          exact herrors
      | ok es =>
          rw [herrors] at h
          have hplaces := hdraft.places schema _ es herrors
          cases es with
          | nil => cases h
          | cons d ds =>
              dsimp only at h
              obtain ⟨first, hfirst, heq, hmin⟩ := @firstError_ok (.dict fields) d ds fun c hc => by
                obtain ⟨-, x, -, hx, -⟩ := hplaces c hc
                exact ⟨x, hx⟩
              rw [heq] at h
              obtain rfl := Except.error.inj h
              exact ⟨hplaces first hfirst, _, herrors, hfirst, hmin⟩
  | _ =>
      obtain rfl := Except.error.inj h
      exact ⟨nofun, nofun⟩

end Checks

end Remediator.Contracts
