import Mathlib.Data.Rat.Floor
import Mathlib.Data.String.Basic
import Mathlib.Tactic.Common
import Remediator.Lib.Canonical

set_option autoImplicit false

/-! # JSON Schema

What the keywords of draft 7 say about a value, and what a validator promises: it yields errors
exactly where the schema does not hold, each with the path to the place that it is about. A keyword
says something about values of its own kind only, so that a text is never too long for an integer.
-/

namespace Json

/-! ## Places -/

/-- One element of a path. -/
inductive Step
  | key (name : String)
  | index (i : Nat)
  deriving DecidableEq

abbrev Path : Type := List Step

/-- The value at the end of a path. -/
def Value.follow : Path → Value → Option Value
  | [], value => some value
  | .key name :: path, .dict fields => (List.lookup name fields).bind (Value.follow path)
  | .index i :: path, .list xs => xs[i]?.bind (Value.follow path)
  | _ :: _, _ => none

/-- `a < b` of two elements; a text and a number do not compare. -/
def Step.lt : Step → Step → Except Exc Bool
  | .key s, .key t => .ok (decide (s < t))
  | .index i, .index j => .ok (decide (i < j))
  | _, _ => .error .typeError

/-- `p < q` of two lists: the first elements that differ decide. -/
def pathLt : Path → Path → Except Exc Bool
  | [], [] => .ok false
  | [], _ :: _ => .ok true
  | _ :: _, [] => .ok false
  | a :: p, b :: q => if a = b then pathLt p q else a.lt b

/-! ## Schemas -/

/-- The values of `type`. -/
inductive Kind
  | null
  | boolean
  | integer
  | number
  | string
  | array
  | object
  deriving DecidableEq

/-- The types of draft 7: a float without a fraction is an integer, a boolean is no number. -/
def Value.isKind : Value → Kind → Bool
  | .null, .null => true
  | .bool _, .boolean => true
  | .number (.int _), .integer => true
  | .number (.finite q), .integer => decide (q.den = 1)
  | .number .negativeZero, .integer => true
  | .number _, .number => true
  | .str _, .string => true
  | .list _, .array => true
  | .dict _, .object => true
  | _, _ => false

/-- A schema, as the conjunction of its keywords. `search` is the search for a pattern, and
`closed names` is `additionalProperties: false` next to the properties of those names. -/
inductive Schema
  | any
  | both (first second : Schema)
  | type (kinds : List Kind)
  | const (text : String)
  | enum (texts : List String)
  | minLength (n : Nat)
  | maxLength (n : Nat)
  | pattern (search : Text → Bool)
  | minimum (q : ℚ)
  | maximum (q : ℚ)
  | maxItems (n : Nat)
  | items (item : Schema)
  | closed (names : List String)
  | required (names : List String)
  | property (name : String) (value : Schema)

/-- The keywords of one schema, in their order. -/
def Schema.all (keywords : List Schema) : Schema := keywords.foldr .both .any

/-- `properties`. -/
def Schema.properties (fields : List (String × Schema)) : Schema :=
  .all (fields.map fun field => .property field.1 field.2)

def Number.below : Number → ℚ → Bool
  | .int n, q => decide ((n : ℚ) < q)
  | .finite r, q => decide (r < q)
  | .negativeZero, q => decide (0 < q)
  | .infinite negative, _ => negative
  | .nan, _ => false

def Number.above : Number → ℚ → Bool
  | .int n, q => decide (q < (n : ℚ))
  | .finite r, q => decide (q < r)
  | .negativeZero, q => decide (q < 0)
  | .infinite negative, _ => !negative
  | .nan, _ => false

/-- What a schema says about a value. -/
def Schema.Valid : Schema → Value → Prop
  | .any, _ => True
  | .both first second, v => first.Valid v ∧ second.Valid v
  | .type kinds, v => ∃ kind ∈ kinds, v.isKind kind = true
  | .const text, v => v = .str text
  | .enum texts, v => ∃ text ∈ texts, v = .str text
  | .minLength n, v => ∀ s, v = .str s → n ≤ s.length
  | .maxLength n, v => ∀ s, v = .str s → s.length ≤ n
  | .pattern search, v => ∀ s, v = .str s → search s.toList = true
  | .minimum q, v => ∀ x, v = .number x → x.below q = false
  | .maximum q, v => ∀ x, v = .number x → x.above q = false
  | .maxItems n, v => ∀ xs, v = .list xs → xs.length ≤ n
  | .items item, v => ∀ xs, v = .list xs → ∀ x ∈ xs, item.Valid x
  | .closed names, v => ∀ fields, v = .dict fields → ∀ field ∈ fields, field.1 ∈ names
  | .required names, v =>
      ∀ fields, v = .dict fields → ∀ name ∈ names, (List.lookup name fields).isSome = true
  | .property name value, v =>
      ∀ fields, v = .dict fields → ∀ x, List.lookup name fields = some x → value.Valid x

/-! ## What a validator promises -/

/-- An error: the path to its place from the value that is validated, and a message. -/
structure SchemaError where
  path : Path
  message : String
  deriving DecidableEq

/-- The schema that holds at the end of a path. -/
inductive Schema.At : Schema → Path → Schema → Prop
  | here (s : Schema) : At s [] s
  | first {s t u : Schema} {path : Path} (h : At s path u) : At (.both s t) path u
  | second {s t u : Schema} {path : Path} (h : At t path u) : At (.both s t) path u
  | item {s u : Schema} {path : Path} {i : Nat} (h : At s path u) :
      At (.items s) (.index i :: path) u
  | property {s u : Schema} {path : Path} {name : String} (h : At s path u) :
      At (.property name s) (.key name :: path) u

/-- An error is about a place of the value where the schema of this place is not met. -/
def SchemaError.Genuine (schema : Schema) (v : Value) (e : SchemaError) : Prop :=
  ∃ s x, schema.At e.path s ∧ v.follow e.path = some x ∧ ¬ s.Valid x

/-- `list(validator.iter_errors(value))`. A message shows the value it is about, so that making it
may raise. -/
abbrev Validator : Type := Schema → Value → Except Exc (List SchemaError)

/-- What a validator of draft 7 promises. -/
structure Validator.Draft7 (iterErrors : Validator) : Prop where
  accepts : ∀ schema v, schema.Valid v → iterErrors schema v = .ok []
  rejects : ∀ schema v, iterErrors schema v = .ok [] → schema.Valid v
  places : ∀ schema v es, iterErrors schema v = .ok es → ∀ e ∈ es, e.Genuine schema v

theorem Validator.Draft7.accepts_iff {iterErrors : Validator} (h : iterErrors.Draft7)
    (schema : Schema) (v : Value) : iterErrors schema v = .ok [] ↔ schema.Valid v :=
  ⟨h.rejects schema v, h.accepts schema v⟩

/-! ## A validator -/

/-- An error of a part of the value. -/
def SchemaError.under (step : Step) (e : SchemaError) : SchemaError :=
  { e with path := step :: e.path }

/-- An error unless the keyword is met. -/
def complain (ok : Bool) (keyword : String) : List SchemaError :=
  if ok then [] else [⟨[], keyword⟩]

/-- A validator that goes through the keywords in their order; its messages are their names. -/
def Schema.errors : Schema → Value → List SchemaError
  | .any, _ => []
  | .both first second, v => first.errors v ++ second.errors v
  | .type kinds, v => complain (kinds.any v.isKind) "type"
  | .const text, v => complain (v.isStr text) "const"
  | .enum texts, v => complain (texts.any fun text => v.isStr text) "enum"
  | .minLength n, .str s => complain (decide (n ≤ s.length)) "minLength"
  | .maxLength n, .str s => complain (decide (s.length ≤ n)) "maxLength"
  | .pattern search, .str s => complain (search s.toList) "pattern"
  | .minimum q, .number x => complain (!x.below q) "minimum"
  | .maximum q, .number x => complain (!x.above q) "maximum"
  | .maxItems n, .list xs => complain (decide (xs.length ≤ n)) "maxItems"
  | .items item, .list xs =>
      xs.zipIdx.flatMap fun x => (item.errors x.1).map (SchemaError.under (.index x.2))
  | .closed names, .dict fields =>
      complain (fields.all fun field => names.contains field.1) "additionalProperties"
  | .required names, .dict fields =>
      names.flatMap fun name => complain (List.lookup name fields).isSome "required"
  | .property name value, .dict fields =>
      match List.lookup name fields with
      | some x => (value.errors x).map (SchemaError.under (.key name))
      | none => []
  | _, _ => []

theorem complain_eq_nil {ok : Bool} {keyword : String} : complain ok keyword = [] ↔ ok = true := by
  unfold complain
  cases ok with
  | true => exact ⟨fun _ => rfl, fun _ => rfl⟩
  | false => exact ⟨nofun, nofun⟩

theorem isStr_iff {v : Value} {text : String} : v.isStr text = true ↔ v = .str text := by
  cases v with
  | str s =>
      constructor
      · intro h
        rw [of_decide_eq_true h]
      · intro h
        exact decide_eq_true (Value.str.inj h)
  | _ => exact ⟨nofun, nofun⟩

/-- A keyword about the values of one constructor. -/
theorem about_iff {α β : Type} {make : α → β} (hinj : ∀ a b, make a = make b → a = b) {a : α}
    {P : α → Prop} : (∀ b, make a = make b → P b) ↔ P a :=
  ⟨fun h => h a rfl, fun h b hb => hinj a b hb ▸ h⟩

/-- It says nothing about a value of another one. -/
theorem about_other {α β : Type} {make : α → β} {v : β} (hother : ∀ a, make a ≠ v) {P : α → Prop} :
    ∀ a, v = make a → P a := fun a h => absurd h.symm (hother a)

theorem list_ne_dict (fields : List (String × Value)) (xs : List Value) :
    Value.list xs ≠ .dict fields := by
  intro h
  cases h

theorem dict_ne_list (xs : List Value) (fields : List (String × Value)) :
    Value.dict fields ≠ .list xs := (list_ne_dict fields xs).symm

theorem under_eq_nil {step : Step} {es : List SchemaError} :
    es.map (SchemaError.under step) = [] ↔ es = [] := List.map_eq_nil_iff

/-- There are no errors exactly where the schema holds. -/
theorem Schema.errors_eq_nil_iff (schema : Schema) (v : Value) :
    schema.errors v = [] ↔ schema.Valid v := by
  induction schema generalizing v with
  | any => exact ⟨fun _ => trivial, fun _ => rfl⟩
  | both first second ih₁ ih₂ =>
      unfold errors Valid
      rw [List.append_eq_nil_iff, ih₁, ih₂]
  | type kinds =>
      unfold errors Valid
      rw [complain_eq_nil, List.any_eq_true]
  | const text =>
      unfold errors Valid
      rw [complain_eq_nil, isStr_iff]
  | enum texts =>
      unfold errors Valid
      rw [complain_eq_nil, List.any_eq_true]
      simp only [isStr_iff]
  | minLength n =>
      cases v with
      | str s =>
          unfold errors Valid
          rw [complain_eq_nil, decide_eq_true_eq, about_iff fun _ _ => Value.str.inj]
      | _ => exact ⟨fun _ => nofun, fun _ => rfl⟩
  | maxLength n =>
      cases v with
      | str s =>
          unfold errors Valid
          rw [complain_eq_nil, decide_eq_true_eq, about_iff fun _ _ => Value.str.inj]
      | _ => exact ⟨fun _ => nofun, fun _ => rfl⟩
  | pattern search =>
      cases v with
      | str s =>
          unfold errors Valid
          rw [complain_eq_nil, about_iff fun _ _ => Value.str.inj]
      | _ => exact ⟨fun _ => nofun, fun _ => rfl⟩
  | minimum q =>
      cases v with
      | number x =>
          unfold errors Valid
          rw [complain_eq_nil, about_iff fun _ _ => Value.number.inj, Bool.not_eq_true']
      | _ => exact ⟨fun _ => nofun, fun _ => rfl⟩
  | maximum q =>
      cases v with
      | number x =>
          unfold errors Valid
          rw [complain_eq_nil, about_iff fun _ _ => Value.number.inj, Bool.not_eq_true']
      | _ => exact ⟨fun _ => nofun, fun _ => rfl⟩
  | maxItems n =>
      cases v with
      | list xs =>
          unfold errors Valid
          rw [complain_eq_nil, decide_eq_true_eq, about_iff fun _ _ => Value.list.inj]
      | _ => exact ⟨fun _ => nofun, fun _ => rfl⟩
  | items item ih =>
      cases v with
      | list xs =>
          unfold errors Valid
          rw [about_iff fun _ _ => Value.list.inj, List.flatMap_eq_nil_iff]
          simp only [under_eq_nil, ih]
          constructor
          · intro h x hx
            obtain ⟨i, hi⟩ := List.mem_iff_getElem?.mp hx
            exact h (x, i) (List.mk_mem_zipIdx_iff_getElem?.mpr hi)
          · intro h x hx
            exact h x.1 (List.fst_mem_of_mem_zipIdx hx)
      | _ => exact ⟨fun _ => nofun, fun _ => rfl⟩
  | closed names =>
      cases v with
      | dict fields =>
          unfold errors Valid
          rw [complain_eq_nil, about_iff fun _ _ => Value.dict.inj, List.all_eq_true]
          simp only [List.contains_iff_mem]
      | _ => exact ⟨fun _ => nofun, fun _ => rfl⟩
  | required names =>
      cases v with
      | dict fields =>
          unfold errors Valid
          rw [about_iff fun _ _ => Value.dict.inj, List.flatMap_eq_nil_iff]
          simp only [complain_eq_nil]
      | _ => exact ⟨fun _ => nofun, fun _ => rfl⟩
  | property name value ih =>
      cases v with
      | dict fields =>
          unfold errors Valid
          rw [about_iff fun _ _ => Value.dict.inj]
          cases List.lookup name fields with
          | none => exact ⟨fun _ => nofun, fun _ => rfl⟩
          | some x =>
              dsimp only
              rw [under_eq_nil, ih, about_iff fun _ _ => Option.some.inj]
      | _ => exact ⟨fun _ => nofun, fun _ => rfl⟩

theorem mem_complain {ok : Bool} {keyword : String} {e : SchemaError} (h : e ∈ complain ok keyword) :
    e.path = [] := by
  unfold complain at h
  split_ifs at h
  · cases h
  · rw [List.mem_singleton.mp h]

/-- A keyword complains about the value itself. -/
theorem genuine_here {schema : Schema} {v : Value} {e : SchemaError} (hpath : e.path = [])
    (he : e ∈ schema.errors v) : e.Genuine schema v := by
  refine ⟨schema, v, ?_, ?_, ?_⟩
  · rw [hpath]
    exact Schema.At.here schema
  · rw [hpath]
    rfl
  · rw [← schema.errors_eq_nil_iff]
    exact List.ne_nil_of_mem he

/-- Every error is genuine. -/
theorem Schema.errors_genuine (schema : Schema) (v : Value) :
    ∀ e ∈ schema.errors v, e.Genuine schema v := by
  induction schema generalizing v with
  | both first second ih₁ ih₂ =>
      intro e he
      unfold errors at he
      rcases List.mem_append.mp he with he | he
      · obtain ⟨s, x, hs, hx, hnot⟩ := ih₁ v e he
        exact ⟨s, x, .first hs, hx, hnot⟩
      · obtain ⟨s, x, hs, hx, hnot⟩ := ih₂ v e he
        exact ⟨s, x, .second hs, hx, hnot⟩
  | items item ih =>
      intro e he
      cases v with
      | list xs =>
          unfold errors at he
          obtain ⟨⟨x, i⟩, hx, he⟩ := List.mem_flatMap.mp he
          obtain ⟨d, hd, rfl⟩ := List.mem_map.mp he
          obtain ⟨s, y, hs, hy, hnot⟩ := ih x d hd
          refine ⟨s, y, .item hs, ?_, hnot⟩
          change xs[i]?.bind (Value.follow d.path) = some y
          rw [List.mk_mem_zipIdx_iff_getElem?.mp hx]
          exact hy
      | _ => cases he
  | property name value ih =>
      intro e he
      cases v with
      | dict fields =>
          unfold errors at he
          cases hlookup : List.lookup name fields with
          | none =>
              rw [hlookup] at he
              cases he
          | some x =>
              rw [hlookup] at he
              obtain ⟨d, hd, rfl⟩ := List.mem_map.mp he
              obtain ⟨s, y, hs, hy, hnot⟩ := ih x d hd
              refine ⟨s, y, .property hs, ?_, hnot⟩
              change (List.lookup name fields).bind (Value.follow d.path) = some y
              rw [hlookup]
              exact hy
      | _ => cases he
  | required names =>
      intro e he
      refine genuine_here ?_ he
      cases v with
      | dict fields =>
          unfold errors at he
          obtain ⟨name, -, he⟩ := List.mem_flatMap.mp he
          exact mem_complain he
      | _ => cases he
  | any => exact nofun
  | type | const | enum => exact fun e he => genuine_here (mem_complain he) he
  | minLength | maxLength | pattern | minimum | maximum | maxItems | closed =>
      intro e he
      refine genuine_here ?_ he
      cases v <;> first | exact mem_complain he | cases he

/-- The validator keeps the promise. -/
theorem draft7_errors : Validator.Draft7 fun schema v => .ok (schema.errors v) where
  accepts schema v h := congrArg Except.ok ((schema.errors_eq_nil_iff v).mpr h)
  rejects schema v h := (schema.errors_eq_nil_iff v).mp (Except.ok.inj h)
  places schema v es h := by
    obtain rfl := Except.ok.inj h
    exact schema.errors_genuine v

/-! ## The order of paths -/

theorem Step.lt_trans {a b c : Step} (hab : a.lt b = .ok true) (hbc : b.lt c = .ok true) :
    a.lt c = .ok true := by
  cases a <;> cases b <;> cases c <;> simp only [Step.lt, reduceCtorEq, Except.ok.injEq,
    decide_eq_true_eq] at hab hbc ⊢
  · exact hab.trans hbc
  · exact hab.trans hbc

theorem Step.lt_irrefl (a : Step) : a.lt a = .ok false := by
  cases a <;> simp [Step.lt]

theorem Step.lt_total {a b : Step} (hne : a ≠ b) (h : a.lt b = .ok false) : b.lt a = .ok true := by
  cases a <;> cases b <;> simp only [Step.lt, reduceCtorEq, Except.ok.injEq, decide_eq_true_eq,
    decide_eq_false_iff_not, not_lt] at h ⊢
  · exact lt_of_le_of_ne h fun heq => hne (congrArg Step.key heq.symm)
  · exact lt_of_le_of_ne h fun heq => hne (congrArg Step.index heq.symm)

theorem pathLt_trans {p q r : Path} (hpq : pathLt p q = .ok true) (hqr : pathLt q r = .ok true) :
    pathLt p r = .ok true := by
  induction p generalizing q r with
  | nil =>
      cases r with
      | nil => cases q <;> cases hqr
      | cons c r => rfl
  | cons a p ih =>
      cases q with
      | nil => cases hpq
      | cons b q =>
          cases r with
          | nil => cases hqr
          | cons c r =>
              unfold pathLt at hpq hqr ⊢
              by_cases hab : a = b
              · rw [if_pos hab] at hpq
                by_cases hbc : b = c
                · rw [if_pos hbc] at hqr
                  rw [if_pos (hab.trans hbc)]
                  exact ih hpq hqr
                · rw [if_neg hbc] at hqr
                  rw [hab, if_neg hbc]
                  exact hqr
              · rw [if_neg hab] at hpq
                by_cases hbc : b = c
                · rw [← hbc, if_neg hab]
                  exact hpq
                · rw [if_neg hbc] at hqr
                  have hlt := Step.lt_trans hpq hqr
                  rw [if_neg, hlt]
                  rintro rfl
                  rw [Step.lt_irrefl] at hlt
                  cases hlt

theorem pathLt_total {p q : Path} (h : pathLt p q = .ok false) : p = q ∨ pathLt q p = .ok true := by
  induction p generalizing q with
  | nil =>
      cases q with
      | nil => exact Or.inl rfl
      | cons b q => cases h
  | cons a p ih =>
      cases q with
      | nil => exact Or.inr rfl
      | cons b q =>
          unfold pathLt at h ⊢
          by_cases hab : a = b
          · rw [if_pos hab] at h
            rw [if_pos hab.symm, hab]
            exact (ih h).imp_left (congrArg (b :: ·))
          · rw [if_neg hab] at h
            rw [if_neg (Ne.symm hab)]
            exact Or.inr (Step.lt_total hab h)

/-- Two paths into one value can be compared: where they part, both name fields or both name
positions. -/
theorem pathLt_ok {v x y : Value} {p q : Path} (hp : v.follow p = some x)
    (hq : v.follow q = some y) : ∃ b, pathLt p q = .ok b := by
  induction p generalizing v q with
  | nil =>
      cases q with
      | nil => exact ⟨false, rfl⟩
      | cons b q => exact ⟨true, rfl⟩
  | cons a p ih =>
      cases q with
      | nil => exact ⟨false, rfl⟩
      | cons b q =>
          unfold pathLt
          split_ifs with heq
          · obtain rfl := heq
            cases a with
            | key name =>
                cases v with
                | dict fields =>
                    obtain ⟨w, hw, hp⟩ := Option.bind_eq_some_iff.mp hp
                    obtain ⟨w', hw', hq⟩ := Option.bind_eq_some_iff.mp hq
                    rw [hw] at hw'
                    obtain rfl := Option.some.inj hw'
                    exact ih hp hq
                | _ => cases hp
            | index i =>
                cases v with
                | list xs =>
                    obtain ⟨w, hw, hp⟩ := Option.bind_eq_some_iff.mp hp
                    obtain ⟨w', hw', hq⟩ := Option.bind_eq_some_iff.mp hq
                    rw [hw] at hw'
                    obtain rfl := Option.some.inj hw'
                    exact ih hp hq
                | _ => cases hp
          · cases v with
            | dict fields =>
                cases a with
                | key s =>
                    cases b with
                    | key t => exact ⟨_, rfl⟩
                    | index j => cases hq
                | index i => cases hp
            | list xs =>
                cases a with
                | key s => cases hp
                | index i =>
                    cases b with
                    | key t => cases hq
                    | index j => exact ⟨_, rfl⟩
            | _ => cases a <;> cases hp

theorem pathLt_irrefl (p : Path) : pathLt p p = .ok false := by
  induction p with
  | nil => rfl
  | cons a p ih =>
      unfold pathLt
      rw [if_pos rfl]
      exact ih

theorem not_below {v x : Value} {p q : Path} (hp : v.follow p = some x)
    (hq : ∃ y, v.follow q = some y) (h : pathLt p q ≠ .ok true) : pathLt p q = .ok false := by
  obtain ⟨y, hq⟩ := hq
  obtain ⟨b, hb⟩ := pathLt_ok hp hq
  cases b with
  | true => exact absurd hb h
  | false => exact hb

/-! ## The first error -/

/-- `sorted(errors, key=path)[0]`: the sort is stable, so that this is the first error whose path is
not above another. -/
def firstError : SchemaError → List SchemaError → Except Exc SchemaError
  | least, [] => .ok least
  | least, e :: es => do
      if ← pathLt e.path least.path then firstError e es else firstError least es

/-- Errors of one value can be sorted, and no path of theirs is below that of the first. -/
theorem firstError_ok {v : Value} {least : SchemaError} {es : List SchemaError}
    (h : ∀ e ∈ least :: es, ∃ x, v.follow e.path = some x) :
    ∃ e ∈ least :: es, firstError least es = .ok e ∧
      ∀ d ∈ least :: es, pathLt d.path e.path = .ok false := by
  induction es generalizing least with
  | nil =>
      refine ⟨least, List.mem_cons_self, rfl, ?_⟩
      intro d hd
      rw [List.mem_singleton.mp hd]
      exact pathLt_irrefl least.path
  | cons e es ih =>
      obtain ⟨hleast, he, hes⟩ := List.forall_mem_cons.mp h |>.imp_right List.forall_mem_cons.mp
      obtain ⟨x, hx⟩ := hleast
      obtain ⟨y, hy⟩ := he
      obtain ⟨b, hb⟩ := pathLt_ok hy hx
      unfold firstError
      rw [hb]
      cases b with
      | true =>
          obtain ⟨first, hfirst, heq, hmin⟩ := ih (List.forall_mem_cons.mpr ⟨⟨y, hy⟩, hes⟩)
          refine ⟨first, List.mem_cons_of_mem _ hfirst, heq, ?_⟩
          obtain ⟨hmine, hmines⟩ := List.forall_mem_cons.mp hmin
          refine List.forall_mem_cons.mpr ⟨?_, hmin⟩
          exact not_below hx (h _ (List.mem_cons_of_mem _ hfirst)) fun hlt => by
            have := pathLt_trans hb hlt
            rw [hmine] at this
            cases this
      | false =>
          obtain ⟨first, hfirst, heq, hmin⟩ :=
            @ih least (List.forall_mem_cons.mpr ⟨⟨x, hx⟩, hes⟩)
          obtain ⟨hminl, hmines⟩ := List.forall_mem_cons.mp hmin
          have hmem : first ∈ least :: e :: es := by
            rcases List.mem_cons.mp hfirst with rfl | hfirst
            · exact List.mem_cons_self
            · exact List.mem_cons_of_mem _ (List.mem_cons_of_mem _ hfirst)
          refine ⟨first, hmem, heq, ?_⟩
          refine List.forall_mem_cons.mpr ⟨hminl, List.forall_mem_cons.mpr ⟨?_, hmines⟩⟩
          -- `e` is not below `least`, and `least` is not below `first`
          rcases pathLt_total hb with hsame | hlt
          · rw [hsame]
            exact hminl
          · exact not_below hy (h _ hmem) fun hbelow => by
              have := pathLt_trans hlt hbelow
              rw [hminl] at this
              cases this

/-! ## The order of keys -/

theorem isKind_sortKeys (v : Value) (kind : Kind) : v.sortKeys.isKind kind = v.isKind kind := by
  cases v with
  | list xs => cases kind <;> rfl
  | dict fields => cases kind <;> rfl
  | _ => rfl

theorem keys_sortItems (fields : List (String × Value)) (P : String → Prop) :
    (∀ field ∈ sortItems (sortFields fields), P field.1) ↔ ∀ field ∈ fields, P field.1 := by
  have hmem : ∀ field, field ∈ sortItems (sortFields fields) ↔ field ∈ sortFields fields :=
    fun field => (perm_sortItems (sortFields fields)).mem_iff
  rw [sortFields_eq] at hmem
  simp only [sortFields_eq, hmem, List.forall_mem_map]

theorem lookup_sortItems {fields : List (String × Value)} (h : UniqueKeys fields) (key : String) :
    List.lookup key (sortItems (sortFields fields)) =
      (List.lookup key fields).map Value.sortKeys := by
  have hunique := uniqueKeys_sortFields h
  have hsorted : UniqueKeys (sortItems (sortFields fields)) :=
    ((perm_sortItems _).map Prod.fst).nodup_iff.mpr hunique
  rw [← lookup_sortFields]
  refine Option.ext fun x => ?_
  rw [← mem_iff_lookup hsorted, ← mem_iff_lookup hunique]
  exact (perm_sortItems _).mem_iff

/-- A statement about the values of one constructor, for a value and for its sorted form. -/
theorem about_sortKeys {α : Type} {make : α → Value} {v : Value}
    (h : ∀ a, v.sortKeys = make a ↔ v = make a) {P : α → Prop} :
    (∀ a, v.sortKeys = make a → P a) ↔ ∀ a, v = make a → P a :=
  forall_congr' fun a => by rw [h a]

/-- What a schema says does not depend on the order of keys. -/
theorem Schema.valid_sortKeys (schema : Schema) {v : Value} (hv : v.Distinct) :
    schema.Valid v.sortKeys ↔ schema.Valid v := by
  induction schema generalizing v with
  | any => exact Iff.rfl
  | both first second ih₁ ih₂ => exact and_congr (ih₁ hv) (ih₂ hv)
  | type kinds =>
      unfold Valid
      simp only [isKind_sortKeys]
  | const text => exact sortKeys_eq_str
  | enum texts =>
      unfold Valid
      simp only [sortKeys_eq_str]
  | minLength | maxLength | pattern => exact about_sortKeys fun _ => sortKeys_eq_str
  | minimum | maximum => exact about_sortKeys fun _ => sortKeys_eq_number
  | maxItems n =>
      cases v with
      | list xs =>
          unfold Valid Value.sortKeys
          rw [about_iff fun _ _ => Value.list.inj, about_iff fun _ _ => Value.list.inj, sortList_eq,
            List.length_map]
      | dict fields =>
          exact iff_of_true (about_other (list_ne_dict _)) (about_other (list_ne_dict fields))
      | _ => exact Iff.rfl
  | items item ih =>
      cases v with
      | list xs =>
          unfold Valid Value.sortKeys
          rw [about_iff fun _ _ => Value.list.inj, about_iff fun _ _ => Value.list.inj, sortList_eq,
            List.forall_mem_map]
          exact forall₂_congr fun x hx => ih (DistinctList.of_mem hv hx)
      | dict fields =>
          exact iff_of_true (about_other (list_ne_dict _)) (about_other (list_ne_dict fields))
      | _ => exact Iff.rfl
  | closed names =>
      cases v with
      | dict fields =>
          unfold Valid Value.sortKeys
          rw [about_iff fun _ _ => Value.dict.inj, about_iff fun _ _ => Value.dict.inj]
          exact keys_sortItems fields (· ∈ names)
      | list xs =>
          exact iff_of_true (about_other (dict_ne_list _)) (about_other (dict_ne_list xs))
      | _ => exact Iff.rfl
  | required names =>
      cases v with
      | dict fields =>
          unfold Valid Value.sortKeys
          rw [about_iff fun _ _ => Value.dict.inj, about_iff fun _ _ => Value.dict.inj]
          simp only [lookup_sortItems hv.1, Option.isSome_map]
      | list xs =>
          exact iff_of_true (about_other (dict_ne_list _)) (about_other (dict_ne_list xs))
      | _ => exact Iff.rfl
  | property name value ih =>
      cases v with
      | dict fields =>
          unfold Valid Value.sortKeys
          rw [about_iff fun _ _ => Value.dict.inj, about_iff fun _ _ => Value.dict.inj,
            lookup_sortItems hv.1]
          cases hlookup : List.lookup name fields with
          | none => exact iff_of_true (about_other Option.some_ne_none) (about_other Option.some_ne_none)
          | some x =>
              rw [Option.map_some, about_iff fun _ _ => Option.some.inj,
                about_iff fun _ _ => Option.some.inj]
              exact ih (DistinctFields.of_lookup hv.2 hlookup)
      | list xs =>
          exact iff_of_true (about_other (dict_ne_list _)) (about_other (dict_ne_list xs))
      | _ => exact Iff.rfl

/-- Values that are the same up to the order of keys meet the same schemas. -/
theorem Schema.valid_of_same {schema : Schema} {v w : Value} (hv : v.Distinct) (hw : w.Distinct)
    (h : v.Same w) : schema.Valid v ↔ schema.Valid w := by
  rw [← schema.valid_sortKeys hv, ← schema.valid_sortKeys hw, show v.sortKeys = w.sortKeys from h]

/-! ## Objects -/

/-- A schema of an object: `type`, `additionalProperties`, `required` and `properties`. -/
def Schema.object (required : List String) (fields : List (String × Schema)) : Schema :=
  .all [.type [.object], .closed (fields.map Prod.fst), .required required, .properties fields]

theorem Schema.valid_all {keywords : List Schema} {v : Value} :
    (Schema.all keywords).Valid v ↔ ∀ keyword ∈ keywords, keyword.Valid v := by
  induction keywords with
  | nil => exact ⟨fun _ => nofun, fun _ => trivial⟩
  | cons keyword keywords ih =>
      rw [List.forall_mem_cons]
      exact and_congr Iff.rfl ih

/-- The fields of an object that a schema describes. -/
structure Conforms (required : List String) (schemas : List (String × Schema))
    (fields : List (String × Value)) : Prop where
  closed : ∀ field ∈ fields, field.1 ∈ schemas.map Prod.fst
  present : ∀ name ∈ required, (List.lookup name fields).isSome = true
  valid : ∀ schema ∈ schemas, ∀ x, List.lookup schema.1 fields = some x → schema.2.Valid x

theorem Schema.object_iff {required : List String} {schemas : List (String × Schema)} {v : Value} :
    (Schema.object required schemas).Valid v ↔
      ∃ fields, v = .dict fields ∧ Conforms required schemas fields := by
  unfold Schema.object Schema.properties
  simp only [Schema.valid_all, List.forall_mem_cons, List.not_mem_nil, false_implies, implies_true,
    and_true, List.forall_mem_map]
  constructor
  · rintro ⟨⟨kind, hkind, hv⟩, hclosed, hrequired, hvalid⟩
    rw [List.mem_singleton.mp hkind] at hv
    cases v with
    | dict fields =>
        exact ⟨fields, rfl, hclosed fields rfl, hrequired fields rfl,
          fun schema hs x hx => hvalid schema hs fields rfl x hx⟩
    | number n => cases n <;> cases hv
    | _ => cases hv
  · rintro ⟨fields, rfl, h⟩
    refine ⟨⟨.object, List.mem_singleton.mpr rfl, rfl⟩, ?_, ?_, ?_⟩
    · exact (about_iff fun _ _ => Value.dict.inj).mpr h.closed
    · exact (about_iff fun _ _ => Value.dict.inj).mpr h.present
    · exact fun schema hs => (about_iff fun _ _ => Value.dict.inj).mpr (h.valid schema hs)

end Json
