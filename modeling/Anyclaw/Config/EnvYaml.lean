import Anyclaw.Library.DecimalFloat
import Anyclaw.Library.Delimited
import Anyclaw.Library.Fallible
import Anyclaw.Library.Json
import Anyclaw.Library.Yaml

/-!
# Environment variables in the configuration

A value with the tag `!env` is replaced by the value of the variable that it names.  The walk
goes through sequences and the values of mappings; what stands in a key or under another tag
is not visited.  The variable's text becomes a boolean or a number when it can be read as one,
and the reader of a map of strings prints it again.

The walk is `resolve_env_tags` of `crates/anyclaw-config/src/env_yaml.rs`, with
`resolve_env_spec` and `coerce_value`; the reader of a map of strings is
`deserialize_string_map` (`types.rs`).
-/

namespace Anyclaw.Config

open Fallible DecimalFloat Yaml
open Yaml.Value (Occurs Reached Everywhere Along)

/-! ### Numbers and other crates -/

/-- A double is finite when its exponent is not all ones. -/
def finiteBits (bits : UInt64) : Bool := (bits >>> 52) &&& 0x7ff != 0x7ff

/-- `serde_json` has no numbers that are not finite. -/
def jsonOfNumber : Yaml.Number → Json
  | .posInt n => .number (.posInt n)
  | .negInt n negative => .number (.negInt n negative)
  | .float bits => if finiteBits bits then .number (.float bits) else .null

/-- What the standard library and the crates do with floating-point numbers and texts, and
    what a field of the configuration reads from a value that has been through the YAML text
    and `figment`: a string field takes strings only, and a scalar is read as it is. -/
structure Formats where
  /-- The bits of the double that `f64::from_str` rounds a number to. -/
  round : F64 → UInt64
  /-- The text that `serde_json` prints for a finite double. -/
  floatText : UInt64 → String
  debug : Value → String
  jsonText : Json → String
  readString : Value → Option String
  readJson : Value → Option Json
  jsonText_null : jsonText .null = "null"
  readString_string : ∀ s, readString (.string s) = some s
  readString_bool : ∀ b, readString (.bool b) = none
  readString_number : ∀ n, readString (.number n) = none
  readJson_string : ∀ s, readJson (.string s) = some (.string s)
  readJson_bool : ∀ b, readJson (.bool b) = some (.bool b)
  readJson_number : ∀ n, readJson (.number n) = some (jsonOfNumber n)

variable (c : Formats) (env : String → Option String)

/-! ### The walk -/

/-- `tagged.tag == "env"`. -/
def isEnvTag (tag : String) : Bool := nobang tag = nobang "env"

/-- The environment has no value where `std::env::var` fails. -/
def resolveEnvSpec (spec : String) : Except String String :=
  match Delimited.splitOnce ':' spec.toList with
  | some (varName, default) => .ok ((env (.ofList varName)).getD (.ofList default))
  | none =>
      match env spec with
      | some s => .ok s
      | none => .error
          s!"env var substitution failed: variable '{spec}' is not set and has no default"

def coerceValue (s : String) : Value :=
  if s = "true" then .bool true
  else if s = "false" then .bool false
  else if s = "" then .string s
  else
    match readInt64 s with
    | some n => .number (.ofInt64 n)
    | none =>
        match parse s.toList with
        | some x => .number (.float (c.round x))
        | none => .string s

mutual

def resolveEnvTags : Value → Except String Value
  | .tagged tag value =>
      if isEnvTag tag then
        match value with
        | .string spec => (resolveEnvSpec env spec).map (coerceValue c)
        | other => .error s!"!env tag value must be a string, got: {c.debug other}"
      else .ok (.tagged tag value)
  | .mapping entries => (resolveEntries entries).map .mapping
  | .sequence items => (resolveItems items).map .sequence
  | v => .ok v

def resolveItems : List Value → Except String (List Value)
  | [] => .ok []
  | x :: items => do
      let x ← resolveEnvTags x
      let items ← resolveItems items
      .ok (x :: items)

/-- The values of the entries; the keys stay. -/
def resolveEntries : List (Value × Value) → Except String (List (Value × Value))
  | [] => .ok []
  | (k, x) :: entries => do
      let x ← resolveEnvTags x
      let entries ← resolveEntries entries
      .ok ((k, x) :: entries)

end

/-! ### Maps of strings -/

def numberText : JsonNumber → String
  | .posInt n => toString n.toNat
  | .negInt n _ => toString n.toInt
  | .float bits => c.floatText bits

def stringOfJson : Json → String
  | .string s => s
  | .number n => numberText c n
  | .bool b => toString b
  | other => c.jsonText other

def deserializeStringMap (map : List (String × Json)) : List (String × String) :=
  map.map fun e => (e.1, stringOfJson c e.2)

theorem lookup_deserializeStringMap (map : List (String × Json)) (k : String) :
    (deserializeStringMap c map).lookup k = (map.lookup k).map (stringOfJson c) := by
  induction map with
  | nil => rfl
  | cons e map ih =>
      obtain ⟨key, j⟩ := e
      rw [deserializeStringMap] at ih ⊢
      simp only [List.map_cons, List.lookup_cons]
      cases k == key with
      | true => rfl
      | false => exact ih

/-! ### What the walk does -/

variable {c : Formats} {env : String → Option String} {v v' u : Value}

inductive IsEnv : Value → Prop
  | mk {tag value} : isEnvTag tag = true → IsEnv (.tagged tag value)

/-- An `!env` that is not a string or names an unset variable without a default. -/
inductive Unresolvable (env : String → Option String) : Value → Prop
  | notString {tag value} : isEnvTag tag = true → (∀ s, value ≠ .string s) →
      Unresolvable env (.tagged tag value)
  | unset {tag spec} : isEnvTag tag = true → ':' ∉ spec.toList → env spec = none →
      Unresolvable env (.tagged tag (.string spec))

/-- An `!env` tag stands under another tag or in a key. -/
inductive HidesEnv : Value → Prop
  | under {tag x u} : isEnvTag tag = false → Occurs u x → IsEnv u → HidesEnv (.tagged tag x)
  | key {entries e u} : e ∈ entries → Occurs u e.1 → IsEnv u → HidesEnv (.mapping entries)

theorem resolveItems_cons (x : Value) (items : List Value) :
    resolveItems c env (x :: items) = (do
      let x ← resolveEnvTags c env x
      let items ← resolveItems c env items
      .ok (x :: items)) := rfl

theorem resolveItems_eq (items : List Value) :
    resolveItems c env items = items.mapM (resolveEnvTags c env) := by
  induction items with
  | nil => rfl
  | cons x items ih => rw [resolveItems_cons, List.mapM_cons, ih]; rfl

theorem resolveEntries_cons (k x : Value) (entries : List (Value × Value)) :
    resolveEntries c env ((k, x) :: entries) = (do
      let x ← resolveEnvTags c env x
      let entries ← resolveEntries c env entries
      .ok ((k, x) :: entries)) := rfl

theorem resolveEntries_eq (entries : List (Value × Value)) :
    resolveEntries c env entries =
      entries.mapM fun e => (resolveEnvTags c env e.2).map fun x => (e.1, x) := by
  induction entries with
  | nil => rfl
  | cons e entries ih =>
      obtain ⟨k, x⟩ := e
      rw [resolveEntries_cons, List.mapM_cons, ih]
      cases resolveEnvTags c env x <;> rfl

theorem resolveEnvTags_scalar (h : v.IsScalar) : resolveEnvTags c env v = .ok v := by
  cases v with
  | null | bool | number | string => rfl
  | sequence | mapping | tagged => exact absurd h id

theorem resolveEnvTags_items (items : List Value) :
    resolveEnvTags c env (.sequence items) =
      (items.mapM (resolveEnvTags c env)).map .sequence := by
  rw [← resolveItems_eq]
  rfl

theorem resolveEnvTags_entries (entries : List (Value × Value)) :
    resolveEnvTags c env (.mapping entries) =
      (entries.mapM fun e => (resolveEnvTags c env e.2).map fun x => (e.1, x)).map .mapping := by
  rw [← resolveEntries_eq]
  rfl

theorem resolveEnvTags_tagged (tag : String) (value : Value) :
    resolveEnvTags c env (.tagged tag value) =
      if isEnvTag tag then
        match value with
        | .string spec => (resolveEnvSpec env spec).map (coerceValue c)
        | other => .error s!"!env tag value must be a string, got: {c.debug other}"
      else .ok (.tagged tag value) := rfl

theorem resolveEnvTags_sequence {items : List Value} :
    resolveEnvTags c env (.sequence items) = .ok v' ↔ ∃ items', v' = .sequence items' ∧
      List.Forall₂ (fun x x' => resolveEnvTags c env x = .ok x') items items' := by
  rw [resolveEnvTags_items, map_eq_ok]
  simp only [mapM_eq_ok]
  constructor
  · rintro ⟨items', h, rfl⟩
    exact ⟨items', rfl, h⟩
  · rintro ⟨items', rfl, h⟩
    exact ⟨items', h, rfl⟩

theorem resolveEnvTags_mapping {entries : List (Value × Value)} :
    resolveEnvTags c env (.mapping entries) = .ok v' ↔ ∃ entries', v' = .mapping entries' ∧
      List.Forall₂ (fun e e' => e'.1 = e.1 ∧ resolveEnvTags c env e.2 = .ok e'.2)
        entries entries' := by
  rw [resolveEnvTags_entries, map_eq_ok]
  have hentry : ∀ e e' : Value × Value,
      (resolveEnvTags c env e.2).map (fun x => (e.1, x)) = .ok e' ↔
        e'.1 = e.1 ∧ resolveEnvTags c env e.2 = .ok e'.2 := by
    intro e e'
    rw [map_eq_ok]
    constructor
    · rintro ⟨x, hx, rfl⟩
      exact ⟨rfl, hx⟩
    · rintro ⟨hkey, hx⟩
      exact ⟨e'.2, hx, by rw [← hkey]⟩
  simp only [mapM_eq_ok, hentry]
  constructor
  · rintro ⟨entries', h, rfl⟩
    exact ⟨entries', rfl, h⟩
  · rintro ⟨entries', rfl, h⟩
    exact ⟨entries', h, rfl⟩

theorem resolveEnvTags_other {tag : String} {x : Value} (h : isEnvTag tag = false) :
    resolveEnvTags c env (.tagged tag x) = .ok (.tagged tag x) := by
  rw [resolveEnvTags_tagged, h]
  rfl

theorem resolveEnvTags_env {tag : String} {x : Value} (h : isEnvTag tag = true) :
    resolveEnvTags c env (.tagged tag x) = .ok v' ↔
      ∃ spec s, x = .string spec ∧ resolveEnvSpec env spec = .ok s ∧ coerceValue c s = v' := by
  rw [resolveEnvTags_tagged, if_pos h]
  cases x with
  | string spec => simp [map_eq_ok]
  | _ => simp

theorem returns_resolveEnvSpec {spec : String} :
    Returns (resolveEnvSpec env spec) ↔ ':' ∈ spec.toList ∨ env spec ≠ none := by
  rw [resolveEnvSpec, Delimited.splitOnce]
  split
  · rename_i hsome
    split at hsome
    · rename_i hmem
      simp [hmem]
    · cases hsome
  · rename_i hnone
    split at hnone
    · cases hnone
    · rename_i hmem
      cases henv : env spec with
      | none => simp [hmem]
      | some s => simp

theorem not_unresolvable_scalar (h : v.IsScalar) : ¬Unresolvable env v := by
  intro hbad
  cases hbad with
  | notString => exact h
  | unset => exact h

/-- **The walk fails exactly when it reaches an `!env` that cannot be resolved.** -/
theorem returns_resolveEnvTags :
    Returns (resolveEnvTags c env v) ↔ Along (fun u => ¬Unresolvable env u) v := by
  induction v using Value.induction_parts with
  | hscalar v h =>
      rw [Value.along_scalar h, resolveEnvTags_scalar h]
      simp [not_unresolvable_scalar h]
  | hsequence items ih =>
      have hself : ¬Unresolvable env (.sequence items) := fun h => by cases h
      rw [Value.along_sequence, resolveEnvTags_items, returns_map, returns_mapM]
      constructor
      · intro h
        exact ⟨hself, fun x hx => (ih x hx).mp (h x hx)⟩
      · rintro ⟨_, h⟩ x hx
        exact (ih x hx).mpr (h x hx)
  | hmapping entries ih =>
      have hself : ¬Unresolvable env (.mapping entries) := fun h => by cases h
      rw [Value.along_mapping, resolveEnvTags_entries, returns_map, returns_mapM]
      simp only [returns_map]
      constructor
      · intro h
        exact ⟨hself, fun e he => (ih e he).2.mp (h e he)⟩
      · rintro ⟨_, h⟩ e he
        exact (ih e he).2.mpr (h e he)
  | htagged tag x _ =>
      rw [Value.along_tagged]
      cases htag : isEnvTag tag with
      | false =>
          rw [resolveEnvTags_other htag]
          constructor
          · intro _ h
            cases h with
            | notString h => rw [htag] at h; cases h
            | unset h => rw [htag] at h; cases h
          · intro _
            exact returns_ok _
      | true =>
          constructor
          · rintro ⟨v', hv'⟩ hbad
            obtain ⟨spec, s, rfl, hs, _⟩ := (resolveEnvTags_env htag).mp hv'
            cases hbad with
            | notString _ hother => exact hother spec rfl
            | unset _ hcolon hunset =>
                rcases returns_resolveEnvSpec.mp ⟨s, hs⟩ with hmem | hset
                · exact hcolon hmem
                · exact hset hunset
          · intro hgood
            obtain ⟨spec, rfl⟩ : ∃ spec, x = .string spec := by
              by_contra hother
              exact hgood (.notString htag fun s hs => hother ⟨s, hs⟩)
            have hspec : Returns (resolveEnvSpec env spec) := by
              rw [returns_resolveEnvSpec]
              by_contra hbad
              push Not at hbad
              exact hgood (.unset htag hbad.1 hbad.2)
            obtain ⟨s, hs⟩ := hspec
            exact ⟨_, (resolveEnvTags_env htag).mpr ⟨spec, s, rfl, hs, rfl⟩⟩

theorem isScalar_coerceValue (s : String) : (coerceValue c s).IsScalar := by
  rw [coerceValue]
  repeat' split
  all_goals trivial

theorem not_isEnv_scalar (h : v.IsScalar) : ¬IsEnv v := by
  intro henv
  cases henv
  exact h

/-- What was not under an `!env` tag is as it was. -/
theorem replaced_resolveEnvTags (h : resolveEnvTags c env v = .ok v') :
    Value.Replaced IsEnv v v' := by
  induction v using Value.induction_parts generalizing v' with
  | hscalar v hscalar =>
      rw [resolveEnvTags_scalar hscalar] at h
      cases h
      exact .same v
  | hsequence items ih =>
      obtain ⟨items', rfl, hitems⟩ := resolveEnvTags_sequence.mp h
      exact .sequence (forall₂_of_mem hitems fun x hx _ hx' => ih x hx hx')
  | hmapping entries ih =>
      obtain ⟨entries', rfl, hentries⟩ := resolveEnvTags_mapping.mp h
      refine .mapping ?_ ?_
      · rw [List.forall₂_map_left_iff, List.forall₂_map_right_iff]
        refine hentries.imp fun e e' he => ?_
        rw [he.1]
        exact .same e.1
      · rw [List.forall₂_map_left_iff, List.forall₂_map_right_iff]
        exact forall₂_of_mem hentries fun e he e' he' => (ih e he).2 he'.2
  | htagged tag x _ =>
      cases htag : isEnvTag tag with
      | false =>
          rw [resolveEnvTags_other htag] at h
          cases h
          exact .same _
      | true => exact .marked (.mk htag)

/-- **No `!env` tag is left exactly when none was hidden.** -/
theorem everywhere_resolveEnvTags (h : resolveEnvTags c env v = .ok v') :
    Everywhere (fun u => ¬IsEnv u) v' ↔ Along (fun u => ¬HidesEnv u) v := by
  induction v using Value.induction_parts generalizing v' with
  | hscalar v hscalar =>
      rw [resolveEnvTags_scalar hscalar] at h
      cases h
      have hhides : ¬HidesEnv v := by
        intro hhides
        cases hhides
        · exact hscalar
        · exact hscalar
      rw [Value.everywhere_scalar hscalar, Value.along_scalar hscalar]
      exact iff_of_true (not_isEnv_scalar hscalar) hhides
  | hsequence items ih =>
      obtain ⟨items', rfl, hitems⟩ := resolveEnvTags_sequence.mp h
      have hself : ¬IsEnv (.sequence items') := fun h => by cases h
      have hhides : ¬HidesEnv (.sequence items) := fun h => by cases h
      rw [Value.everywhere_sequence, Value.along_sequence, and_iff_right hself,
        and_iff_right hhides]
      exact (forall_iff_of_forall₂ hitems fun x hx x' hx' => (ih x hx hx').symm).symm
  | hmapping entries ih =>
      obtain ⟨entries', rfl, hentries⟩ := resolveEnvTags_mapping.mp h
      have hself : ¬IsEnv (.mapping entries') := fun h => by cases h
      have hhides : ¬HidesEnv (.mapping entries) ↔
          ∀ e ∈ entries, Everywhere (fun u => ¬IsEnv u) e.1 := by
        constructor
        · intro h e he u hu henv
          exact h (.key he hu henv)
        · rintro h hhides
          cases hhides with
          | key he hu henv => exact h _ he _ hu henv
      rw [Value.everywhere_mapping, Value.along_mapping, and_iff_right hself, hhides,
        ← forall₂_and]
      refine (forall_iff_of_forall₂ hentries fun e he e' he' => ?_).symm
      rw [he'.1, ← (ih e he).2 he'.2]
  | htagged tag x _ =>
      rw [Value.along_tagged]
      cases htag : isEnvTag tag with
      | false =>
          rw [resolveEnvTags_other htag] at h
          cases h
          rw [Value.everywhere_tagged]
          constructor
          · rintro ⟨_, hx⟩ hhides
            cases hhides with
            | under _ hu henv => exact hx _ hu henv
          · intro hhides
            refine ⟨fun henv => ?_, fun u hu henv => hhides (.under htag hu henv)⟩
            cases henv with
            | mk h => rw [htag] at h; cases h
      | true =>
          obtain ⟨spec, s, rfl, _, rfl⟩ := (resolveEnvTags_env htag).mp h
          rw [Value.everywhere_scalar (isScalar_coerceValue s)]
          refine iff_of_true (not_isEnv_scalar (isScalar_coerceValue s)) fun hhides => ?_
          cases hhides with
          | under h => rw [htag] at h; cases h

/-- What stands at a path is walked on its own. -/
theorem find_resolveEnvTags {path : List Value.Step} (h : resolveEnvTags c env v = .ok v')
    (hfind : v.find path = some u) :
    ∃ u', resolveEnvTags c env u = .ok u' ∧ v'.find path = some u' := by
  induction path generalizing v v' with
  | nil =>
      cases hfind
      exact ⟨v', h, rfl⟩
  | cons step path ih =>
      cases v with
      | mapping entries =>
          cases step with
          | index n => cases hfind
          | key k =>
              obtain ⟨entries', rfl, hentries⟩ := resolveEnvTags_mapping.mp h
              obtain ⟨e, he, hu⟩ := Option.bind_eq_some_iff.mp hfind
              obtain ⟨e', he', hkey, hvalue⟩ := find?_of_forall₂ hentries
                (fun e e' he => congrArg (Value.isString k) he.1.symm) he
              obtain ⟨u', hu', hfind'⟩ := ih hvalue hu
              refine ⟨u', hu', ?_⟩
              rw [Value.find, he']
              exact hfind'
      | sequence items =>
          cases step with
          | key k => cases hfind
          | index n =>
              obtain ⟨items', rfl, hitems⟩ := resolveEnvTags_sequence.mp h
              obtain ⟨x, hx, hu⟩ := Option.bind_eq_some_iff.mp hfind
              obtain ⟨x', hx', hvalue⟩ := getElem?_of_forall₂ hitems hx
              obtain ⟨u', hu', hfind'⟩ := ih hvalue hu
              refine ⟨u', hu', ?_⟩
              rw [Value.find, hx']
              exact hfind'
      | _ => cases step <;> cases hfind

/-- When nothing is hidden and nothing fails, the walk reaches every `!env` tag. -/
theorem reached_of_occurs (hclear : Along (fun u => ¬HidesEnv u) v)
    (hgood : Along (fun u => ¬Unresolvable env u) v) (hu : Occurs u v) (henv : IsEnv u) :
    Reached u v := by
  induction hu with
  | refl => exact .refl
  | item hx _ ih =>
      rw [Value.along_sequence] at hclear hgood
      exact .item hx (ih (hclear.2 _ hx) (hgood.2 _ hx))
  | key he hu _ =>
      rw [Value.along_mapping] at hclear
      exact absurd (.key he hu henv) hclear.1
  | value he _ ih =>
      rw [Value.along_mapping] at hclear hgood
      exact .value he (ih (hclear.2 _ he) (hgood.2 _ he))
  | @under tag x hu _ =>
      rw [Value.along_tagged] at hclear hgood
      cases htag : isEnvTag tag with
      | false => exact absurd (.under htag hu henv) hclear
      | true =>
          -- an `!env` that can be resolved has a string, in which nothing else stands
          exfalso
          apply hgood
          refine .notString htag fun s hs => ?_
          subst hs
          cases hu
          cases henv

/-! ### What a variable's text becomes -/

/-- The text is read neither as a boolean nor as a number. -/
def Unguessed (s : String) : Prop :=
  s ≠ "true" ∧ s ≠ "false" ∧ readInt64 s = none ∧ parse s.toList = none

/-- When the text is read as a number, the number is printed as the text. -/
def PrintsBack (c : Formats) (s : String) : Prop :=
  (∀ n, readInt64 s = some n → toString n.toInt = s) ∧
    (readInt64 s = none → ∀ x, parse s.toList = some x →
      finiteBits (c.round x) = true ∧ c.floatText (c.round x) = s)

theorem unguessed_empty : Unguessed "" :=
  ⟨by decide, by decide, rfl, rfl⟩

theorem readInt64_bool (b : Bool) : readInt64 (toString b) = none := by
  cases b with
  | false => rfl
  | true => rfl

theorem parse_bool (b : Bool) : parse (toString b).toList = none := by
  cases b with
  | false => rfl
  | true => rfl

theorem coerceValue_cases (c : Formats) (s : String) :
    (∃ b : Bool, s = toString b ∧ coerceValue c s = .bool b) ∨
    (∃ n, readInt64 s = some n ∧ coerceValue c s = .number (.ofInt64 n)) ∨
    (∃ x, readInt64 s = none ∧ parse s.toList = some x ∧
      coerceValue c s = .number (.float (c.round x))) ∨
    Unguessed s ∧ coerceValue c s = .string s := by
  rw [coerceValue]
  split
  · rename_i htrue
    exact .inl ⟨true, htrue, rfl⟩
  · rename_i htrue
    split
    · rename_i hfalse
      exact .inl ⟨false, hfalse, rfl⟩
    · rename_i hfalse
      split
      · rename_i hempty
        subst hempty
        exact .inr (.inr (.inr ⟨unguessed_empty, rfl⟩))
      · split
        · rename_i n hint
          exact .inr (.inl ⟨n, hint, rfl⟩)
        · rename_i hint
          split
          · rename_i x hparse
            exact .inr (.inr (.inl ⟨x, hint, hparse, rfl⟩))
          · rename_i hparse
            exact .inr (.inr (.inr ⟨⟨htrue, hfalse, hint, hparse⟩, rfl⟩))

/-- A string field has the text exactly when nothing else was read in it. -/
theorem readString_coerceValue {s : String} :
    c.readString (coerceValue c s) = some s ↔ Unguessed s := by
  rcases coerceValue_cases c s with ⟨b, rfl, hv⟩ | ⟨n, hint, hv⟩ | ⟨x, hint, hparse, hv⟩ | ⟨h, hv⟩
  · rw [hv, c.readString_bool]
    constructor
    · intro h
      cases h
    · rintro ⟨htrue, hfalse, _⟩
      cases b with
      | true => exact absurd rfl htrue
      | false => exact absurd rfl hfalse
  · rw [hv, c.readString_number]
    constructor
    · intro h
      cases h
    · rintro ⟨_, _, hnone, _⟩
      rw [hint] at hnone
      cases hnone
  · rw [hv, c.readString_number]
    constructor
    · intro h
      cases h
    · rintro ⟨_, _, _, hnone⟩
      rw [hparse] at hnone
      cases hnone
  · rw [hv, c.readString_string]
    exact iff_of_true rfl h

theorem stringOfJson_ofInt64 (n : Int64) :
    stringOfJson c (jsonOfNumber (.ofInt64 n)) = toString n.toInt := by
  rw [Yaml.Number.ofInt64]
  split
  · rfl
  · rename_i hneg
    have hnonneg : 0 ≤ n := Int64.not_lt.mp hneg
    simp only [jsonOfNumber, stringOfJson, numberText]
    rw [Int64.toNat_toUInt64_of_le hnonneg]
    have hint : (n.toNatClampNeg : Int) = n.toInt :=
      Int.toNat_of_nonneg (Int64.le_iff_toInt_le.mp hnonneg)
    rw [← hint]
    rfl

/-- An entry of a map of strings is the text exactly when a number is printed as it. -/
theorem stringOfJson_coerceValue {s : String} :
    (c.readJson (coerceValue c s)).map (stringOfJson c) = some s ↔ PrintsBack c s := by
  rcases coerceValue_cases c s with ⟨b, rfl, hv⟩ | ⟨n, hint, hv⟩ | ⟨x, hint, hparse, hv⟩ | ⟨h, hv⟩
  · rw [hv, c.readJson_bool]
    refine iff_of_true rfl ⟨fun n hn => ?_, fun _ x hx => ?_⟩
    · rw [readInt64_bool] at hn
      cases hn
    · rw [parse_bool] at hx
      cases hx
  · rw [hv, c.readJson_number, Option.map_some, stringOfJson_ofInt64, Option.some_inj]
    constructor
    · intro h
      refine ⟨fun n' hn' => ?_, fun hnone => ?_⟩
      · rw [hint] at hn'
        cases hn'
        exact h
      · rw [hint] at hnone
        cases hnone
    · intro h
      exact h.1 n hint
  · rw [hv, c.readJson_number, Option.map_some, Option.some_inj, jsonOfNumber]
    constructor
    · intro h
      refine ⟨fun n' hn' => ?_, fun _ x' hx' => ?_⟩
      · rw [hint] at hn'
        cases hn'
      · rw [hparse] at hx'
        cases hx'
        split at h
        · rename_i hfinite
          exact ⟨hfinite, h⟩
        · rw [stringOfJson, c.jsonText_null] at h
          · subst h
            have hnull : parse "null".toList = none := rfl
            rw [hnull] at hparse
            cases hparse
          all_goals simp
    · intro h
      obtain ⟨hfinite, htext⟩ := h.2 hint x hparse
      rw [if_pos hfinite]
      exact htext
  · rw [hv, c.readJson_string]
    refine iff_of_true rfl ⟨fun n hn => ?_, fun _ x hx => ?_⟩
    · rw [h.2.2.1] at hn
      cases hn
    · rw [h.2.2.2] at hx
      cases hx

/-! ### The fields -/

/-- Where the configuration has strings. -/
inductive Place where
  /-- A field of a string type. -/
  | field (path : List Value.Step)
  /-- An entry of the map of strings at the path. -/
  | entry (path : List Value.Step) (key : String)

namespace Place

def path : Place → List Value.Step
  | field path => path
  | entry path key => path ++ [.key key]

/-- The configuration has the string there that is made from the resolved value; a map of
    strings is read from what the entries of the value are as JSON. -/
def Arrives (c : Formats) (v : Value) (s : String) (p : Place) : Prop :=
  match p with
  | field path => (v.find path).bind c.readString = some s
  | entry path key => ∀ map : List (String × Json),
      map.lookup key = (v.find (path ++ [.key key])).bind c.readJson →
      (deserializeStringMap c map).lookup key = some s

/-- The text is one that arrives. -/
def Keeps (c : Formats) (s : String) : Place → Prop
  | field _ => Unguessed s
  | entry _ _ => PrintsBack c s

theorem arrives_iff {p : Place} {s : String} (h : v.find p.path = some (coerceValue c s)) :
    p.Arrives c v s ↔ p.Keeps c s := by
  cases p with
  | field path =>
      rw [Place.path] at h
      rw [Arrives, Keeps, h, Option.bind_some]
      exact readString_coerceValue
  | entry path key =>
      rw [Place.path] at h
      simp only [Arrives, Keeps, h, Option.bind_some, lookup_deserializeStringMap]
      rw [← stringOfJson_coerceValue]
      constructor
      · intro hall
        obtain ⟨j, hj⟩ : ∃ j, c.readJson (coerceValue c s) = some j := by
          rcases coerceValue_cases c s with ⟨b, _, hv⟩ | ⟨n, _, hv⟩ | ⟨x, _, _, hv⟩ | ⟨_, hv⟩
          · exact ⟨_, by rw [hv, c.readJson_bool]⟩
          · exact ⟨_, by rw [hv, c.readJson_number]⟩
          · exact ⟨_, by rw [hv, c.readJson_number]⟩
          · exact ⟨_, by rw [hv, c.readJson_string]⟩
        have hone := hall [(key, j)] (by rw [hj]; simp)
        simpa [List.lookup_cons, hj] using hone
      · intro hkept map hmap
        rw [hmap]
        exact hkept

end Place

/-! ### The substitution -/

/-- The substitution of a document is complete and faithful, for a configuration with strings
    at the given places. -/
structure Faithful (c : Formats) (env : String → Option String) (places : Set Place)
    (v : Value) : Prop where
  complete : ∀ v', resolveEnvTags c env v = .ok v' → Everywhere (fun u => ¬IsEnv u) v'
  unchanged : ∀ v', resolveEnvTags c env v = .ok v' → Value.Replaced IsEnv v v'
  fails_iff : (∃ message, resolveEnvTags c env v = .error message) ↔
    ∃ u, Occurs u v ∧ Unresolvable env u
  arrives : ∀ v', resolveEnvTags c env v = .ok v' → ∀ p ∈ places, ∀ tag spec s,
    v.find p.path = some (.tagged tag (.string spec)) → isEnvTag tag = true →
    resolveEnvSpec env spec = .ok s → p.Arrives c v' s

/-- **The substitution is complete and faithful exactly when** the walk meets an `!env` that
    cannot be resolved, or no `!env` stands under another tag or in a key and every text that
    is put into a string is one that its place keeps. -/
theorem faithful_iff (c : Formats) (env : String → Option String) (places : Set Place)
    (v : Value) :
    Faithful c env places v ↔ (∃ u, Reached u v ∧ Unresolvable env u) ∨
      (∀ u, Reached u v → ¬HidesEnv u) ∧
        ∀ p ∈ places, ∀ tag spec s, v.find p.path = some (.tagged tag (.string spec)) →
          isEnvTag tag = true → resolveEnvSpec env spec = .ok s → p.Keeps c s := by
  have harrives : ∀ v', resolveEnvTags c env v = .ok v' → ∀ (p : Place) tag spec s,
      v.find p.path = some (.tagged tag (.string spec)) → isEnvTag tag = true →
      resolveEnvSpec env spec = .ok s → (p.Arrives c v' s ↔ p.Keeps c s) := by
    intro v' hv' p tag spec s hfind htag hspec
    obtain ⟨u', hu', hfind'⟩ := find_resolveEnvTags hv' hfind
    obtain ⟨_, s', heq, hs', rfl⟩ := (resolveEnvTags_env htag).mp hu'
    cases heq
    rw [hspec] at hs'
    cases hs'
    exact Place.arrives_iff hfind'
  constructor
  · intro h
    cases hresolved : resolveEnvTags c env v with
    | error message =>
        left
        by_contra hnone
        push Not at hnone
        have hreturns : Returns (resolveEnvTags c env v) := returns_resolveEnvTags.mpr hnone
        rw [hresolved] at hreturns
        exact not_returns_error _ hreturns
    | ok v' =>
        right
        refine ⟨(everywhere_resolveEnvTags hresolved).mp (h.complete v' hresolved), ?_⟩
        intro p hp tag spec s hfind htag hspec
        exact (harrives v' hresolved p tag spec s hfind htag hspec).mp
          (h.arrives v' hresolved p hp tag spec s hfind htag hspec)
  · intro h
    cases hresolved : resolveEnvTags c env v with
    | error message =>
        have hbad : ¬Along (fun u => ¬Unresolvable env u) v := by
          rw [← returns_resolveEnvTags, hresolved]
          exact not_returns_error message
        have hoccurs : ∃ u, Occurs u v ∧ Unresolvable env u := by
          by_contra hnone
          push Not at hnone
          exact hbad fun u hu => hnone u hu.occurs
        constructor
        · intro v' hv'
          rw [hresolved] at hv'
          cases hv'
        · intro v' hv'
          rw [hresolved] at hv'
          cases hv'
        · exact iff_of_true ⟨message, hresolved⟩ hoccurs
        · intro v' hv'
          rw [hresolved] at hv'
          cases hv'
    | ok v' =>
        have hgood : Along (fun u => ¬Unresolvable env u) v := by
          rw [← returns_resolveEnvTags, hresolved]
          exact returns_ok v'
        rcases h with ⟨u, hu, hbad⟩ | ⟨hclear, hkeeps⟩
        · exact absurd hbad (hgood u hu)
        constructor
        · intro w hw
          exact (everywhere_resolveEnvTags hw).mpr hclear
        · intro w hw
          exact replaced_resolveEnvTags hw
        · rw [hresolved]
          constructor
          · rintro ⟨message, hmessage⟩
            cases hmessage
          · rintro ⟨u, hu, hbad⟩
            have henv : IsEnv u := by
              cases hbad with
              | notString htag _ => exact .mk htag
              | unset htag _ _ => exact .mk htag
            exact absurd hbad (hgood u (reached_of_occurs hclear hgood hu henv))
        · intro w hw p hp tag spec s hfind htag hspec
          exact (harrives w hw p tag spec s hfind htag hspec).mpr
            (hkeeps p hp tag spec s hfind htag hspec)

/-! ### Leading zeros -/

/-- Formats that know no floating-point numbers and read scalars only. -/
def plainFormats : Formats where
  round _ := 0
  floatText _ := "0.0"
  debug _ := ""
  jsonText _ := "null"
  readString
    | .string s => some s
    | _ => none
  readJson
    | .string s => some (.string s)
    | .bool b => some (.bool b)
    | .number n => some (jsonOfNumber n)
    | _ => none
  jsonText_null := rfl
  readString_string _ := rfl
  readString_bool _ := rfl
  readString_number _ := rfl
  readJson_string _ := rfl
  readJson_bool _ := rfl
  readJson_number _ := rfl

def pinDocument (pin : Value) : Value := .mapping [(.string "env", .mapping [(.string "PIN", pin)])]

/-- With `PIN: !env AGENT_PIN` in an agent's environment and the variable set to `007`, the
    agent gets `7`. -/
theorem leading_zeros_lost :
    ¬Faithful plainFormats (fun name => if name = "AGENT_PIN" then some "007" else none)
      {.entry [.key "env"] "PIN"} (pinDocument (.tagged "!env" (.string "AGENT_PIN"))) := by
  intro h
  have hkept := h.arrives (pinDocument (.number (.posInt 7))) rfl _ rfl "!env" "AGENT_PIN" "007"
    rfl rfl rfl [("PIN", .number (.posInt 7))] rfl
  exact absurd hkept (by decide)

end Anyclaw.Config
