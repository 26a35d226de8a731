import Mathlib.Data.List.Forall2

/-!
# YAML values

A value is a scalar, a sequence, a mapping, whose keys are values too, or a value with a tag.
What stands in a value is found by a path of keys and positions.
-/

namespace Yaml

/-- A number: an integer of 64 bits, signed or unsigned, or a floating-point number (its
    bits). -/
inductive Number where
  | posInt (n : UInt64)
  | negInt (n : Int64) (negative : n < 0)
  | float (bits : UInt64)

def Number.ofInt64 (n : Int64) : Number :=
  if h : n < 0 then .negInt n h else .posInt n.toUInt64

inductive Value where
  | null
  | bool (b : Bool)
  | number (n : Number)
  | string (s : String)
  | sequence (items : List Value)
  | mapping (entries : List (Value × Value))
  | tagged (tag : String) (value : Value)

/-- The name of a tag, without its exclamation mark. -/
def nobang (tag : String) : List Char :=
  match tag.toList with
  | ['!'] => ['!']
  | '!' :: name => name
  | name => name

namespace Value

/-! ### Induction -/

def IsScalar : Value → Prop
  | .null | .bool _ | .number _ | .string _ => True
  | _ => False

section Induction

variable {P : Value → Prop} (hscalar : ∀ v : Value, v.IsScalar → P v)
  (hsequence : ∀ items, (∀ x ∈ items, P x) → P (.sequence items))
  (hmapping : ∀ entries, (∀ e ∈ entries, P e.1 ∧ P e.2) → P (.mapping entries))
  (htagged : ∀ tag x, P x → P (.tagged tag x))

include hscalar hsequence hmapping htagged

/-- What holds of a value when it holds of its parts holds of every value. -/
@[elab_as_elim]
theorem induction_parts : ∀ v : Value, P v
  | .null => hscalar .null trivial
  | .bool b => hscalar (.bool b) trivial
  | .number n => hscalar (.number n) trivial
  | .string s => hscalar (.string s) trivial
  | .sequence items => hsequence items fun x _ => induction_parts x
  | .mapping entries =>
      hmapping entries fun e _ => ⟨induction_parts e.1, induction_parts e.2⟩
  | .tagged tag x => htagged tag x (induction_parts x)
termination_by v => sizeOf v
decreasing_by
  · rename_i hmem
    have hlt := List.sizeOf_lt_of_mem hmem
    simp only [sequence.sizeOf_spec]
    omega
  · rename_i hmem
    have hlt := List.sizeOf_lt_of_mem hmem
    obtain ⟨k, x⟩ := e
    simp only [mapping.sizeOf_spec, Prod.mk.sizeOf_spec] at hlt ⊢
    omega
  · rename_i hmem
    have hlt := List.sizeOf_lt_of_mem hmem
    obtain ⟨k, x⟩ := e
    simp only [mapping.sizeOf_spec, Prod.mk.sizeOf_spec] at hlt ⊢
    omega
  · simp only [tagged.sizeOf_spec]
    omega

end Induction

/-! ### The parts of a value -/

/-- The value stands somewhere in the other: as an item, a value or a key, or under a tag. -/
inductive Occurs (u : Value) : Value → Prop
  | refl : Occurs u u
  | item {x items} : x ∈ items → Occurs u x → Occurs u (.sequence items)
  | key {e entries} : e ∈ entries → Occurs u e.1 → Occurs u (.mapping entries)
  | value {e entries} : e ∈ entries → Occurs u e.2 → Occurs u (.mapping entries)
  | under {tag x} : Occurs u x → Occurs u (.tagged tag x)

/-- The value is reached through items and the values of entries only. -/
inductive Reached (u : Value) : Value → Prop
  | refl : Reached u u
  | item {x items} : x ∈ items → Reached u x → Reached u (.sequence items)
  | value {e entries} : e ∈ entries → Reached u e.2 → Reached u (.mapping entries)

variable {P : Value → Prop} {u v : Value}

theorem Reached.occurs (h : Reached u v) : Occurs u v := by
  induction h with
  | refl => exact .refl
  | item hmem _ ih => exact .item hmem ih
  | value hmem _ ih => exact .value hmem ih

/-- It holds of the value and of all that stands in it. -/
def Everywhere (P : Value → Prop) (v : Value) : Prop := ∀ u, Occurs u v → P u

/-- It holds of all that is reached through items and the values of entries. -/
def Along (P : Value → Prop) (v : Value) : Prop := ∀ u, Reached u v → P u

theorem everywhere_sequence {items : List Value} :
    Everywhere P (.sequence items) ↔ P (.sequence items) ∧ ∀ x ∈ items, Everywhere P x := by
  constructor
  · intro h
    exact ⟨h _ .refl, fun x hx u hu => h u (.item hx hu)⟩
  · rintro ⟨hself, hitems⟩ u hu
    cases hu with
    | refl => exact hself
    | item hx hu => exact hitems _ hx u hu

theorem everywhere_mapping {entries : List (Value × Value)} :
    Everywhere P (.mapping entries) ↔ P (.mapping entries) ∧
      ∀ e ∈ entries, Everywhere P e.1 ∧ Everywhere P e.2 := by
  constructor
  · intro h
    refine ⟨h _ .refl, fun e he => ⟨fun u hu => ?_, fun u hu => ?_⟩⟩
    · exact h u (.key he hu)
    · exact h u (.value he hu)
  · rintro ⟨hself, hentries⟩ u hu
    cases hu with
    | refl => exact hself
    | key he hu => exact (hentries _ he).1 u hu
    | value he hu => exact (hentries _ he).2 u hu

theorem everywhere_tagged {tag : String} {x : Value} :
    Everywhere P (.tagged tag x) ↔ P (.tagged tag x) ∧ Everywhere P x := by
  constructor
  · intro h
    exact ⟨h _ .refl, fun u hu => h u (.under hu)⟩
  · rintro ⟨hself, hx⟩ u hu
    cases hu with
    | refl => exact hself
    | under hu => exact hx u hu

theorem along_sequence {items : List Value} :
    Along P (.sequence items) ↔ P (.sequence items) ∧ ∀ x ∈ items, Along P x := by
  constructor
  · intro h
    exact ⟨h _ .refl, fun x hx u hu => h u (.item hx hu)⟩
  · rintro ⟨hself, hitems⟩ u hu
    cases hu with
    | refl => exact hself
    | item hx hu => exact hitems _ hx u hu

theorem along_mapping {entries : List (Value × Value)} :
    Along P (.mapping entries) ↔ P (.mapping entries) ∧ ∀ e ∈ entries, Along P e.2 := by
  constructor
  · intro h
    exact ⟨h _ .refl, fun e he u hu => h u (.value he hu)⟩
  · rintro ⟨hself, hentries⟩ u hu
    cases hu with
    | refl => exact hself
    | value he hu => exact hentries _ he u hu

theorem along_tagged {tag : String} {x : Value} :
    Along P (.tagged tag x) ↔ P (.tagged tag x) := by
  constructor
  · intro h
    exact h _ .refl
  · intro h u hu
    cases hu with
    | refl => exact h

theorem everywhere_scalar (h : v.IsScalar) : Everywhere P v ↔ P v := by
  constructor
  · intro hall
    exact hall _ .refl
  · intro hself u hu
    cases hu with
    | refl => exact hself
    | _ => exact absurd h id

theorem along_scalar (h : v.IsScalar) : Along P v ↔ P v := by
  constructor
  · intro hall
    exact hall _ .refl
  · intro hself u hu
    cases hu with
    | refl => exact hself
    | _ => exact absurd h id

/-- The second value is the first with some of the marked values in it replaced. -/
inductive Replaced (marked : Value → Prop) : Value → Value → Prop
  | same (v : Value) : Replaced marked v v
  | marked {v w : Value} : marked v → Replaced marked v w
  | sequence {items items'} : List.Forall₂ (Replaced marked) items items' →
      Replaced marked (.sequence items) (.sequence items')
  | mapping {entries entries'} :
      List.Forall₂ (Replaced marked) (entries.map Prod.fst) (entries'.map Prod.fst) →
      List.Forall₂ (Replaced marked) (entries.map Prod.snd) (entries'.map Prod.snd) →
      Replaced marked (.mapping entries) (.mapping entries')
  | tagged {tag x x'} : Replaced marked x x' →
      Replaced marked (.tagged tag x) (.tagged tag x')

/-! ### Paths -/

inductive Step where
  | key (k : String)
  | index (n : Nat)

def isString (k : String) : Value → Bool
  | .string s => s = k
  | _ => false

def find : List Step → Value → Option Value
  | [], v => some v
  | .key k :: path, .mapping entries =>
      (entries.find? fun e => e.1.isString k).bind fun e => find path e.2
  | .index n :: path, .sequence items => items[n]?.bind (find path)
  | _, _ => none

end Value

end Yaml
