import Anyclaw.Library.Json
import Anyclaw.Library.KeyedMap

/-!
# Reading typed data from JSON documents

A reader takes a document to a typed value or fails.  The readers of structs and enums
follow the conventions of derived deserializers: a struct is read from an object, whose
unknown keys are ignored and whose known keys must not be repeated, or from an array, by
position; an optional field may be missing or null; an untagged choice takes the first
reader that succeeds; an internally tagged choice looks for its tag among the entries, or
in the first element of an array.
-/

abbrev Json.Reader (α : Type) := Json → Option α

namespace Json

variable {α : Type}

/-! ### Scalars, options and containers -/

def readString : Reader String
  | .string s => some s
  | _ => none

def readBool : Reader Bool
  | .bool b => some b
  | _ => none

def readInt64 : Reader Int64
  | .number n => n.asInt64
  | _ => none

def readUInt64 : Reader UInt64
  | .number n => n.asUInt64
  | _ => none

/-- Every document denotes a value. -/
def readValue : Reader JsonValue := fun j => some (.ofDoc j)

def readOption (r : Reader α) : Reader (Option α)
  | .null => some none
  | j => (r j).map some

def readList (r : Reader α) : Reader (List α)
  | .array items => items.mapM r
  | _ => none

/-- A map from strings to values; the last entry of a key wins. -/
def readMap : Reader (KeyedMap String JsonValue)
  | .object fields => some (fields.foldl (fun m e => m.set e.1 (.ofDoc e.2)) ∅)
  | _ => none

/-! ### Structs -/

/-- What the reader of a struct finds for a field. -/
inductive Found where
  | given (j : Json)
  /-- The object has no such key. -/
  | missing
  /-- The array ends before the field. -/
  | exhausted
deriving DecidableEq

def entries (k : String) (fields : List (String × Json)) : List Json :=
  fields.filterMap fun e => if e.1 = k then some e.2 else none

def Found.ofKey : Option Json → Found
  | some j => .given j
  | none => .missing

def Found.ofPosition : Option Json → Found
  | some j => .given j
  | none => .exhausted

def structFields (names : List String) : Json → Option (String → Found)
  | .object fields =>
      if ∀ k ∈ names, (entries k fields).length ≤ 1 then
        some fun k => .ofKey (entries k fields).head?
      else none
  | .array items =>
      if items.length ≤ names.length then
        some fun k => .ofPosition ((names.zip items).lookup k)
      else none
  | _ => none

namespace Found

def required (r : Reader α) : Found → Option α
  | .given j => r j
  | .missing => none
  | .exhausted => none

/-- A field of an option type: it may be missing, but not from an array. -/
def optional (r : Reader α) : Found → Option (Option α)
  | .given j => readOption r j
  | .missing => some none
  | .exhausted => none

def defaulted (r : Reader α) (default : α) : Found → Option α
  | .given j => r j
  | .missing => some default
  | .exhausted => some default

end Found

def readStruct (names : List String) (build : (String → Found) → Option α) : Reader α :=
  fun j => (structFields names j).bind build

/-! ### Enums -/

/-- The tag of an internally tagged choice, and the document of the other fields. -/
def splitTag (tag : String) : Json → Option (Json × Json)
  | .object fields =>
      match entries tag fields with
      | [t] => some (t, .object (fields.filter fun e => e.1 ≠ tag))
      | _ => none
  | .array (t :: rest) => some (t, .array rest)
  | _ => none

/-- The name of a variant, read from a value. -/
def variantName (names : List String) : Json → Option String
  | .string s => if s ∈ names then some s else none
  | _ => none

/-- The name of a variant, read from a document that has been buffered: its index is
    accepted, too. -/
def bufferedVariantName (names : List String) : Json → Option String
  | .string s => if s ∈ names then some s else none
  | .number n => n.asUInt64.bind fun i => names[i.toNat]?
  | _ => none

/-- Read an internally tagged choice; `build` reads the fields of a variant. -/
def readTagged (tag : String) (variant : Json → Option String) (build : String → Reader α) :
    Reader α := fun j => do
  let (t, rest) ← splitTag tag j
  build (← variant t) rest

/-- Read a variant without fields: its name, or an object that leads from its name to
    nothing. -/
def readUnitVariant (names : List String) : Reader String
  | .string s => if s ∈ names then some s else none
  | .object [(k, j)] => if k ∈ names ∧ (j = .null ∨ j = .object []) then some k else none
  | _ => none

/-! ### Reading what was written -/

theorem entries_append (k : String) (fields fields' : List (String × Json)) :
    entries k (fields ++ fields') = entries k fields ++ entries k fields' :=
  List.filterMap_append

@[simp] theorem entries_nil (k : String) : entries k [] = [] := rfl

@[simp] theorem entries_cons (k k' : String) (j : Json) (fields : List (String × Json)) :
    entries k ((k', j) :: fields) =
      if k' = k then j :: entries k fields else entries k fields := by
  unfold entries
  by_cases h : k' = k <;> simp [h]

theorem readStruct_object {names : List String} {build : (String → Found) → Option α}
    {fields : List (String × Json)} (h : ∀ k ∈ names, (entries k fields).length ≤ 1) :
    readStruct names build (.object fields) =
      build fun k => .ofKey (entries k fields).head? := by
  simp only [readStruct, structFields]
  rw [if_pos h]
  rfl

/-- What is built from the fields. -/
theorem of_readStruct {names : List String} {build : (String → Found) → Option α} {j : Json}
    {p : α → Prop} {a : α} (hbuild : ∀ field a, build field = some a → p a)
    (h : readStruct names build j = some a) : p a := by
  obtain ⟨field, -, ha⟩ := Option.bind_eq_some_iff.mp h
  exact hbuild field a ha

theorem readOption_of_ne_null {r : Reader α} {j : Json} (h : j ≠ .null) :
    readOption r j = (r j).map some := by
  unfold readOption
  split
  · exact absurd rfl h
  · rfl

@[simp] theorem optional_ofKey_none (r : Reader α) :
    (Found.ofKey none).optional r = some none := rfl

@[simp] theorem optional_ofKey_some (r : Reader α) (j : Json) :
    (Found.ofKey (some j)).optional r = readOption r j := rfl

@[simp] theorem required_ofKey_some (r : Reader α) (j : Json) :
    (Found.ofKey (some j)).required r = r j := rfl

@[simp] theorem required_ofKey_none (r : Reader α) :
    (Found.ofKey none).required r = none := rfl

@[simp] theorem optional_ofPosition_none (r : Reader α) :
    (Found.ofPosition none).optional r = none := rfl

@[simp] theorem optional_ofPosition_some (r : Reader α) (j : Json) :
    (Found.ofPosition (some j)).optional r = readOption r j := rfl

@[simp] theorem required_ofPosition_some (r : Reader α) (j : Json) :
    (Found.ofPosition (some j)).required r = r j := rfl

@[simp] theorem required_ofPosition_none (r : Reader α) :
    (Found.ofPosition none).required r = none := rfl

/-! ### What readers accept -/

/-- The reader accepts the document. -/
def Reads (r : Reader α) (j : Json) : Prop := (r j).isSome

/-- The document is missing, or it is null or accepted. -/
def ReadsOptional (r : Reader α) : Found → Prop
  | .given j => j = .null ∨ Reads r j
  | .missing => True
  | .exhausted => False

theorem reads_string {j : Json} : Reads readString j ↔ ∃ s, j = .string s := by
  cases j <;> simp [Reads, readString]

theorem reads_int64 {j : Json} :
    Reads readInt64 j ↔ ∃ n, j = .number n ∧ n.asInt64.isSome := by
  cases j <;> simp [Reads, readInt64]

theorem reads_option {r : Reader α} {j : Json} :
    Reads (readOption r) j ↔ j = .null ∨ Reads r j := by
  cases j <;> simp [Reads, readOption]

theorem reads_bool {j : Json} : Reads readBool j ↔ ∃ b, j = .bool b := by
  cases j <;> simp [Reads, readBool]

theorem reads_uint64 {j : Json} :
    Reads readUInt64 j ↔ ∃ n, j = .number n ∧ n.asUInt64.isSome := by
  cases j <;> simp [Reads, readUInt64]

theorem reads_map {j : Json} : Reads readMap j ↔ ∃ fields, j = .object fields := by
  cases j <;> simp [Reads, readMap]

theorem mapM_readValue_isSome (items : List Json) : (items.mapM readValue).isSome := by
  induction items with
  | nil => rfl
  | cons j items ih =>
      obtain ⟨vs, hvs⟩ := Option.isSome_iff_exists.mp ih
      simp [hvs, readValue]

theorem reads_values {j : Json} :
    Reads (readList readValue) j ↔ ∃ items, j = .array items := by
  cases j with
  | array items => simp [Reads, readList, mapM_readValue_isSome]
  | _ => simp [Reads, readList]

theorem required_isSome {r : Reader α} {f : Found} :
    (f.required r).isSome ↔ ∃ j, f = .given j ∧ Reads r j := by
  cases f <;> simp [Found.required, Reads]

theorem optional_isSome {r : Reader α} {f : Found} :
    (f.optional r).isSome ↔ ReadsOptional r f := by
  cases f with
  | given j => exact reads_option
  | missing => simp [Found.optional, ReadsOptional]
  | exhausted => simp [Found.optional, ReadsOptional]

theorem reads_option_value (j : Json) : (readOption readValue j).isSome :=
  reads_option.mpr (.inr rfl)

theorem optional_value_isSome (o : Option Json) :
    ((Found.ofKey o).optional readValue).isSome := by
  cases o with
  | none => rfl
  | some j => exact reads_option_value j

/-- A chain of readers accepts what each of them accepts. -/
theorem isSome_bind_iff {β : Type} {x : Option α} {f : α → Option β} {p : Prop}
    (h : ∀ a, (f a).isSome ↔ p) : (x.bind f).isSome ↔ x.isSome ∧ p := by
  cases x with
  | none => simp
  | some a => simp [h a]

theorem isSome_bind_pure {β : Type} {x : Option α} {f : α → β} :
    (x.bind fun a => some (f a)).isSome ↔ x.isSome := by
  cases x <;> simp

/-- The entry of a key that is not repeated. -/
theorem given_ofKey_iff {k : String} {fields : List (String × Json)} {j : Json}
    (h : (entries k fields).length ≤ 1) :
    Found.ofKey (entries k fields).head? = .given j ↔ entries k fields = [j] := by
  cases hentries : entries k fields with
  | nil => simp [Found.ofKey]
  | cons j' rest =>
      have hrest : rest = [] := by
        rw [hentries, List.length_cons] at h
        exact List.eq_nil_of_length_eq_zero (by omega)
      simp [Found.ofKey, hrest]

theorem readsOptional_ofKey_iff {r : Reader α} {k : String} {fields : List (String × Json)}
    (h : (entries k fields).length ≤ 1) :
    ReadsOptional r (.ofKey (entries k fields).head?) ↔
      entries k fields = [] ∨ ∃ j, entries k fields = [j] ∧ (j = .null ∨ Reads r j) := by
  cases hentries : entries k fields with
  | nil => simp [Found.ofKey, ReadsOptional]
  | cons j' rest =>
      have hrest : rest = [] := by
        rw [hentries, List.length_cons] at h
        exact List.eq_nil_of_length_eq_zero (by omega)
      simp [Found.ofKey, ReadsOptional, hrest]

/-- A struct is read from an object when no known key is repeated and the fields can be
    read. -/
theorem reads_struct_object {names : List String} {build : (String → Found) → Option α}
    {fields : List (String × Json)} :
    Reads (readStruct names build) (.object fields) ↔
      (∀ k ∈ names, (entries k fields).length ≤ 1) ∧
        (build fun k => .ofKey (entries k fields).head?).isSome := by
  simp only [Reads, readStruct, structFields]
  split
  · rename_i h
    exact ⟨fun hread => ⟨h, hread⟩, And.right⟩
  · rename_i h
    refine ⟨?_, fun hread => absurd hread.1 h⟩
    intro hread
    cases hread

/-- A struct is read from an array when it is not too long and the fields can be read. -/
theorem reads_struct_array {names : List String} {build : (String → Found) → Option α}
    {items : List Json} :
    Reads (readStruct names build) (.array items) ↔
      items.length ≤ names.length ∧
        (build fun k => .ofPosition ((names.zip items).lookup k)).isSome := by
  simp only [Reads, readStruct, structFields]
  split
  · rename_i h
    exact ⟨fun hread => ⟨h, hread⟩, And.right⟩
  · rename_i h
    refine ⟨?_, fun hread => absurd hread.1 h⟩
    intro hread
    cases hread

@[simp] theorem not_reads_struct_null {names : List String}
    {build : (String → Found) → Option α} : ¬ Reads (readStruct names build) .null := nofun

@[simp] theorem not_reads_struct_bool {names : List String}
    {build : (String → Found) → Option α} (b : Bool) :
    ¬ Reads (readStruct names build) (.bool b) := nofun

@[simp] theorem not_reads_struct_number {names : List String}
    {build : (String → Found) → Option α} (n : JsonNumber) :
    ¬ Reads (readStruct names build) (.number n) := nofun

@[simp] theorem not_reads_struct_string {names : List String}
    {build : (String → Found) → Option α} (s : String) :
    ¬ Reads (readStruct names build) (.string s) := nofun

/-! ### Fields of values -/

/-- A field that must be there. -/
def Required (p : Json → Prop) : Option Json → Prop
  | some j => p j
  | none => False

/-- A field that may be missing or null. -/
def Optional (p : Json → Prop) : Option Json → Prop
  | some j => j = .null ∨ p j
  | none => True

/-- A field that may be missing. -/
def Defaulted (p : Json → Prop) : Option Json → Prop
  | some j => p j
  | none => True

theorem required_ofKey_isSome {r : Reader α} {o : Option Json} :
    ((Found.ofKey o).required r).isSome ↔ Required (Reads r) o := by
  cases o <;> simp [Required, Reads]

theorem optional_ofKey_isSome {r : Reader α} {o : Option Json} :
    ((Found.ofKey o).optional r).isSome ↔ Optional (Reads r) o := by
  cases o with
  | none => simp [Optional]
  | some j => exact reads_option

theorem defaulted_ofKey_isSome {r : Reader α} {d : α} {o : Option Json} :
    ((Found.ofKey o).defaulted r d).isSome ↔ Defaulted (Reads r) o := by
  cases o <;> simp [Found.ofKey, Found.defaulted, Defaulted, Reads]

/-- An optional field with a default is read like one without, from an object. -/
theorem defaulted_option_isSome {r : Reader α} {d : Option α} {o : Option Json} :
    ((Found.ofKey o).defaulted (readOption r) d).isSome ↔ Optional (Reads r) o := by
  cases o with
  | none => simp [Found.ofKey, Found.defaulted, Optional]
  | some j => exact reads_option

theorem Required.congr {p q : Json → Prop} (h : ∀ j, p j ↔ q j) {o : Option Json} :
    Required p o ↔ Required q o := by
  cases o with
  | none => exact Iff.rfl
  | some j => exact h j

theorem Optional.congr {p q : Json → Prop} (h : ∀ j, p j ↔ q j) {o : Option Json} :
    Optional p o ↔ Optional q o := by
  cases o with
  | none => exact Iff.rfl
  | some j => exact or_congr Iff.rfl (h j)

theorem Defaulted.congr {p q : Json → Prop} (h : ∀ j, p j ↔ q j) {o : Option Json} :
    Defaulted p o ↔ Defaulted q o := by
  cases o with
  | none => exact Iff.rfl
  | some j => exact h j

/-- In a value, what is given under a key is a value. -/
theorem Defaulted.congr_normal {p q : Json → Prop} (h : ∀ j, Normal j → (p j ↔ q j))
    {o : Option Json} (ho : ∀ j ∈ o, Normal j) : Defaulted p o ↔ Defaulted q o := by
  cases o with
  | none => exact Iff.rfl
  | some j => exact h j (ho j rfl)

theorem entries_eq_nil_of_lt {k : String} {fields : List (String × Json)}
    (h : ∀ e ∈ fields, k < e.1) : entries k fields = [] := by
  unfold entries
  rw [List.filterMap_eq_nil_iff]
  intro e he
  rw [if_neg (ne_of_gt (h e he))]

/-- In a value, a key has one entry at most, the one that is looked up. -/
theorem entries_of_normal {k : String} {fields : List (String × Json)}
    (h : NormalFields fields) : entries k fields = (fields.lookup k).toList := by
  induction fields with
  | nil => rfl
  | cons e rest ih =>
      obtain ⟨k', j⟩ := e
      obtain ⟨hk', -, hrest⟩ := h
      rw [entries_cons, List.lookup_cons]
      by_cases hkk' : k' = k
      · subst hkk'
        simp [entries_eq_nil_of_lt hk']
      · have hne : (k == k') = false := by simpa using Ne.symm hkk'
        rw [if_neg hkk', hne, ih hrest]

theorem entries_filter (k tag : String) (fields : List (String × Json)) :
    entries k (fields.filter fun e => e.1 ≠ tag) =
      if k = tag then [] else entries k fields := by
  unfold entries
  rw [List.filterMap_filter]
  by_cases hk : k = tag
  · rw [if_pos hk, List.filterMap_eq_nil_iff]
    intro e _
    by_cases he : e.1 = tag <;> simp [he, hk, Ne.symm]
  · rw [if_neg hk]
    refine List.filterMap_congr fun e _ => ?_
    by_cases he : e.1 = tag
    · simp [he, Ne.symm hk]
    · simp [he]

/-- The fields of a tagged struct in a value are those that are looked up. -/
theorem readStruct_tagged {tag : String} {names : List String}
    {build : (String → Found) → Option α} {fields : List (String × Json)}
    (h : NormalFields fields) :
    readStruct names build (.object (fields.filter fun e => e.1 ≠ tag)) =
      build fun k => .ofKey (if k = tag then none else fields.lookup k) := by
  have hentries : ∀ k, entries k (fields.filter fun e => e.1 ≠ tag) =
      (if k = tag then none else fields.lookup k).toList := by
    intro k
    rw [entries_filter, entries_of_normal h]
    split <;> rfl
  rw [readStruct_object]
  · congr
    funext k
    rw [hentries]
    cases (if k = tag then none else fields.lookup k) <;> rfl
  · intro k _
    rw [hentries]
    cases (if k = tag then none else fields.lookup k) <;> simp

theorem splitTag_object {tag : String} {t : Json} {fields : List (String × Json)}
    (h : NormalFields fields) (ht : fields.lookup tag = some t) :
    splitTag tag (.object fields) = some (t, .object (fields.filter fun e => e.1 ≠ tag)) := by
  simp [splitTag, entries_of_normal h, ht]

/-- A tagged choice is read when its tag names a variant whose fields are read. -/
theorem reads_readTagged {tag : String} {variant : Json → Option String}
    {build : String → Reader α} {j t rest : Json} (h : splitTag tag j = some (t, rest)) :
    Reads (readTagged tag variant build) j ↔
      ∃ name, variant t = some name ∧ Reads (build name) rest := by
  have hread : readTagged tag variant build j = (variant t).bind fun name => build name rest := by
    simp [readTagged, h]
  rw [Reads, hread]
  cases variant t with
  | none => simp
  | some name => simp [Reads]

end Json
