import Mathlib.Data.String.Basic

/-!
# JSON documents and the values made of them

A document is what a text says: the entries of an object stand in the order of the text,
and a key may be repeated.  A value is a document that a program holds: its objects are
maps, so that no key is repeated and the order of the entries carries nothing.  `JsonValue`
carries this as a field, with the keys in increasing order.

A document is made into a value by `normalize`, in which the last entry of a repeated key
wins; a value is its own normal form.
-/

/-- A number: an integer of 64 bits, signed or unsigned, or a finite floating-point number
    (its bits). -/
inductive JsonNumber where
  | posInt (n : UInt64)
  | negInt (n : Int64) (negative : n < 0)
  | float (bits : UInt64)
deriving DecidableEq

inductive Json where
  | null
  | bool (b : Bool)
  | number (n : JsonNumber)
  | string (s : String)
  | array (items : List Json)
  | object (fields : List (String × Json))

/-! ### Integers -/

namespace JsonNumber

def ofInt64 (n : Int64) : JsonNumber :=
  if h : n < 0 then .negInt n h else .posInt n.toUInt64

def asInt64 : JsonNumber → Option Int64
  | .posInt n => if 0 ≤ n.toInt64 then some n.toInt64 else none
  | .negInt n _ => some n
  | .float _ => none

def asUInt64 : JsonNumber → Option UInt64
  | .posInt n => some n
  | .negInt _ _ => none
  | .float _ => none

@[simp] theorem asInt64_ofInt64 (n : Int64) : (ofInt64 n).asInt64 = some n := by
  by_cases h : n < 0
  · simp [ofInt64, h, asInt64]
  · have hnonneg : 0 ≤ n := Int64.not_lt.mp h
    simp [ofInt64, h, asInt64, hnonneg]

end JsonNumber

namespace Json

/-! ### Equality of documents -/

mutual

def beq : Json → Json → Bool
  | .null, .null => true
  | .bool a, .bool b => a == b
  | .number a, .number b => a == b
  | .string a, .string b => a == b
  | .array a, .array b => beqItems a b
  | .object a, .object b => beqFields a b
  | _, _ => false

def beqItems : List Json → List Json → Bool
  | [], [] => true
  | a :: as, b :: bs => beq a b && beqItems as bs
  | _, _ => false

def beqFields : List (String × Json) → List (String × Json) → Bool
  | [], [] => true
  | (k, a) :: as, (k', b) :: bs => k == k' && beq a b && beqFields as bs
  | _, _ => false

end

mutual

theorem beq_refl : ∀ j : Json, beq j j = true
  | .null => rfl
  | .bool b => by simp [beq]
  | .number n => by simp [beq]
  | .string s => by simp [beq]
  | .array items => by rw [beq]; exact beqItems_refl items
  | .object fields => by rw [beq]; exact beqFields_refl fields

theorem beqItems_refl : ∀ items : List Json, beqItems items items = true
  | [] => rfl
  | j :: rest => by simp [beqItems, beq_refl j, beqItems_refl rest]

theorem beqFields_refl : ∀ fields : List (String × Json), beqFields fields fields = true
  | [] => rfl
  | (k, j) :: rest => by simp [beqFields, beq_refl j, beqFields_refl rest]

end

mutual

theorem eq_of_beq : ∀ {a b : Json}, beq a b = true → a = b
  | .null, b, h => by cases b <;> simp_all [beq]
  | .bool _, b, h => by cases b <;> simp_all [beq]
  | .number _, b, h => by cases b <;> simp_all [beq]
  | .string _, b, h => by cases b <;> simp_all [beq]
  | .array as, b, h => by
      cases b with
      | array bs => rw [beq] at h; rw [eq_of_beqItems h]
      | _ => simp [beq] at h
  | .object as, b, h => by
      cases b with
      | object bs => rw [beq] at h; rw [eq_of_beqFields h]
      | _ => simp [beq] at h

theorem eq_of_beqItems : ∀ {as bs : List Json}, beqItems as bs = true → as = bs
  | [], bs, h => by cases bs <;> simp_all [beqItems]
  | a :: as, bs, h => by
      cases bs with
      | nil => simp [beqItems] at h
      | cons b bs =>
          simp only [beqItems, Bool.and_eq_true] at h
          rw [eq_of_beq h.1, eq_of_beqItems h.2]

theorem eq_of_beqFields : ∀ {as bs : List (String × Json)}, beqFields as bs = true → as = bs
  | [], bs, h => by cases bs <;> simp_all [beqFields]
  | (k, a) :: as, bs, h => by
      cases bs with
      | nil => simp [beqFields] at h
      | cons b bs =>
          obtain ⟨k', b⟩ := b
          simp only [beqFields, Bool.and_eq_true, beq_iff_eq] at h
          obtain ⟨⟨hk, ha⟩, hrest⟩ := h
          rw [hk, eq_of_beq ha, eq_of_beqFields hrest]

end

instance : DecidableEq Json := fun a b =>
  decidable_of_iff (beq a b = true) ⟨eq_of_beq, fun h => h ▸ beq_refl a⟩

/-! ### Objects as maps -/

/-- Enter `k` into a map whose keys increase, unless it is there already. -/
def addField (k : String) (j : Json) : List (String × Json) → List (String × Json)
  | [] => [(k, j)]
  | (k', j') :: rest =>
      if k < k' then (k, j) :: (k', j') :: rest
      else if k = k' then (k', j') :: rest
      else (k', j') :: addField k j rest

mutual

/-- The value that a document denotes. -/
def normalize : Json → Json
  | .null => .null
  | .bool b => .bool b
  | .number n => .number n
  | .string s => .string s
  | .array items => .array (normalizeItems items)
  | .object fields => .object (normalizeFields fields)

def normalizeItems : List Json → List Json
  | [] => []
  | j :: rest => normalize j :: normalizeItems rest

/-- The entries that come later have been entered first and win. -/
def normalizeFields : List (String × Json) → List (String × Json)
  | [] => []
  | (k, j) :: rest => addField k (normalize j) (normalizeFields rest)

end

mutual

/-- In every object the keys increase. -/
def Normal : Json → Prop
  | .null => True
  | .bool _ => True
  | .number _ => True
  | .string _ => True
  | .array items => NormalItems items
  | .object fields => NormalFields fields

def NormalItems : List Json → Prop
  | [] => True
  | j :: rest => Normal j ∧ NormalItems rest

def NormalFields : List (String × Json) → Prop
  | [] => True
  | (k, j) :: rest => (∀ e ∈ rest, k < e.1) ∧ Normal j ∧ NormalFields rest

end

theorem mem_addField {k : String} {j : Json} {e : String × Json} :
    ∀ {fields : List (String × Json)}, e ∈ addField k j fields → e = (k, j) ∨ e ∈ fields
  | [], h => by simpa [addField] using h
  | (k', j') :: rest, h => by
      unfold addField at h
      split at h
      · simpa using h
      · split at h
        · exact .inr h
        · rcases List.mem_cons.mp h with rfl | h
          · exact .inr (by simp)
          · rcases mem_addField h with rfl | h
            · exact .inl rfl
            · exact .inr (by simp [h])

theorem normalFields_addField {k : String} {j : Json} (hj : Normal j) :
    ∀ {fields : List (String × Json)}, NormalFields fields →
      NormalFields (addField k j fields)
  | [], _ => ⟨by simp, hj, trivial⟩
  | (k', j') :: rest, h => by
      obtain ⟨hk', hj', hrest⟩ := h
      unfold addField
      split
      · rename_i hlt
        refine ⟨?_, hj, hk', hj', hrest⟩
        intro e he
        rcases List.mem_cons.mp he with rfl | he
        · exact hlt
        · exact hlt.trans (hk' e he)
      · rename_i hle
        split
        · exact ⟨hk', hj', hrest⟩
        · rename_i hne
          have hgt : k' < k := lt_of_le_of_ne (not_lt.mp hle) (Ne.symm hne)
          refine ⟨?_, hj', normalFields_addField hj hrest⟩
          intro e he
          rcases mem_addField he with rfl | he
          · exact hgt
          · exact hk' e he

mutual

theorem normal_normalize : ∀ j : Json, Normal j.normalize
  | .null => trivial
  | .bool _ => trivial
  | .number _ => trivial
  | .string _ => trivial
  | .array items => normal_normalizeItems items
  | .object fields => normal_normalizeFields fields

theorem normal_normalizeItems : ∀ items : List Json, NormalItems (normalizeItems items)
  | [] => trivial
  | j :: rest => ⟨normal_normalize j, normal_normalizeItems rest⟩

theorem normal_normalizeFields :
    ∀ fields : List (String × Json), NormalFields (normalizeFields fields)
  | [] => trivial
  | (_, j) :: rest =>
      normalFields_addField (normal_normalize j) (normal_normalizeFields rest)

end

theorem addField_of_first {k : String} {j : Json} {fields : List (String × Json)}
    (h : ∀ e ∈ fields, k < e.1) : addField k j fields = (k, j) :: fields := by
  cases fields with
  | nil => rfl
  | cons e rest =>
      obtain ⟨k', j'⟩ := e
      have hlt : k < k' := h (k', j') (by simp)
      simp [addField, hlt]

mutual

/-- A value is its own normal form. -/
theorem normalize_of_normal : ∀ {j : Json}, Normal j → j.normalize = j
  | .null, _ => rfl
  | .bool _, _ => rfl
  | .number _, _ => rfl
  | .string _, _ => rfl
  | .array _, h => congrArg Json.array (normalizeItems_of_normal h)
  | .object _, h => congrArg Json.object (normalizeFields_of_normal h)

theorem normalizeItems_of_normal :
    ∀ {items : List Json}, NormalItems items → normalizeItems items = items
  | [], _ => rfl
  | _ :: _, h => by
      rw [normalizeItems, normalize_of_normal h.1, normalizeItems_of_normal h.2]

theorem normalizeFields_of_normal :
    ∀ {fields : List (String × Json)}, NormalFields fields → normalizeFields fields = fields
  | [], _ => rfl
  | (k, j) :: rest, h => by
      obtain ⟨hk, hj, hrest⟩ := h
      rw [normalizeFields, normalize_of_normal hj, normalizeFields_of_normal hrest]
      exact addField_of_first hk

end

/-! ### Looking up -/

def get? (k : String) : Json → Option Json
  | .object fields => fields.lookup k
  | _ => none

def asStr : Json → Option String
  | .string s => some s
  | _ => none

def asBool : Json → Option Bool
  | .bool b => some b
  | _ => none

def asInt64 : Json → Option Int64
  | .number n => n.asInt64
  | _ => none

def asArray : Json → Option (List Json)
  | .array items => some items
  | _ => none

def asObject : Json → Option (List (String × Json))
  | .object fields => some fields
  | _ => none

theorem normal_of_mem {k : String} {j : Json} {fields : List (String × Json)}
    (h : NormalFields fields) (hmem : (k, j) ∈ fields) : Normal j := by
  induction fields with
  | nil => cases hmem
  | cons e rest ih =>
      obtain ⟨k', j'⟩ := e
      rcases List.mem_cons.mp hmem with heq | hmem
      · cases heq
        exact h.2.1
      · exact ih h.2.2 hmem

theorem mem_of_lookup {k : String} {j : Json} {fields : List (String × Json)}
    (h : fields.lookup k = some j) : (k, j) ∈ fields := by
  induction fields with
  | nil => cases h
  | cons e rest ih =>
      obtain ⟨k', j'⟩ := e
      rw [List.lookup_cons] at h
      cases hk : k == k' with
      | true =>
          rw [hk] at h
          cases h
          rw [beq_iff_eq.mp hk]
          exact List.mem_cons_self
      | false =>
          rw [hk] at h
          exact List.mem_cons_of_mem _ (ih h)

end Json

structure JsonValue where
  doc : Json
  normal : doc.Normal
deriving DecidableEq

namespace JsonValue

def ofDoc (j : Json) : JsonValue := ⟨j.normalize, j.normal_normalize⟩

def null : JsonValue := ⟨.null, trivial⟩

@[simp] theorem ofDoc_doc (v : JsonValue) : ofDoc v.doc = v := by
  cases v with
  | mk doc normal => simp [ofDoc, Json.normalize_of_normal normal]

end JsonValue
