import Anyclaw.Library.Serde

/-!
# Reading back what was written

A program writes typed data as a document, makes it a value, and another reads it.  In a
value no key is repeated, and the last of several entries of the document has won.

`Restores r f` says that the reader `r` gives back what was written with `f`; it is closed
under lists, options and structs, so that a format is verified field by field.  Maps are
given back up to the order of their entries (`RestoresUpTo`).
-/

namespace Json

variable {α : Type}

/-- What is written with `f` and made a value is read by `r`. -/
def Restores (r : Reader α) (f : α → Json) : Prop := ∀ a, r (f a).normalize = some a

/-- The same, up to differences that `S` does not see. -/
def RestoresUpTo (S : α → α → Prop) (r : Reader α) (f : α → Json) : Prop :=
  ∀ a, ∃ a', r (f a).normalize = some a' ∧ S a a'

/-! ### The value of a document -/

@[simp] theorem normalize_null : normalize .null = .null := rfl

@[simp] theorem normalize_bool (b : Bool) : normalize (.bool b) = .bool b := rfl

@[simp] theorem normalize_number (n : JsonNumber) : normalize (.number n) = .number n := rfl

@[simp] theorem normalize_string (s : String) : normalize (.string s) = .string s := rfl

@[simp] theorem normalize_doc (v : JsonValue) : v.doc.normalize = v.doc :=
  normalize_of_normal v.normal

theorem normalizeItems_eq_map (items : List Json) : normalizeItems items = items.map normalize := by
  induction items with
  | nil => rfl
  | cons j rest ih => rw [normalizeItems, ih, List.map_cons]

theorem normalize_eq_null {j : Json} : j.normalize = .null ↔ j = .null := by
  cases j <;> simp [normalize]

theorem lookup_cons_eq (k k' : String) (j : Json) (rest : List (String × Json)) :
    ((k', j) :: rest).lookup k = if k = k' then some j else rest.lookup k := by
  rw [List.lookup_cons]
  by_cases hk : k = k'
  · simp [hk]
  · simp [hk, beq_eq_false_iff_ne.mpr hk]

theorem lookup_eq_none_of_lt {k : String} {fields : List (String × Json)}
    (h : ∀ e ∈ fields, k < e.1) : fields.lookup k = none := by
  rw [List.lookup_eq_none_iff]
  intro e he
  simpa using ne_of_lt (h e he)

theorem lookup_addField {k : String} {j : Json} {fields : List (String × Json)}
    (h : NormalFields fields) (k' : String) :
    (addField k j fields).lookup k' =
      if k' = k then some ((fields.lookup k).getD j) else fields.lookup k' := by
  induction fields with
  | nil => exact lookup_cons_eq k' k j []
  | cons e rest ih =>
      obtain ⟨k₀, j₀⟩ := e
      obtain ⟨hlater, -, hrest⟩ := h
      unfold addField
      split
      · rename_i hlt
        have hnone : ((k₀, j₀) :: rest).lookup k = none := by
          apply lookup_eq_none_of_lt
          intro e he
          rcases List.mem_cons.mp he with rfl | he
          · exact hlt
          · exact hlt.trans (hlater e he)
        rw [hnone, lookup_cons_eq]
        rfl
      · split
        · rename_i heq
          subst heq
          simp only [lookup_cons_eq, if_true, Option.getD_some]
          by_cases hk : k' = k <;> simp [hk]
        · rename_i hne
          simp only [lookup_cons_eq, ih hrest, if_neg hne]
          by_cases hk : k' = k₀
          · simp [hk, Ne.symm hne]
          · simp [hk]

/-- The last entry of a key wins. -/
theorem lookup_normalizeFields (k : String) (fields : List (String × Json)) :
    (normalizeFields fields).lookup k = (entries k fields).getLast?.map normalize := by
  induction fields with
  | nil => rfl
  | cons e rest ih =>
      obtain ⟨k', j⟩ := e
      rw [normalizeFields, lookup_addField (normal_normalizeFields rest), entries_cons]
      by_cases hk : k = k'
      · subst hk
        rw [if_pos rfl, if_pos rfl, ih, List.getLast?_cons]
        cases (entries k rest).getLast? <;> rfl
      · rw [if_neg hk, if_neg (Ne.symm hk), ih]

/-! ### Structs and tagged choices -/

/-- The fields that the reader of a struct finds in a value. -/
theorem readStruct_normalize {names : List String} {build : (String → Found) → Option α}
    {fields : List (String × Json)} :
    readStruct names build (normalize (.object fields)) =
      build fun k => .ofKey ((entries k fields).getLast?.map normalize) := by
  have hentries : ∀ k, entries k (normalizeFields fields) =
      ((normalizeFields fields).lookup k).toList := fun k =>
    entries_of_normal (normal_normalizeFields fields)
  rw [normalize, readStruct_object]
  · congr
    funext k
    rw [hentries, ← lookup_normalizeFields]
    cases (normalizeFields fields).lookup k <;> rfl
  · intro k _
    rw [hentries]
    cases (normalizeFields fields).lookup k <;> simp

/-- A tagged choice is read by the last tag, from the other fields. -/
theorem readTagged_normalize {tag : String} {variant : Json → Option String}
    {build : String → Reader α} {fields : List (String × Json)} {t : Json}
    (h : (entries tag fields).getLast? = some t) :
    readTagged tag variant build (normalize (.object fields)) =
      (variant t.normalize).bind fun name =>
        build name (.object ((normalizeFields fields).filter fun e => e.1 ≠ tag)) := by
  have hsplit := splitTag_object (normal_normalizeFields fields)
    ((lookup_normalizeFields tag fields).trans (congrArg (Option.map normalize) h))
  rw [normalize, readTagged, hsplit]
  rfl

/-- The fields of a variant. -/
theorem readStruct_normalize_rest {names : List String} {build : (String → Found) → Option α}
    {tag : String} {fields : List (String × Json)} :
    readStruct names build
        (.object ((normalizeFields fields).filter fun e => e.1 ≠ tag)) =
      build fun k =>
        .ofKey (if k = tag then none else (entries k fields).getLast?.map normalize) := by
  rw [readStruct_tagged (normal_normalizeFields fields)]
  simp only [lookup_normalizeFields]

/-! ### Scalars, lists and options -/

@[simp] theorem defaulted_ofKey_none (r : Reader α) (d : α) :
    (Found.ofKey none).defaulted r d = some d := rfl

@[simp] theorem defaulted_ofKey_some (r : Reader α) (d : α) (j : Json) :
    (Found.ofKey (some j)).defaulted r d = r j := rfl

theorem restores_string : Restores readString .string := fun _ => rfl

theorem restores_bool : Restores readBool .bool := fun _ => rfl

theorem restores_uint64 : Restores readUInt64 fun n => .number (.posInt n) := fun _ => rfl

theorem restores_value : Restores readValue JsonValue.doc := by
  intro v
  simp [readValue]

theorem Restores.list {r : Reader α} {f : α → Json} (h : Restores r f) :
    Restores (readList r) fun l => .array (l.map f) := by
  intro l
  rw [normalize, readList, normalizeItems_eq_map, List.map_map]
  induction l with
  | nil => rfl
  | cons a rest ih =>
      simp only [List.map_cons, List.mapM_cons, Function.comp_apply, h a, ih]
      rfl

/-- A value that is written, and not as null. -/
theorem Restores.option {r : Reader α} {f : α → Json} (h : Restores r f) {a : α}
    (hne : f a ≠ .null) : readOption r (f a).normalize = some (some a) := by
  rw [readOption_of_ne_null (mt normalize_eq_null.mp hne), h a]
  rfl

/-- A field that is left out when there is nothing to write. -/
theorem Restores.optional {r : Reader α} {f : α → Json} (h : Restores r f)
    (hne : ∀ a, f a ≠ .null) (o : Option α) :
    (Found.ofKey ((o.map f).map normalize)).optional r = some o := by
  cases o with
  | none => rfl
  | some a => exact h.option (hne a)

/-- The same, where the reader has a default for the field. -/
theorem Restores.defaulted {r : Reader α} {f : α → Json} (h : Restores r f)
    (hne : ∀ a, f a ≠ .null) (o : Option α) :
    (Found.ofKey ((o.map f).map normalize)).defaulted (readOption r) none = some o := by
  cases o with
  | none => rfl
  | some a => exact h.option (hne a)

/-- A field that is null when there is nothing to write. -/
theorem Restores.nullable {r : Reader α} {f : α → Json} (h : Restores r f)
    (hne : ∀ a, f a ≠ .null) (o : Option α) :
    readOption r ((o.map f).getD .null).normalize = some o := by
  cases o with
  | none => rfl
  | some a => exact h.option (hne a)

theorem nullable_string (o : Option String) :
    readOption readString ((o.map Json.string).getD .null).normalize = some o :=
  restores_string.nullable nofun o

@[simp] theorem getLast?_toList (o : Option α) : o.toList.getLast? = o := by
  cases o <;> rfl

theorem written_string (o : Option String) :
    (Found.ofKey ((o.map Json.string).map normalize)).optional readString = some o :=
  restores_string.optional nofun o

theorem written_bool (o : Option Bool) :
    (Found.ofKey ((o.map Json.bool).map normalize)).optional readBool = some o :=
  restores_bool.optional nofun o

section UpTo

variable {S : α → α → Prop} {r : Reader α} {f : α → Json}

theorem RestoresUpTo.option (h : RestoresUpTo S r f) {a : α} (hne : f a ≠ .null) :
    ∃ o', readOption r (f a).normalize = some o' ∧ Option.Rel S (some a) o' := by
  obtain ⟨a', hread, hsame⟩ := h a
  refine ⟨some a', ?_, .some hsame⟩
  rw [readOption_of_ne_null (mt normalize_eq_null.mp hne), hread]
  rfl

theorem RestoresUpTo.optional (h : RestoresUpTo S r f) (hne : ∀ a, f a ≠ .null) (o : Option α) :
    ∃ o', (Found.ofKey ((o.map f).map normalize)).optional r = some o' ∧ Option.Rel S o o' := by
  cases o with
  | none => exact ⟨none, rfl, .none⟩
  | some a => exact h.option (hne a)

theorem RestoresUpTo.nullable (h : RestoresUpTo S r f) (hne : ∀ a, f a ≠ .null) (o : Option α) :
    ∃ o', readOption r ((o.map f).getD .null).normalize = some o' ∧ Option.Rel S o o' := by
  cases o with
  | none => exact ⟨none, rfl, .none⟩
  | some a => exact h.option (hne a)

end UpTo

/-! ### Maps -/

/-- The same entries, in some order. -/
def SameEntries (m m' : KeyedMap String JsonValue) : Prop := ∀ k, m'.get? k = m.get? k

/-- The entries of a map, in some order. -/
def mapFields (m : KeyedMap String JsonValue) : List (String × Json) :=
  m.entries.map fun e => (e.1, e.2.doc)

theorem get?_foldl_set (fields : List (String × Json)) (m : KeyedMap String JsonValue)
    (k : String) :
    (fields.foldl (fun m e => m.set e.1 (.ofDoc e.2)) m).get? k =
      ((entries k fields).getLast?.map JsonValue.ofDoc).or (m.get? k) := by
  induction fields generalizing m with
  | nil => rfl
  | cons e rest ih =>
      obtain ⟨k', j⟩ := e
      rw [List.foldl_cons, ih, entries_cons, KeyedMap.get?_set]
      by_cases hk : k' = k
      · rw [if_pos hk, if_pos hk.symm, List.getLast?_cons]
        cases (entries k rest).getLast? <;> rfl
      · rw [if_neg hk, if_neg (Ne.symm hk)]

@[simp] theorem entries_mapFields (m : KeyedMap String JsonValue) (k : String) :
    entries k (mapFields m) = ((m.get? k).map JsonValue.doc).toList := by
  unfold mapFields KeyedMap.get?
  obtain ⟨l, hl⟩ := m
  change entries k (l.map fun e => (e.1, e.2.doc)) = ((l.dlookup k).map JsonValue.doc).toList
  induction l with
  | nil => rfl
  | cons e rest ih =>
      obtain ⟨k', v⟩ := e
      obtain ⟨hnot, hrest⟩ := List.nodupKeys_cons.mp hl
      rw [List.map_cons, entries_cons, ih hrest]
      by_cases hk : k' = k
      · subst hk
        rw [if_pos rfl, List.dlookup_cons_eq, List.dlookup_eq_none.mpr hnot]
        rfl
      · rw [if_neg hk, List.dlookup_cons_ne _ _ (Ne.symm hk)]

/-- A map that was written is read with the same entries. -/
theorem readMap_normalize (fields : List (String × Json)) :
    ∃ m, readMap (normalize (.object fields)) = some m ∧
      ∀ k, m.get? k = (entries k fields).getLast?.map .ofDoc := by
  refine ⟨_, rfl, fun k => ?_⟩
  rw [get?_foldl_set, entries_of_normal (normal_normalizeFields fields), lookup_normalizeFields,
    KeyedMap.get?_empty, Option.or_none]
  cases (entries k fields).getLast? with
  | none => rfl
  | some j =>
      have hvalue : JsonValue.ofDoc j.normalize = .ofDoc j :=
        JsonValue.ofDoc_doc (.ofDoc j)
      simp [hvalue]

theorem restores_map : RestoresUpTo SameEntries readMap fun m => .object (mapFields m) := by
  intro m
  obtain ⟨m', hread, hget⟩ := readMap_normalize (mapFields m)
  refine ⟨m', hread, fun k => ?_⟩
  rw [hget, entries_mapFields]
  cases m.get? k <;> simp

end Json
