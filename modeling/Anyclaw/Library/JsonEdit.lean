import Anyclaw.Library.SerdeRoundTrip

/-!
# Editing values

A program changes a value in place: it enters a field into an object, takes one out, or
changes what stands under a key.  What is no object stays as it is.

* `lookup_setField`, `lookup_fillField`, `lookup_removeField`, `get?_modifyField`: what a key
  leads to afterwards.
* `normal_onFields`, `normal_modifyField`: an edited value is a value.
-/

namespace Json

variable {k k' : String} {j : Json} {fields : List (String × Json)}

def removeField (k : String) (fields : List (String × Json)) : List (String × Json) :=
  fields.filter fun e => e.1 ≠ k

/-- Enter `j` under `k`, in the place of what is there. -/
def setField (k : String) (j : Json) (fields : List (String × Json)) : List (String × Json) :=
  addField k j (removeField k fields)

/-- Enter what there is for `k`, unless something is there already. -/
def fillField (k : String) (o : Option Json) (fields : List (String × Json)) :
    List (String × Json) :=
  match fields.lookup k, o with
  | none, some j => setField k j fields
  | _, _ => fields

def onFields (f : List (String × Json) → List (String × Json)) : Json → Json
  | .object fields => .object (f fields)
  | j => j

def modifyField (k : String) (f : Json → Json) : Json → Json :=
  onFields fun fields =>
    match fields.lookup k with
    | some j => setField k (f j) fields
    | none => fields

/-! ### Fields -/

theorem lookup_removeField (k k' : String) (fields : List (String × Json)) :
    (removeField k fields).lookup k' = if k' = k then none else fields.lookup k' := by
  induction fields with
  | nil => simp [removeField]
  | cons e rest ih =>
      obtain ⟨k₀, j₀⟩ := e
      unfold removeField at ih ⊢
      rw [List.filter_cons]
      by_cases hk₀ : k₀ = k
      · subst hk₀
        rw [if_neg (by simp), ih]
        by_cases hk : k' = k₀
        · rw [if_pos hk, if_pos hk]
        · rw [if_neg hk, if_neg hk, lookup_cons_eq, if_neg hk]
      · rw [if_pos (by simpa using hk₀), lookup_cons_eq, lookup_cons_eq, ih]
        by_cases hk : k' = k
        · subst hk
          rw [if_neg (Ne.symm hk₀), if_pos rfl, if_pos rfl]
        · rw [if_neg hk, if_neg hk]

theorem normalFields_removeField (h : NormalFields fields) :
    NormalFields (removeField k fields) := by
  induction fields with
  | nil => trivial
  | cons e rest ih =>
      obtain ⟨k₀, j₀⟩ := e
      obtain ⟨hlater, hj₀, hrest⟩ := h
      unfold removeField at ih ⊢
      rw [List.filter_cons]
      split
      · exact ⟨fun e he => hlater e (List.mem_filter.mp he).1, hj₀, ih hrest⟩
      · exact ih hrest

theorem lookup_setField (h : NormalFields fields) (j : Json) (k k' : String) :
    (setField k j fields).lookup k' = if k' = k then some j else fields.lookup k' := by
  rw [setField, lookup_addField (normalFields_removeField h), lookup_removeField,
    lookup_removeField, if_pos rfl, Option.getD_none]
  by_cases hk : k' = k
  · rw [if_pos hk, if_pos hk]
  · rw [if_neg hk, if_neg hk, if_neg hk]

theorem normalFields_setField (hj : Normal j) (h : NormalFields fields) :
    NormalFields (setField k j fields) :=
  normalFields_addField hj (normalFields_removeField h)

theorem lookup_fillField (h : NormalFields fields) (k k' : String) (o : Option Json) :
    (fillField k o fields).lookup k' =
      if k' = k then (fields.lookup k).or o else fields.lookup k' := by
  have hother : fields.lookup k' = if k' = k then fields.lookup k else fields.lookup k' := by
    split
    · rename_i hk
      rw [hk]
    · rfl
  unfold fillField
  cases hk : fields.lookup k with
  | some j' => exact hother.trans (by rw [hk]; rfl)
  | none =>
      cases o with
      | none => exact hother.trans (by rw [hk]; rfl)
      | some j => exact lookup_setField h j k k'

theorem normalFields_fillField {o : Option Json} (ho : ∀ j ∈ o, Normal j)
    (h : NormalFields fields) : NormalFields (fillField k o fields) := by
  unfold fillField
  split
  · rename_i j _
    exact normalFields_setField (ho _ rfl) h
  · exact h

theorem normal_of_get? (h : Normal j) : ∀ j' ∈ j.get? k, Normal j' := by
  cases j with
  | object fields => exact fun _ hj' => normal_of_mem h (mem_of_lookup hj')
  | _ => exact nofun

/-! ### Edits -/

theorem normal_onFields {f : List (String × Json) → List (String × Json)}
    (hf : ∀ fields, NormalFields fields → NormalFields (f fields)) (h : Normal j) :
    Normal (onFields f j) := by
  cases j with
  | object fields => exact hf fields h
  | _ => exact h

theorem normal_modifyField {f : Json → Json} (hf : ∀ j, Normal j → Normal (f j))
    (h : Normal j) : Normal (modifyField k f j) := by
  refine normal_onFields (fun fields hfields => ?_) h
  split
  · rename_i j' hj'
    exact normalFields_setField (hf j' (normal_of_mem hfields (mem_of_lookup hj'))) hfields
  · exact hfields

theorem get?_modifyField (h : Normal j) (f : Json → Json) (k k' : String) :
    (modifyField k f j).get? k' = if k' = k then (j.get? k).map f else j.get? k' := by
  cases j with
  | object fields =>
      change (match fields.lookup k with
        | some j => setField k (f j) fields
        | none => fields).lookup k' = if k' = k then (fields.lookup k).map f else fields.lookup k'
      cases hk : fields.lookup k with
      | some j' => exact lookup_setField h (f j') k k'
      | none =>
          by_cases hk' : k' = k
          · subst hk'
            rw [if_pos rfl]
            exact hk
          · rw [if_neg hk']
  | _ => split <;> rfl

end Json
