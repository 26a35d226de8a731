import Mathlib.Data.List.AList

/-!
# Finite maps with distinct keys

A hash map is modelled by an association list whose keys are distinct
(`AList`).  Only the operations that a program performs on such a map are given,
each with the one fact that later proofs use: what a lookup returns afterwards.
The order of the entries stands for the order, whatever it is, in which the program
iterates over the map.
-/

/-- A finite map from `κ` to `ν`; the invariant "no key twice" is carried by
    `AList`. -/
abbrev KeyedMap (κ : Type*) (ν : Type*) := AList (fun _ : κ => ν)

namespace KeyedMap

variable {κ ν : Type*} [DecidableEq κ]

/-! ### Operations -/

def get? (m : KeyedMap κ ν) (k : κ) : Option ν := AList.lookup k m

def set (m : KeyedMap κ ν) (k : κ) (v : ν) : KeyedMap κ ν := AList.insert k v m

def remove (m : KeyedMap κ ν) (k : κ) : KeyedMap κ ν := AList.erase k m

def contains (m : KeyedMap κ ν) (k : κ) : Bool := (m.get? k).isSome

/-- `m.extend m'`: the entries of `m'` are inserted into `m` and win over it. -/
def extend (m m' : KeyedMap κ ν) : KeyedMap κ ν := m' ∪ m

def setIfAbsent (m : KeyedMap κ ν) (k : κ) (v : ν) : KeyedMap κ ν :=
  if m.contains k then m else m.set k v

def retain (m : KeyedMap κ ν) (p : κ → ν → Bool) : KeyedMap κ ν :=
  ⟨m.entries.filter fun e => p e.1 e.2,
   m.nodupKeys.sublist List.filter_sublist⟩

omit [DecidableEq κ] in
private theorem keys_map_snd (f : ν → ν) (l : List (Σ _ : κ, ν)) :
    (l.map fun e => (⟨e.1, f e.2⟩ : Σ _ : κ, ν)).keys = l.keys := by
  simp [List.keys, Function.comp_def]

def mapValues (m : KeyedMap κ ν) (f : ν → ν) : KeyedMap κ ν :=
  ⟨m.entries.map fun e => ⟨e.1, f e.2⟩, by
    rw [List.NodupKeys, keys_map_snd]
    exact m.nodupKeys⟩

/-- The values in entry order. -/
def values (m : KeyedMap κ ν) : List ν := m.entries.map fun e => e.2

/-! ### What a lookup returns -/

@[simp] theorem get?_empty (k : κ) : (∅ : KeyedMap κ ν).get? k = none := rfl

@[simp] theorem get?_set (m : KeyedMap κ ν) (k k' : κ) (v : ν) :
    (m.set k v).get? k' = if k' = k then some v else m.get? k' := by
  unfold get? set
  by_cases h : k' = k
  · subst h; rw [if_pos rfl]; exact AList.lookup_insert m
  · rw [if_neg h]; exact AList.lookup_insert_ne h

@[simp] theorem get?_remove (m : KeyedMap κ ν) (k k' : κ) :
    (m.remove k).get? k' = if k' = k then none else m.get? k' := by
  unfold get? remove
  by_cases h : k' = k
  · subst h; rw [if_pos rfl]; exact AList.lookup_erase k' m
  · rw [if_neg h]; exact AList.lookup_erase_ne h

@[simp] theorem get?_extend (m m' : KeyedMap κ ν) (k : κ) :
    (m.extend m').get? k = (m'.get? k).or (m.get? k) := by
  unfold get? extend
  by_cases h : k ∈ m'
  · rw [AList.lookup_union_left h]
    obtain ⟨v, hv⟩ := Option.isSome_iff_exists.mp (AList.lookup_isSome.mpr h)
    rw [hv, Option.some_or]
  · rw [AList.lookup_union_right h, AList.lookup_eq_none.mpr h, Option.none_or]

theorem contains_iff (m : KeyedMap κ ν) (k : κ) :
    m.contains k = true ↔ ∃ v, m.get? k = some v := by
  simp only [contains, Option.isSome_iff_exists]

theorem not_contains_iff (m : KeyedMap κ ν) (k : κ) :
    m.contains k = false ↔ m.get? k = none := by
  simp only [contains, Option.isSome_eq_false_iff, Option.isNone_iff_eq_none]

@[simp] theorem get?_setIfAbsent (m : KeyedMap κ ν) (k k' : κ) (v : ν) :
    (m.setIfAbsent k v).get? k' =
      if k' = k then (m.get? k).or (some v) else m.get? k' := by
  unfold setIfAbsent
  cases hk : m.get? k with
  | none =>
      rw [if_neg (by simp [contains, hk]), get?_set]
      rfl
  | some w =>
      rw [if_pos (by simp [contains, hk])]
      by_cases h : k' = k
      · rw [if_pos h, h, hk]; rfl
      · rw [if_neg h]

private theorem dlookup_filter (p : κ → ν → Bool) (k : κ) :
    ∀ l : List (Σ _ : κ, ν), l.NodupKeys →
      (l.filter fun e => p e.1 e.2).dlookup k = (l.dlookup k).filter (p k)
  | [], _ => rfl
  | ⟨k', v⟩ :: l, hnd => by
      obtain ⟨hnot, hnd'⟩ := List.nodupKeys_cons.mp hnd
      have ih := dlookup_filter p k l hnd'
      by_cases hk : k' = k
      · subst hk
        have hnone : l.dlookup k' = none := List.dlookup_eq_none.mpr hnot
        by_cases hp : p k' v = true
        · simp [hp, Option.filter]
        · have hp' : p k' v = false := Bool.eq_false_iff.mpr hp
          simp [hp', ih, hnone, Option.filter]
      · by_cases hp : p k' v = true
        · simp only [List.filter_cons, hp, if_true]
          rw [List.dlookup_cons_ne _ _ (Ne.symm hk), List.dlookup_cons_ne _ _ (Ne.symm hk), ih]
        · simp only [List.filter_cons, hp]
          rw [List.dlookup_cons_ne _ _ (Ne.symm hk)]
          exact ih

@[simp] theorem get?_retain (m : KeyedMap κ ν) (p : κ → ν → Bool) (k : κ) :
    (m.retain p).get? k = (m.get? k).filter (p k) :=
  dlookup_filter p k m.entries m.nodupKeys

private theorem dlookup_map (f : ν → ν) (k : κ) :
    ∀ l : List (Σ _ : κ, ν),
      (l.map fun e => (⟨e.1, f e.2⟩ : Σ _ : κ, ν)).dlookup k = (l.dlookup k).map f
  | [] => rfl
  | ⟨k', v⟩ :: l => by
      by_cases hk : k' = k
      · subst hk; simp
      · rw [List.map_cons, List.dlookup_cons_ne _ _ (Ne.symm hk),
          List.dlookup_cons_ne _ _ (Ne.symm hk), dlookup_map f k l]

@[simp] theorem get?_mapValues (m : KeyedMap κ ν) (f : ν → ν) (k : κ) :
    (m.mapValues f).get? k = (m.get? k).map f :=
  dlookup_map f k m.entries

theorem mem_values (m : KeyedMap κ ν) (v : ν) :
    v ∈ m.values ↔ ∃ k, m.get? k = some v := by
  simp only [values, List.mem_map, get?]
  constructor
  · rintro ⟨⟨k, w⟩, hmem, rfl⟩
    exact ⟨k, AList.mem_lookup_iff.mpr hmem⟩
  · rintro ⟨k, hk⟩
    exact ⟨⟨k, v⟩, AList.mem_lookup_iff.mp hk, rfl⟩

private theorem countP_dlookup (p : ν → Bool) (k : κ) :
    ∀ l : List (Σ _ : κ, ν), l.NodupKeys →
      (l.countP fun e => decide (e.1 = k) && p e.2) = if (l.dlookup k).any p then 1 else 0
  | [], _ => rfl
  | ⟨k', v⟩ :: l, hnd => by
      obtain ⟨hnot, hnd'⟩ := List.nodupKeys_cons.mp hnd
      have ih := countP_dlookup p k l hnd'
      rw [List.countP_cons, ih]
      by_cases hk : k' = k
      · subst hk
        rw [List.dlookup_eq_none.mpr hnot]
        simp
      · rw [List.dlookup_cons_ne _ _ (Ne.symm hk)]
        simp [hk]

/-- A key is found at most once among the entries. -/
theorem countP_entries (m : KeyedMap κ ν) (p : ν → Bool) (k : κ) :
    (m.entries.countP fun e => decide (e.1 = k) && p e.2) = if (m.get? k).any p then 1 else 0 :=
  countP_dlookup p k m.entries m.nodupKeys

end KeyedMap
