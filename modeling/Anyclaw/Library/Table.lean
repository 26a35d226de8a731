import Mathlib.Data.Finset.Card
import Mathlib.Data.List.Pairwise
import Mathlib.Data.List.Infix
import Mathlib.Order.Interval.Finset.Nat

/-!
# Tables whose rows are numbered by the database

A row gets the number after the largest that was ever given, so that the numbers of the
rows increase in the order in which the rows were inserted, also when rows have been
deleted in between.  A row is inserted until the numbers run out.

`selectLatest` is a query for the last rows that satisfy a condition, and `keepLatest` the
deletion of all the others.
-/

structure Row (α : Type*) where
  id : Nat
  data : α

/-- The rows by increasing number, and the largest number that was ever given. -/
structure Table (α : Type*) where
  rows : List (Row α)
  sequence : Nat
  increasing : rows.Pairwise fun r r' => r.id < r'.id
  given : ∀ r ∈ rows, 0 < r.id ∧ r.id ≤ sequence

namespace Table

variable {α : Type*}

/-! ### Statements -/

def empty : Table α := ⟨[], 0, .nil, nofun⟩

/-- The table with one more row, which gets the next number. -/
def appended (t : Table α) (a : α) : Table α where
  rows := t.rows ++ [⟨t.sequence + 1, a⟩]
  sequence := t.sequence + 1
  increasing := by
    rw [List.pairwise_append]
    refine ⟨t.increasing, List.pairwise_singleton _ _, ?_⟩
    intro r hr r' hr'
    cases List.mem_singleton.mp hr'
    exact Nat.lt_succ_of_le (t.given r hr).2
  given := by
    intro r hr
    rcases List.mem_append.mp hr with hr | hr
    · exact ⟨(t.given r hr).1, Nat.le_succ_of_le (t.given r hr).2⟩
    · cases List.mem_singleton.mp hr
      exact ⟨Nat.succ_pos _, le_rfl⟩

/-- Append a row; the numbers go up to `last`. -/
def insert (t : Table α) (last : Nat) (a : α) : Option (Table α) :=
  if t.sequence < last then some (t.appended a) else none

def deleteWhere (t : Table α) (p : Row α → Bool) : Table α where
  rows := t.rows.filter fun r => !p r
  sequence := t.sequence
  increasing := t.increasing.filter _
  given := fun r hr => t.given r (List.mem_of_mem_filter hr)

def select (t : Table α) (p : Row α → Bool) : List (Row α) := t.rows.filter p

/-- The rows that satisfy `p`, by decreasing number: the first `limit` of them, or all when
    `limit` is negative. -/
def selectLatest (t : Table α) (p : Row α → Bool) (limit : Int) : List (Row α) :=
  if limit < 0 then (t.select p).reverse else (t.select p).reverse.take limit.toNat

/-- Delete the rows that satisfy `p` and are not among the latest. -/
def keepLatest (t : Table α) (p : Row α → Bool) (limit : Int) : Table α :=
  t.deleteWhere fun r => p r && !((t.selectLatest p limit).map Row.id).contains r.id

/-! ### What is selected afterwards -/

theorem sequence_deleteWhere (t : Table α) (p : Row α → Bool) :
    (t.deleteWhere p).sequence = t.sequence := rfl

theorem sequence_keepLatest (t : Table α) (p : Row α → Bool) (limit : Int) :
    (t.keepLatest p limit).sequence = t.sequence := rfl

theorem select_deleteWhere (t : Table α) (p q : Row α → Bool) :
    (t.deleteWhere p).select q = (t.select q).filter fun r => !p r := by
  simp only [select, deleteWhere, List.filter_filter, Bool.and_comm]

@[simp] theorem sequence_appended (t : Table α) (a : α) :
    (t.appended a).sequence = t.sequence + 1 := rfl

theorem select_appended (t : Table α) (a : α) (p : Row α → Bool) :
    (t.appended a).select p = t.select p ++ [⟨t.sequence + 1, a⟩].filter p := by
  simp [select, appended]

/-- There are no more rows than numbers that were given. -/
theorem length_select_le (t : Table α) (p : Row α → Bool) :
    (t.select p).length ≤ t.sequence := by
  have hnodup : ((t.select p).map Row.id).Nodup := by
    refine List.Pairwise.map _ (fun _ _ h => h) ?_
    exact (t.increasing.filter p).imp fun h => Nat.ne_of_lt h
  have hsub : ((t.select p).map Row.id).toFinset ⊆ Finset.Icc 1 t.sequence := by
    intro i hi
    obtain ⟨r, hr, rfl⟩ := List.mem_map.mp (List.mem_toFinset.mp hi)
    exact Finset.mem_Icc.mpr (t.given r (List.mem_of_mem_filter hr))
  have hcard := Finset.card_le_card hsub
  rw [List.toFinset_card_of_nodup hnodup] at hcard
  simpa using hcard

/-- Of rows with increasing numbers, those with a number among the last `n` are the last
    `n`. -/
theorem filter_mem_drop {l : List (Row α)} (h : l.Pairwise fun r r' => r.id < r'.id) (n : Nat) :
    l.filter (fun r => ((l.drop n).map Row.id).contains r.id) = l.drop n := by
  have hsplit := List.take_append_drop n l
  have hcross : ∀ r ∈ l.take n, ∀ r' ∈ l.drop n, r.id < r'.id := by
    rw [← hsplit, List.pairwise_append] at h
    exact h.2.2
  have hfirst : (l.take n).filter (fun r => ((l.drop n).map Row.id).contains r.id) = [] := by
    rw [List.filter_eq_nil_iff]
    intro r hr hmem
    obtain ⟨r', hr', heq⟩ := List.mem_map.mp (List.contains_iff_mem.mp hmem)
    exact absurd (hcross r hr r' hr') (by omega)
  have hlast : (l.drop n).filter (fun r => ((l.drop n).map Row.id).contains r.id) = l.drop n := by
    rw [List.filter_eq_self]
    intro r hr
    exact List.contains_iff_mem.mpr (List.mem_map.mpr ⟨r, hr, rfl⟩)
  calc l.filter (fun r => ((l.drop n).map Row.id).contains r.id)
      = (l.take n ++ l.drop n).filter (fun r => ((l.drop n).map Row.id).contains r.id) := by
        rw [hsplit]
    _ = l.drop n := by rw [List.filter_append, hfirst, hlast, List.nil_append]

/-- The latest rows are the last ones. -/
theorem mem_selectLatest {t : Table α} {p : Row α → Bool} {limit : Int} {r : Row α} :
    r ∈ t.selectLatest p limit ↔
      r ∈ (t.select p).drop (if limit < 0 then 0 else (t.select p).length - limit.toNat) := by
  unfold selectLatest
  split
  · simp
  · rw [List.take_reverse, List.mem_reverse]

/-- Among the rows that satisfy `p`, the latest are kept. -/
theorem select_keepLatest (t : Table α) (p : Row α → Bool) (limit : Int) :
    (t.keepLatest p limit).select p =
      (t.select p).drop (if limit < 0 then 0 else (t.select p).length - limit.toNat) := by
  have hkept := filter_mem_drop (t.increasing.filter p)
    (if limit < 0 then 0 else (t.select p).length - limit.toNat)
  rw [keepLatest, select_deleteWhere]
  refine Eq.trans (List.filter_congr fun r hr => ?_) hkept
  have hp : p r = true := List.of_mem_filter hr
  have hlatest : r.id ∈ (t.selectLatest p limit).map Row.id ↔
      r.id ∈ ((t.select p).drop
        (if limit < 0 then 0 else (t.select p).length - limit.toNat)).map Row.id := by
    simp only [List.mem_map, mem_selectLatest]
  rw [hp, Bool.true_and, Bool.not_not, Bool.eq_iff_iff, List.contains_iff_mem, hlatest,
    List.contains_iff_mem]
  exact Iff.rfl

/-- Other rows are kept. -/
theorem select_keepLatest_of_disjoint (t : Table α) {p q : Row α → Bool} (limit : Int)
    (h : ∀ r, q r = true → p r = false) : (t.keepLatest p limit).select q = t.select q := by
  rw [keepLatest, select_deleteWhere, List.filter_eq_self]
  intro r hr
  simp [h r (List.of_mem_filter hr)]

end Table
