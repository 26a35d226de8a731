import Mathlib.Data.List.Basic
import Mathlib.Logic.Relation

/-!
# Regular expressions

Expressions with character classes, assertions about the characters on both sides of a
position, alternatives, repetition and groups.  They are matched with leftmost-first
semantics: alternatives are tried in order, a greedy repetition tries another round first
and a lazy one last.  A text is cut into the matches that are found from left to right and
the characters between them.
-/

inductive Regex where
  | empty
  | char (p : Char → Bool)
  /-- Looks at the character before and the character after the position. -/
  | look (p : Option Char → Option Char → Bool)
  | seq (a b : Regex)
  | alt (a b : Regex)
  | star (greedy : Bool) (a : Regex)
  | group (n : Nat) (a : Regex)

namespace Regex

/-! ### Abbreviations -/

def lit : List Char → Regex
  | [] => .empty
  | c :: cs => .seq (.char (· == c)) (lit cs)

def seqs : List Regex → Regex
  | [] => .empty
  | [a] => a
  | a :: as => .seq a (seqs as)

def plus (greedy : Bool) (a : Regex) : Regex := .seq a (.star greedy a)

def opt (a : Regex) : Regex := .alt a .empty

/-- At most so many times, as often as possible. -/
def upTo : Nat → Regex → Regex
  | 0, _ => .empty
  | n + 1, a => opt (.seq a (upTo n a))

/-! ### Matching -/

/-- A position in a text, with the groups that have been captured; a group that has not is
    empty. -/
structure Cursor where
  prev : Option Char
  rest : List Char
  groups : Nat → List Char

namespace Cursor

def skip (s : Cursor) (c : Char) (cs : List Char) : Cursor :=
  { s with prev := some c, rest := cs }

@[simp] theorem skip_rest (s : Cursor) (c : Char) (cs : List Char) : (s.skip c cs).rest = cs := rfl

@[simp] theorem skip_groups (s : Cursor) (c : Char) (cs : List Char) :
    (s.skip c cs).groups = s.groups := rfl

/-- What is read on the way to a later position. -/
def upToRest (s : Cursor) (rest : List Char) : List Char :=
  s.rest.take (s.rest.length - rest.length)

def capture (n : Nat) (text : List Char) (s : Cursor) : Cursor :=
  { s with groups := fun m => if m = n then text else s.groups m }

end Cursor

/-- A repetition, of rounds that take something away.  The fuel bounds their number. -/
def loop (round : (Cursor → Option Cursor) → Cursor → Option Cursor) (greedy : Bool)
    (k : Cursor → Option Cursor) : Nat → Cursor → Option Cursor
  | 0, s => k s
  | fuel + 1, s =>
      let again := round fun s' =>
        if s'.rest.length < s.rest.length then loop round greedy k fuel s' else none
      if greedy then (again s).orElse fun _ => k s else (k s).orElse fun _ => again s

/-- Match at a position and go on with the continuation, backtracking where that fails. -/
def run : Regex → (Cursor → Option Cursor) → Cursor → Option Cursor
  | empty, k, s => k s
  | char p, k, s =>
      match s.rest with
      | [] => none
      | c :: cs => if p c then k (s.skip c cs) else none
  | look p, k, s => if p s.prev s.rest.head? then k s else none
  | seq a b, k, s => run a (run b k) s
  | alt a b, k, s => (run a k s).orElse fun _ => run b k s
  | star greedy a, k, s => loop (run a) greedy k s.rest.length s
  | group n a, k, s => run a (fun s' => k (s'.capture n (s.upToRest s'.rest))) s

/-- What was matched, as a whole and in the groups. -/
structure Match where
  whole : List Char
  groups : Nat → List Char

def matchAt (r : Regex) (prev : Option Char) (text : List Char) : Option Match :=
  (run r some ⟨prev, text, fun _ => []⟩).map fun s =>
    ⟨text.take (text.length - s.rest.length), s.groups⟩

/-! ### Searching -/

inductive Segment where
  | gap (c : Char)
  | found (m : Match)

/-- The segments of a text of which some characters belong to a match that was found before.
    Empty matches are not looked for. -/
def segmentsFrom (r : Regex) : Nat → Option Char → List Char → List Segment
  | _, _, [] => []
  | n + 1, _, c :: cs => segmentsFrom r n (some c) cs
  | 0, prev, c :: cs =>
      match matchAt r prev (c :: cs) with
      | none => .gap c :: segmentsFrom r 0 (some c) cs
      | some m =>
          if m.whole = [] then .gap c :: segmentsFrom r 0 (some c) cs
          else .found m :: segmentsFrom r (m.whole.length - 1) (some c) cs

def segments (r : Regex) (text : List Char) : List Segment := segmentsFrom r 0 none text

def findMatches (segs : List Segment) : List Match :=
  segs.filterMap fun
    | .gap _ => none
    | .found m => some m

def findAll (r : Regex) (text : List Char) : List Match := findMatches (segments r text)

/-- `replace_all` with a replacement that may depend on the number of the match. -/
def replaceSegments (f : Nat → Match → List Char) : Nat → List Segment → List Char
  | _, [] => []
  | i, .gap c :: segs => c :: replaceSegments f i segs
  | i, .found m :: segs => f i m ++ replaceSegments f (i + 1) segs

def replaceAll (r : Regex) (f : Nat → Match → List Char) (text : List Char) : List Char :=
  replaceSegments f 0 (segments r text)

/-! ### What a match reads -/

/-- The expression can read from the one position to the other. -/
def Reads : Regex → Cursor → Cursor → Prop
  | empty, s, t => t = s
  | char p, s, t => ∃ c cs, s.rest = c :: cs ∧ p c = true ∧ t = s.skip c cs
  | look p, s, t => p s.prev s.rest.head? = true ∧ t = s
  | seq a b, s, t => ∃ u, Reads a s u ∧ Reads b u t
  | alt a b, s, t => Reads a s t ∨ Reads b s t
  | star _ a, s, t => Relation.ReflTransGen (Reads a) s t
  | group n a, s, t => ∃ u, Reads a s u ∧ t = u.capture n (s.upToRest u.rest)

theorem of_orElse_eq_some {α : Type} {x : Option α} {f : Unit → Option α} {v : α}
    (h : x.orElse f = some v) : x = some v ∨ f () = some v := by
  cases x with
  | none => exact .inr h
  | some y => exact .inl h

theorem loop_sound {a : Regex} {greedy : Bool} {k : Cursor → Option Cursor}
    (ha : ∀ {k : Cursor → Option Cursor} {s v : Cursor}, run a k s = some v →
      ∃ u, Reads a s u ∧ k u = some v) (fuel : Nat) {s v : Cursor}
    (h : loop (run a) greedy k fuel s = some v) :
    ∃ t, Relation.ReflTransGen (Reads a) s t ∧ k t = some v := by
  induction fuel generalizing s with
  | zero => exact ⟨s, .refl, h⟩
  | succ fuel ih =>
      have hagain : run a (fun s' => if s'.rest.length < s.rest.length then
          loop (run a) greedy k fuel s' else none) s = some v →
          ∃ t, Relation.ReflTransGen (Reads a) s t ∧ k t = some v := by
        intro hv
        obtain ⟨u, hu, hrest⟩ := ha hv
        split at hrest
        · obtain ⟨t, ht, hk⟩ := ih hrest
          exact ⟨t, .head hu ht, hk⟩
        · cases hrest
      rw [loop] at h
      split at h
      · rcases of_orElse_eq_some h with h | h
        · exact hagain h
        · exact ⟨s, .refl, h⟩
      · rcases of_orElse_eq_some h with h | h
        · exact ⟨s, .refl, h⟩
        · exact hagain h

/-- **A match is one that the expression can read.** -/
theorem run_sound {r : Regex} {k : Cursor → Option Cursor} {s v : Cursor}
    (h : run r k s = some v) : ∃ t, Reads r s t ∧ k t = some v := by
  induction r generalizing k s v with
  | empty => exact ⟨s, rfl, h⟩
  | char p =>
      rw [run] at h
      split at h
      · cases h
      · rename_i c cs hrest
        split at h
        · rename_i hc
          exact ⟨_, ⟨c, cs, hrest, hc, rfl⟩, h⟩
        · cases h
  | look p =>
      rw [run] at h
      split at h
      · rename_i hp
        exact ⟨s, ⟨hp, rfl⟩, h⟩
      · cases h
  | seq a b iha ihb =>
      obtain ⟨u, hu, h⟩ := iha h
      obtain ⟨t, ht, h⟩ := ihb h
      exact ⟨t, ⟨u, hu, ht⟩, h⟩
  | alt a b iha ihb =>
      rcases of_orElse_eq_some h with h | h
      · obtain ⟨t, ht, h⟩ := iha h
        exact ⟨t, .inl ht, h⟩
      · obtain ⟨t, ht, h⟩ := ihb h
        exact ⟨t, .inr ht, h⟩
  | star greedy a ih => exact loop_sound ih _ h
  | group n a ih =>
      obtain ⟨u, hu, h⟩ := ih h
      exact ⟨_, ⟨u, hu, rfl⟩, h⟩

/-- Reading goes forward. -/
theorem Reads.suffix {r : Regex} {s t : Cursor} (h : Reads r s t) : t.rest <:+ s.rest := by
  induction r generalizing s t with
  | empty =>
      cases h
      exact List.suffix_rfl
  | char p =>
      obtain ⟨c, cs, hrest, _, rfl⟩ := h
      rw [hrest]
      exact List.suffix_cons c cs
  | look p =>
      obtain ⟨_, rfl⟩ := h
      exact List.suffix_rfl
  | seq a b iha ihb =>
      obtain ⟨u, hu, ht⟩ := h
      exact (ihb ht).trans (iha hu)
  | alt a b iha ihb =>
      rcases h with h | h
      · exact iha h
      · exact ihb h
  | star greedy a ih =>
      induction h with
      | refl => exact List.suffix_rfl
      | tail _ hlast ihsteps => exact (ih hlast).trans ihsteps
  | group n a ih =>
      obtain ⟨u, hu, rfl⟩ := h
      have hsuffix : u.rest <:+ s.rest := ih hu
      exact hsuffix

section Shapes

variable {s t : Cursor} {a b cs : List Char} {p : Char → Bool} {greedy : Bool}

theorem upToRest_append (h : s.rest = cs ++ t.rest) : s.upToRest t.rest = cs := by
  rw [Cursor.upToRest, h, List.length_append, Nat.add_sub_cancel, List.take_left]

theorem reads_lit_singleton {c : Char} :
    Reads (lit [c]) s t ↔ ∃ cs, s.rest = c :: cs ∧ t = s.skip c cs := by
  simp only [lit, Reads, beq_iff_eq]
  constructor
  · rintro ⟨_, ⟨_, cs, hrest, rfl, rfl⟩, rfl⟩
    exact ⟨cs, hrest, rfl⟩
  · rintro ⟨cs, hrest, rfl⟩
    exact ⟨_, ⟨c, cs, hrest, rfl, rfl⟩, rfl⟩

theorem reads_lit (h : Reads (lit cs) s t) : s.rest = cs ++ t.rest ∧ t.groups = s.groups := by
  induction cs generalizing s with
  | nil =>
      cases h
      exact ⟨rfl, rfl⟩
  | cons c cs ih =>
      obtain ⟨_, ⟨d, rest, hrest, hd, rfl⟩, htail⟩ := h
      obtain ⟨htail, hgroups⟩ := ih htail
      rw [beq_iff_eq] at hd
      subst hd
      rw [Cursor.skip_rest] at htail
      rw [Cursor.skip_groups] at hgroups
      exact ⟨by rw [hrest, htail, List.cons_append], hgroups⟩

theorem reads_star (h : Reads (.star greedy (.char p)) s t) :
    ∃ cs, s.rest = cs ++ t.rest ∧ (∀ c ∈ cs, p c = true) ∧ t.groups = s.groups := by
  rw [Reads] at h
  induction h using Relation.ReflTransGen.head_induction_on with
  | refl => exact ⟨[], rfl, by simp, rfl⟩
  | head hfirst _ ih =>
      obtain ⟨c, rest, hrest, hc, rfl⟩ := hfirst
      obtain ⟨cs, htail, hall, hgroups⟩ := ih
      rw [Cursor.skip_rest] at htail
      rw [Cursor.skip_groups] at hgroups
      refine ⟨c :: cs, by rw [hrest, htail, List.cons_append], ?_, hgroups⟩
      intro d hd
      rcases List.mem_cons.mp hd with rfl | hd
      · exact hc
      · exact hall d hd

theorem reads_plus (h : Reads (plus greedy (.char p)) s t) :
    ∃ cs, cs ≠ [] ∧ s.rest = cs ++ t.rest ∧ (∀ c ∈ cs, p c = true) ∧ t.groups = s.groups := by
  obtain ⟨_, ⟨c, rest, hrest, hc, rfl⟩, hstar⟩ := h
  obtain ⟨cs, htail, hall, hgroups⟩ := reads_star hstar
  rw [Cursor.skip_rest] at htail
  rw [Cursor.skip_groups] at hgroups
  refine ⟨c :: cs, List.cons_ne_nil c cs, by rw [hrest, htail, List.cons_append], ?_, hgroups⟩
  intro d hd
  rcases List.mem_cons.mp hd with rfl | hd
  · exact hc
  · exact hall d hd

theorem reads_group_plus {n : Nat} (h : Reads (.group n (plus greedy (.char p))) s t) :
    ∃ cs, cs ≠ [] ∧ s.rest = cs ++ t.rest ∧ (∀ c ∈ cs, p c = true) ∧
      t.groups = fun m => if m = n then cs else s.groups m := by
  obtain ⟨u, hu, rfl⟩ := h
  obtain ⟨cs, hne, hrest, hall, hgroups⟩ := reads_plus hu
  refine ⟨cs, hne, hrest, hall, ?_⟩
  rw [Cursor.capture, upToRest_append hrest, hgroups]

theorem reads_group_star {n : Nat} (h : Reads (.group n (.star greedy (.char p))) s t) :
    ∃ cs, s.rest = cs ++ t.rest ∧ (∀ c ∈ cs, p c = true) ∧
      t.groups = fun m => if m = n then cs else s.groups m := by
  obtain ⟨u, hu, rfl⟩ := h
  obtain ⟨cs, hrest, hall, hgroups⟩ := reads_star hu
  refine ⟨cs, hrest, hall, ?_⟩
  rw [Cursor.capture, upToRest_append hrest, hgroups]

/-- A group between two marks. -/
theorem reads_between (h : Reads (seqs [lit a, .group 1 (plus greedy (.char p)), lit b]) s t) :
    ∃ cs, cs ≠ [] ∧ (∀ c ∈ cs, p c = true) ∧ s.rest = a ++ (cs ++ (b ++ t.rest)) ∧
      t.groups 1 = cs := by
  obtain ⟨u, hu, v, hv, hb⟩ := h
  obtain ⟨hrest, _⟩ := reads_lit hu
  obtain ⟨cs, hne, hrest', hall, hgroups⟩ := reads_group_plus hv
  obtain ⟨hrest'', hgroups'⟩ := reads_lit hb
  refine ⟨cs, hne, hall, by rw [hrest, hrest', hrest''], ?_⟩
  rw [hgroups', hgroups]
  exact if_pos rfl

end Shapes

/-! ### Induction over the matches -/

section Induction

variable {r : Regex} {text : List Char}

/-- The match with the number is found behind the one text and before the other. -/
structure Found (r : Regex) (text : List Char) (i : Nat) (p : List Char) (m : Match)
    (rest : List Char) : Prop where
  text_eq : text = p ++ (m.whole ++ rest)
  match_eq : matchAt r p.getLast? (m.whole ++ rest) = some m
  nonempty : m.whole ≠ []
  number : (findAll r text)[i]? = some m

theorem matchAt_eq_some {prev : Option Char} {m : Match} (h : matchAt r prev text = some m) :
    ∃ t : Cursor, Reads r ⟨prev, text, fun _ => []⟩ t ∧ text = m.whole ++ t.rest ∧
      m.groups = t.groups := by
  obtain ⟨v, hv, rfl⟩ := Option.map_eq_some_iff.mp h
  obtain ⟨t, ht, htv⟩ := run_sound hv
  cases htv
  refine ⟨v, ht, ?_, rfl⟩
  obtain ⟨cs, hcs⟩ : v.rest <:+ text := ht.suffix
  simp only [← hcs, List.length_append, Nat.add_sub_cancel, List.take_left]

/-- What a match reads. -/
theorem Found.reads {i : Nat} {p rest : List Char} {m : Match} (h : Found r text i p m rest) :
    ∃ t : Cursor, Reads r ⟨p.getLast?, m.whole ++ rest, fun _ => []⟩ t ∧ t.rest = rest ∧
      m.groups = t.groups := by
  obtain ⟨t, ht, happ, hgroups⟩ := matchAt_eq_some h.match_eq
  exact ⟨t, ht, (List.append_cancel_left happ).symm, hgroups⟩

theorem segmentsFrom_skip (a rest : List Char) (prev : Option Char) :
    segmentsFrom r a.length prev (a ++ rest) = segmentsFrom r 0 (a.getLast?.or prev) rest := by
  induction a generalizing prev with
  | nil => rfl
  | cons c a ih =>
      rw [List.length_cons, List.cons_append, segmentsFrom, ih, List.getLast?_cons]
      cases a.getLast? <;> rfl

theorem segmentsFrom_found {prev : Option Char} {m : Match} {rest : List Char}
    (h : matchAt r prev (m.whole ++ rest) = some m) (hne : m.whole ≠ []) :
    segmentsFrom r 0 prev (m.whole ++ rest) =
      .found m :: segmentsFrom r 0 (m.whole.getLast?.or prev) rest := by
  obtain ⟨c, a, hwhole⟩ := List.exists_cons_of_ne_nil hne
  rw [hwhole, List.cons_append] at h ⊢
  rw [segmentsFrom, h]
  simp only [hwhole, if_neg (List.cons_ne_nil c a), List.length_cons, Nat.add_sub_cancel]
  rw [segmentsFrom_skip, List.getLast?_cons]
  cases a.getLast? <;> rfl

theorem segmentsFrom_gap {prev : Option Char} {c : Char} {cs : List Char}
    (h : ∀ m, matchAt r prev (c :: cs) = some m → m.whole = []) :
    segmentsFrom r 0 prev (c :: cs) = .gap c :: segmentsFrom r 0 (some c) cs := by
  rw [segmentsFrom]
  split
  · rfl
  · rename_i m hm
    rw [if_pos (h m hm)]

/-- What a row of segments starts with: the first character, when no match begins there. -/
theorem exists_replaceSegments_cons {f : Nat → Match → List Char} {i : Nat} {prev : Option Char}
    {c : Char} {cs : List Char} (h : matchAt r prev (c :: cs) = none) :
    ∃ s, replaceSegments f i (segmentsFrom r 0 prev (c :: cs)) = c :: s := by
  rw [segmentsFrom, h]
  exact ⟨_, rfl⟩

/-- **A property of texts that every replacement keeps**, from the last one to the first, holds
    of the text in which all matches are replaced. -/
theorem replaceAll_induction {f : Nat → Match → List Char} {Inv : Nat → List Char → Prop}
    (hbase : Inv (findAll r text).length text)
    (hstep : ∀ i p m rest s, Found r text i p m rest →
      s = replaceSegments f (i + 1) (segmentsFrom r 0 (p ++ m.whole).getLast? rest) →
      Inv (i + 1) (p ++ (m.whole ++ s)) → Inv i (p ++ (f i m ++ s))) :
    Inv 0 (replaceAll r f text) := by
  have hall : ∀ (rest p : List Char) (i : Nat), text = p ++ rest →
      (findAll r text).drop i = findMatches (segmentsFrom r 0 p.getLast? rest) →
      i ≤ (findAll r text).length →
      Inv i (p ++ replaceSegments f i (segmentsFrom r 0 p.getLast? rest)) := by
    intro rest
    induction hlen : rest.length using Nat.strongRecOn generalizing rest with
    | ind n ih =>
        subst hlen
        intro p i happ hdrop hi
        cases rest with
        | nil =>
            rw [segmentsFrom, replaceSegments, ← happ]
            have hlength : (findAll r text).length - i = 0 := by
              rw [← List.length_drop, hdrop]
              rfl
            have hi' : i = (findAll r text).length := by omega
            rw [hi']
            exact hbase
        | cons c cs =>
            by_cases hgap : ∀ m, matchAt r p.getLast? (c :: cs) = some m → m.whole = []
            · have hlast : (p ++ [c]).getLast? = some c := List.getLast?_concat
              rw [segmentsFrom_gap hgap] at hdrop ⊢
              have htail := ih cs.length (by simp) cs rfl (p ++ [c]) i (by rw [happ]; simp)
                (by rw [hdrop, hlast]; rfl) hi
              rw [hlast, List.append_assoc] at htail
              exact htail
            · push Not at hgap
              obtain ⟨m, hm, hne⟩ := hgap
              obtain ⟨t, _, hsplit, _⟩ := matchAt_eq_some hm
              rw [hsplit] at hm hdrop happ ⊢
              have hlast : (p ++ m.whole).getLast? = m.whole.getLast?.or p.getLast? :=
                List.getLast?_append
              rw [segmentsFrom_found hm hne] at hdrop ⊢
              have hnumber : (findAll r text)[i]? = some m := by
                rw [← List.head?_drop, hdrop]
                rfl
              have hnext : (findAll r text).drop (i + 1) =
                  findMatches (segmentsFrom r 0 (m.whole.getLast?.or p.getLast?) t.rest) := by
                rw [← List.tail_drop, hdrop]
                rfl
              have hlen : t.rest.length < (c :: cs).length := by
                have hpos := List.length_pos_of_ne_nil hne
                rw [hsplit, List.length_append]
                omega
              have htail := ih t.rest.length hlen t.rest rfl (p ++ m.whole) (i + 1)
                (by rw [happ, List.append_assoc]) (by rw [hnext, hlast])
                (List.getElem?_eq_some_iff.mp hnumber).1
              rw [List.append_assoc] at htail
              rw [replaceSegments, ← hlast]
              exact hstep i p m t.rest _ ⟨happ, hm, hne, hnumber⟩ rfl htail
  exact hall text [] 0 rfl rfl (Nat.zero_le _)

end Induction

section Results

variable {r : Regex} {f : Nat → Match → List Char} {x : Char} {t t' : List Char}

@[simp] theorem findAll_nil : findAll r [] = [] := rfl

@[simp] theorem replaceAll_nil : replaceAll r f [] = [] := rfl

/-! ### Characters that no match begins with -/

theorem segmentsFrom_replicate (h : ∀ prev rest, matchAt r prev (x :: rest) = none) (n : Nat)
    (prev : Option Char) (t : List Char) :
    segmentsFrom r 0 prev (List.replicate (n + 1) x ++ t) =
      List.replicate (n + 1) (.gap x) ++ segmentsFrom r 0 (some x) t := by
  induction n generalizing prev with
  | zero => simp [segmentsFrom, h]
  | succ n ih =>
      rw [List.replicate_succ, List.cons_append, segmentsFrom, h, ih]
      rfl

theorem replaceSegments_replicate (i n : Nat) (segs : List Segment) :
    replaceSegments f i (List.replicate n (.gap x) ++ segs) =
      List.replicate n x ++ replaceSegments f i segs := by
  induction n with
  | zero => rfl
  | succ n ih =>
      rw [List.replicate_succ, List.cons_append, replaceSegments, ih]
      rfl

theorem replaceAll_replicate (h : ∀ prev rest, matchAt r prev (x :: rest) = none) (n : Nat)
    (ht : replaceSegments f 0 (segmentsFrom r 0 (some x) t) = t') :
    replaceAll r f (List.replicate (n + 1) x ++ t) = List.replicate (n + 1) x ++ t' := by
  rw [replaceAll, segments, segmentsFrom_replicate h, replaceSegments_replicate, ht]

theorem findAll_replicate (h : ∀ prev rest, matchAt r prev (x :: rest) = none) (n : Nat)
    (t : List Char) :
    findAll r (List.replicate (n + 1) x ++ t) = findMatches (segmentsFrom r 0 (some x) t) := by
  have hgaps : findMatches (List.replicate (n + 1) (Segment.gap x)) = [] := by
    rw [findMatches, List.filterMap_eq_nil_iff]
    intro segment hsegment
    rw [List.eq_of_mem_replicate hsegment]
  rw [findMatches] at hgaps
  rw [findAll, segments, segmentsFrom_replicate h, findMatches, List.filterMap_append, hgaps,
    List.nil_append]
  rfl

end Results

end Regex
