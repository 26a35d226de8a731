import Mathlib.Data.List.DropRight
import Mathlib.Logic.Function.Basic

/-!
# File trees and the resolution of paths

A file tree with symbolic links, and what an operating system makes of a path in it.  A
place in the tree is the list of names that leads to it from the root; a tree carries that
whatever exists lies in a directory.

A path is the text between its slashes.  It is resolved name by name: a link is replaced by
its target, for a bounded number of links.  The place that a resolution ends at is real,
which means that no link lies on the way to it, so that resolving it again changes nothing.
A file that is opened for writing may be missing; the last name of a path then counts as
resolved.
-/

/-! ### Paths -/

inductive PathStart where
  /-- `/…` -/
  | root
  /-- A relative path. -/
  | here
  /-- `./…` -/
  | dot
deriving DecidableEq

/-- A path: where it begins, and the text between its slashes. -/
structure PosixPath where
  start : PathStart
  segments : List String
deriving DecidableEq

/-- Segments that name nothing: two slashes in a row, or a dot. -/
def idleSegment (s : String) : Bool := s == "" || s == "."

namespace PosixPath

def empty : PosixPath := ⟨.here, []⟩

def parse (s : String) : PosixPath :=
  match (s.toList.splitOn '/').map String.ofList with
  | [""] => empty
  | "" :: rest => ⟨.root, rest⟩
  | "." :: rest => ⟨.dot, rest⟩
  | segments => ⟨.here, segments⟩

def isAbsolute (p : PosixPath) : Bool := p.start == .root

/-- The path as the segments that follow a slash. -/
def afterSlash : PosixPath → List String
  | ⟨.dot, segments⟩ => "." :: segments
  | ⟨_, []⟩ => [""]
  | ⟨_, segments⟩ => segments

/-- `p/q`, or `q` when it is absolute. -/
def join (p q : PosixPath) : PosixPath :=
  if q.isAbsolute || p == empty then q else ⟨p.start, p.segments ++ q.afterSlash⟩

/-- The segments up to the last one that names something. -/
def trimmed (segments : List String) : List String := segments.rdropWhile idleSegment

def parent (p : PosixPath) : Option PosixPath :=
  match trimmed p.segments with
  | [] => if p.start == .dot then some empty else none
  | segments => some ⟨p.start, trimmed segments.dropLast⟩

/-- The last component, if it is a name. -/
def fileName (p : PosixPath) : Option String :=
  (trimmed p.segments).getLast?.filter (· != "..")

end PosixPath

/-! ### Trees -/

/-- The names that an entry of a directory can have. -/
def ProperName (s : String) : Prop := idleSegment s = false ∧ s ≠ ".."

instance (s : String) : Decidable (ProperName s) := inferInstanceAs (Decidable (_ ∧ _))

theorem PosixPath.properName_of_fileName {p : PosixPath} {name : String}
    (h : p.fileName = some name) : ProperName name := by
  unfold PosixPath.fileName at h
  rw [Option.filter_eq_some_iff] at h
  obtain ⟨hlast, hup⟩ := h
  have hne : PosixPath.trimmed p.segments ≠ [] := by
    rintro hnil
    rw [hnil] at hlast
    cases hlast
  have hget : (PosixPath.trimmed p.segments).getLast hne = name := by
    rw [List.getLast?_eq_some_getLast hne] at hlast
    exact Option.some.inj hlast
  have hnames := List.rdropWhile_last_not idleSegment p.segments hne
  refine ⟨?_, by simpa using hup⟩
  rw [← hget]
  exact Bool.eq_false_iff.mpr hnames

inductive FileNode (α : Type) where
  | file (content : α)
  | dir
  | link (target : PosixPath)
deriving DecidableEq

def FileNode.isDir {α : Type} : FileNode α → Bool
  | .dir => true
  | _ => false

def FileNode.isFile {α : Type} : FileNode α → Bool
  | .file _ => true
  | _ => false

/-- A tree with the working directory of the process that looks at it. -/
structure FileTree (α : Type) where
  node : List String → Option (FileNode α)
  cwd : List String
  root_dir : node [] = some .dir
  cwd_dir : node cwd = some .dir
  parent_dir : ∀ p name, (node (p ++ [name])).isSome → node p = some .dir
  proper : ∀ p name, (node (p ++ [name])).isSome → ProperName name

inductive PathError where
  | notFound
  | notADirectory
  | tooManyLinks
deriving DecidableEq

def PathError.text : PathError → String
  | .notFound => "No such file or directory (os error 2)"
  | .notADirectory => "Not a directory (os error 20)"
  | .tooManyLinks => "Too many levels of symbolic links (os error 40)"

namespace FileTree

variable {α : Type} (t : FileTree α)

def isDir (p : List String) : Bool := (t.node p).any FileNode.isDir

/-- Where a path begins that is seen from the directory `cur`. -/
def begin (cur : List String) (p : PosixPath) : List String :=
  if p.isAbsolute then [] else cur

/-- Resolve the segments one after the other; `follow` goes on behind a link. -/
def walkWith (creates : Bool)
    (follow : List String → List String → Except PathError (List String)) :
    List String → List String → Except PathError (List String)
  | cur, [] => .ok cur
  | cur, s :: rest =>
      if t.isDir cur then
        if idleSegment s then walkWith creates follow cur rest
        else if s = ".." then walkWith creates follow cur.dropLast rest
        else
          match t.node (cur ++ [s]) with
          | none => if creates && rest.isEmpty then .ok (cur ++ [s]) else .error .notFound
          | some (.link target) =>
              if target = .empty then .error .notFound
              else follow (begin cur target) (target.segments ++ rest)
          | some _ => walkWith creates follow (cur ++ [s]) rest
      else .error .notADirectory

/-- Resolve the segments, with at most `n` links on the way. -/
def walk (creates : Bool) : Nat → List String → List String → Except PathError (List String)
  | 0 => t.walkWith creates fun _ _ => .error .tooManyLinks
  | n + 1 => t.walkWith creates (walk creates n)

def maxLinks : Nat := 40

/-- The place that a path leads to. -/
def canonicalize (p : PosixPath) : Except PathError (List String) :=
  if p = .empty then .error .notFound else t.walk false maxLinks (begin t.cwd p) p.segments

/-- The place at which a file is opened; it need not exist when it can be created. -/
def locate (creates : Bool) (place : List String) : Except PathError (List String) :=
  t.walk creates maxLinks [] place

/-! ### Real places -/

/-- Something is there that is no link. -/
def Real (p : List String) : Prop := ∃ x, t.node p = some x ∧ ∀ target, x ≠ .link target

/-- Nothing is there, but it could be. -/
def Free (p : List String) : Prop :=
  t.node p = none ∧ ∃ d name, p = d ++ [name] ∧ t.node d = some .dir ∧ ProperName name

variable {t}

theorem isDir_iff {p : List String} : t.isDir p = true ↔ t.node p = some .dir := by
  unfold isDir
  cases t.node p with
  | none => simp
  | some x => cases x <;> simp [FileNode.isDir]

theorem real_of_dir {p : List String} (h : t.node p = some .dir) : t.Real p :=
  ⟨.dir, h, nofun⟩

/-- What lies above something is a directory. -/
theorem dir_of_above {p q : List String} (hq : q ≠ []) (h : (t.node (p ++ q)).isSome) :
    t.node p = some .dir := by
  induction q using List.reverseRecOn with
  | nil => exact absurd rfl hq
  | append_singleton q name ih =>
      have habove : t.node (p ++ q) = some .dir :=
        t.parent_dir (p ++ q) name (by rw [List.append_assoc]; exact h)
      by_cases hnil : q = []
      · rw [hnil, List.append_nil] at habove
        exact habove
      · exact ih hnil (by rw [habove]; rfl)

theorem dir_dropLast {p : List String} (h : t.node p = some .dir) :
    t.node p.dropLast = some .dir := by
  by_cases hnil : p = []
  · rw [hnil]
    exact t.root_dir
  · refine t.parent_dir p.dropLast (p.getLast hnil) ?_
    rw [List.dropLast_concat_getLast, h]
    rfl

/-- Where a path begins is a directory. -/
theorem dir_begin {cur : List String} (h : t.node cur = some .dir) (p : PosixPath) :
    t.node (begin cur p) = some .dir := by
  unfold begin
  split
  · exact t.root_dir
  · exact h

/-- **A resolution ends at a real place, or at a free one when it may create.** -/
theorem walkWith_ends {creates : Bool}
    {follow : List String → List String → Except PathError (List String)}
    (hfollow : ∀ cur segments p, t.node cur = some .dir → follow cur segments = .ok p →
      t.Real p ∨ creates = true ∧ t.Free p)
    {segments : List String} : ∀ {cur p : List String}, t.Real cur →
      t.walkWith creates follow cur segments = .ok p → t.Real p ∨ creates = true ∧ t.Free p := by
  induction segments with
  | nil =>
      intro cur p hreal h
      cases h
      exact .inl hreal
  | cons s rest ih =>
      intro cur p hreal h
      unfold walkWith at h
      split at h
      · rename_i hdir
        rw [isDir_iff] at hdir
        split at h
        · exact ih hreal h
        · rename_i hidle
          split at h
          · exact ih (real_of_dir (dir_dropLast hdir)) h
          · rename_i hup
            split at h
            · rename_i hnone
              split at h
              · rename_i hcreates
                cases h
                have hcreates' : creates = true := (Bool.and_eq_true_iff.mp hcreates).1
                exact .inr ⟨hcreates', hnone, cur, s, rfl, hdir, by simpa using hidle, hup⟩
              · cases h
            · rename_i target hlink
              split at h
              · cases h
              · exact hfollow _ _ p (dir_begin hdir target) h
            · rename_i x hnolink hx
              exact ih ⟨x, hx, hnolink⟩ h
      · cases h

theorem walk_ends {creates : Bool} {n : Nat} {cur segments p : List String}
    (hreal : t.Real cur) (h : t.walk creates n cur segments = .ok p) :
    t.Real p ∨ creates = true ∧ t.Free p := by
  induction n generalizing cur segments p with
  | zero =>
      refine walkWith_ends ?_ hreal h
      intro cur segments p _ hfollow
      cases hfollow
  | succ n ih =>
      refine walkWith_ends ?_ hreal h
      intro cur segments p hdir hfollow
      exact ih (real_of_dir hdir) hfollow

theorem real_of_canonicalize {path : PosixPath} {p : List String}
    (h : t.canonicalize path = .ok p) : t.Real p := by
  unfold canonicalize at h
  split at h
  · cases h
  · have hends := walk_ends (real_of_dir (dir_begin t.cwd_dir path)) h
    exact hends.resolve_right fun hfree => nomatch hfree.1

/-! ### Resolving a place again -/

theorem walkWith_cons {creates : Bool}
    {follow : List String → List String → Except PathError (List String)} {cur : List String}
    {s : String} {rest : List String} (hdir : t.node cur = some .dir) (hs : ProperName s) :
    t.walkWith creates follow cur (s :: rest) =
      match t.node (cur ++ [s]) with
      | none => if creates && rest.isEmpty then .ok (cur ++ [s]) else .error .notFound
      | some (.link target) =>
          if target = .empty then .error .notFound
          else follow (begin cur target) (target.segments ++ rest)
      | some _ => t.walkWith creates follow (cur ++ [s]) rest := by
  rw [walkWith, if_pos (isDir_iff.mpr hdir), if_neg (by simp [hs.1]), if_neg hs.2]

/-- The names that lead to a real place are walked through. -/
theorem walkWith_names {creates : Bool}
    {follow : List String → List String → Except PathError (List String)}
    {names rest : List String} : ∀ {cur : List String}, t.Real (cur ++ names) →
      t.walkWith creates follow cur (names ++ rest) =
        t.walkWith creates follow (cur ++ names) rest := by
  induction names with
  | nil =>
      intro cur _
      rw [List.nil_append, List.append_nil]
  | cons s names ih =>
      intro cur h
      obtain ⟨x, hx, hnolink⟩ := h
      have hcur : t.node cur = some .dir := dir_of_above (List.cons_ne_nil s names) (by rw [hx]; rfl)
      have hsplit : cur ++ s :: names = (cur ++ [s]) ++ names := by simp
      have hreal : t.Real (cur ++ [s]) := by
        by_cases hnil : names = []
        · subst hnil
          exact ⟨x, hx, hnolink⟩
        · exact real_of_dir (dir_of_above hnil (by rw [← hsplit, hx]; rfl))
      obtain ⟨y, hy, hnolink'⟩ := hreal
      have hproper : ProperName s := t.proper cur s (by rw [hy]; rfl)
      rw [List.cons_append, walkWith_cons hcur hproper, hy, hsplit]
      rw [hsplit] at hx
      cases y with
      | link target => exact absurd rfl (hnolink' target)
      | file content => exact ih ⟨x, hx, hnolink⟩
      | dir => exact ih ⟨x, hx, hnolink⟩

theorem locate_append {creates : Bool} {d rest : List String} (h : t.Real d) :
    t.locate creates (d ++ rest) = t.walkWith creates (t.walk creates (maxLinks - 1)) d rest := by
  have hd : t.Real ([] ++ d) := h
  exact walkWith_names hd

/-- A real place is opened itself. -/
theorem locate_real {creates : Bool} {p : List String} (h : t.Real p) :
    t.locate creates p = .ok p := by
  have hlocate : t.locate creates (p ++ []) = _ := locate_append h
  rw [List.append_nil] at hlocate
  rw [hlocate]
  rfl

/-- A link is opened where its target leads. -/
theorem locate_link {creates : Bool} {d : List String} {name : String} {target : PosixPath}
    (hlink : t.node (d ++ [name]) = some (.link target)) (htarget : target ≠ .empty) :
    t.locate creates (d ++ [name]) =
      t.walk creates (maxLinks - 1) (begin d target) target.segments := by
  have hsome : (t.node (d ++ [name])).isSome := by rw [hlink]; rfl
  have hdir : t.node d = some .dir := t.parent_dir d name hsome
  rw [locate_append (real_of_dir hdir), walkWith_cons hdir (t.proper d name hsome), hlink]
  simp [htarget]

/-- **What is opened under a name is the entry itself, unless it is a link.** -/
theorem locate_entry {creates : Bool} {d p : List String} {name : String} (hreal : t.Real d)
    (hname : ProperName name) (h : t.locate creates (d ++ [name]) = .ok p) :
    p = d ++ [name] ∨ ∃ target, t.node (d ++ [name]) = some (.link target) ∧ target ≠ .empty := by
  rw [locate_append hreal] at h
  by_cases hdir : t.node d = some .dir
  · rw [walkWith_cons hdir hname] at h
    split at h
    · split at h
      · cases h
        exact .inl rfl
      · cases h
    · rename_i target hlink
      split at h
      · cases h
      · rename_i htarget
        exact .inr ⟨target, hlink, htarget⟩
    · cases h
      exact .inl rfl
  · rw [walkWith, if_neg (isDir_iff.not.mpr hdir)] at h
    cases h

/-! ### Trees given by their entries -/

/-- The entries make a tree: each lies in a directory and has a name. -/
def wellFormed (entries : List (List String × FileNode α)) (cwd : List String) : Bool :=
  (entries.lookup []).any FileNode.isDir && (entries.lookup cwd).any FileNode.isDir &&
    entries.all fun e => e.1.isEmpty ||
      ((entries.lookup e.1.dropLast).any FileNode.isDir && ProperName (e.1.getLastD ""))

theorem eq_dir_of_any {x : Option (FileNode α)} (h : x.any FileNode.isDir = true) :
    x = some .dir := by
  cases x with
  | none => cases h
  | some x =>
      cases x with
      | dir => rfl
      | file content => cases h
      | link target => cases h

theorem entry_wellFormed {entries : List (List String × FileNode α)} {cwd p : List String}
    {name : String} (h : wellFormed entries cwd = true)
    (hsome : (entries.lookup (p ++ [name])).isSome) :
    entries.lookup p = some .dir ∧ ProperName name := by
  obtain ⟨x, hx⟩ := Option.isSome_iff_exists.mp hsome
  obtain ⟨before, after, hentries, -⟩ := List.lookup_eq_some_iff.mp hx
  have hmem : (p ++ [name], x) ∈ entries := by simp [hentries]
  simp only [wellFormed, Bool.and_eq_true, List.all_eq_true] at h
  have hentry := h.2 _ hmem
  have hne : (p ++ [name]).isEmpty = false := by simp
  simp only [hne, Bool.false_or, Bool.and_eq_true, List.dropLast_concat, List.getLastD_concat,
    decide_eq_true_eq] at hentry
  exact ⟨eq_dir_of_any hentry.1, hentry.2⟩

def ofEntries (entries : List (List String × FileNode α)) (cwd : List String)
    (h : wellFormed entries cwd = true) : FileTree α where
  node p := entries.lookup p
  cwd := cwd
  root_dir := by
    simp only [wellFormed, Bool.and_eq_true] at h
    exact eq_dir_of_any h.1.1
  cwd_dir := by
    simp only [wellFormed, Bool.and_eq_true] at h
    exact eq_dir_of_any h.1.2
  parent_dir _ _ hsome := (entry_wellFormed h hsome).1
  proper _ _ hsome := (entry_wellFormed h hsome).2

/-! ### Writing a file -/

variable (t) in
def Writable (p : List String) : Prop :=
  t.Free p ∨ ∃ content, t.node p = some (.file content)

variable (t) in
theorem free_iff (p : List String) :
    (t.node p).isNone ∧ p ≠ [] ∧ t.isDir p.dropLast ∧ ProperName (p.getLastD "") ↔ t.Free p := by
  constructor
  · rintro ⟨hnone, hne, hdir, hname⟩
    rw [List.getLastD_eq_getLast?, List.getLast?_eq_some_getLast hne] at hname
    refine ⟨Option.isNone_iff_eq_none.mp hnone, p.dropLast, p.getLast hne, ?_, ?_, hname⟩
    · exact (List.dropLast_concat_getLast hne).symm
    · exact isDir_iff.mp hdir
  · rintro ⟨hnone, d, name, rfl, hdir, hname⟩
    simp only [List.dropLast_concat, List.getLastD_concat]
    exact ⟨by rw [hnone]; rfl, by simp, isDir_iff.mpr hdir, hname⟩

instance (p : List String) : Decidable (t.Free p) := decidable_of_iff _ (t.free_iff p)

variable (t) in
theorem writable_iff (p : List String) :
    t.Free p ∨ (t.node p).any FileNode.isFile ↔ t.Writable p := by
  refine or_congr Iff.rfl ?_
  cases t.node p with
  | none => simp
  | some x => cases x <;> simp [FileNode.isFile]

instance (p : List String) : Decidable (t.Writable p) := decidable_of_iff _ (t.writable_iff p)

def write (t : FileTree α) (p : List String) (content : α) (h : t.Writable p) : FileTree α where
  node := Function.update t.node p (some (.file content))
  cwd := t.cwd
  root_dir := by
    have hne : [] ≠ p := by
      rintro rfl
      rcases h with ⟨hnone, -⟩ | ⟨c, hfile⟩
      · rw [t.root_dir] at hnone
        cases hnone
      · rw [t.root_dir] at hfile
        cases hfile
    rw [Function.update_of_ne hne]
    exact t.root_dir
  cwd_dir := by
    have hne : t.cwd ≠ p := by
      rintro rfl
      rcases h with ⟨hnone, -⟩ | ⟨c, hfile⟩
      · rw [t.cwd_dir] at hnone
        cases hnone
      · rw [t.cwd_dir] at hfile
        cases hfile
    rw [Function.update_of_ne hne]
    exact t.cwd_dir
  parent_dir := by
    intro d name hsome
    have hdir : t.node d = some .dir := by
      by_cases heq : d ++ [name] = p
      · rcases h with ⟨-, d', name', rfl, hd', -⟩ | ⟨c, hfile⟩
        · obtain ⟨rfl, -⟩ := List.append_inj' heq rfl
          exact hd'
        · exact t.parent_dir d name (by rw [heq, hfile]; rfl)
      · rw [Function.update_of_ne heq] at hsome
        exact t.parent_dir d name hsome
    have hne : d ≠ p := by
      rintro rfl
      rcases h with ⟨hnone, -⟩ | ⟨c, hfile⟩
      · rw [hdir] at hnone
        cases hnone
      · rw [hdir] at hfile
        cases hfile
    rw [Function.update_of_ne hne]
    exact hdir
  proper := by
    intro d name hsome
    by_cases heq : d ++ [name] = p
    · rcases h with ⟨-, d', name', rfl, -, hname'⟩ | ⟨c, hfile⟩
      · obtain ⟨-, hnames⟩ := List.append_inj' heq rfl
        cases hnames
        exact hname'
      · exact t.proper d name (by rw [heq, hfile]; rfl)
    · rw [Function.update_of_ne heq] at hsome
      exact t.proper d name hsome

end FileTree
