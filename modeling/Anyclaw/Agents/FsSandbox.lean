import Anyclaw.Agents.Incoming
import Anyclaw.Library.Fallible
import Anyclaw.Library.FileTree
import Anyclaw.Library.Json

/-!
# The file sandbox

The agent reads and writes files through the manager, which checks the path of a request
against the working directory of the agent.  The two checks differ: a file that is read is
resolved as a whole, a file that is written may not exist yet, so that only its parent
directory is resolved.

A read never leaves the sandbox.  A write leaves it exactly when the name that the request
ends in is itself a symbolic link to some writable place outside.

The checks are `validate_fs_path` and `validate_fs_write_path` of
`crates/anyclaw-agents/src/fs_sandbox.rs`, and `handle_fs_read` and `handle_fs_write` there
act on what they let through.
-/

namespace Anyclaw

inductive WorkspaceConfig where
  | «local» (workingDir : Option PosixPath)
  | docker (workingDir : Option PosixPath)
deriving DecidableEq

/-- Reasons that the operating system has beyond the tree (permissions, a full disk, a file
    that is no text), for each of the calls made. -/
structure OsFaults where
  path : Option String
  root : Option String
  opening : Option String
  transfer : Option String
  /-- What a write that fails on the way leaves in the file. -/
  remains : String

def OsFaults.none : OsFaults := ⟨.none, .none, .none, .none, ""⟩

/-- A request for a file as the manager performs it: its answer, the place of the file that
    was opened, if any, and the tree afterwards. -/
structure FsCall where
  outcome : FsOutcome
  opened : Option (List String)
  tree : FileTree String

inductive FsMethod where
  | readTextFile
  | writeTextFile
deriving DecidableEq

/-! ### The working directory -/

def currentDir (t : FileTree String) : PosixPath := ⟨.root, t.cwd⟩

def resolveAgentCwd (t : FileTree String) : WorkspaceConfig → PosixPath
  | .local workingDir => workingDir.getD (currentDir t)
  | .docker workingDir => workingDir.getD (currentDir t)

/-! ### The checks -/

/-- The result of a call to the operating system, with `label` before its errors. -/
def osResult {β : Type} (label : String) (fault : Option String) (result : Except PathError β) :
    Except String β :=
  match fault with
  | some e => .error (label ++ e)
  | none => result.mapError fun e => label ++ e.text

/-- The path that is checked: the requested one, seen from the sandbox. -/
def requestedPath (sandboxRoot : PosixPath) (requested : String) : PosixPath :=
  if (PosixPath.parse requested).isAbsolute then .parse requested
  else sandboxRoot.join (.parse requested)

section Checks

variable (t : FileTree String) (faults : OsFaults) (sandboxRoot : PosixPath) (requested : String)

def canonicalRoot : Except String (List String) :=
  osResult "sandbox root resolution failed: " faults.root (t.canonicalize sandboxRoot)

def validateFsPath : Except String (List String) := do
  let canonical ← osResult "path resolution failed: " faults.path
    (t.canonicalize (requestedPath sandboxRoot requested))
  let root ← canonicalRoot t faults sandboxRoot
  if root <+: canonical then .ok canonical else .error "path outside allowed directory"

def validateFsWritePath : Except String (List String) := do
  let resolved := requestedPath sandboxRoot requested
  let parent ← resolved.parent.elim (.error "invalid path: no parent directory") .ok
  let filename ← resolved.fileName.elim (.error "invalid path: no filename") .ok
  let canonicalParent ← osResult "parent directory resolution failed: " faults.path
    (t.canonicalize parent)
  let root ← canonicalRoot t faults sandboxRoot
  if root <+: canonicalParent then .ok (canonicalParent ++ [filename])
  else .error "path outside allowed directory"

end Checks

/-! ### The requests -/

def isADirectory : String := "Is a directory (os error 21)"

/-- A string of the parameters, empty when it is missing or no string. -/
def stringParam (params : Option JsonValue) (key : String) : String :=
  ((params.bind fun p => p.doc.get? key).bind Json.asStr).getD ""

def FsCall.failed (t : FileTree String) (message : String) : FsCall := ⟨.failed message, none, t⟩

def readToString (t : FileTree String) (faults : OsFaults) (path : List String) : FsCall :=
  match osResult "" faults.opening (t.locate false path) with
  | .error e => .failed t e
  | .ok place =>
      match t.node place with
      | some (.file content) =>
          ⟨faults.transfer.elim (.read content) .failed, some place, t⟩
      | _ => .failed t isADirectory

/-- Open a file for writing, which creates or empties it. -/
def writeFile (t : FileTree String) (faults : OsFaults) (path : List String) (content : String) :
    FsCall :=
  match osResult "" faults.opening (t.locate true path) with
  | .error e => .failed t e
  | .ok place =>
      if h : t.Writable place then
        match faults.transfer with
        | none => ⟨.written, some place, t.write place content h⟩
        | some e => ⟨.failed e, some place, t.write place faults.remains h⟩
      else .failed t isADirectory

def handleFsRead (t : FileTree String) (faults : OsFaults) (workspace : WorkspaceConfig)
    (params : Option JsonValue) : FsCall :=
  match validateFsPath t faults (resolveAgentCwd t workspace) (stringParam params "path") with
  | .error message => .failed t message
  | .ok resolved => readToString t faults resolved

def handleFsWrite (t : FileTree String) (faults : OsFaults) (workspace : WorkspaceConfig)
    (params : Option JsonValue) : FsCall :=
  match validateFsWritePath t faults (resolveAgentCwd t workspace) (stringParam params "path") with
  | .error message => .failed t message
  | .ok resolved => writeFile t faults resolved (stringParam params "content")

def handleFs : FsMethod → FileTree String → OsFaults → WorkspaceConfig → Option JsonValue → FsCall
  | .readTextFile => handleFsRead
  | .writeTextFile => handleFsWrite

def fsMessage (method : FsMethod) (t : FileTree String) (faults : OsFaults)
    (workspace : WorkspaceConfig) (rpcId : Option RequestId) (params : Option JsonValue) :
    IncomingMessage :=
  .fsRequest rpcId (handleFs method t faults workspace params).outcome

/-! ### What a check and an open file amount to -/

variable {t : FileTree String} {faults : OsFaults} {sandboxRoot : PosixPath} {requested : String}

theorem osResult_ok {β : Type} {label : String} {fault : Option String}
    {result : Except PathError β} {x : β} :
    osResult label fault result = .ok x ↔ fault = none ∧ result = .ok x := by
  cases fault <;> cases result <;> simp [osResult, Except.mapError]

theorem elim_ok {ε β : Type} {x : Option β} {e : ε} {b : β} :
    (x.elim (.error e) .ok : Except ε β) = .ok b ↔ x = some b := by
  cases x <;> simp

theorem inside_ok {root place path path' : List String} {e : String} :
    (if root <+: place then .ok path else .error e : Except String (List String)) = .ok path' ↔
      root <+: place ∧ path = path' := by
  split <;> simp [*]

theorem validateFsPath_ok {path : List String} :
    validateFsPath t faults sandboxRoot requested = .ok path ↔
      faults.path = none ∧ t.canonicalize (requestedPath sandboxRoot requested) = .ok path ∧
        faults.root = none ∧ ∃ root, t.canonicalize sandboxRoot = .ok root ∧ root <+: path := by
  simp only [validateFsPath, canonicalRoot, Fallible.bind_eq_ok, osResult_ok, inside_ok]
  constructor
  · rintro ⟨canonical, ⟨hpath, hcanonical⟩, root, ⟨hroot, hcanonicalRoot⟩, hinside, rfl⟩
    exact ⟨hpath, hcanonical, hroot, root, hcanonicalRoot, hinside⟩
  · rintro ⟨hpath, hcanonical, hroot, root, hcanonicalRoot, hinside⟩
    exact ⟨path, ⟨hpath, hcanonical⟩, root, ⟨hroot, hcanonicalRoot⟩, hinside, rfl⟩

variable (t sandboxRoot requested) in
/-- The request names an entry of a directory inside the sandbox: the canonical root, the
    canonical parent directory and the name of the entry. -/
def NamesEntry (root d : List String) (name : String) : Prop :=
  ∃ parent, (requestedPath sandboxRoot requested).parent = some parent ∧
    (requestedPath sandboxRoot requested).fileName = some name ∧
    t.canonicalize parent = .ok d ∧ t.canonicalize sandboxRoot = .ok root ∧ root <+: d

theorem validateFsWritePath_ok {path : List String} :
    validateFsWritePath t faults sandboxRoot requested = .ok path ↔
      faults.path = none ∧ faults.root = none ∧
        ∃ root d name, NamesEntry t sandboxRoot requested root d name ∧ d ++ [name] = path := by
  simp only [validateFsWritePath, canonicalRoot, Fallible.bind_eq_ok, elim_ok, osResult_ok, inside_ok]
  constructor
  · rintro ⟨parent, hparent, name, hname, d, ⟨hpath, hd⟩, root, ⟨hroot, hcanonicalRoot⟩,
      hinside, rfl⟩
    exact ⟨hpath, hroot, root, d, name, ⟨parent, hparent, hname, hd, hcanonicalRoot, hinside⟩, rfl⟩
  · rintro ⟨hpath, hroot, root, d, name, ⟨parent, hparent, hname, hd, hcanonicalRoot, hinside⟩, rfl⟩
    exact ⟨parent, hparent, name, hname, d, ⟨hpath, hd⟩, root, ⟨hroot, hcanonicalRoot⟩, hinside, rfl⟩

theorem readToString_opened {path place : List String}
    (h : (readToString t faults path).opened = some place) : t.locate false path = .ok place := by
  unfold readToString at h
  split at h
  · cases h
  · rename_i p hplace
    rw [osResult_ok] at hplace
    split at h
    · cases h
      exact hplace.2
    · cases h

theorem writeFile_opened {path place : List String} {content : String} :
    (writeFile t faults path content).opened = some place ↔
      faults.opening = none ∧ t.locate true path = .ok place ∧ t.Writable place := by
  unfold writeFile
  split
  · rename_i e herror
    constructor
    · intro h
      cases h
    · rintro ⟨hopening, hlocate, -⟩
      rw [osResult_ok.mpr ⟨hopening, hlocate⟩] at herror
      cases herror
  · rename_i p hplace
    rw [osResult_ok] at hplace
    obtain ⟨hopening, hlocate⟩ := hplace
    split
    · rename_i hwritable
      have hopened : ∀ {o : FsOutcome} {t' : FileTree String},
          (⟨o, some p, t'⟩ : FsCall).opened = some place ↔
            faults.opening = none ∧ t.locate true path = .ok place ∧ t.Writable place := by
        intro o t'
        constructor
        · intro h
          cases h
          exact ⟨hopening, hlocate, hwritable⟩
        · rintro ⟨-, hlocate', -⟩
          rw [hlocate] at hlocate'
          cases hlocate'
          rfl
      split
      · exact hopened
      · exact hopened
    · rename_i hfixed
      constructor
      · intro h
        cases h
      · rintro ⟨-, hlocate', hwritable⟩
        rw [hlocate] at hlocate'
        cases hlocate'
        exact absurd hwritable hfixed

/-! ### Containment -/

variable (t) in
/-- The file that was opened says everything about the call: nothing else changes, what is
    answered is read from it, and without it an error is answered. -/
structure FsCall.Reports (c : FsCall) : Prop where
  only : ∀ p, c.opened ≠ some p → c.tree.node p = t.node p
  source : ∀ content, c.outcome = .read content →
    ∃ place, c.opened = some place ∧ t.node place = some (.file content)
  refused : c.opened = none → ∃ message, c.outcome = .failed message

variable (t sandboxRoot) in
/-- The file that is opened, all links resolved, lies inside the canonical sandbox root;
    otherwise an error is answered and nothing is written. -/
structure FsCall.Contained (c : FsCall) : Prop extends c.Reports t where
  inside : ∀ place, c.opened = some place →
    ∃ root, t.canonicalize sandboxRoot = .ok root ∧ root <+: place

theorem reports_failed (message : String) : (FsCall.failed t message).Reports t where
  only _ _ := rfl
  source _ h := nomatch h
  refused _ := ⟨message, rfl⟩

theorem reports_readToString (path : List String) :
    (readToString t faults path).Reports t := by
  unfold readToString
  split
  · exact reports_failed _
  · rename_i place _
    split
    · rename_i content hfile
      refine ⟨fun _ _ => rfl, ?_, fun h => nomatch h⟩
      intro content' hread
      cases htransfer : faults.transfer with
      | some e =>
          rw [htransfer] at hread
          cases hread
      | none =>
          rw [htransfer] at hread
          cases hread
          exact ⟨place, rfl, hfile⟩
    · exact reports_failed _

theorem reports_writeFile (path : List String) (content : String) :
    (writeFile t faults path content).Reports t := by
  unfold writeFile
  split
  · exact reports_failed _
  · rename_i place _
    split
    · rename_i hwritable
      have honly : ∀ (content : String) (p : List String), some place ≠ some p →
          (t.write place content hwritable).node p = t.node p := by
        intro content p hne
        have hne' : p ≠ place := fun heq => hne (heq ▸ rfl)
        exact Function.update_of_ne hne' _ _
      split
      · exact ⟨honly content, fun _ h => (nomatch h), fun h => (nomatch h)⟩
      · exact ⟨honly faults.remains, fun _ h => (nomatch h), fun h => (nomatch h)⟩
    · exact reports_failed _

theorem reports_handleFs (method : FsMethod) (workspace : WorkspaceConfig)
    (params : Option JsonValue) : (handleFs method t faults workspace params).Reports t := by
  cases method with
  | readTextFile =>
      show (handleFsRead t faults workspace params).Reports t
      unfold handleFsRead
      split
      · exact reports_failed _
      · exact reports_readToString _
  | writeTextFile =>
      show (handleFsWrite t faults workspace params).Reports t
      unfold handleFsWrite
      split
      · exact reports_failed _
      · exact reports_writeFile _ _

theorem handleFsRead_opened {workspace : WorkspaceConfig} {params : Option JsonValue}
    {place : List String} (h : (handleFsRead t faults workspace params).opened = some place) :
    ∃ root, t.canonicalize (resolveAgentCwd t workspace) = .ok root ∧ root <+: place := by
  unfold handleFsRead at h
  split at h
  · cases h
  · rename_i path hvalid
    obtain ⟨-, hpath, -, hinside⟩ := validateFsPath_ok.mp hvalid
    have hplace := readToString_opened h
    rw [FileTree.locate_real (FileTree.real_of_canonicalize hpath)] at hplace
    cases hplace
    exact hinside

theorem handleFsWrite_opened {workspace : WorkspaceConfig} {params : Option JsonValue}
    {place : List String} :
    (handleFsWrite t faults workspace params).opened = some place ↔
      (faults.path = none ∧ faults.root = none ∧ faults.opening = none) ∧
        ∃ root d name, NamesEntry t (resolveAgentCwd t workspace) (stringParam params "path")
          root d name ∧ t.locate true (d ++ [name]) = .ok place ∧ t.Writable place := by
  unfold handleFsWrite
  split
  · rename_i message herror
    constructor
    · intro h
      cases h
    · rintro ⟨⟨hpath, hroot, -⟩, root, d, name, hentry, -⟩
      rw [validateFsWritePath_ok.mpr ⟨hpath, hroot, root, d, name, hentry, rfl⟩] at herror
      cases herror
  · rename_i path hvalid
    rw [writeFile_opened]
    constructor
    · rintro ⟨hopening, hlocate, hwritable⟩
      obtain ⟨hpath, hroot, root, d, name, hentry, rfl⟩ := validateFsWritePath_ok.mp hvalid
      exact ⟨⟨hpath, hroot, hopening⟩, root, d, name, hentry, hlocate, hwritable⟩
    · rintro ⟨⟨hpath, hroot, hopening⟩, root, d, name, hentry, hlocate, hwritable⟩
      have hvalid' := validateFsWritePath_ok.mpr ⟨hpath, hroot, root, d, name, hentry, rfl⟩
      rw [hvalid] at hvalid'
      cases hvalid'
      exact ⟨hopening, hlocate, hwritable⟩

variable (t sandboxRoot requested) in
/-- The entry that the request names inside the sandbox is a link, and its target leads to a
    file outside that can be created or overwritten. -/
def EndsInLinkOutside : Prop :=
  ∃ root d name target place, NamesEntry t sandboxRoot requested root d name ∧
    t.node (d ++ [name]) = some (.link target) ∧ target ≠ .empty ∧
    t.walk true (FileTree.maxLinks - 1) (FileTree.begin d target) target.segments = .ok place ∧
    t.Writable place ∧ ¬ root <+: place

/-- **A request stays inside the sandbox exactly when it is no write whose path ends in a
    symbolic link to a writable place outside.** -/
theorem contained_iff_noLinkOutside (method : FsMethod) (t : FileTree String) (faults : OsFaults)
    (workspace : WorkspaceConfig) (params : Option JsonValue) :
    (handleFs method t faults workspace params).Contained t (resolveAgentCwd t workspace) ↔
      ¬ (method = .writeTextFile ∧
        (faults.path = none ∧ faults.root = none ∧ faults.opening = none) ∧
        EndsInLinkOutside t (resolveAgentCwd t workspace) (stringParam params "path")) := by
  constructor
  · rintro hcontained ⟨rfl, hfaults, root, d, name, target, place, hentry, hlink, htarget, hwalk,
      hwritable, houtside⟩
    have hlocate : t.locate true (d ++ [name]) = .ok place := by
      rw [FileTree.locate_link hlink htarget]
      exact hwalk
    have hopened : (handleFsWrite t faults workspace params).opened = some place :=
      handleFsWrite_opened.mpr ⟨hfaults, root, d, name, hentry, hlocate, hwritable⟩
    obtain ⟨root', hroot', hinside⟩ := hcontained.inside place hopened
    obtain ⟨parent, -, -, -, hroot, -⟩ := hentry
    rw [hroot] at hroot'
    cases hroot'
    exact houtside hinside
  · intro hno
    refine ⟨reports_handleFs method workspace params, ?_⟩
    intro place hopened
    cases method with
    | readTextFile => exact handleFsRead_opened hopened
    | writeTextFile =>
        obtain ⟨hfaults, root, d, name, hentry, hlocate, hwritable⟩ :=
          handleFsWrite_opened.mp hopened
        have hentry' := hentry
        obtain ⟨parent, -, hname, hd, hroot, hinside⟩ := hentry'
        refine ⟨root, hroot, ?_⟩
        have hreal : t.Real d := FileTree.real_of_canonicalize hd
        have hproper : ProperName name := PosixPath.properName_of_fileName hname
        rcases FileTree.locate_entry hreal hproper hlocate with rfl | ⟨target, hlink, htarget⟩
        · exact hinside.trans (List.prefix_append d [name])
        · rw [FileTree.locate_link hlink htarget] at hlocate
          by_contra houtside
          exact hno ⟨rfl, hfaults, root, d, name, target, place, hentry, hlink, htarget, hlocate,
            hwritable, houtside⟩

/-- A sandbox `/w` with a link `out` to the file `/secret`, which does not exist. -/
def linkedTree : FileTree String :=
  .ofEntries [([], .dir), (["w"], .dir), (["w", "out"], .link ⟨.root, ["secret"]⟩)] ["w"]
    (by decide)

def writeParams (path content : String) : Option JsonValue :=
  some (.ofDoc (.object [("path", .string path), ("content", .string content)]))

theorem write_through_link :
    ¬ ∀ (method : FsMethod) (t : FileTree String) (faults : OsFaults)
        (workspace : WorkspaceConfig) (params : Option JsonValue),
      (handleFs method t faults workspace params).Contained t (resolveAgentCwd t workspace) := by
  intro hall
  have hwrite := hall .writeTextFile linkedTree .none (.local none) (writeParams "out" "x")
  have hopened : (handleFs .writeTextFile linkedTree .none (.local none)
      (writeParams "out" "x")).opened = some ["secret"] := by decide
  have hroot : linkedTree.canonicalize (resolveAgentCwd linkedTree (.local none)) = .ok ["w"] := by
    decide
  obtain ⟨root, hroot', hinside⟩ := hwrite.inside ["secret"] hopened
  rw [hroot] at hroot'
  cases hroot'
  exact absurd hinside (by decide)

/-! ### The answer -/

/-- A request that opens no file changes nothing, and the agent is told so. -/
theorem refused_answered {n : Nat} (m : AgentsManager n) (s : Fin n) (method : FsMethod)
    {workspace : WorkspaceConfig} {params : Option JsonValue} (rpcId : Option RequestId)
    (h : (handleFs method t faults workspace params).opened = none) :
    (handleFs method t faults workspace params).tree.node = t.node ∧
      ∃ message, m.handleIncoming s (fsMessage method t faults workspace rpcId params) =
        m.respond s rpcId (.error (-32000) message) := by
  have hreports : (handleFs method t faults workspace params).Reports t :=
    reports_handleFs method workspace params
  constructor
  · funext p
    exact hreports.only p (by rw [h]; simp)
  · obtain ⟨message, hfailed⟩ := hreports.refused h
    refine ⟨message, ?_⟩
    rw [fsMessage, hfailed]
    rfl

end Anyclaw
