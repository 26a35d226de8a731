import Anyclaw.Permissions.Tokens

/-!
# Answers reach the request that they answer

The agents manager looks a permission up by its id only, in all slots, and it keeps the
pending permissions of a slot when the process is replaced.  While ids are kept apart, an
answer is for the request that was shown last under its id, and the pending permission that
it takes is that of this request.

The lookup is the arm for `RespondPermission` of `handle_command`
(`crates/anyclaw-agents/src/commands.rs`); `handle_crash` (`session_recovery.rs`) leaves
`pending_permissions` alone.
-/

namespace Anyclaw

variable {n c : Nat}

def latestIn (qs : List (TakenPermission n)) (id : String) : Option Nat :=
  qs.zipIdx.foldl (fun found q => if q.1.shownAs id then some q.2 else found) none

theorem latestIn_concat (qs : List (TakenPermission n)) (q : TakenPermission n) (id : String) :
    latestIn (qs ++ [q]) id = if q.shownAs id then some qs.length else latestIn qs id := by
  unfold latestIn
  rw [List.zipIdx_append, List.foldl_append]
  simp

theorem latestIn_of_shown (qs : List (TakenPermission n)) {q : TakenPermission n}
    {k : SessionKey} (hroute : q.route = some k) (id : String) :
    latestIn (qs ++ [q]) id =
      if AgentsManager.permissionId q.request = id then some qs.length else latestIn qs id := by
  have hshown : q.shownAs id = decide (AgentsManager.permissionId q.request = id) := by
    rw [TakenPermission.shownAs, hroute]
    rfl
  rw [latestIn_concat, hshown]
  by_cases hid : AgentsManager.permissionId q.request = id <;> simp [hid]

theorem latestIn_of_unshown {qs : List (TakenPermission n)} {q : TakenPermission n}
    (hroute : q.route = none) (id : String) : latestIn (qs ++ [q]) id = latestIn qs id := by
  rw [latestIn_concat, if_neg]
  rw [TakenPermission.shownAs, hroute]
  exact Bool.false_ne_true

/-- The last request that was shown under an id was shown under it. -/
theorem shownAs_of_latestIn {id : String} (qs : List (TakenPermission n)) :
    ∀ {e : Nat}, latestIn qs id = some e → ∃ q, qs[e]? = some q ∧ q.shownAs id = true := by
  induction qs using List.reverseRecOn with
  | nil =>
      intro e h
      cases h
  | append_singleton qs q ih =>
      intro e h
      rw [latestIn_concat] at h
      split at h
      · rename_i hshown
        cases h
        exact ⟨q, List.getElem?_concat_length, hshown⟩
      · obtain ⟨q', hq', hshown⟩ := ih h
        refine ⟨q', ?_, hshown⟩
        rw [List.getElem?_append_left (List.getElem?_eq_some_iff.mp hq').1]
        exact hq'

def Output.isSelection : Output n → Bool
  | .respond _ _ _ (.permissionSelected _) => true
  | _ => false

def Selection.output (sel : Selection n) : Output n :=
  .respond sel.slotIdx sel.connection sel.rpcId (.permissionSelected sel.optionId)

namespace AgentsManager

variable {m : AgentsManager n} {q : Output n → Bool}

/-- What is looked for among the outputs that concern permissions. -/
theorem filter_permissions (m : AgentsManager n) (hq : ∀ o, q o = true → o.isPermission = true) :
    m.permissions.filter q = m.trace.filter q := by
  unfold permissions
  rw [List.filter_filter]
  refine List.filter_congr fun o _ => ?_
  cases ho : q o with
  | true => rw [hq o ho, Bool.and_self]
  | false => rw [Bool.false_and]

end AgentsManager

theorem Output.isPermission_of_isSelection (o : Output n) (h : o.isSelection = true) :
    o.isPermission = true := by
  cases o with
  | respond s no rpcId r =>
      cases r with
      | permissionSelected optionId => rfl
      | _ => cases h
  | _ => cases h

namespace PermissionSystem

variable {cfg : AgentsManagerConfig n} {chCfg : ChannelsManagerConfig c}
  {x x' : PermissionSystem n c} {l : SystemLabel n c} {s : Fin n} {id : String}
  {p : PendingPermission} {G : PermissionSystem n c → SystemLabel n c → Prop}

def latest (x : PermissionSystem n c) (id : String) : Option Nat := latestIn x.requests id

/-- No token has the id, and no slot but `s` has a permission pending under it. -/
def Unused (x : PermissionSystem n c) (s : Fin n) (id : String) : Prop :=
  (∀ t ∈ x.tokens, t.1 ≠ id) ∧
    ∀ s', s' ≠ s → (x.agents.slots s').pendingPermissions.get? id = none

instance (s : Fin n) (id : String) : Decidable (x.Unused s id) :=
  inferInstanceAs (Decidable (_ ∧ ∀ s', s' ≠ s → _))

/-- A request is shown under an id that is not in use; a process is replaced only when the
    slot has no permission pending; an answer that a channel sends on its own is for the last
    request with its id. -/
def Separates (x : PermissionSystem n c) : SystemLabel n c → Prop
  | .agents l =>
      (∀ q ∈ x.agents.takes l, (x.agents.permissionRoute q.1 q.2).isSome = true →
        x.Unused q.1 (AgentsManager.permissionId q.2)) ∧
      ∀ q ∈ x.agents.crash l, (x.agents.slots q.1).ComesBack q.2 →
        (x.agents.slots q.1).pendingPermissions.keys = []
  | .channels l about =>
      (∀ a ∈ x.channels.volunteered l, x.latest a.1 = about) ∧
        ∀ a ∈ l.brings, x.latest a.2 = some a.1
  | _ => True

instance : Decidable (Separates x l) := by
  unfold Separates
  split <;> infer_instance

/-- The pending permission is that of the last request with its id, and this request was
    written by the process that slot `s` is connected to. -/
structure Held (x : PermissionSystem n c) (s : Fin n) (id : String) (p : PendingPermission)
    (e : Nat) (q : TakenPermission n) : Prop where
  latest : x.latest id = some e
  request : x.requests[e]? = some q
  slot : q.slotIdx = s
  rpcId : q.request.rpcId = p.rpcId
  process : ∀ conn ∈ (x.agents.slots s).connection, q.process = some conn.no

def Selection.Right (x : PermissionSystem n c) (sel : Selection n) : Prop :=
  ∃ e ∈ sel.answer.request, ∃ q ∈ x.requests[e]?, q.slotIdx = sel.slotIdx ∧
    q.process = some sel.connection ∧ q.request.rpcId = sel.rpcId

instance (sel : Selection n) : Decidable (Selection.Right x sel) :=
  inferInstanceAs (Decidable (∃ e ∈ sel.answer.request, _))

def Told (x : PermissionSystem n c) : Prop :=
  x.agents.trace.filter Output.isSelection = x.selections.map Selection.output

/-- What holds while ids are kept apart. -/
structure Separated (x : PermissionSystem n c) : Prop where
  tokens : ∀ t ∈ x.tokens, x.latest t.1 = t.2
  pending : ∀ s id p, (x.agents.slots s).pendingPermissions.get? id = some p →
    ∃ e q, Held x s id p e q

/-! ### Steps -/

/-- The requests of a turn are appended. -/
theorem Turn.requests (h : Turn x l x') : x.requests <+: x'.requests := by
  cases h with
  | shown _ _ _ _ hrequests _ => exact ⟨_, hrequests.symm⟩
  | approved _ _ _ _ hrequests _ => exact ⟨_, hrequests.symm⟩
  | selected _ _ _ _ hrequests _ => rw [hrequests]
  | ignored _ _ _ _ hrequests _ => rw [hrequests]
  | aside _ _ _ _ hrequests _ => rw [hrequests]

theorem getElem?_of_prefix {α : Type} {xs ys : List α} (h : xs <+: ys) {i : Nat} {a : α}
    (ha : xs[i]? = some a) : ys[i]? = some a := by
  obtain ⟨zs, rfl⟩ := h
  rw [List.getElem?_append_left (List.getElem?_eq_some_iff.mp ha).1]
  exact ha

theorem Selection.Right.mono {sel : Selection n} (hmore : x.requests <+: x'.requests)
    (h : Selection.Right x sel) : Selection.Right x' sel := by
  obtain ⟨e, hfor, q, hq, hrest⟩ := h
  exact ⟨e, hfor, q, getElem?_of_prefix hmore hq, hrest⟩

theorem Held.mono {e : Nat} {q : TakenPermission n} (h : Held x s id p e q)
    (hrequests : x.requests <+: x'.requests) (hlatest : x'.latest id = x.latest id)
    (hconn : (x'.agents.slots s).connection = (x.agents.slots s).connection ∨
      (x'.agents.slots s).connection = none) : Held x' s id p e q where
  latest := hlatest.trans h.latest
  request := getElem?_of_prefix hrequests h.request
  slot := h.slot
  rpcId := h.rpcId
  process conn hmem := by
    rcases hconn with hsame | hnone
    · rw [hsame] at hmem
      exact h.process conn hmem
    · rw [hnone] at hmem
      cases hmem

/-- A slot whose process is replaced has nothing pending. -/
theorem connection_of_pending (hreach : (AgentsManager.life cfg).Reachable x.agents)
    (hG : Separates x l) (hstep : step cfg chCfg x l = some x')
    (hget : (x.agents.slots s).pendingPermissions.get? id = some p) :
    (x'.agents.slots s).connection = (x.agents.slots s).connection ∨
      (x'.agents.slots s).connection = none := by
  rcases step_connection hreach hstep s with hsame | hnone | ⟨a, hcrash, hback, _⟩
  · exact Or.inl hsame
  · exact Or.inr hnone
  · cases l with
    | agents l =>
        have hkeys := hG.2 (s, a) hcrash hback
        have hmem : id ∈ (x.agents.slots s).pendingPermissions.keys :=
          AList.lookup_isSome.mp (Option.isSome_iff_exists.mpr ⟨p, hget⟩)
        rw [hkeys] at hmem
        cases hmem
    | _ => cases hcrash

theorem Separated.shown {r : PermissionRequest} {k : SessionKey} {l' : Label n}
    (h : Separated x) (hhosted : ∀ s, AgentsManager.Hosted x.agents s)
    (hunused : x.Unused s (AgentsManager.permissionId r)) (hflow : Flow x (.agents l') x')
    (hconn : ∀ {s id p}, (x.agents.slots s).pendingPermissions.get? id = some p →
      (x'.agents.slots s).connection = (x.agents.slots s).connection ∨
        (x'.agents.slots s).connection = none)
    (hown : (x'.agents.slots s).connection = (x.agents.slots s).connection ∨
      (x'.agents.slots s).connection = none)
    (htakes : x.takes (.agents l') = some (s, r))
    (hpending : AgentsManager.PendingBut x.agents x'.agents s
      ((x.agents.slots s).pendingPermissions.set (AgentsManager.permissionId r)
        (AgentsManager.pendingPermission r)))
    (hrequests : x'.requests = x.requests ++ [⟨⟨s, x.agents.latestProcess s, r⟩, some k⟩]) :
    Separated x' := by
  have hlatest : ∀ id, x'.latest id =
      if AgentsManager.permissionId r = id then some x.requests.length else x.latest id := by
    intro id
    unfold latest
    rw [hrequests, latestIn_of_shown _ rfl]
  have hmore : x.requests <+: x'.requests := ⟨_, hrequests.symm⟩
  have hkept : ∀ s' id p, id ≠ AgentsManager.permissionId r →
      (x.agents.slots s').pendingPermissions.get? id = some p → ∃ e q, Held x' s' id p e q := by
    intro s' id p hid hget
    obtain ⟨e, q, hheld⟩ := h.pending s' id p hget
    refine ⟨e, q, hheld.mono hmore ?_ (hconn hget)⟩
    rw [hlatest, if_neg (Ne.symm hid)]
  constructor
  · intro t ht
    rw [hlatest]
    rcases hflow.minted t ht with hold | ⟨s', r', htakes', _, rfl⟩
    · rw [if_neg (Ne.symm (hunused.1 t hold))]
      exact h.tokens t hold
    · rw [htakes] at htakes'
      cases htakes'
      exact if_pos rfl
  · intro s' id p hget
    rw [hpending s'] at hget
    by_cases hs : s' = s
    · subst hs
      rw [if_pos rfl, KeyedMap.get?_set] at hget
      by_cases hid : id = AgentsManager.permissionId r
      · -- the permission that has just become pending
        rw [if_pos hid] at hget
        cases hget
        refine ⟨x.requests.length, ⟨⟨s', x.agents.latestProcess s', r⟩, some k⟩, ?_, ?_, rfl, rfl, ?_⟩
        · rw [hlatest, if_pos hid.symm]
        · rw [hrequests]
          exact List.getElem?_concat_length
        · intro conn hmem
          rcases hown with hsame | hnone
          · rw [hsame] at hmem
            exact (hhosted s').connection conn hmem
          · rw [hnone] at hmem
            cases hmem
      · rw [if_neg hid] at hget
        exact hkept s' id p hid hget
    · rw [if_neg hs] at hget
      refine hkept s' id p ?_ hget
      rintro rfl
      rw [hunused.2 s' hs] at hget
      cases hget

/-- A step that shows no request. -/
theorem Separated.kept (h : Separated x) (hflow : Flow x l x')
    (hrequests : x.requests <+: x'.requests) (hlatest : ∀ id, x'.latest id = x.latest id)
    (hconn : ∀ {s id p}, (x.agents.slots s).pendingPermissions.get? id = some p →
      (x'.agents.slots s).connection = (x.agents.slots s).connection ∨
        (x'.agents.slots s).connection = none)
    (hminted : ∀ t, x.Mints t l → x.latest t.1 = t.2)
    (hpending : ∀ s id p, (x'.agents.slots s).pendingPermissions.get? id = some p →
      (x.agents.slots s).pendingPermissions.get? id = some p) : Separated x' := by
  constructor
  · intro t ht
    rw [hlatest]
    rcases hflow.minted t ht with hold | hnew
    · exact h.tokens t hold
    · exact hminted t hnew
  · intro s id p hget
    have hold := hpending s id p hget
    obtain ⟨e, q, hheld⟩ := h.pending s id p hold
    exact ⟨e, q, hheld.mono hrequests (hlatest id) (hconn hold)⟩

theorem Separated.step (h : Separated x) (hreach : (life cfg chCfg).ReachableUnder Separates x)
    (hG : Separates x l) (hstep : step cfg chCfg x l = some x') : Separated x' := by
  have hagents := agents_reachable hreach
  have hflow := step_flow hreach hstep
  have hconn : ∀ {s id p}, (x.agents.slots s).pendingPermissions.get? id = some p →
      (x'.agents.slots s).connection = (x.agents.slots s).connection ∨
        (x'.agents.slots s).connection = none := by
    intro s id p hget
    exact connection_of_pending hagents hG hstep hget
  have hturn := step_turn hreach hstep
  have hrequests := hturn.requests
  have hunminted : x.takes l = none → ∀ t, x.Mints t l → x.latest t.1 = t.2 := by
    intro hnone t hmints
    cases l with
    | agents l =>
        obtain ⟨s, r, htakes, _⟩ := hmints
        rw [hnone] at htakes
        cases htakes
    | channels l about =>
        rcases hmints with ⟨a, ha, rfl⟩ | ⟨a, ha, rfl⟩
        · exact hG.1 a ha
        · exact hG.2 a ha
    | _ => exact hmints.elim
  cases hturn with
  | @shown _ s r k _ htakes hroute hpending _ hrequests _ =>
      cases l with
      | agents l' =>
          have hunused := hG.1 (s, r) htakes (by rw [hroute]; rfl)
          refine h.shown (AgentsManager.hosted_of_reachable hagents) hunused hflow hconn ?_ htakes
            hpending hrequests
          rcases step_connection hagents hstep s with hsame | hnone | ⟨a, hcrash, _⟩
          · exact Or.inl hsame
          · exact Or.inr hnone
          · rw [takes_of_crash hcrash] at htakes
            cases htakes
      | _ => cases htakes
  | @approved _ s r _ htakes hroute hpending _ hrequests' _ =>
      refine h.kept hflow hrequests (fun id => ?_) hconn (fun t hmints => ?_) fun s id p hget => ?_
      · unfold latest
        rw [hrequests', latestIn_of_unshown rfl]
      · cases l with
        | agents l' =>
            obtain ⟨s', r', htakes', hsome, _⟩ := hmints
            rw [htakes] at htakes'
            cases htakes'
            rw [hroute] at hsome
            cases hsome
        | _ => cases htakes
      · rw [hpending s] at hget
        exact hget
  | @selected a answer rest s pending _ hanswers hget hpending _ hrequests' _ =>
      refine h.kept hflow hrequests (fun id => ?_) hconn (hunminted rfl) fun s' id p hget' => ?_
      · unfold latest
        rw [hrequests']
      · rw [hpending s'] at hget'
        split at hget'
        · rename_i hs
          rw [KeyedMap.get?_remove] at hget'
          split at hget'
          · cases hget'
          · rw [hs]
            exact hget'
        · exact hget'
  | ignored _ _ hpending _ hrequests' _ =>
      refine h.kept hflow hrequests (fun id => ?_) hconn (hunminted rfl) fun s id p hget => ?_
      · unfold latest
        rw [hrequests']
      · rw [hpending s] at hget
        exact hget
  | aside _ htakes hpending _ hrequests' _ =>
      refine h.kept hflow hrequests (fun id => ?_) hconn (hunminted htakes) fun s id p hget => ?_
      · unfold latest
        rw [hrequests']
      · rw [hpending s] at hget
        exact hget

/-! ### What was sent -/

theorem Turn.told (h : Turn x l x') (htold : Told x) : Told x' := by
  have hfollowed := fun m : AgentsManager n => AgentsManager.filter_permissions m
    Output.isPermission_of_isSelection
  have hnews : ∀ {os : List (Output n)}, x'.agents.permissions = x.agents.permissions ++ os →
      x'.agents.trace.filter Output.isSelection =
        x.selections.map Selection.output ++ os.filter Output.isSelection := by
    intro os hpermissions
    rw [← hfollowed, hpermissions, List.filter_append, hfollowed, htold]
  unfold Told
  cases h with
  | shown _ _ _ hpermissions _ hselections =>
      rw [hnews hpermissions, hselections]
      exact List.append_nil _
  | @approved _ s r _ _ _ _ hpermissions _ hselections =>
      rw [hnews hpermissions, hselections]
      unfold AgentsManager.written
      cases (x.agents.slots s).connection <;> exact List.append_nil _
  | @selected a answer rest s pending _ _ _ _ hpermissions _ hselections =>
      rw [hnews hpermissions, hselections, List.map_append]
      unfold AgentsManager.written
      cases (x.agents.slots s).connection <;> rfl
  | ignored _ _ _ hpermissions _ hselections =>
      rw [hnews (hpermissions.trans (List.append_nil _).symm), hselections]
      exact List.append_nil _
  | aside _ _ _ hpermissions _ hselections =>
      rw [hnews (hpermissions.trans (List.append_nil _).symm), hselections]
      exact List.append_nil _

theorem told_of_reachable (h : (life cfg chCfg).ReachableUnder G x) : Told x := by
  refine h.invariant (I := Told) ?_ ?_
  · rintro x ⟨m, ch, ⟨sender, store, b, hstart⟩, _, rfl⟩
    unfold Told fresh
    rw [← AgentsManager.filter_permissions m Output.isPermission_of_isSelection,
      AgentsManager.permissions_of_start hstart]
    rfl
  · intro x l x' hreach hI _ hstep
    exact (step_turn hreach hstep).told hI

/-! ### Runs -/

theorem separated_of_reachable (h : (life cfg chCfg).ReachableUnder Separates x) :
    Separated x := by
  refine h.invariant (I := Separated) ?_ ?_
  · rintro x ⟨m, ch, ⟨sender, store, b, hstart⟩, ⟨handle, rfl⟩, rfl⟩
    constructor
    · intro t ht
      cases ht
    · intro s id p hget
      have hpending := congrArg SlotStatus.pendingPermissions
        ((AgentsManager.start_boots cfg _ b hstart).2 s)
      have hnone : (m.slots s).pendingPermissions.get? id = none := by
        have hempty : (m.slots s).pendingPermissions = ∅ := hpending
        rw [hempty]
        rfl
      have hsome : (m.slots s).pendingPermissions.get? id = some p := hget
      rw [hnone] at hsome
      cases hsome
  · intro x l x' hreach hI hG hstep
    exact hI.step hreach hG hstep

theorem selections_right (h : (life cfg chCfg).ReachableUnder Separates x) :
    ∀ sel ∈ x.selections, Selection.Right x sel := by
  refine h.invariant (I := fun x => ∀ sel ∈ x.selections, Selection.Right x sel) ?_ ?_
  · rintro x ⟨m, ch, _, _, rfl⟩ sel hsel
    cases hsel
  · intro x l x' hreach hI _ hstep sel hsel
    have hturn := step_turn hreach hstep
    have hmono := hturn.requests
    have hold : sel ∈ x.selections → Selection.Right x' sel :=
      fun hmem => (hI sel hmem).mono hmono
    cases hturn with
    | @selected a answer rest s pending _ hanswers hget _ _ _ hselections =>
        rw [hselections] at hsel
        rcases List.mem_append.mp hsel with hmem | hnew
        · exact hold hmem
        · obtain ⟨conn, hconn, rfl⟩ := Option.map_eq_some_iff.mp (Option.mem_toList.mp hnew)
          have hseparated := separated_of_reachable hreach
          obtain ⟨e, q, hheld⟩ := hseparated.pending s answer.requestId pending hget
          have htoken : (answer.requestId, answer.request) ∈ x.tokens :=
            mem_tokens.mpr (Or.inr (Or.inr ⟨answer, hanswers ▸ List.mem_cons_self, rfl⟩))
          have hfor := (hseparated.tokens _ htoken).symm.trans hheld.latest
          exact ⟨e, hfor, q, getElem?_of_prefix hmono hheld.request, hheld.slot,
            hheld.process conn hconn, hheld.rpcId⟩
    | shown _ _ _ _ _ hselections => exact hold (hselections ▸ hsel)
    | approved _ _ _ _ _ hselections => exact hold (hselections ▸ hsel)
    | ignored _ _ _ _ _ hselections => exact hold (hselections ▸ hsel)
    | aside _ _ _ _ _ hselections => exact hold (hselections ▸ hsel)

/-- **While ids are kept apart, an option is sent to the process that asked for it, with the
    id of its own request.** -/
theorem right_of_separates (h : (life cfg chCfg).ReachableUnder Separates x) :
    Told x ∧ ∀ sel ∈ x.selections, Selection.Right x sel :=
  ⟨told_of_reachable h, selections_right h⟩

theorem right_of_separates_bob : ∃ x : PermissionSystem 1 1,
    (life Sample.cfg Sample.channels).ReachableUnder Separates x ∧
      x.selections.map (fun sel => (sel.connection, sel.optionId)) = [(0, "allow")] ∧
        Told x ∧ ∀ sel ∈ x.selections, Selection.Right x sel := by
  have hrun : ∃ x ∈ execute Sample.cfg Sample.channels Separates Sample.boot
      (Sample.greeting ++ Sample.ask (Sample.request (.number 1)) ++
        [.channels (.permissionAnswered 0 (some "allow")) none, .answer (Sample.answers "s")]),
      x.selections.map (fun sel => (sel.connection, sel.optionId)) = [(0, "allow")] := by
    decide
  obtain ⟨x, hx, hselections⟩ := hrun
  have hreach := reachable_of_execute hx
  exact ⟨x, hreach, hselections, right_of_separates hreach⟩

/-- The process ends before the user answers: the option is sent to the process that has
    replaced it. -/
theorem option_for_later_process : ¬ ∀ x : PermissionSystem 1 1,
    (life Sample.cfg Sample.channels).Reachable x →
      Told x ∧ ∀ sel ∈ x.selections, Selection.Right x sel := by
  intro hall
  have hrun : ∃ x ∈ execute Sample.cfg Sample.channels (fun _ _ => True) Sample.boot
      (Sample.greeting ++ Sample.ask (Sample.request (.number 1)) ++
        (Sample.crash (Sample.answers "s")).map .agents ++
        [.channels (.permissionAnswered 0 (some "allow")) none, .answer (Sample.answers "s")]),
      ∃ sel ∈ x.selections, ¬ Selection.Right x sel := by
    decide
  obtain ⟨x, hx, sel, hsel, hwrong⟩ := hrun
  exact hwrong ((hall x (reachable_of_execute hx)).2 sel hsel)

end PermissionSystem

end Anyclaw
