import Anyclaw.Library.Transition
import Anyclaw.Jsonrpc.Codec

/-!
# Requests and the responses to them

A connection to an agent or a channel process numbers the requests that are sent over it
and keeps, for each number, the sender of the one-shot channel on which the response is
awaited.  Both kinds of connection do this in the same way; `Connection` is this part of
them.

Several tasks call `send_request` at the same time.  A call has three atomic parts: it takes
a number, it enters its sender into the table, and it hands the request to the writer task.
The reader task removes the sender of a response and uses it.  These parts interleave in any
order.

The parts are those of `send_request` and `handle_pending_response` of
`crates/anyclaw-agents/src/connection.rs`, and of `send_request` and the reader task of
`crates/anyclaw-channels/src/connection.rs`.

* `Table`: what the table holds in every run in which the numbers do not wrap around.
* `correlated_of_keepsTable`: receivers are resolved once, by their own response, and the
  table holds the requests that are not answered, as long as no request that is not answered
  is refused by a writer that has gone.
-/

namespace Anyclaw

/-! ### Calls -/

inductive SendPhase where
  | numbered
  /-- The sender is in the table; the request is being handed to the writer task. -/
  | sending
  | sent
  /-- The writer has gone: the call returned an error. -/
  | failed
deriving DecidableEq

/-- A call of `send_request`.  `answered` says that a response with its id has been read
    since the sender was entered; the code does not carry it. -/
structure SendRequest where
  id : UInt64
  phase : SendPhase
  /-- The receiver of the response has not been dropped. -/
  receiverAlive : Bool
  answered : Bool
deriving DecidableEq

namespace SendRequest

/-- The id under which the request is written. -/
def rpcId (call : SendRequest) : RequestId := .number call.id.toInt64

/-- A response with the id of the call is read. -/
def hear (r : JsonRpcResponse) (call : SendRequest) : SendRequest :=
  if call.phase ≠ .numbered ∧ r.id = some call.rpcId then { call with answered := true }
  else call

/-- The request is being sent or has been sent, and is not answered. -/
def Unanswered (call : SendRequest) : Prop :=
  (call.phase = .sending ∨ call.phase = .sent) ∧ call.answered = false

def Entered (call : SendRequest) : Prop := call.phase ≠ .numbered ∧ call.answered = false

/-- The two have the same id and the same place in the table. -/
structure Alike (call call' : SendRequest) : Prop where
  id : call'.id = call.id
  answered : call'.answered = call.answered
  numbered : call'.phase = .numbered ↔ call.phase = .numbered

theorem Alike.refl (call : SendRequest) : Alike call call := ⟨rfl, rfl, Iff.rfl⟩

theorem Alike.entered_iff {call call' : SendRequest} (h : Alike call call') :
    call'.Entered ↔ call.Entered := by
  simp [Entered, h.answered, h.numbered]

end SendRequest

/-! ### Connections -/

/-- A resolution of a receiver: the number of the call and the number of the response. -/
structure Resolution where
  call : Nat
  response : Nat
deriving DecidableEq

/-- The part of a connection that has to do with requests.  `pendingRequests` leads from an
    id to the call that entered its sender; `calls`, `responses` and `resolved` are the
    history. -/
structure Connection where
  nextId : UInt64
  pendingRequests : KeyedMap UInt64 Nat
  /-- The writer task takes messages. -/
  writerAlive : Bool
  calls : List SendRequest
  responses : List JsonRpcResponse
  resolved : List Resolution

namespace Connection

variable (c : Connection)

def spawned : Connection where
  nextId := 1
  pendingRequests := ∅
  writerAlive := true
  calls := []
  responses := []
  resolved := []

/-- `next_id.fetch_add(1)`, which wraps around. -/
def fetchId : Connection :=
  { c with
    nextId := c.nextId + 1
    calls := c.calls ++ [{ id := c.nextId, phase := .numbered, receiverAlive := true,
                           answered := false }] }

def setPhase (i : Nat) (phase : SendPhase) : Connection :=
  { c with calls := c.calls.modify i fun call => { call with phase := phase } }

/-- `pending_requests.insert(id, tx)`. -/
def insertPending (i : Nat) (id : UInt64) : Connection :=
  { c with pendingRequests := c.pendingRequests.set id i }.setPhase i .sending

/-- Hand the request to the writer task; a call that fails drops its receiver. -/
def handOver (i : Nat) : Connection :=
  if c.writerAlive then c.setPhase i .sent
  else { c with calls := c.calls.modify i fun call =>
           { call with phase := .failed, receiverAlive := false } }

def dropReceiver (i : Nat) : Connection :=
  { c with calls := c.calls.modify i fun call => { call with receiverAlive := false } }

/-- The id under which a response is looked up: ids that are no number count as 0. -/
def responseId (r : JsonRpcResponse) : UInt64 :=
  match r.id with
  | some (.number n) => n.toUInt64
  | _ => 0

def handlePendingResponse (r : JsonRpcResponse) : Connection :=
  match c.pendingRequests.get? (responseId r) with
  | some i =>
      { c with
        pendingRequests := c.pendingRequests.remove (responseId r)
        resolved :=
          if (c.calls[i]?).any SendRequest.receiverAlive then
            c.resolved ++ [⟨i, c.responses.length⟩]
          else c.resolved }
  | none => c

def record (r : JsonRpcResponse) : Connection :=
  { c with
    calls := c.calls.map (SendRequest.hear r)
    responses := c.responses ++ [r] }

end Connection

/-! ### The machine -/

inductive ConnectionLabel where
  /-- A new call takes its number. -/
  | number
  /-- Call `i` enters its sender into the table. -/
  | enter (i : Nat)
  /-- Call `i` hands its request to the writer task, or fails. -/
  | send (i : Nat)
  | dropReceiver (i : Nat)
  /-- The writer task has come to an error. -/
  | writerGone
  /-- The reader task reads a response. -/
  | receive (r : JsonRpcResponse)

namespace Connection

variable (c : Connection)

def step : ConnectionLabel → Option Connection
  | .number => some c.fetchId
  | .enter i =>
      match c.calls[i]? with
      | some call => if call.phase = .numbered then some (c.insertPending i call.id) else none
      | none => none
  | .send i =>
      match c.calls[i]? with
      | some call => if call.phase = .sending then some (c.handOver i) else none
      | none => none
  | .dropReceiver i =>
      match c.calls[i]? with
      | some call => if call.phase = .sent then some (c.dropReceiver i) else none
      | none => none
  | .writerGone => some { c with writerAlive := false }
  | .receive r => some ((c.handlePendingResponse r).record r)

def life : Machine Connection ConnectionLabel where
  init c := c = spawned
  step := step

/-! ### The statement -/

structure Correlated : Prop where
  /-- No receiver is resolved twice. -/
  once : (c.resolved.map Resolution.call).Nodup
  /-- No response resolves two receivers. -/
  apart : (c.resolved.map Resolution.response).Nodup
  /-- A receiver is resolved by a response that carries its id. -/
  own : ∀ x ∈ c.resolved, ∃ call r, c.calls[x.call]? = some call ∧
    c.responses[x.response]? = some r ∧ r.id = some call.rpcId
  /-- The table holds the ids of the requests that are not answered. -/
  exact : ∀ id, c.pendingRequests.contains id ↔ ∃ call ∈ c.calls, call.id = id ∧ call.Unanswered

/-- The numbers do not wrap around. -/
def Unwrapped (c : Connection) : ConnectionLabel → Prop
  | .number => c.nextId ≠ 0
  | _ => True

instance (c : Connection) (l : ConnectionLabel) : Decidable (Unwrapped c l) := by
  unfold Unwrapped
  split <;> infer_instance

/-- Besides, a request that is refused has been answered before. -/
def KeepsTable (c : Connection) (l : ConnectionLabel) : Prop :=
  Unwrapped c l ∧
    match l with
    | .send i => c.writerAlive = true ∨ (c.calls[i]?).all SendRequest.answered = true
    | _ => True

instance (c : Connection) (l : ConnectionLabel) : Decidable (KeepsTable c l) := by
  unfold KeepsTable
  refine @instDecidableAnd _ _ inferInstance ?_
  split <;> infer_instance

/-! ### What the table holds -/

/-- What is known of a connection whose numbers have not wrapped around: the table leads
    from the id of every call that is entered and not answered to this call, and from no
    other id. -/
structure Table (c : Connection) : Prop where
  next : c.nextId = .ofNat (c.calls.length + 1)
  bounded : c.calls.length < 2 ^ 64
  ids : ∀ (i : Nat) (call : SendRequest), c.calls[i]? = some call → call.id = .ofNat (i + 1)
  early : ∀ (i : Nat) (call : SendRequest), c.calls[i]? = some call → call.phase = .numbered →
    call.answered = false
  table : ∀ (id : UInt64) (i : Nat), c.pendingRequests.get? id = some i ↔
    ∃ call, c.calls[i]? = some call ∧ call.id = id ∧ call.Entered
  own : ∀ x ∈ c.resolved, ∃ call r, c.calls[x.call]? = some call ∧ call.answered = true ∧
    c.responses[x.response]? = some r ∧ r.id = some call.rpcId
  once : (c.resolved.map Resolution.call).Nodup
  apart : (c.resolved.map Resolution.response).Nodup

variable {c} {c' : Connection}

theorem table_spawned : Table spawned where
  next := rfl
  bounded := by decide
  ids := by simp [spawned]
  early := by simp [spawned]
  table := by simp [spawned]
  own := by simp [spawned]
  once := List.nodup_nil
  apart := List.nodup_nil

theorem ofNat_succ_inj {i j : Nat} (hi : i < 2 ^ 64 - 1) (hj : j < 2 ^ 64 - 1)
    (h : UInt64.ofNat (i + 1) = UInt64.ofNat (j + 1)) : i = j := by
  have hnat := congrArg UInt64.toNat h
  simp only [UInt64.toNat_ofNat'] at hnat
  rw [Nat.mod_eq_of_lt (by omega), Nat.mod_eq_of_lt (by omega)] at hnat
  omega

/-- Two calls with one id are one call. -/
theorem Table.call_unique (h : Table c) {i j : Nat} {call call' : SendRequest}
    (hi : c.calls[i]? = some call) (hj : c.calls[j]? = some call') (hid : call.id = call'.id) :
    i = j := by
  have hbounded := h.bounded
  have hilt : i < c.calls.length := (List.getElem?_eq_some_iff.mp hi).1
  have hjlt : j < c.calls.length := (List.getElem?_eq_some_iff.mp hj).1
  rw [h.ids i call hi, h.ids j call' hj] at hid
  exact ofNat_succ_inj (by omega) (by omega) hid

/-- No call has the id 0. -/
theorem Table.id_ne_zero (h : Table c) {i : Nat} {call : SendRequest}
    (hi : c.calls[i]? = some call) : call.id ≠ 0 := by
  have hbounded := h.bounded
  have hilt : i < c.calls.length := (List.getElem?_eq_some_iff.mp hi).1
  rw [h.ids i call hi]
  intro hzero
  have hnat := congrArg UInt64.toNat hzero
  simp only [UInt64.toNat_ofNat'] at hnat
  rw [Nat.mod_eq_of_lt (by omega)] at hnat
  simp at hnat

/-! ### Steps that leave the table alone -/

/-- Calls that are replaced by ones like them. -/
theorem Table.of_alike (h : Table c) {f : Nat → SendRequest → SendRequest}
    (hcalls : ∀ i, c'.calls[i]? = (c.calls[i]?).map (f i))
    (hlength : c'.calls.length = c.calls.length)
    (halike : ∀ (i : Nat) (call : SendRequest), c.calls[i]? = some call → call.Alike (f i call))
    (hnext : c'.nextId = c.nextId) (hpending : c'.pendingRequests = c.pendingRequests)
    (hresponses : c'.responses = c.responses) (hresolved : c'.resolved = c.resolved) :
    Table c' := by
  have hcall : ∀ {i : Nat} {call' : SendRequest}, c'.calls[i]? = some call' →
      ∃ call, c.calls[i]? = some call ∧ call.Alike call' := by
    intro i call' hi
    rw [hcalls, Option.map_eq_some_iff] at hi
    obtain ⟨call, hcall, rfl⟩ := hi
    exact ⟨call, hcall, halike i call hcall⟩
  have hcall' : ∀ {i : Nat} {call : SendRequest}, c.calls[i]? = some call →
      ∃ call', c'.calls[i]? = some call' ∧ call.Alike call' := by
    intro i call hi
    exact ⟨f i call, by rw [hcalls, hi, Option.map_some], halike i call hi⟩
  constructor
  · rw [hnext, hlength, h.next]
  · rw [hlength]
    exact h.bounded
  · intro i call' hi
    obtain ⟨call, hold, hlike⟩ := hcall hi
    rw [hlike.id, h.ids i call hold]
  · intro i call' hi hphase
    obtain ⟨call, hold, hlike⟩ := hcall hi
    rw [hlike.answered]
    exact h.early i call hold (hlike.numbered.mp hphase)
  · intro id i
    rw [hpending, h.table]
    constructor
    · rintro ⟨call, hi, hid, hentered⟩
      obtain ⟨call', hnew, hlike⟩ := hcall' hi
      exact ⟨call', hnew, hlike.id.trans hid, hlike.entered_iff.mpr hentered⟩
    · rintro ⟨call', hi, hid, hentered⟩
      obtain ⟨call, hold, hlike⟩ := hcall hi
      exact ⟨call, hold, hlike.id.symm.trans hid, hlike.entered_iff.mp hentered⟩
  · intro x hx
    rw [hresolved] at hx
    obtain ⟨call, r, hi, hanswered, hr, hid⟩ := h.own x hx
    obtain ⟨call', hnew, hlike⟩ := hcall' hi
    refine ⟨call', r, hnew, hlike.answered.trans hanswered, by rw [hresponses]; exact hr, ?_⟩
    rw [hid, SendRequest.rpcId, SendRequest.rpcId, hlike.id]
  · rw [hresolved]
    exact h.once
  · rw [hresolved]
    exact h.apart

/-- One call that is replaced by one like it. -/
theorem Table.modify (h : Table c) {i : Nat} {f : SendRequest → SendRequest}
    (halike : ∀ call, c.calls[i]? = some call → call.Alike (f call)) :
    Table { c with calls := c.calls.modify i f } := by
  refine h.of_alike (f := fun j call => if i = j then f call else call) ?_ ?_ ?_ rfl rfl rfl rfl
  · intro j
    rw [List.getElem?_modify]
    by_cases hij : i = j
    · simp [hij]
    · simp [hij]
  · simp
  · intro j call hj
    by_cases hij : i = j
    · subst hij
      simpa using halike call hj
    · simpa [hij] using SendRequest.Alike.refl call

theorem Table.handOver (h : Table c) {i : Nat} {call : SendRequest}
    (hi : c.calls[i]? = some call) (hphase : call.phase = .sending) : Table (c.handOver i) := by
  unfold Connection.handOver
  split
  · refine h.modify fun call' hcall' => ?_
    cases hi.symm.trans hcall'
    exact ⟨rfl, rfl, by simp [hphase]⟩
  · refine h.modify fun call' hcall' => ?_
    cases hi.symm.trans hcall'
    exact ⟨rfl, rfl, by simp [hphase]⟩

theorem Table.dropReceiver (h : Table c) (i : Nat) : Table (c.dropReceiver i) :=
  h.modify fun _ _ => ⟨rfl, rfl, Iff.rfl⟩

/-! ### Steps that enter or take a sender -/

theorem Table.fetchId (h : Table c) (hnext : c.nextId ≠ 0) : Table c.fetchId := by
  have hbounded := h.bounded
  have hroom : c.calls.length + 1 < 2 ^ 64 := by
    by_contra hfull
    have hlast : c.calls.length + 1 = 2 ^ 64 := by omega
    exact hnext (by rw [h.next, hlast]; rfl)
  have hcall : ∀ {i : Nat} {call : SendRequest}, c.fetchId.calls[i]? = some call →
      c.calls[i]? = some call ∨ i = c.calls.length ∧
        call = { id := c.nextId, phase := .numbered, receiverAlive := true, answered := false } := by
    intro i call hi
    simp only [Connection.fetchId, List.getElem?_append] at hi
    split at hi
    · exact .inl hi
    · rename_i hge
      obtain ⟨hlt, hcall⟩ := List.getElem?_eq_some_iff.mp hi
      rw [List.length_singleton] at hlt
      exact .inr ⟨by omega, by simpa using hcall.symm⟩
  have hold : ∀ {i : Nat} {call : SendRequest}, c.calls[i]? = some call →
      c.fetchId.calls[i]? = some call := by
    intro i call hi
    simp only [Connection.fetchId]
    rw [List.getElem?_append_left (List.getElem?_eq_some_iff.mp hi).1, hi]
  constructor
  · simp only [Connection.fetchId, List.length_append, List.length_singleton]
    rw [h.next, UInt64.ofNat_add (c.calls.length + 1) 1]
    rfl
  · simpa [Connection.fetchId] using hroom
  · intro i call hi
    rcases hcall hi with hi | ⟨rfl, rfl⟩
    · exact h.ids i call hi
    · exact h.next
  · intro i call hi hphase
    rcases hcall hi with hi | ⟨rfl, rfl⟩
    · exact h.early i call hi hphase
    · rfl
  · intro id i
    refine (h.table id i).trans ?_
    constructor
    · rintro ⟨call, hi, hid, hentered⟩
      exact ⟨call, hold hi, hid, hentered⟩
    · rintro ⟨call, hi, hid, hentered⟩
      rcases hcall hi with hi | ⟨rfl, rfl⟩
      · exact ⟨call, hi, hid, hentered⟩
      · exact absurd rfl hentered.1
  · intro x hx
    obtain ⟨call, r, hi, hrest⟩ := h.own x hx
    exact ⟨call, r, hold hi, hrest⟩
  · exact h.once
  · exact h.apart

theorem Table.insertPending (h : Table c) {i : Nat} {call : SendRequest}
    (hi : c.calls[i]? = some call) (hphase : call.phase = .numbered) :
    Table (c.insertPending i call.id) := by
  have hanswered := h.early i call hi hphase
  -- The call at `i` is entered now, all others are as they were.
  have hcalls : ∀ j : Nat, (c.insertPending i call.id).calls[j]? =
      (c.calls[j]?).map fun call' => if i = j then { call' with phase := .sending } else call' := by
    intro j
    rw [Connection.insertPending, Connection.setPhase, List.getElem?_modify]
    by_cases hij : i = j
    · simp [hij]
    · simp [hij]
  have hsame : (c.insertPending i call.id).calls[i]? = some { call with phase := .sending } := by
    rw [hcalls, hi]
    simp
  have hother : ∀ {j : Nat}, i ≠ j → (c.insertPending i call.id).calls[j]? = c.calls[j]? := by
    intro j hij
    rw [hcalls]
    simp [hij]
  constructor
  · simpa [Connection.insertPending, Connection.setPhase] using h.next
  · simpa [Connection.insertPending, Connection.setPhase] using h.bounded
  · intro j call' hj
    by_cases hij : i = j
    · subst hij
      rw [hsame] at hj
      cases hj
      exact h.ids i call hi
    · exact h.ids j call' (hother hij ▸ hj)
  · intro j call' hj hnumbered
    by_cases hij : i = j
    · subst hij
      rw [hsame] at hj
      cases hj
      exact hanswered
    · exact h.early j call' (hother hij ▸ hj) hnumbered
  · intro id j
    have hget : (c.insertPending i call.id).pendingRequests.get? id =
        if id = call.id then some i else c.pendingRequests.get? id :=
      KeyedMap.get?_set c.pendingRequests call.id id i
    rw [hget]
    by_cases hij : i = j
    · subst hij
      rw [hsame]
      constructor
      · intro hfound
        split at hfound
        · rename_i hid
          exact ⟨_, rfl, hid.symm, nofun, hanswered⟩
        · obtain ⟨call', hj, hid, hentered⟩ := (h.table id i).mp hfound
          cases hi.symm.trans hj
          exact absurd hphase hentered.1
      · rintro ⟨call', hcall', hid, -⟩
        cases hcall'
        exact if_pos hid.symm
    · rw [hother hij]
      constructor
      · intro hfound
        split at hfound
        · cases hfound
          exact absurd rfl hij
        · exact (h.table id j).mp hfound
      · rintro ⟨call', hj, hid, hentered⟩
        have hne : id ≠ call.id := fun heq =>
          hij (h.call_unique hi hj (heq.symm.trans hid.symm))
        rw [if_neg hne]
        exact (h.table id j).mpr ⟨call', hj, hid, hentered⟩
  · intro x hx
    obtain ⟨call', r, hj, hanswered', hr, hid⟩ := h.own x hx
    have hij : i ≠ x.call := by
      intro hij
      subst hij
      cases hi.symm.trans hj
      rw [hanswered] at hanswered'
      cases hanswered'
    exact ⟨call', r, (hother hij).trans hj, hanswered', hr, hid⟩
  · exact h.once
  · exact h.apart

/-- A call is looked up by the responses that carry its id. -/
theorem responseId_eq_iff {call : SendRequest} {r : JsonRpcResponse} (hne : call.id ≠ 0) :
    responseId r = call.id ↔ r.id = some call.rpcId := by
  constructor
  · intro heq
    unfold responseId at heq
    split at heq
    · rename_i n hid
      rw [hid, SendRequest.rpcId, ← heq, Int64.toInt64_toUInt64]
    · exact absurd heq.symm hne
  · intro hid
    simp [responseId, hid, SendRequest.rpcId]

theorem hear_id (r : JsonRpcResponse) (call : SendRequest) :
    (call.hear r).id = call.id := by
  unfold SendRequest.hear
  split <;> rfl

theorem hear_phase (r : JsonRpcResponse) (call : SendRequest) :
    (call.hear r).phase = call.phase := by
  unfold SendRequest.hear
  split <;> rfl

theorem hear_answered {r : JsonRpcResponse} {call : SendRequest}
    (h : call.answered = true) : (call.hear r).answered = true := by
  unfold SendRequest.hear
  split
  · rfl
  · exact h

theorem hear_entered {r : JsonRpcResponse} {call : SendRequest} (hne : call.id ≠ 0) :
    (call.hear r).Entered ↔ call.Entered ∧ responseId r ≠ call.id := by
  rw [Ne, responseId_eq_iff hne]
  unfold SendRequest.hear
  split
  · rename_i hheard
    simp [SendRequest.Entered, hheard.2]
  · rename_i hheard
    constructor
    · intro hentered
      exact ⟨hentered, fun hid => hheard ⟨hentered.1, hid⟩⟩
    · exact And.left

/-- What a response does to the table, found or not. -/
theorem get?_handlePendingResponse (r : JsonRpcResponse) (id : UInt64) :
    (c.handlePendingResponse r).pendingRequests.get? id =
      if id = responseId r then none else c.pendingRequests.get? id := by
  unfold handlePendingResponse
  split
  · exact KeyedMap.get?_remove c.pendingRequests (responseId r) id
  · rename_i hnone
    split
    · rename_i heq
      rw [heq, hnone]
    · rfl

theorem calls_handlePendingResponse (r : JsonRpcResponse) :
    (c.handlePendingResponse r).calls = c.calls := by
  unfold handlePendingResponse
  split <;> rfl

theorem responses_handlePendingResponse (r : JsonRpcResponse) :
    (c.handlePendingResponse r).responses = c.responses := by
  unfold handlePendingResponse
  split <;> rfl

theorem nextId_handlePendingResponse (r : JsonRpcResponse) :
    (c.handlePendingResponse r).nextId = c.nextId := by
  unfold handlePendingResponse
  split <;> rfl

/-- A response resolves the receiver of the call that is found under its id, or none. -/
theorem resolved_handlePendingResponse (r : JsonRpcResponse) :
    (c.handlePendingResponse r).resolved = c.resolved ∨
      ∃ i, c.pendingRequests.get? (responseId r) = some i ∧
        (c.handlePendingResponse r).resolved = c.resolved ++ [⟨i, c.responses.length⟩] := by
  unfold handlePendingResponse
  split
  · rename_i i hfound
    by_cases halive : (c.calls[i]?).any SendRequest.receiverAlive = true
    · exact .inr ⟨i, hfound, if_pos halive⟩
    · exact .inl (if_neg halive)
  · exact .inl rfl

theorem Table.receive (h : Table c) (r : JsonRpcResponse) :
    Table ((c.handlePendingResponse r).record r) := by
  have hcalls : ((c.handlePendingResponse r).record r).calls =
      c.calls.map (SendRequest.hear r) := by
    simp [record, calls_handlePendingResponse]
  have hresponses : ((c.handlePendingResponse r).record r).responses = c.responses ++ [r] := by
    simp [record, responses_handlePendingResponse]
  have hcall : ∀ {i : Nat} {call' : SendRequest},
      ((c.handlePendingResponse r).record r).calls[i]? = some call' ↔
        ∃ call, c.calls[i]? = some call ∧ call.hear r = call' := by
    intro i call'
    rw [hcalls, List.getElem?_map, Option.map_eq_some_iff]
  have hown : ∀ x ∈ c.resolved, ∃ call r',
      ((c.handlePendingResponse r).record r).calls[x.call]? = some call ∧
        call.answered = true ∧
        ((c.handlePendingResponse r).record r).responses[x.response]? = some r' ∧
        r'.id = some call.rpcId := by
    intro x hx
    obtain ⟨call, r', hi, hanswered, hr', hid⟩ := h.own x hx
    refine ⟨_, r', hcall.mpr ⟨call, hi, rfl⟩, hear_answered hanswered, ?_, ?_⟩
    · rw [hresponses, List.getElem?_append_left (List.getElem?_eq_some_iff.mp hr').1, hr']
    · rw [hid, SendRequest.rpcId, SendRequest.rpcId, hear_id]
  constructor
  · rw [hcalls, List.length_map, ← h.next]
    exact nextId_handlePendingResponse r
  · rw [hcalls, List.length_map]
    exact h.bounded
  · intro i call' hi
    obtain ⟨call, hold, rfl⟩ := hcall.mp hi
    rw [hear_id, h.ids i call hold]
  · intro i call' hi hphase
    obtain ⟨call, hold, rfl⟩ := hcall.mp hi
    rw [hear_phase] at hphase
    have hquiet := h.early i call hold hphase
    simpa [SendRequest.hear, hphase] using hquiet
  · intro id i
    have hget : ((c.handlePendingResponse r).record r).pendingRequests.get? id =
        if id = responseId r then none else c.pendingRequests.get? id :=
      get?_handlePendingResponse r id
    rw [hget]
    constructor
    · intro hfound
      split at hfound
      · cases hfound
      · rename_i hne
        obtain ⟨call, hi, hid, hentered⟩ := (h.table id i).mp hfound
        refine ⟨_, hcall.mpr ⟨call, hi, rfl⟩, (hear_id r call).trans hid, ?_⟩
        rw [hear_entered (h.id_ne_zero hi), hid]
        exact ⟨hentered, Ne.symm hne⟩
    · rintro ⟨call', hi, hid, hentered⟩
      obtain ⟨call, hold, rfl⟩ := hcall.mp hi
      rw [hear_id] at hid
      rw [hear_entered (h.id_ne_zero hold), hid] at hentered
      rw [if_neg (Ne.symm hentered.2)]
      exact (h.table id i).mpr ⟨call, hold, hid, hentered.1⟩
  · intro x hx
    rcases resolved_handlePendingResponse (c := c) r with hsame | ⟨i, hfound, hnew⟩
    · exact hown x (hsame ▸ hx)
    · have hx' : x ∈ c.resolved ++ [⟨i, c.responses.length⟩] := hnew ▸ hx
      rcases List.mem_append.mp hx' with hx' | hx'
      · exact hown x hx'
      · rw [List.mem_singleton.mp hx']
        obtain ⟨call, hi, hid, hentered⟩ := (h.table _ i).mp hfound
        have hrpc := (responseId_eq_iff (h.id_ne_zero hi)).mp hid.symm
        refine ⟨_, r, hcall.mpr ⟨call, hi, rfl⟩, ?_, by simp [hresponses], ?_⟩
        · simp [SendRequest.hear, hentered.1, hrpc]
        · rw [hrpc, SendRequest.rpcId, SendRequest.rpcId, hear_id]
  · show ((c.handlePendingResponse r).resolved.map Resolution.call).Nodup
    rcases resolved_handlePendingResponse (c := c) r with hsame | ⟨i, hfound, hnew⟩
    · rw [hsame]
      exact h.once
    · rw [hnew, List.map_append, List.nodup_append]
      refine ⟨h.once, by simp, ?_⟩
      intro j hj j' hj' heq
      obtain ⟨x, hx, rfl⟩ := List.mem_map.mp hj
      obtain ⟨call, hi, -, hentered⟩ := (h.table _ i).mp hfound
      obtain ⟨call', r', hi', hanswered, -⟩ := h.own x hx
      have hxi : x.call = i := heq.trans (by simpa using hj')
      rw [hxi] at hi'
      cases hi.symm.trans hi'
      rw [hentered.2] at hanswered
      cases hanswered
  · show ((c.handlePendingResponse r).resolved.map Resolution.response).Nodup
    rcases resolved_handlePendingResponse (c := c) r with hsame | ⟨i, hfound, hnew⟩
    · rw [hsame]
      exact h.apart
    · rw [hnew, List.map_append, List.nodup_append]
      refine ⟨h.apart, by simp, ?_⟩
      intro j hj j' hj' heq
      obtain ⟨x, hx, rfl⟩ := List.mem_map.mp hj
      obtain ⟨call', r', -, -, hr', -⟩ := h.own x hx
      have hlt := (List.getElem?_eq_some_iff.mp hr').1
      have hlength : j' = c.responses.length := by simpa using hj'
      omega

/-! ### Runs -/

/-- One step, in which the numbers do not wrap around, keeps what is known of the table. -/
theorem Table.step {l : ConnectionLabel} (h : Table c) (hG : Unwrapped c l)
    (hstep : c.step l = some c') : Table c' := by
  cases l with
  | number =>
      cases hstep
      exact h.fetchId hG
  | enter i =>
      simp only [Connection.step] at hstep
      split at hstep
      · rename_i call hi
        obtain ⟨hphase, hstep⟩ := Option.ite_none_right_eq_some.mp hstep
        cases hstep
        exact h.insertPending hi hphase
      · cases hstep
  | send i =>
      simp only [Connection.step] at hstep
      split at hstep
      · rename_i call hi
        obtain ⟨hphase, hstep⟩ := Option.ite_none_right_eq_some.mp hstep
        cases hstep
        exact h.handOver hi hphase
      · cases hstep
  | dropReceiver i =>
      simp only [Connection.step] at hstep
      split at hstep
      · obtain ⟨-, hstep⟩ := Option.ite_none_right_eq_some.mp hstep
        cases hstep
        exact h.dropReceiver i
      · cases hstep
  | writerGone =>
      cases hstep
      exact ⟨h.next, h.bounded, h.ids, h.early, h.table, h.own, h.once, h.apart⟩
  | receive r =>
      cases hstep
      exact h.receive r

/-- **In every run in which the numbers do not wrap around, the table leads from the ids of
    the calls that are entered and not answered to these calls.** -/
theorem table_of_unwrapped (h : life.ReachableUnder Unwrapped c) : Table c := by
  refine h.invariant (I := Table) ?_ ?_
  · rintro c rfl
    exact table_spawned
  · intro c l c' _ hI hG hstep
    exact hI.step hG hstep

def Settled (c : Connection) : Prop :=
  ∀ (i : Nat) (call : SendRequest), c.calls[i]? = some call → call.phase = .failed →
    call.answered = true

theorem Settled.modify (h : Settled c) {i : Nat} {f : SendRequest → SendRequest}
    (hf : ∀ call, c.calls[i]? = some call → (f call).phase = .failed →
      (f call).answered = true) :
    Settled { c with calls := c.calls.modify i f } := by
  intro j call' hj hfailed
  rw [List.getElem?_modify, Option.map_eq_map, Option.map_eq_some_iff] at hj
  obtain ⟨call, hcall, rfl⟩ := hj
  by_cases hij : i = j
  · subst hij
    simp only [if_true] at hfailed ⊢
    exact hf call hcall hfailed
  · simp only [hij, if_false] at hfailed ⊢
    exact h j call hcall hfailed

theorem Settled.step {l : ConnectionLabel} (h : Settled c) (hG : KeepsTable c l)
    (hstep : c.step l = some c') : Settled c' := by
  cases l with
  | number =>
      cases hstep
      intro i call hi hfailed
      simp only [fetchId, List.getElem?_append] at hi
      split at hi
      · exact h i call hi hfailed
      · obtain ⟨hlt, hcall⟩ := List.getElem?_eq_some_iff.mp hi
        rw [List.getElem_singleton] at hcall
        rw [← hcall] at hfailed
        cases hfailed
  | enter i =>
      simp only [Connection.step] at hstep
      split at hstep
      · obtain ⟨-, hstep⟩ := Option.ite_none_right_eq_some.mp hstep
        cases hstep
        exact Settled.modify (c := c) h nofun
      · cases hstep
  | send i =>
      simp only [Connection.step] at hstep
      split at hstep
      · rename_i call hi
        obtain ⟨-, hstep⟩ := Option.ite_none_right_eq_some.mp hstep
        cases hstep
        unfold handOver
        split
        · exact h.modify nofun
        · rename_i hgone
          refine h.modify fun call' hi' _ => ?_
          cases hi.symm.trans hi'
          -- The guard: a request that is refused has been answered.
          have hanswered := hG.2.resolve_left (by simpa using hgone)
          simpa [hi] using hanswered
      · cases hstep
  | dropReceiver i =>
      simp only [Connection.step] at hstep
      split at hstep
      · obtain ⟨-, hstep⟩ := Option.ite_none_right_eq_some.mp hstep
        cases hstep
        exact h.modify fun call hi hfailed => h i call hi hfailed
      · cases hstep
  | writerGone =>
      cases hstep
      exact h
  | receive r =>
      cases hstep
      intro i call' hi hfailed
      simp only [record, calls_handlePendingResponse, List.getElem?_map,
        Option.map_eq_some_iff] at hi
      obtain ⟨call, hcall, rfl⟩ := hi
      rw [hear_phase] at hfailed
      exact hear_answered (h i call hcall hfailed)

/-- **Receivers are resolved once and by their own response, and the table holds the
    requests that are not answered**, in every run in which the numbers do not wrap around
    and a request that the writer refuses has been answered before. -/
theorem correlated_of_keepsTable {c : Connection} (h : life.ReachableUnder KeepsTable c) :
    Correlated c := by
  have htable : Table c := table_of_unwrapped (h.mono fun _ _ hG => hG.1)
  have hsettled : Settled c := by
    refine h.invariant (I := Settled) ?_ ?_
    · rintro c rfl
      simp [Settled, spawned]
    · intro c l c' _ hI hG hstep
      exact hI.step hG hstep
  refine ⟨htable.once, htable.apart, ?_, ?_⟩
  · intro x hx
    obtain ⟨call, r, hi, -, hr, hid⟩ := htable.own x hx
    exact ⟨call, r, hi, hr, hid⟩
  · intro id
    rw [KeyedMap.contains_iff]
    constructor
    · rintro ⟨i, hfound⟩
      obtain ⟨call, hi, hid, hentered, hopen⟩ := (htable.table id i).mp hfound
      refine ⟨call, List.mem_of_getElem? hi, hid, ?_, hopen⟩
      cases hphase : call.phase with
      | numbered => exact absurd hphase hentered
      | sending => exact .inl rfl
      | sent => exact .inr rfl
      | failed =>
          rw [hsettled i call hi hphase] at hopen
          cases hopen
    · rintro ⟨call, hmem, hid, hphase, hopen⟩
      obtain ⟨i, hi⟩ := List.getElem?_of_mem hmem
      refine ⟨i, (htable.table id i).mpr ⟨call, hi, hid, ?_, hopen⟩⟩
      rcases hphase with hphase | hphase <;> simp [hphase]

end Connection

/-! ### Samples -/

namespace Sample

def answer (id : RequestId) : JsonRpcResponse := .success (some id) .null

end Sample

/-- Two calls interleave; the second is answered first, then an unknown id, the first, and
    the second once more. -/
theorem correlated_of_keepsTable_two : ∃ c, Connection.life.ReachableUnder
      Connection.KeepsTable c ∧
    c.resolved = [⟨1, 0⟩, ⟨0, 2⟩] ∧ c.pendingRequests.contains 1 = false ∧
    Connection.Correlated c := by
  have hs : ((Connection.life.run Connection.KeepsTable Connection.spawned
      [.number, .number, .enter 1, .enter 0, .send 0, .send 1,
        .receive (Sample.answer (.number 2)), .receive (Sample.answer (.string "x")),
        .receive (Sample.answer (.number 1)), .receive (Sample.answer (.number 2))]).any
      fun c => c.resolved = [⟨1, 0⟩, ⟨0, 2⟩] ∧ c.pendingRequests.contains 1 = false) = true := by
    decide
  obtain ⟨c, hrun, hc⟩ := (Option.any_eq_true _ _).mp hs
  have hreach := Machine.reachable_of_run _ rfl hrun
  exact ⟨c, hreach, (of_decide_eq_true hc).1, (of_decide_eq_true hc).2,
    Connection.correlated_of_keepsTable hreach⟩

/-- The writer task has gone before the only request is handed to it: the call fails and the
    table keeps its id, which was never sent. -/
theorem failed_request_pending : ∃ c, Connection.life.Reachable c ∧
    (∀ call ∈ c.calls, call.phase = .failed) ∧ c.pendingRequests.contains 1 = true ∧
    ¬ Connection.Correlated c := by
  have hs : ((Connection.life.run (fun _ _ => True) Connection.spawned
      [.number, .enter 0, .writerGone, .send 0]).any
      fun c => c.calls.all (·.phase = .failed) ∧ c.pendingRequests.contains 1 = true) = true := by
    decide
  obtain ⟨c, hrun, hc⟩ := (Option.any_eq_true _ _).mp hs
  obtain ⟨hfailed, hpending⟩ := of_decide_eq_true hc
  have hfailed' : ∀ call ∈ c.calls, call.phase = .failed := by simpa using hfailed
  refine ⟨c, Machine.reachable_of_run _ rfl hrun, hfailed', hpending, fun hcorrelated => ?_⟩
  obtain ⟨call, hmem, -, hphase, -⟩ := (hcorrelated.exact 1).mp hpending
  rw [hfailed' call hmem] at hphase
  simp at hphase

end Anyclaw
