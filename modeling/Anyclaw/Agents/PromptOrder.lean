import Mathlib.Data.List.Sort
import Anyclaw.Agents.AtMostOnce
import Anyclaw.Agents.PromptContents

/-!
# The prompts of a key, one after the other

A single prompt is made of messages that were sent for its key.  The messages are numbered,
and no number is handed over twice or too late; so the prompts of a key together carry
consecutive parts of what was sent, with gaps but without repetitions.

The queue is that of `crates/anyclaw-agents/src/session_queue.rs`; whoever takes from it calls
`prompt_session` (`commands.rs`) with what it took.
-/

namespace Anyclaw

variable {n : Nat}

/-- A list in the order of the numbers, with elements of a list in that order. -/
theorem sublist_of_increasing {α : Type*} (no : α → Nat) {as bs : List α} (hsub : as ⊆ bs)
    (has : as.Pairwise fun a b => no a < no b) (hbs : bs.Pairwise fun a b => no a < no b) :
    as.Sublist bs := by
  have hirrefl : Std.Irrefl fun a b : α => no a < no b := ⟨fun a => Nat.lt_irrefl (no a)⟩
  have hantisymm : Std.Antisymm fun a b : α => no a < no b :=
    ⟨fun a b hab hba => absurd (Nat.lt_trans hab hba) (Nat.lt_irrefl _)⟩
  exact List.sublist_of_subperm_of_pairwise (List.subperm_of_subset has.nodup hsub) has hbs

namespace AgentsManager

variable {cfg : AgentsManagerConfig n} {m m' : AgentsManager n} {x : History n}

/-! ### Messages are numbered upwards -/

/-- The messages that commands brought so far have smaller numbers than the next one. -/
structure NumberedUpwards (x : History n) : Prop where
  increasing : (x.1.filterMap fun t => plainMessage t.before t.label).Pairwise
    fun s s' => s.no < s'.no
  below : ∀ s ∈ x.1.filterMap fun t => plainMessage t.before t.label, s.no < x.2.nextMessage

theorem plainMessage_eq_some {l : Label n} {s : PlainMessage} (h : plainMessage m l = some s) :
    s.no = m.nextMessage ∧ ∃ name a, l = .command (.enqueueMessage name s.key s.content s.metadata) a ∧
      IsPlain s.content := by
  unfold plainMessage at h
  split at h
  · obtain ⟨hplain, heq⟩ := Option.ite_none_right_eq_some.mp h
    cases heq
    exact ⟨rfl, _, _, rfl, hplain⟩
  · cases h

theorem numberedUpwards_of_reachable (h : (life cfg).recorded.Reachable x) :
    NumberedUpwards x := by
  refine h.invariant (I := NumberedUpwards) ?_ ?_
  · rintro ⟨steps, m⟩ ⟨rfl, -⟩
    exact ⟨List.Pairwise.nil, fun s hs => nomatch hs⟩
  · intro x l x' hreach hI _ hstep
    obtain ⟨hmoved, hsteps⟩ := Machine.of_recorded_step hstep
    have horderly := orderly_of_reachable (hreach.of_recorded fun _ _ _ => trivial)
    have hadvances := step_advances horderly.plain hmoved
    have hold : ∀ s ∈ x.1.filterMap fun t => plainMessage t.before t.label,
        s.no < x'.2.nextMessage :=
      fun s hs => Nat.lt_of_lt_of_le (hI.below s hs) hadvances.numbers
    constructor
    · rw [hsteps, List.filterMap_append, List.pairwise_append]
      refine ⟨hI.increasing, ?_, fun s hs s' hs' => ?_⟩
      · cases hnew : plainMessage x.2 l <;> simp [hnew]
      · obtain ⟨t, ht, hnew⟩ := List.mem_filterMap.mp hs'
        rw [List.mem_singleton.mp ht] at hnew
        rw [(plainMessage_eq_some hnew).1]
        exact hI.below s hs
    · intro s hs
      rw [hsteps, List.filterMap_append] at hs
      rcases List.mem_append.mp hs with hmem | hlast
      · exact hold s hmem
      · obtain ⟨t, ht, hnew⟩ := List.mem_filterMap.mp hlast
        rw [List.mem_singleton.mp ht] at hnew
        obtain ⟨hno, name, a, hl, -⟩ := plainMessage_eq_some hnew
        rw [hno]
        exact hadvances.numbered name s.key s.content s.metadata a hl

theorem plainMessages_increasing (h : NumberedUpwards x) (k : SessionKey) :
    (plainMessages x.1 k).Pairwise fun s s' => s.no < s'.no :=
  h.increasing.sublist List.filter_sublist

/-! ### The prompts of a key -/

def promptsFor (m : AgentsManager n) (k : SessionKey) :
    List (OutstandingPrompt n × List ContentPart × List MessageNo) :=
  m.carried.filter fun e => e.1.sessionKey = k

theorem handed_promptsFor (m : AgentsManager n) (k : SessionKey) :
    m.handed k = (m.promptsFor k).flatMap fun e => e.2.2 := by
  have hall : ∀ os : List (Output n), (Mailbox.forKey k (os.filterMap Output.handed)).flatten =
      ((os.filterMap Output.carrier).filter fun e => e.1.sessionKey = k).flatMap
        fun e => e.2.2 := by
    intro os
    induction os with
    | nil => rfl
    | cons o os ih =>
        cases o with
        | prompt p parts origin =>
            have hcons : Mailbox.forKey k ((Output.prompt p parts origin :: os).filterMap
                Output.handed) = Mailbox.forKey k [(p.sessionKey, origin)] ++
                  Mailbox.forKey k (os.filterMap Output.handed) := by
              rw [← Mailbox.forKey_append]
              rfl
            rw [hcons, Mailbox.forKey_singleton]
            by_cases hk : p.sessionKey = k
            · simp [hk, ih, Output.carrier]
            · simp [hk, ih, Output.carrier]
        | _ => exact ih
  exact hall m.trace

/-- The parts of the prompt `p` are the messages `ss`, after the tool context of the slot or
    nothing and the reply context of one of them or nothing. -/
def TellsThem (x : History n) (p : OutstandingPrompt n) (parts : List ContentPart)
    (ss : List PlainMessage) : Prop :=
  ∃ context : Option String,
    (∀ c ∈ context, ∃ t ∈ x.1, (t.after.slots p.slotIdx).toolContext = some c) ∧
    ∃ s ∈ ss, parts = context.toList.map ContentPart.text ++
      (s.metadata.bind buildReplyContext).toList.map ContentPart.text ++
        ss.flatMap PlainMessage.content

/-- **The prompts of a key carry what was sent for it**, in order and without repetition. -/
theorem promptsFor_tell (h : (life cfg).recorded.Reachable x) (k : SessionKey) :
    ∃ sss : List (List PlainMessage), sss.flatten.Sublist (plainMessages x.1 k) ∧
      List.Forall₂ (fun e ss => TellsThem x e.1 e.2.1 ss) (x.2.promptsFor k) sss := by
  have htold : ∀ e ∈ x.2.promptsFor k, ∃ ss : List PlainMessage, ss ⊆ plainMessages x.1 k ∧
      e.2.2 = ss.map PlainMessage.no ∧ TellsThem x e.1 e.2.1 ss := by
    rintro ⟨p, parts, origin⟩ he
    obtain ⟨hcarried, hkey⟩ := List.mem_filter.mp he
    obtain ⟨ss, context, hss, horigin, hcontext, hparts⟩ :=
      (promptsTell_of_reachable h).told p parts origin hcarried
    rw [of_decide_eq_true hkey] at hss
    exact ⟨ss, hss.subset, horigin, context, hcontext, hparts⟩
  choose! f hsub horigin htells using htold
  refine ⟨(x.2.promptsFor k).map f, ?_, ?_⟩
  · have hnumbers : (((x.2.promptsFor k).map f).flatten).map PlainMessage.no = x.2.handed k := by
      rw [handed_promptsFor, List.map_flatten, List.map_map, List.flatMap]
      congr 1
      exact List.map_congr_left fun e he => (horigin e he).symm
    have hincreasing : (((x.2.promptsFor k).map f).flatten).Pairwise fun s s' => s.no < s'.no := by
      rw [← List.pairwise_map (R := (· < ·)), hnumbers]
      have honce := handsOnce_of_reachable (h.of_recorded fun _ _ _ => trivial)
      exact (honce.accepted_increasing k).sublist
        ((List.sublist_append_left _ _).trans (honce.ordered k))
    refine sublist_of_increasing PlainMessage.no ?_ hincreasing
      (plainMessages_increasing (numberedUpwards_of_reachable h) k)
    intro s hs
    obtain ⟨ss, hss, hmem⟩ := List.mem_flatten.mp hs
    obtain ⟨e, he, rfl⟩ := List.mem_map.mp hss
    exact hsub e he hmem
  · rw [List.forall₂_map_right_iff, List.forall₂_same]
    exact htells

end AgentsManager

end Anyclaw
