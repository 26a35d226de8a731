import Anyclaw.Agents.SessionQueue

/-!
# Platform commands

A message is a platform command when it has exactly one part, a text, and the text
is `/new` or `/cancel`, with an optional `@mention`.  Every other message is plain.

The functions are `match_platform_command` of `crates/anyclaw-agents/src/platform_commands.rs`
and `extract_command_text` of `commands.rs`.
-/

namespace Anyclaw

/-- A command handled by the manager itself, not dispatched to any agent. -/
inductive PlatformCommand where
  | new
  | cancel
deriving DecidableEq

namespace PlatformCommand

def name : PlatformCommand → String
  | new => "new"
  | cancel => "cancel"

def description : PlatformCommand → String
  | new => "Start a new conversation"
  | cancel => "Cancel the current operation"

end PlatformCommand

def platformCommands : List PlatformCommand := [.new, .cancel]

def matchPlatformCommand (text : String) : Option PlatformCommand :=
  -- the part before the first '@', or all of it
  match text.toList.takeWhile fun c => c != '@' with
  | '/' :: name => platformCommands.find? fun c => c.name.toList == name
  | _ => none

/-- The text of a message that consists of one text part. -/
def extractCommandText : List ContentPart → Option String
  | [.text text] => some text
  | _ => none

def platformCommandOf (content : List ContentPart) : Option PlatformCommand :=
  (extractCommandText content).bind matchPlatformCommand

/-- A message that is queued or dispatched, not executed. -/
def IsPlain (content : List ContentPart) : Prop := platformCommandOf content = none

instance (content : List ContentPart) : Decidable (IsPlain content) :=
  inferInstanceAs (Decidable (platformCommandOf content = none))

private theorem exists_of_flatMap_singleton {x : ContentPart} :
    ∀ ps : List RichPayload, ps.flatMap RichPayload.content = [x] →
      ∃ p ∈ ps, p.content = [x]
  | p :: ps, h => by
      rw [List.flatMap_cons] at h
      rcases List.append_eq_singleton_iff.mp h with ⟨_, hrest⟩ | ⟨hp, _⟩
      · obtain ⟨p', hmem, hp'⟩ := exists_of_flatMap_singleton ps hrest
        exact ⟨p', List.mem_cons_of_mem p hmem, hp'⟩
      · exact ⟨p, List.mem_cons_self, hp⟩

/-- **Merging plain messages gives a plain message.**  A merge has one part only
    when all but one of its members are empty, and then it is that member. -/
theorem isPlain_flatMap {ps : List RichPayload} (h : ∀ p ∈ ps, IsPlain p.content) :
    IsPlain (ps.flatMap RichPayload.content) := by
  unfold IsPlain platformCommandOf
  rcases hc : extractCommandText (ps.flatMap RichPayload.content) with _ | text
  · rfl
  · have hsingle : ps.flatMap RichPayload.content = [.text text] := by
      unfold extractCommandText at hc
      split at hc
      · rename_i text' heq
        rw [heq, Option.some.inj hc]
      · cases hc
    obtain ⟨p, hmem, hp⟩ := exists_of_flatMap_singleton ps hsingle
    have hplain := h p hmem
    rwa [IsPlain, platformCommandOf, hp] at hplain

example : platformCommandOf [.text "/new@MyBot"] = some .new := by decide

end Anyclaw
