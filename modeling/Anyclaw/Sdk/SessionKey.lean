import Mathlib.Data.List.Count

/-!
# Session keys

A session key names a channel and a conversation in it.  Its text has the form
`channel:kind:peer`; the type carries that the text has the two separators, which
is what `parse` checks and what every key made by `new` has.

The type is that of `crates/anyclaw-sdk-types/src/session_key.rs`.
-/

namespace Anyclaw

structure SessionKey where
  text : String
  wellFormed : 2 ≤ text.toList.count ':'
deriving DecidableEq

/-- ACP session ids are opaque strings that the agent chooses. -/
abbrev AcpSessionId := String

namespace SessionKey

/-- `{channel_name}:{kind}:{peer_id}`. -/
def new (channelName kind peerId : String) : SessionKey where
  text := channelName ++ ":" ++ kind ++ ":" ++ peerId
  wellFormed := by
    have hsep : (":" : String).toList.count ':' = 1 := by decide
    simp only [String.toList_append, List.count_append, hsep]
    omega

/-- The first colon-delimited segment. -/
def channelName (k : SessionKey) : String :=
  String.ofList (k.text.toList.takeWhile fun c => c != ':')

/-- Read a key back from its text. -/
def parse (s : String) : Except String SessionKey :=
  if h : 2 ≤ s.toList.count ':' then
    .ok ⟨s, h⟩
  else
    .error s!"invalid session key: expected 'channel:kind:peer', got '{s}'"

/-- What is displayed is parsed back. -/
@[simp] theorem parse_text (k : SessionKey) : parse k.text = .ok k := by
  rw [parse, dif_pos k.wellFormed]

theorem text_injective {k k' : SessionKey} (h : k.text = k'.text) : k = k' := by
  cases k
  cases k'
  cases h
  rfl

end SessionKey

end Anyclaw
