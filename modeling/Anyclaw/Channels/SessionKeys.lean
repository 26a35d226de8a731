import Anyclaw.Channels.Manager
import Anyclaw.Library.Delimited

/-!
# Session keys of conversations

The session key of a conversation joins the channel name, the kind and the peer with colons,
and the parts are found again by the colons: the channel name is what is before the first
one, the peer what is after the second one.  Nothing keeps a channel process from a channel
name or a kind with a colon in it.

The key is made by `build_session_key` (`crates/anyclaw-channels/src/manager.rs`) with
`SessionKey::new` (`crates/anyclaw-sdk-types/src/session_key.rs`), and `send_ack_to_channel`
takes the peer out of it again.

* `legible_iff`: when the keys can be told apart and taken apart again.
-/

namespace Anyclaw

namespace PeerInfo

def sessionKey (p : PeerInfo) : SessionKey := SessionKey.new p.channelName p.kind p.peerId

/-- The two parts before the peer have no colon in them. -/
structure Separable (p : PeerInfo) : Prop where
  channelName : ':' ∉ p.channelName.toList
  kind : ':' ∉ p.kind.toList

end PeerInfo

theorem ChannelsManager.buildSessionKey_eq (message : ChannelSendMessage) :
    buildSessionKey message = message.peerInfo.sessionKey := rfl

/-- The keys of the conversations tell them apart, and can be taken apart again: by parsing
    what is displayed, for the channel name, and for the peer of an acknowledgement. -/
structure Legible (reported : Set PeerInfo) : Prop where
  injective : ∀ p ∈ reported, ∀ q ∈ reported, p ≠ q → p.sessionKey ≠ q.sessionKey
  parsed : ∀ p ∈ reported, SessionKey.parse p.sessionKey.text = .ok p.sessionKey
  channelName : ∀ p ∈ reported, p.sessionKey.channelName = p.channelName
  peerId : ∀ p ∈ reported, ChannelsManager.peerId p.sessionKey = p.peerId

/-! ### Taking a key apart -/

variable {p q : PeerInfo}

theorem toList_sessionKey (p : PeerInfo) :
    p.sessionKey.text.toList
      = p.channelName.toList ++ ':' :: (p.kind.toList ++ ':' :: p.peerId.toList) := by
  have hsep : (":" : String).toList = [':'] := by decide
  simp [PeerInfo.sessionKey, SessionKey.new, hsep]

theorem channelName_sessionKey_iff :
    p.sessionKey.channelName = p.channelName ↔ ':' ∉ p.channelName.toList := by
  rw [SessionKey.channelName, toList_sessionKey, ← String.toList_inj, String.toList_ofList]
  exact Delimited.before_join_iff

theorem toList_peerId (p : PeerInfo) :
    (ChannelsManager.peerId p.sessionKey).toList
      = Delimited.after ':' (Delimited.after ':'
          (p.channelName.toList ++ ':' :: (p.kind.toList ++ ':' :: p.peerId.toList))) := by
  rw [ChannelsManager.peerId, String.toList_ofList, toList_sessionKey]
  rfl

/-- The peer is found again exactly when neither of the two parts before it has a colon: with
    one more colon the third part starts too early. -/
theorem peerId_sessionKey_iff :
    ChannelsManager.peerId p.sessionKey = p.peerId ↔ p.Separable := by
  rw [← String.toList_inj, toList_peerId]
  by_cases hname : ':' ∈ p.channelName.toList
  · constructor
    · intro hpeer
      have hlength := congrArg List.length hpeer
      rw [Delimited.after_join_of_mem hname] at hlength
      have hkind : (p.kind.toList ++ ':' :: p.peerId.toList).length
          ≤ (Delimited.after ':' (Delimited.after ':' p.channelName.toList ++
              ':' :: (p.kind.toList ++ ':' :: p.peerId.toList))).length :=
        Delimited.length_le_after_join
      rw [List.length_append, List.length_cons] at hkind
      omega
    · intro h
      exact absurd hname h.channelName
  · rw [Delimited.after_join hname, Delimited.after_join_iff]
    constructor
    · intro hkind
      exact ⟨hname, hkind⟩
    · intro h
      exact h.kind

theorem sessionKey_injective (hp : p.Separable) (hq : q.Separable)
    (h : p.sessionKey = q.sessionKey) : p = q := by
  have hname : p.channelName = q.channelName := by
    rw [← channelName_sessionKey_iff.mpr hp.channelName, h,
      channelName_sessionKey_iff.mpr hq.channelName]
  have hpeer : p.peerId = q.peerId := by
    rw [← peerId_sessionKey_iff.mpr hp, h, peerId_sessionKey_iff.mpr hq]
  have htext := congrArg (fun k : SessionKey => k.text.toList) h
  simp only [toList_sessionKey] at htext
  rw [hname, hpeer] at htext
  have hkind : p.kind = q.kind := by
    have htail := List.append_cancel_left htext
    rw [List.cons.injEq] at htail
    exact String.toList_inj.mp (List.append_cancel_right htail.2)
  cases p
  cases q
  cases hname
  cases hpeer
  cases hkind
  rfl

theorem legible_of_separable {reported : Set PeerInfo} (h : ∀ p ∈ reported, p.Separable) :
    Legible reported where
  injective p hp q hq hne hkey := hne (sessionKey_injective (h p hp) (h q hq) hkey)
  parsed p _ := p.sessionKey.parse_text
  channelName p hp := channelName_sessionKey_iff.mpr (h p hp).channelName
  peerId p hp := peerId_sessionKey_iff.mpr (h p hp)

/-- **Session keys tell conversations apart and can be taken apart again exactly when no
    channel name and no kind has a colon in it.** -/
theorem legible_iff (reported : Set PeerInfo) :
    Legible reported ↔
      ∀ p ∈ reported, ':' ∉ p.channelName.toList ∧ ':' ∉ p.kind.toList := by
  constructor
  · intro h p hp
    have hseparable := peerId_sessionKey_iff.mp (h.peerId p hp)
    exact ⟨hseparable.channelName, hseparable.kind⟩
  · intro h
    exact legible_of_separable fun p hp => ⟨(h p hp).1, (h p hp).2⟩

/-- A colon of the kind and a colon of the peer cannot be told apart. -/
theorem keys_coincide :
    ¬Legible
      {{ channelName := "chat", kind := "direct", peerId := "bot:7" },
       { channelName := "chat", kind := "direct:bot", peerId := "7" }} := by
  intro h
  exact h.injective _ (Or.inl rfl) _ (Or.inr rfl) (by decide) (by decide)

end Anyclaw
