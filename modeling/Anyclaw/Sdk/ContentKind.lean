import Anyclaw.Library.Json
import Anyclaw.Sdk.Content

/-!
# Session updates as the channels read them

A channel receives the raw parameters of `session/update` and classifies them by hand: it
looks fields up by name, in more than one place for some of them, and takes what it does not
find for missing.

The function is `ContentKind::from_content` of `crates/anyclaw-sdk-types/src/channel.rs`.
-/

namespace Anyclaw

inductive ContentKind where
  | thought (sessionId updateType content : String)
  | messageChunk (text : String)
  | result (text : String) (isError : Bool)
  | userMessageChunk (text : String)
  | usageUpdate
  | toolCall (name toolCallId : String) (input : Option Json)
  | toolCallUpdate (name toolCallId status : String) (output : Option String)
      (input : Option Json) (exitCode : Option Int64)
  | availableCommandsUpdate (commands : Json)
  | image (url : String)
  | file (url : String) (filename mimeType : Option String)
  | audio (url : String) (mimeType : Option String)
  | unknown
deriving DecidableEq

namespace ContentKind

def strOrEmpty (j : Option Json) : String := (j.bind Json.asStr).getD ""

/-- The text of `update["content"]`: of a content part, or a plain string. -/
def extractContentText (update : Json) : String :=
  match update.get? "content" with
  | some c =>
      match (c.get? "text").bind Json.asStr with
      | some text => text
      | none => c.asStr.getD ""
  | none => ""

def ofMessageChunk (update : Json) : ContentKind :=
  let content := update.get? "content"
  let field := fun k => content.bind (Json.get? k)
  match (field "type").bind Json.asStr with
  | some "image" => .image (strOrEmpty ((field "uri").or (field "url")))
  | some "file" =>
      .file (strOrEmpty ((field "url").or (field "uri")))
        (((field "filename").or (field "name")).bind Json.asStr)
        ((field "mimeType").bind Json.asStr)
  | some "audio" =>
      .audio (strOrEmpty ((field "data").or (field "url"))) ((field "mimeType").bind Json.asStr)
  | some "resource_link" =>
      .file (strOrEmpty (field "uri")) ((field "name").bind Json.asStr)
        ((field "mimeType").bind Json.asStr)
  | _ => .messageChunk (extractContentText update)

def ofUpdate (update : Json) : String → ContentKind
  | "agent_thought_chunk" => .thought "" "agent_thought_chunk" (extractContentText update)
  | "agent_message_chunk" => ofMessageChunk update
  | "result" =>
      .result (extractContentText update)
        (((update.get? "isError").bind Json.asBool).getD false)
  | "user_message_chunk" => .userMessageChunk (extractContentText update)
  | "usage_update" => .usageUpdate
  | "tool_call" =>
      .toolCall (strOrEmpty (update.get? "name")) (strOrEmpty (update.get? "toolCallId"))
        (update.get? "input")
  | "tool_call_update" =>
      .toolCallUpdate (strOrEmpty (update.get? "name")) (strOrEmpty (update.get? "toolCallId"))
        (strOrEmpty (update.get? "status")) ((update.get? "output").bind Json.asStr)
        (update.get? "input")
        ((((update.get? "rawOutput").bind (Json.get? "metadata")).bind (Json.get? "exit")).bind
          Json.asInt64)
  | "available_commands_update" =>
      .availableCommandsUpdate ((update.get? "availableCommands").getD (.array []))
  | _ => .unknown

def fromContent (content : Json) : ContentKind :=
  match content.get? "update" with
  | none => .unknown
  | some update =>
      match (update.get? "sessionUpdate").bind Json.asStr with
      | none => .unknown
      | some kind => ofUpdate update kind

/-- What is classified is an object with a kind. -/
theorem object_of_fromContent {content : Json} (h : fromContent content ≠ .unknown) :
    ∃ fields name, content.get? "update" = some (.object fields) ∧
      fields.lookup "sessionUpdate" = some (.string name) := by
  unfold fromContent at h
  split at h
  · exact absurd rfl h
  · rename_i update hupdate
    split at h
    · exact absurd rfl h
    · rename_i name hname
      obtain ⟨j, hj, hstr⟩ := Option.bind_eq_some_iff.mp hname
      cases update with
      | object fields =>
          cases j with
          | string s =>
              cases hstr
              exact ⟨fields, name, hupdate, hj⟩
          | _ => cases hstr
      | _ => cases hj

end ContentKind

end Anyclaw
