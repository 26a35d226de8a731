import Anyclaw.Library.Delimited
import Anyclaw.Sdk.ContentKind

/-!
# Content blocks on the wire

Inside, a piece of content refers to its payload by a URL (`ContentPart`); agents send and
receive ACP blocks, which may carry the payload themselves.  The payload of a data URL moves
into the block on the way out, and a block that carries its payload has no URL on the way
back.

The functions are `content_part_to_block` and `content_block_to_part` of
`crates/anyclaw-sdk-types/src/acp.rs`.
-/

namespace Anyclaw

/-! ### Blocks -/

structure ImageContent where
  data : String
  mimeType : String
  uri : Option String
deriving DecidableEq

structure AudioContent where
  data : String
  mimeType : String
deriving DecidableEq

/-- `EmbeddedResourceResource`. -/
inductive EmbeddedResource where
  | textResourceContents (uri : String) (mimeType : Option String) (text : String)
  | blobResourceContents (uri : String) (mimeType : Option String) (blob : String)
deriving DecidableEq

structure ResourceLink where
  name : String
  uri : String
  mimeType : Option String
deriving DecidableEq

inductive ContentBlock where
  | text (text : String)
  | image (image : ImageContent)
  | audio (audio : AudioContent)
  | resource (resource : EmbeddedResource)
  | resourceLink (link : ResourceLink)
deriving DecidableEq

/-! ### Conversion -/

/-- The part of a data URL before the comma and the one behind it. -/
def splitDataUrl (url : String) : Option (List Char × List Char) :=
  ("data:".toList.isPrefixOf? url.toList).bind (Delimited.splitOnce ',')

def contentPartToBlock : ContentPart → ContentBlock
  | .text text => .text text
  | .image url =>
      match splitDataUrl url with
      | some (mimeAndEnc, data) =>
          let mime := (";base64".toList.isSuffixOf? mimeAndEnc).getD mimeAndEnc
          .image { data := String.ofList data, mimeType := String.ofList mime, uri := none }
      | none => .image { data := "", mimeType := "image/png", uri := some url }
  | .file url filename mimeType =>
      .resourceLink { name := filename.getD "file", uri := url, mimeType := mimeType }
  | .audio url mimeType => .audio { data := url, mimeType := mimeType.getD "audio/mpeg" }

def contentBlockToPart : ContentBlock → ContentPart
  | .text text => .text text
  | .image image => .image (image.uri.getD "")
  | .audio audio => .audio audio.data (some audio.mimeType)
  | .resource (.textResourceContents uri mimeType _) => .file uri none mimeType
  | .resource (.blobResourceContents uri mimeType _) => .file uri none mimeType
  | .resourceLink link => .file link.uri (some link.name) link.mimeType

/-! ### Pushed blocks -/

namespace ContentPart

def optionalField (key : String) : Option String → List (String × Json)
  | some s => [(key, .string s)]
  | none => []

def toJson : ContentPart → Json
  | .text t => .object [("type", .string "text"), ("text", .string t)]
  | .image url => .object [("type", .string "image"), ("url", .string url)]
  | .file url filename mimeType =>
      .object ([("type", .string "file"), ("url", .string url)] ++
        optionalField "filename" filename ++ optionalField "mimeType" mimeType)
  | .audio url mimeType =>
      .object ([("type", .string "audio"), ("url", .string url)] ++
        optionalField "mimeType" mimeType)

def kind : ContentPart → ContentKind
  | .text t => .messageChunk t
  | .image url => .image url
  | .file url filename mimeType => .file url filename mimeType
  | .audio url mimeType => .audio url mimeType

end ContentPart

def pushedContent (part : ContentPart) : Json :=
  .object [("update", .object
    [("sessionUpdate", .string "agent_message_chunk"), ("content", part.toJson)])]

def deliveredKind (block : ContentBlock) : ContentKind :=
  ContentKind.fromContent (pushedContent (contentBlockToPart block))

/-- The channel reads every part as what it is. -/
theorem fromContent_pushedContent (part : ContentPart) :
    ContentKind.fromContent (pushedContent part) = part.kind := by
  have hupdate : ContentKind.fromContent (pushedContent part) =
      ContentKind.ofMessageChunk (.object
        [("sessionUpdate", .string "agent_message_chunk"), ("content", part.toJson)]) := by
    simp [ContentKind.fromContent, pushedContent, Json.get?, Json.asStr, ContentKind.ofUpdate]
  rw [hupdate]
  cases part with
  | text t =>
      simp [ContentKind.ofMessageChunk, ContentPart.toJson, Json.get?, Json.asStr,
        ContentKind.extractContentText, ContentPart.kind, List.lookup_cons]
  | image url =>
      simp [ContentKind.ofMessageChunk, ContentPart.toJson, Json.get?, Json.asStr,
        ContentKind.strOrEmpty, ContentPart.kind, List.lookup_cons]
  | file url filename mimeType =>
      cases filename <;> cases mimeType <;>
        simp [ContentKind.ofMessageChunk, ContentPart.toJson, Json.get?, Json.asStr,
          ContentPart.optionalField, ContentKind.strOrEmpty, ContentPart.kind, List.lookup_cons]
  | audio url mimeType =>
      cases mimeType <;>
        simp [ContentKind.ofMessageChunk, ContentPart.toJson, Json.get?, Json.asStr,
          ContentPart.optionalField, ContentKind.strOrEmpty, ContentPart.kind, List.lookup_cons]

/-! ### The round trip -/

/-- The part with the documented defaults in the place of what is missing. -/
def ContentPart.withDefaults : ContentPart → ContentPart
  | .file url filename mimeType => .file url (some (filename.getD "file")) mimeType
  | .audio url mimeType => .audio url (some (mimeType.getD "audio/mpeg"))
  | part => part

/-- The payload is in the URL of the image. -/
def ContentPart.Inline (part : ContentPart) : Prop :=
  ∃ url mime data, part = .image url ∧ url = "data:" ++ mime ++ "," ++ data

theorem splitDataUrl_isSome_iff {url : String} :
    (splitDataUrl url).isSome = true ↔ ∃ mime data, url = "data:" ++ mime ++ "," ++ data := by
  rw [splitDataUrl]
  constructor
  · intro h
    obtain ⟨⟨mime, data⟩, hsplit⟩ := Option.isSome_iff_exists.mp h
    obtain ⟨rest, hrest, hcut⟩ := Option.bind_eq_some_iff.mp hsplit
    rw [Delimited.splitOnce] at hcut
    split at hcut
    · rename_i hcomma
      cases hcut
      refine ⟨String.ofList (Delimited.before ',' rest), String.ofList (Delimited.after ',' rest), ?_⟩
      apply String.toList_inj.mp
      have hparts := Delimited.before_append_after hcomma
      rw [← List.isPrefixOf?_eq_some_iff_append_eq.mp hrest]
      simp [hparts]
    · cases hcut
  · rintro ⟨mime, data, rfl⟩
    have hrest : "data:".toList.isPrefixOf? ("data:" ++ mime ++ "," ++ data).toList =
        some (mime ++ "," ++ data).toList := by
      rw [List.isPrefixOf?_eq_some_iff_append_eq]
      simp
    have hcomma : ',' ∈ (mime ++ "," ++ data).toList := by simp
    rw [hrest, Option.bind_some, Delimited.splitOnce, if_pos hcomma]
    rfl

/-- **A part comes back** exactly when it is no image with its payload in the URL. -/
theorem contentBlockToPart_contentPartToBlock_iff (part : ContentPart) :
    contentBlockToPart (contentPartToBlock part) = part.withDefaults ↔ ¬part.Inline := by
  cases part with
  | text t => simp [contentPartToBlock, contentBlockToPart, ContentPart.withDefaults,
      ContentPart.Inline]
  | file url filename mimeType => simp [contentPartToBlock, contentBlockToPart,
      ContentPart.withDefaults, ContentPart.Inline]
  | audio url mimeType => simp [contentPartToBlock, contentBlockToPart,
      ContentPart.withDefaults, ContentPart.Inline]
  | image url =>
      have hinline : (ContentPart.image url).Inline ↔ (splitDataUrl url).isSome = true := by
        rw [splitDataUrl_isSome_iff]
        simp [ContentPart.Inline]
      rw [hinline, contentPartToBlock]
      cases hsplit : splitDataUrl url with
      | none => simp [contentBlockToPart, ContentPart.withDefaults]
      | some p =>
          -- the URL is not empty, and what comes back is
          have hne : url ≠ "" := by
            rintro rfl
            rw [show splitDataUrl "" = none from by decide] at hsplit
            cases hsplit
          simp [contentBlockToPart, ContentPart.withDefaults, hne.symm]

/-! ### References -/

/-- The block says where its payload can be found. -/
def HasReference : ContentBlock → Prop
  | .text _ => True
  | .image content => ∃ uri, content.uri = some uri ∧ uri ≠ ""
  | .audio content => content.data ≠ ""
  | .resource (.textResourceContents uri _ _) => uri ≠ ""
  | .resource (.blobResourceContents uri _ _) => uri ≠ ""
  | .resourceLink link => link.uri ≠ ""

def dataUrl (mimeType data : String) : String := "data:" ++ mimeType ++ ";base64," ++ data

/-- **What is delivered refers to the payload of the block**: by the address that the block
    gives, or by holding the payload. -/
def RefersTo : ContentBlock → ContentKind → Prop
  | .text text, kind => kind = .messageChunk text
  | .image image, kind =>
      ∃ url, kind = .image url ∧ url ≠ "" ∧
        (image.uri = some url ∨ url = dataUrl image.mimeType image.data)
  | .audio audio, kind =>
      ∃ url mimeType, kind = .audio url mimeType ∧ url ≠ "" ∧
        (url = audio.data ∨ url = dataUrl audio.mimeType audio.data)
  | .resource (.textResourceContents uri mimeType _), kind =>
      uri ≠ "" ∧ ∃ filename, kind = .file uri filename mimeType
  | .resource (.blobResourceContents uri mimeType _), kind =>
      uri ≠ "" ∧ ∃ filename, kind = .file uri filename mimeType
  | .resourceLink link, kind =>
      link.uri ≠ "" ∧ ∃ filename, kind = .file link.uri filename link.mimeType

/-- **What a channel gets of a pushed block refers to the payload** exactly when the block says
    where it can be found. -/
theorem refersTo_deliveredKind_iff (block : ContentBlock) :
    RefersTo block (deliveredKind block) ↔ HasReference block := by
  rw [deliveredKind, fromContent_pushedContent]
  cases block with
  | text t => simp [RefersTo, HasReference, contentBlockToPart, ContentPart.kind]
  | image image =>
      cases huri : image.uri with
      | none => simp [RefersTo, HasReference, contentBlockToPart, ContentPart.kind, huri]
      | some uri =>
          simp [RefersTo, HasReference, contentBlockToPart, ContentPart.kind, huri]
  | audio audio =>
      simp [RefersTo, HasReference, contentBlockToPart, ContentPart.kind]
  | resource resource =>
      cases resource with
      | textResourceContents uri mimeType text =>
          simp [RefersTo, HasReference, contentBlockToPart, ContentPart.kind]
      | blobResourceContents uri mimeType blob =>
          simp [RefersTo, HasReference, contentBlockToPart, ContentPart.kind]
  | resourceLink link =>
      simp [RefersTo, HasReference, contentBlockToPart, ContentPart.kind]

/-- **The conversion of content**: a part comes back unless its payload is in the URL of an
    image, and a pushed block refers to its payload when it has an address. -/
theorem content_conversion_iff (part : ContentPart) (block : ContentBlock) :
    (contentBlockToPart (contentPartToBlock part) = part.withDefaults ↔ ¬part.Inline) ∧
      (RefersTo block (deliveredKind block) ↔ HasReference block) :=
  ⟨contentBlockToPart_contentPartToBlock_iff part, refersTo_deliveredKind_iff block⟩

/-- A photo with its payload in the URL comes back without it, and so does the block that an
    agent makes of a photo. -/
theorem photo_lost :
    contentBlockToPart (contentPartToBlock (.image "data:image/jpeg;base64,/9j/4AAQ")) =
        .image "" ∧
      ¬RefersTo (.image ⟨"/9j/4AAQ", "image/jpeg", none⟩)
        (deliveredKind (.image ⟨"/9j/4AAQ", "image/jpeg", none⟩)) := by
  constructor
  · decide +kernel
  · rw [deliveredKind, fromContent_pushedContent]
    rintro ⟨url, hkind, hne, _⟩
    cases hkind
    exact hne rfl

end Anyclaw
