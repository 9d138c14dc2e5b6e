import AgUi.Legacy.Convert

namespace AgUi
namespace Middleware
namespace LegacyContent

open Library Protocol
open Legacy (truthy)

/-!
# Legacy attachments

A content part of type `binary` is an attachment of an older protocol.  It is
converted to a media part, unless the same content already has a modern part
that says the same: some producers send both.
-/

/-! ## The conversion -/

def mimeTypeToContentType (mimeType : String) : String :=
  if "image/".toList.isPrefixOf mimeType.toList then "image"
  else if "audio/".toList.isPrefixOf mimeType.toList then "audio"
  else if "video/".toList.isPrefixOf mimeType.toList then "video"
  else "document"

def isLegacyBinaryContent (part : Json) : Bool :=
  match part.member? "type", part.member? "mimeType" with
  | some (.string type), some (.string _) => type = "binary"
  | _, _ => false

structure NewContentPart where
  type : String
  sourceType : String
  value : Json
  mimeType : String
  filename : Option Json

def NewContentPart.toJson (part : NewContentPart) : Json :=
  .object
    (("type", .string part.type) ::
      ("source",
        .object [("type", .string part.sourceType), ("value", part.value), ("mimeType", .string part.mimeType)]) ::
      part.filename.toList.map fun filename => ("metadata", .object [("filename", filename)]))

/-- The converted part, and nothing where the part itself is returned. -/
def convertBinaryToNewFormat (binary : Json) : Option NewContentPart :=
  let mimeType := ((binary.member? "mimeType").bind Json.asString?).getD ""
  let type := mimeTypeToContentType mimeType
  let filename := (binary.member? "filename").filter truthy
  match (binary.member? "data").filter truthy with
  | some data => some { type, sourceType := "data", value := data, mimeType, filename }
  | none =>
    match (binary.member? "url").filter truthy with
    | some url => some { type, sourceType := "url", value := url, mimeType, filename }
    | none => none

/-- `===` of two values read from different places: no two objects are the same. -/
def strictEquals : Json -> Json -> Bool
  | .null, .null => true
  | .bool left, .bool right => left = right
  | .number left, .number right => left = right
  | .string left, .string right => left = right
  | _, _ => false

/-- A file name is data too: a legacy part is only left out if the modern part retains it. -/
def retains (part : Json) (filename : Option Json) : Bool :=
  match filename.filter truthy with
  | none => true
  | some filename =>
    ((part.member? "metadata").bind fun metadata => metadata.member? "filename").any (strictEquals filename)

def matchesModernPart (part : Json) (converted : NewContentPart) (filename : Option Json) : Bool :=
  (part.member? "type").any (strictEquals (.string converted.type)) &&
    match part.member? "source" with
    | none => false
    | some source =>
      (source.member? "type").any (strictEquals (.string converted.sourceType)) &&
        (source.member? "value").any (strictEquals converted.value) &&
        (source.member? "mimeType").any (strictEquals (.string converted.mimeType)) && retains part filename

/-- What becomes of one part of a content. -/
def upgradePart (rawContent : List Json) (part : Json) : Option Json :=
  if isLegacyBinaryContent part then
    match convertBinaryToNewFormat part with
    | none => some part
    | some converted =>
      -- the original parts are looked at, so repeats among the legacy parts stay repeats
      if rawContent.any fun other => matchesModernPart other converted (part.member? "filename") then none
      else some converted.toJson
  else some part

def upgradeContent (rawContent : List Json) : List Json :=
  rawContent.filterMap (upgradePart rawContent)

def upgradeMessageContent (message : Message) : Message :=
  match message.content with
  | some (.parts rawContent) => { message with content := some (.parts (upgradeContent rawContent)) }
  | _ => message

/-! ## What an upgrade owes to a content -/

/-- The text at a path of keys. -/
def textAt (value : Json) (path : List String) : Option String :=
  (path.foldl (fun found key => found.bind fun value => value.member? key) (some value)).bind Json.asString?

def isModern (part : Json) : Bool :=
  (textAt part ["type"]).any fun type => type ∈ ["image", "audio", "video", "document"]

/-- The fields of a legacy part that its type declares are texts where they are present. -/
def Declared (part : Json) : Prop :=
  ∀ key ∈ ["id", "url", "data", "filename"], part.member? key ≠ none ->
    ∃ text, part.member? key = some (.string text)

structure Media where
  kind : String
  sourceType : String
  value : String
  mimeType : String
deriving DecidableEq

/-- What a legacy part holds: its data, or else what is behind its URL. -/
def media? (legacy : Json) : Option Media :=
  let mimeType := (textAt legacy ["mimeType"]).getD ""
  let kind := mimeTypeToContentType mimeType
  match (textAt legacy ["data"]).filter (· ≠ "") with
  | some data => some { kind, sourceType := "data", value := data, mimeType }
  | none => ((textAt legacy ["url"]).filter (· ≠ "")).map fun url =>
    { kind, sourceType := "url", value := url, mimeType }

section

variable (named : String -> Prop) [DecidablePred named]

/-- A part says what a legacy part holds, and has its file name if it is one of the `named`. -/
def Represents (media : Media) (legacy part : Json) : Prop :=
  textAt part ["type"] = some media.kind ∧ textAt part ["source", "type"] = some media.sourceType ∧
    textAt part ["source", "value"] = some media.value ∧ textAt part ["source", "mimeType"] = some media.mimeType ∧
    ∀ filename ∈ textAt legacy ["filename"], named filename ->
      textAt part ["metadata", "filename"] = some filename

instance (media : Media) (legacy part : Json) : Decidable (Represents named media legacy part) := by
  unfold Represents
  infer_instance

/-- A legacy part made modern; a file name is written down if it is not empty. -/
def modernized (media : Media) (legacy : Json) : Json :=
  NewContentPart.toJson
    { type := media.kind, sourceType := media.sourceType, value := .string media.value, mimeType := media.mimeType,
      filename := ((textAt legacy ["filename"]).filter (· ≠ "")).map .string }

/-- The conversion of a legacy part that no modern part of the content represents. -/
def unmatched (content : List Json) (part : Json) : Option Json :=
  if isLegacyBinaryContent part then
    (media? part).bind fun media =>
      if content.any fun other => Represents named media part other then none else some (modernized media part)
  else none

structure Upgrades (content upgraded : List Json) : Prop where
  /-- Every modern part is still there, as often and in the same order. -/
  modern : (content.filter isModern).Sublist upgraded
  /-- Every legacy part that can be converted is represented, by a part of the content or by its conversion. -/
  represented : ∀ legacy ∈ content, isLegacyBinaryContent legacy = true ->
    ∀ media, media? legacy = some media ->
      ∃ part ∈ upgraded, isModern part = true ∧ Represents named media legacy part ∧
        (part ∈ content ∨ part = modernized media legacy)
  /-- Those that nothing in the content represents are converted, as often and in the same order. -/
  converted : (content.filterMap (unmatched named content)).Sublist upgraded
  /-- A part that cannot be converted stays. -/
  unchanged : (content.filter fun part => isLegacyBinaryContent part && (media? part).isNone).Sublist upgraded
  /-- There is no other modern part. -/
  nothingElse : (upgraded.filter isModern).Perm (content.filter isModern ++ content.filterMap (unmatched named content))
  /-- The result is left alone. -/
  stable : upgradeContent upgraded = upgraded

end

/-! ## Texts in parts -/

theorem textAt_key (value : Json) (key : String) : textAt value [key] = (value.member? key).bind Json.asString? := rfl

theorem textAt_keys (value : Json) (outer inner : String) :
    textAt value [outer, inner] =
      ((value.member? outer).bind fun found => found.member? inner).bind Json.asString? := rfl

theorem any_strictEquals_iff (field : Option Json) (text : String) :
    field.any (strictEquals (.string text)) = true ↔ field.bind Json.asString? = some text := by
  cases field with
  | none => simp
  | some value =>
    cases value <;> simp [strictEquals, Json.asString?, eq_comm]

theorem filter_truthy {part : Json} (declared : Declared part) (key : String)
    (listed : key ∈ ["id", "url", "data", "filename"]) :
    (part.member? key).filter truthy = ((textAt part [key]).filter (· ≠ "")).map .string := by
  rw [textAt_key]
  cases found : part.member? key with
  | none => rfl
  | some value =>
    rcases declared key listed (by rw [found]; exact Option.some_ne_none value) with ⟨text, same⟩
    cases found.symm.trans same
    by_cases empty : text = "" <;> simp [truthy, Json.asString?, empty, Option.filter]

/-- What the code converts a legacy part to is its modern form. -/
theorem convertBinaryToNewFormat_eq {part : Json} (declared : Declared part) :
    convertBinaryToNewFormat part = (media? part).map fun media =>
      { type := media.kind, sourceType := media.sourceType, value := .string media.value, mimeType := media.mimeType,
        filename := ((textAt part ["filename"]).filter (· ≠ "")).map .string } := by
  unfold convertBinaryToNewFormat media?
  rw [filter_truthy declared "data" (by decide), filter_truthy declared "url" (by decide),
    filter_truthy declared "filename" (by decide), textAt_key part "mimeType"]
  cases (textAt part ["data"]).filter (· ≠ "") with
  | some data => rfl
  | none =>
    cases (textAt part ["url"]).filter (· ≠ "") with
    | some url => rfl
    | none => rfl

theorem retains_iff {part : Json} (declared : Declared part) (other : Json) :
    retains other (part.member? "filename") = true ↔
      ∀ filename ∈ textAt part ["filename"], filename ≠ "" ->
        textAt other ["metadata", "filename"] = some filename := by
  unfold retains
  rw [filter_truthy declared "filename" (by decide), textAt_keys]
  cases textAt part ["filename"] with
  | none => simp
  | some text =>
    by_cases empty : text = ""
    · simp [empty, Option.filter]
    · simp [empty, Option.filter, any_strictEquals_iff]

/-- A part matches the conversion if it represents the legacy part. -/
theorem matchesModernPart_iff {part : Json} (declared : Declared part) (media : Media) (filename : Option Json)
    (other : Json) :
    matchesModernPart other
        { type := media.kind, sourceType := media.sourceType, value := .string media.value, mimeType := media.mimeType,
          filename } (part.member? "filename") = true ↔
      Represents (· ≠ "") media part other := by
  unfold matchesModernPart Represents
  rw [textAt_key, textAt_keys, textAt_keys, textAt_keys]
  cases other.member? "source" with
  | none => simp
  | some source =>
    simp only [Bool.and_eq_true, any_strictEquals_iff, Option.bind_some, and_assoc]
    rw [retains_iff declared]

theorem isLegacyBinaryContent_type {part : Json} (legacy : isLegacyBinaryContent part = true) :
    textAt part ["type"] = some "binary" := by
  unfold isLegacyBinaryContent at legacy
  split at legacy
  · rename_i type _ found _
    rw [textAt_key, found]
    exact congrArg some (of_decide_eq_true legacy)
  · cases legacy

theorem isLegacyBinaryContent_of_modern {part : Json} (modern : isModern part = true) :
    isLegacyBinaryContent part = false := by
  cases legacy : isLegacyBinaryContent part with
  | false => rfl
  | true =>
    unfold isModern at modern
    rw [isLegacyBinaryContent_type legacy] at modern
    revert modern
    decide

theorem mimeTypeToContentType_mem (mimeType : String) :
    mimeTypeToContentType mimeType ∈ ["image", "audio", "video", "document"] := by
  unfold mimeTypeToContentType
  split
  · decide
  · split
    · decide
    · split <;> decide

theorem kind_of_media? {part : Json} {media : Media} (found : media? part = some media) :
    media.kind ∈ ["image", "audio", "video", "document"] := by
  unfold media? at found
  dsimp only at found
  split at found
  · cases found
    exact mimeTypeToContentType_mem _
  · rcases Option.map_eq_some_iff.mp found with ⟨url, _, rfl⟩
    exact mimeTypeToContentType_mem _

theorem isModern_of_kind {part : Json} {kind : String} (type : textAt part ["type"] = some kind)
    (listed : kind ∈ ["image", "audio", "video", "document"]) : isModern part = true := by
  rw [isModern, type]
  exact decide_eq_true listed

theorem represents_modernized (media : Media) (legacy : Json) :
    Represents (· ≠ "") media legacy (modernized media legacy) := by
  refine ⟨rfl, rfl, rfl, rfl, ?_⟩
  intro filename given named
  have kept : (textAt legacy ["filename"]).filter (· ≠ "") = some filename :=
    Option.filter_eq_some_iff.mpr ⟨given, decide_eq_true named⟩
  rw [modernized, kept]
  rfl

/-! ## The upgrade of a content -/

section

variable {A : Type} {B : Type}

theorem filterMap_sublist {fewer more : A -> Option B} {items : List A}
    (agree : ∀ item ∈ items, fewer item = none ∨ fewer item = more item) :
    (items.filterMap fewer).Sublist (items.filterMap more) := by
  induction items with
  | nil => exact List.Sublist.refl _
  | cons item rest ih =>
    have tail := ih (List.forall_mem_cons.mp agree).2
    rcases agree item List.mem_cons_self with nothing | same
    · rw [List.filterMap_cons_none nothing]
      cases kept : more item with
      | none => rwa [List.filterMap_cons_none kept]
      | some value =>
        rw [List.filterMap_cons_some kept]
        exact tail.cons value
    · cases kept : more item with
      | none => rwa [List.filterMap_cons_none kept, List.filterMap_cons_none (same.trans kept)]
      | some value =>
        rw [List.filterMap_cons_some kept, List.filterMap_cons_some (same.trans kept)]
        exact tail.cons_cons value

/-- What two functions keep of different items, kept at once. -/
theorem filterMap_perm {first second both : A -> Option B} {items : List A}
    (apart : ∀ item ∈ items,
      (both item = first item ∧ second item = none) ∨ (both item = second item ∧ first item = none)) :
    (items.filterMap both).Perm (items.filterMap first ++ items.filterMap second) := by
  induction items with
  | nil => exact List.Perm.refl _
  | cons item rest ih =>
    have tail := ih (List.forall_mem_cons.mp apart).2
    rcases apart item List.mem_cons_self with ⟨same, nothing⟩ | ⟨same, nothing⟩
    · rw [List.filterMap_cons_none nothing]
      cases kept : first item with
      | none => rwa [List.filterMap_cons_none kept, List.filterMap_cons_none (same.trans kept)]
      | some value =>
        rw [List.filterMap_cons_some kept, List.filterMap_cons_some (same.trans kept)]
        exact tail.cons value
    · rw [List.filterMap_cons_none nothing]
      cases kept : second item with
      | none => rwa [List.filterMap_cons_none kept, List.filterMap_cons_none (same.trans kept)]
      | some value =>
        rw [List.filterMap_cons_some kept, List.filterMap_cons_some (same.trans kept)]
        exact (tail.cons value).trans List.perm_middle.symm

end

section

variable {content : List Json} (declared : ∀ part ∈ content, isLegacyBinaryContent part = true -> Declared part)
include declared

theorem upgradePart_eq {part : Json} (member : part ∈ content) (others : List Json) :
    upgradePart others part =
      if isLegacyBinaryContent part && (media? part).isSome then unmatched (· ≠ "") others part else some part := by
  unfold upgradePart unmatched
  cases legacy : isLegacyBinaryContent part with
  | false => rfl
  | true =>
    rw [convertBinaryToNewFormat_eq (declared part member legacy)]
    cases media? part with
    | none => rfl
    | some media =>
      have same : (others.any fun other => matchesModernPart other
            { type := media.kind, sourceType := media.sourceType, value := .string media.value,
              mimeType := media.mimeType,
              filename := ((textAt part ["filename"]).filter (· ≠ "")).map .string } (part.member? "filename")) =
          others.any fun other => decide (Represents (· ≠ "") media part other) := by
        apply congrArg
        funext other
        rw [Bool.eq_iff_iff, matchesModernPart_iff (declared part member legacy), decide_eq_true_iff]
      simp only [Option.map_some, if_true, same, Option.isSome_some, Bool.and_self, Option.bind_some]
      rfl

end

/-- Whether a legacy part can be converted. -/
def convertible (part : Json) : Bool :=
  isLegacyBinaryContent part && (media? part).isSome

theorem unmatched_eq_some {others : List Json} {legacy part : Json}
    (converted : unmatched (· ≠ "") others legacy = some part) :
    convertible legacy = true ∧ ∃ media, media? legacy = some media ∧ part = modernized media legacy := by
  unfold unmatched at converted
  split at converted
  · rename_i isLegacy
    rcases Option.bind_eq_some_iff.mp converted with ⟨media, holds, made⟩
    split at made
    · cases made
    · cases made
      refine ⟨?_, media, holds, rfl⟩
      rw [convertible, isLegacy, holds]
      rfl
  · cases converted

theorem isModern_of_unmatched {others : List Json} {legacy part : Json}
    (converted : unmatched (· ≠ "") others legacy = some part) : isModern part = true := by
  rcases unmatched_eq_some converted with ⟨_, media, holds, rfl⟩
  exact isModern_of_kind (represents_modernized media legacy).1 (kind_of_media? holds)

theorem unmatched_of_not_convertible {others : List Json} {part : Json} (kept : convertible part = false) :
    unmatched (· ≠ "") others part = none := by
  cases converted : unmatched (· ≠ "") others part with
  | none => rfl
  | some other =>
    rw [(unmatched_eq_some converted).1] at kept
    cases kept

theorem convertible_of_modern {part : Json} (modern : isModern part = true) : convertible part = false := by
  rw [convertible, isLegacyBinaryContent_of_modern modern, Bool.false_and]

theorem upgradePart_of_modern {others : List Json} {part : Json} (modern : isModern part = true) :
    upgradePart others part = some part := by
  rw [upgradePart, isLegacyBinaryContent_of_modern modern]
  rfl

section

variable {content : List Json} (declared : ∀ part ∈ content, isLegacyBinaryContent part = true -> Declared part)
include declared

/-- A part stays, or its conversion takes its place unless it is represented already. -/
theorem upgradePart_cases {part : Json} (member : part ∈ content) (others : List Json) :
    (upgradePart others part = some part ∧ convertible part = false) ∨
      (upgradePart others part = unmatched (· ≠ "") others part ∧ convertible part = true) := by
  rw [upgradePart_eq declared member]
  cases kept : convertible part with
  | false =>
    unfold convertible at kept
    exact .inl ⟨if_neg (by rw [kept]; exact Bool.false_ne_true), rfl⟩
  | true => exact .inr ⟨if_pos kept, rfl⟩

/-- An upgrade keeps every part, save for the legacy parts that are converted or represented already. -/
theorem upgradeContent_upgrades : Upgrades (· ≠ "") content (upgradeContent content) where
  modern := by
    rw [← List.filterMap_eq_filter]
    apply filterMap_sublist
    intro part member
    cases modern : isModern part with
    | false => exact .inl (by simp [Option.guard, modern])
    | true =>
      right
      rw [upgradePart_of_modern modern]
      simp [Option.guard, modern]
  represented := by
    intro legacy member isLegacy media holds
    by_cases matched : ∃ other ∈ content, Represents (· ≠ "") media legacy other
    · rcases matched with ⟨other, otherIn, represents⟩
      have modern := isModern_of_kind represents.1 (kind_of_media? holds)
      exact ⟨other, List.mem_filterMap.mpr ⟨other, otherIn, upgradePart_of_modern modern⟩, modern, represents,
        .inl otherIn⟩
    · have represents := represents_modernized media legacy
      have modern := isModern_of_kind represents.1 (kind_of_media? holds)
      have nobody : (content.any fun other => decide (Represents (· ≠ "") media legacy other)) = false := by
        apply List.any_eq_false.mpr
        intro other otherIn represented
        exact matched ⟨other, otherIn, of_decide_eq_true represented⟩
      have converted : unmatched (· ≠ "") content legacy = some (modernized media legacy) := by
        rw [unmatched, isLegacy, if_pos rfl, holds, Option.bind_some, nobody]
        rfl
      refine ⟨modernized media legacy, List.mem_filterMap.mpr ⟨legacy, member, ?_⟩, modern, represents, .inr rfl⟩
      rcases upgradePart_cases declared member content with ⟨_, kept⟩ | ⟨becomes, _⟩
      · rw [unmatched_of_not_convertible kept] at converted
        cases converted
      · exact becomes.trans converted
  converted := by
    apply filterMap_sublist
    intro part member
    rcases upgradePart_cases declared member content with ⟨_, kept⟩ | ⟨becomes, _⟩
    · exact .inl (unmatched_of_not_convertible kept)
    · exact .inr becomes.symm
  unchanged := by
    rw [← List.filterMap_eq_filter]
    apply filterMap_sublist
    intro part member
    rcases upgradePart_cases declared member content with ⟨stays, _⟩ | ⟨_, goes⟩
    · rw [stays, Option.guard]
      split
      · exact .inr rfl
      · exact .inl rfl
    · left
      rcases Option.isSome_iff_exists.mp (Bool.and_eq_true_iff.mp goes).2 with ⟨media, holds⟩
      rw [Option.guard, if_neg]
      rw [holds, Option.isNone_some, Bool.and_false]
      exact Bool.false_ne_true
  nothingElse := by
    rw [upgradeContent, List.filter_filterMap, ← List.filterMap_eq_filter]
    apply filterMap_perm
    intro part member
    rcases upgradePart_cases declared member content with ⟨stays, kept⟩ | ⟨becomes, goes⟩
    · left
      rw [stays]
      exact ⟨rfl, unmatched_of_not_convertible kept⟩
    · right
      rw [becomes]
      constructor
      · cases converted : unmatched (· ≠ "") content part with
        | none => rfl
        | some other => exact Option.filter_some_pos (isModern_of_unmatched converted)
      · cases modern : isModern part with
        | false => simp [Option.guard, modern]
        | true =>
          rw [convertible_of_modern modern] at goes
          cases goes
  stable := by
    have alone : ∀ part ∈ upgradeContent content, upgradePart (upgradeContent content) part = some part := by
      intro part member
      rcases List.mem_filterMap.mp member with ⟨origin, originIn, becomes⟩
      rcases upgradePart_cases declared originIn content with ⟨stays, kept⟩ | ⟨converts, _⟩
      · cases stays.symm.trans becomes
        rcases upgradePart_cases declared originIn (upgradeContent content) with ⟨again, _⟩ | ⟨_, goes⟩
        · exact again
        · rw [kept] at goes
          cases goes
      · exact upgradePart_of_modern (isModern_of_unmatched (converts.symm.trans becomes))
    calc upgradeContent (upgradeContent content)
        = (upgradeContent content).filterMap some := List.filterMap_congr alone
      _ = upgradeContent content := List.filterMap_some

end

/-- An upgrade of a message keeps what its content holds, whatever parts are
mixed in it, and a second upgrade changes nothing. -/
theorem upgradeMessageContent_keepsAttachments (message : Message) (content : List Json)
    (parts : message.content = some (.parts content))
    (declared : ∀ part ∈ content, isLegacyBinaryContent part = true -> Declared part) :
    ∃ upgraded,
      upgradeMessageContent message = { message with content := some (.parts upgraded) } ∧
        Upgrades (· ≠ "") content upgraded ∧
        upgradeMessageContent (upgradeMessageContent message) = upgradeMessageContent message := by
  have once : upgradeMessageContent message = { message with content := some (.parts (upgradeContent content)) } := by
    rw [upgradeMessageContent, parts]
  have upgrades := upgradeContent_upgrades declared
  refine ⟨upgradeContent content, once, upgrades, ?_⟩
  rw [once]
  exact congrArg (fun items => ({ message with content := some (.parts items) } : Message)) upgrades.stable

/-- A modern picture between a legacy one that mirrors it and one that does not. -/
theorem upgradeMessageContent_keepsAttachments_mirrored :
    let picture : Json := .object
      [("type", .string "image"), ("source", .object
        [("type", .string "data"), ("value", .string "AAAA"), ("mimeType", .string "image/png")])]
    let mirror : Json := .object
      [("type", .string "binary"), ("mimeType", .string "image/png"), ("data", .string "AAAA")]
    let other : Json := .object
      [("type", .string "binary"), ("mimeType", .string "audio/mp3"), ("url", .string "https://example.test/a"),
        ("filename", .string "a.mp3")]
    let message : Message := { id := "m", role := .user, content := some (.parts [mirror, picture, other]) }
    ∃ upgraded,
      upgradeMessageContent message = { message with content := some (.parts upgraded) } ∧
        Upgrades (· ≠ "") [mirror, picture, other] upgraded ∧
        upgradeMessageContent (upgradeMessageContent message) = upgradeMessageContent message := by
  intro picture mirror other message
  apply upgradeMessageContent_keepsAttachments message [mirror, picture, other] rfl
  intro part member legacy key listed present
  rcases List.mem_cons.mp member with rfl | member
  · simp only [List.mem_cons, List.not_mem_nil, or_false] at listed
    rcases listed with rfl | rfl | rfl | rfl
    · exact absurd rfl present
    · exact absurd rfl present
    · exact ⟨"AAAA", rfl⟩
    · exact absurd rfl present
  · rcases List.mem_cons.mp member with rfl | member
    · cases legacy
    · cases List.mem_singleton.mp member
      simp only [List.mem_cons, List.not_mem_nil, or_false] at listed
      rcases listed with rfl | rfl | rfl | rfl
      · exact absurd rfl present
      · exact ⟨"https://example.test/a", rfl⟩
      · exact absurd rfl present
      · exact ⟨"a.mp3", rfl⟩

/-- An empty file name is not kept. -/
theorem emptyFilename_lost :
    let content : List Json :=
      [.object [("type", .string "binary"), ("mimeType", .string "image/png"), ("data", .string "AAAA"),
        ("filename", .string "")]]
    ¬ Upgrades (fun _ => True) content (upgradeContent content) := by
  intro content upgrades
  rcases upgrades.represented _ List.mem_cons_self rfl _ rfl with ⟨part, member, _, represents, _⟩
  cases List.mem_singleton.mp member
  have kept := represents.2.2.2.2 "" rfl trivial
  cases kept

end LegacyContent
end Middleware
end AgUi
