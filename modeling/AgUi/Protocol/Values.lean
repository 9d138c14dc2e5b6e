import Mathlib.Data.Rat.Defs
import AgUi.Library.OrderedMap

namespace AgUi
namespace Protocol

open Library

/-!
# Values carried by events and messages

Optional fields of the wire format come in two kinds.  A field the schema
types as optional is an `Option`: absent, or a value of its type.  The few
fields whose runtime `null` the code itself looks for are `Nullable`, since
there `null` and absence are different inputs.
-/

/-- A JSON value.  The members of an object stand in their order. -/
inductive Json where
  | null
  | bool (value : Bool)
  | number (value : Rat)
  | string (value : String)
  | array (items : List Json)
  | object (members : List (String × Json))

namespace Json

def member? (value : Json) (key : String) : Option Json :=
  match value with
  | object members => members.lookup key
  | _ => none

def isNull : Json -> Bool
  | null => true
  | _ => false

def isString : Json -> Bool
  | string _ => true
  | _ => false

def isObject : Json -> Bool
  | object _ => true
  | _ => false

def asString? : Json -> Option String
  | string value => some value
  | _ => none

end Json

/-- A field that may be left out, or be present with the value `null`. -/
inductive Nullable (A : Type) where
  | absent
  | null
  | value (content : A)
deriving DecidableEq

namespace Nullable

variable {A : Type}

/-- `field ?? undefined`: a `null` reads as an absent field. -/
def toOption : Nullable A -> Option A
  | absent => none
  | null => none
  | value content => some content

def ofOption : Option A -> Nullable A
  | none => absent
  | some content => value content

/-- `field === null`. -/
def isNull : Nullable A -> Bool
  | null => true
  | _ => false

/-- `field !== undefined`. -/
def isPresent : Nullable A -> Bool
  | absent => false
  | _ => true

/-- The field with a `null` removed. -/
def withoutNull : Nullable A -> Nullable A
  | null => absent
  | field => field

end Nullable

/-- The attribution tag `subagentRunId`. -/
abbrev Tag := Nullable String

/-! ## Metadata -/

abbrev Metadata := OrderedMap String Json

/-- Properties of an object that its schema does not describe. -/
abbrev Properties := OrderedMap String Json

/-- Folds `incoming` metadata into `existing`, key by key, last write winning. -/
def mergeMetadata (existing incoming : Option Metadata) : Option Metadata :=
  match incoming with
  | none => existing
  | some incoming =>
    match existing with
    | none => some incoming
    | some existing => some (existing.merge incoming)

@[simp] theorem none_mergeMetadata (incoming : Option Metadata) :
    mergeMetadata none incoming = incoming := by
  cases incoming <;> rfl

/-! ## Messages -/

inductive Role where
  | developer
  | system
  | assistant
  | user
  | tool
  | activity
  | reasoning
deriving DecidableEq

inductive TextMessageRole where
  | developer
  | system
  | assistant
  | user
deriving DecidableEq

def TextMessageRole.toRole : TextMessageRole -> Role
  | developer => .developer
  | system => .system
  | assistant => .assistant
  | user => .user

/-- Message content: text, a list of content parts, or an activity's object. -/
inductive Content where
  | text (value : String)
  | parts (items : List Json)
  | structured (value : Json)

structure FunctionCall where
  name : String
  arguments : String

structure ToolCall where
  id : String
  function : FunctionCall
  encryptedValue : Option String := none
  metadata : Option Metadata := none

/-- A message of any role.  The reducer writes fields of a message without
looking at its role, so the record holds every field a role may have. -/
structure Message where
  id : String
  role : Role
  name : Option String := none
  content : Option Content := none
  toolCalls : Option (List ToolCall) := none
  toolCallId : Option String := none
  activityType : Option String := none
  encryptedValue : Option String := none
  metadata : Option Metadata := none
  subagentRunId : Tag := .absent

namespace Message

/-- `message.toolCalls ?? []`. -/
def calls (message : Message) : List ToolCall :=
  message.toolCalls.getD []

/-- The text a streamed message holds so far; anything that is not a string
counts as no text. -/
def text (message : Message) : String :=
  match message.content with
  | some (.text value) => value
  | _ => ""

end Message

end Protocol
end AgUi
