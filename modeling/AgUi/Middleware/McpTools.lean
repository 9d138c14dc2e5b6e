import Mathlib.Algebra.Group.Nat.Defs
import Mathlib.Data.List.DropRight
import AgUi.Library.Seeking
import AgUi.Protocol.Values

namespace AgUi
namespace Middleware
namespace Mcp

open Library Protocol

/-!
# The tools of MCP servers

Every tool an MCP server offers is put before the agent under a name of its
own: the server and the tool, made of characters that every provider takes and
short enough for them.  A name in use gets a number, for which the name before
it is cut short.  What the name stands for is looked up, never read off it.
-/

/-- An array of the language: its length is below 2^32. -/
structure JsArray (A : Type) where
  items : List A
  bounded : items.length < 2 ^ 32

def maxToolNameLength : Nat := 64

def mcpToolNamePrefix : String := "mcp"

structure Tool where
  name : String
  description : String
  parameters : Json

structure MCPClientConfig where
  type : String
  url : String
  headers : List (String × String) := []
  serverId : Option String := none

structure McpTool where
  name : String
  description : Option String := none
  inputSchema : Option Json := none

structure ListedTool where
  mcpTool : McpTool
  serverConfig : MCPClientConfig
  serverId : String

structure ResolvedMCPTool where
  tool : Tool
  originalName : String
  serverConfig : MCPClientConfig

/-! ## Names -/

/-- `[a-zA-Z0-9_-]` -/
def Allowed (c : Char) : Bool :=
  c.isAlphanum || c = '_' || c = '-'

/-- Each UTF-16 unit of a character that is not allowed is replaced. -/
def sanitizeSegment (segment : String) : List Char :=
  segment.toList.flatMap fun c =>
    if Allowed c then [c] else if c.toNat < 2 ^ 16 then ['_'] else ['_', '_']

/-- `text.slice(0, stop)`; a negative `stop` counts from the end. -/
def slice (text : List Char) (stop : Int) : List Char :=
  if stop < 0 then text.take (text.length + stop).toNat else text.take stop.toNat

def baseName (serverId toolName : String) : List Char :=
  mcpToolNamePrefix.toList ++ "__".toList ++ sanitizeSegment serverId ++ "__".toList ++ sanitizeSegment toolName

/-- The candidate with a number. -/
def numbered (base : List Char) (number : Nat) : String :=
  let suffix := '_' :: number.repr.toList
  String.ofList (slice base ((maxToolNameLength : Int) - suffix.length) ++ suffix)

/-- `makeUniqueToolName`; the loop over the numbers has no bound of its own. -/
def makeUniqueToolName (fuel : Nat) (serverId toolName : String) (used : List String) : Option String :=
  let base := baseName serverId toolName
  let candidate := String.ofList (slice base maxToolNameLength)
  if candidate ∈ used then seek (numbered base) used fuel 1 else some candidate

/-! ## Listing and resolving -/

/-- The tools of every server that could be listed, `index` counting the servers. -/
def listed : Nat -> List (MCPClientConfig × Option (JsArray McpTool)) -> List ListedTool
  | _, [] => []
  | index, (serverConfig, tools) :: rest =>
    let serverId := serverConfig.serverId.getD ("server" ++ index.repr)
    ((tools.map JsArray.items).getD []).map (fun mcpTool => { mcpTool, serverConfig, serverId }) ++
      listed (index + 1) rest

/-- `doListAllTools`; a push to a full array throws, and the server is skipped like one that fails. -/
def listAllTools (mcpServers : JsArray (MCPClientConfig × Option (JsArray McpTool))) : JsArray ListedTool where
  items := (listed 0 mcpServers.items).take (2 ^ 32 - 1)
  bounded := lt_of_le_of_lt (List.length_take_le _ _) (by decide)

def resolvedTool (entry : ListedTool) (name : String) : ResolvedMCPTool where
  tool :=
    { name
      description := entry.mcpTool.description.getD ""
      parameters := entry.mcpTool.inputSchema.getD
        (.object [("type", .string "object"), ("properties", .object [])]) }
  originalName := entry.mcpTool.name
  serverConfig := entry.serverConfig

/-- The body of `resolveTools`, from the names in use on. -/
def resolveFrom (fuel : Nat) : List String -> List ListedTool -> Option (List ResolvedMCPTool)
  | _, [] => some []
  | used, entry :: rest =>
    match makeUniqueToolName fuel entry.serverId entry.mcpTool.name used with
    | none => none
    | some name => (resolveFrom fuel (name :: used) rest).map fun others => resolvedTool entry name :: others

def resolveTools (fuel : Nat) (inputTools : JsArray Tool) (entries : JsArray ListedTool) :
    Option (List ResolvedMCPTool) :=
  resolveFrom fuel (inputTools.items.map Tool.name) entries.items

/-- The map from exposed name to origin. -/
def toolMapOf (resolved : List ResolvedMCPTool) : OrderedMap String ResolvedMCPTool :=
  OrderedMap.ofList (resolved.map fun tool => (tool.tool.name, tool))

/-- What the resolution owes to the provider, the input and the servers. -/
structure Routable (inputTools : List Tool) (entries : List ListedTool) (resolved : List ResolvedMCPTool) : Prop where
  distinct : (resolved.map fun tool => tool.tool.name).Nodup
  /-- No name is one of the input's. -/
  fresh : ∀ tool ∈ resolved, tool.tool.name ∉ inputTools.map Tool.name
  short : ∀ tool ∈ resolved, tool.tool.name.length ≤ maxToolNameLength
  allowed : ∀ tool ∈ resolved, ∀ c ∈ tool.tool.name.toList, Allowed c = true
  complete : resolved.length = entries.length
  /-- Each name leads back to the server and the tool it was made from. -/
  routed : ∀ (position : Nat) (entry : ListedTool), entries[position]? = some entry ->
    ∃ tool, resolved[position]? = some tool ∧
      (toolMapOf resolved).get? tool.tool.name = some tool ∧
      tool.originalName = entry.mcpTool.name ∧ tool.serverConfig = entry.serverConfig

/-! ## Candidates -/

theorem allowed_sanitizeSegment (segment : String) : ∀ c ∈ sanitizeSegment segment, Allowed c = true := by
  intro c member
  rcases List.mem_flatMap.mp member with ⟨given, _, replaced⟩
  split at replaced
  · rename_i allowed
    cases List.mem_singleton.mp replaced
    exact allowed
  · have underscore : c = '_' := by
      split at replaced <;> simpa using replaced
    rw [underscore]
    decide

theorem allowed_baseName (serverId toolName : String) :
    ∀ c ∈ baseName serverId toolName, Allowed c = true := by
  intro c member
  have lead : mcpToolNamePrefix.toList.all Allowed = true := by decide
  have bars : "__".toList.all Allowed = true := by decide
  simp only [baseName, List.mem_append] at member
  rcases member with (((inPrefix | bar) | server) | bar) | tool
  · exact List.all_eq_true.mp lead c inPrefix
  · exact List.all_eq_true.mp bars c bar
  · exact allowed_sanitizeSegment _ c server
  · exact List.all_eq_true.mp bars c bar
  · exact allowed_sanitizeSegment _ c tool

theorem allowed_repr (number : Nat) : ∀ c ∈ number.repr.toList, Allowed c = true := by
  intro c member
  rw [Nat.toList_repr] at member
  have digit : c.isDigit = true := Nat.isDigit_of_mem_toDigits (by decide) (by decide) member
  rw [Allowed, Char.isAlphanum, digit]
  simp

theorem underscore_notMem_repr (number : Nat) : '_' ∉ number.repr.toList := by
  rw [Nat.toList_repr]
  exact Nat.underscore_not_in_toDigits

theorem mem_slice {text : List Char} {stop : Int} {c : Char} (member : c ∈ slice text stop) : c ∈ text := by
  unfold slice at member
  split at member
  · exact List.mem_of_mem_take member
  · exact List.mem_of_mem_take member

theorem length_slice (text : List Char) {stop : Int} (positive : 0 ≤ stop) :
    ((slice text stop).length : Int) ≤ stop := by
  unfold slice
  rw [if_neg (Int.not_lt.mpr positive), List.length_take]
  omega

/-- The number of a candidate can be read off behind the last underscore. -/
theorem numbered_inj (base : List Char) {one other : Nat} (same : numbered base one = numbered base other) :
    one = other := by
  have behind : ∀ (front : List Char) (number : Nat),
      (front ++ '_' :: number.repr.toList).rtakeWhile (fun c => c ≠ '_') = number.repr.toList := by
    intro front number
    have digits : ∀ c ∈ number.repr.toList.reverse, decide (c ≠ '_') = true := by
      intro c member
      apply decide_eq_true
      rintro rfl
      exact underscore_notMem_repr number (List.mem_reverse.mp member)
    rw [List.rtakeWhile, List.reverse_append, List.reverse_cons, List.append_assoc,
      List.takeWhile_append_of_pos digits]
    simp
  have texts := congrArg String.toList same
  simp only [numbered, String.toList_ofList] at texts
  have numbers := congrArg (List.rtakeWhile fun c => c ≠ '_') texts
  rw [behind, behind, Nat.toList_repr, Nat.toList_repr] at numbers
  have values := congrArg (fun digits => Nat.ofDigitChars 10 digits 0) numbers
  simpa using values

theorem length_numbered {base : List Char} {number : Nat} (small : number < 10 ^ 63) :
    (numbered base number).length ≤ maxToolNameLength := by
  have digits : number.repr.toList.length ≤ 63 := by
    rw [Nat.toList_repr]
    exact (Nat.length_toDigits_le_iff (by decide) (by decide)).mpr small
  have front : ((slice base ((maxToolNameLength : Int) - ('_' :: number.repr.toList).length)).length : Int) ≤
      (maxToolNameLength : Int) - ('_' :: number.repr.toList).length := by
    apply length_slice
    simp only [List.length_cons, maxToolNameLength]
    omega
  simp only [numbered, String.length_ofList, List.length_append]
  omega

theorem allowed_numbered {base : List Char} (allowed : ∀ c ∈ base, Allowed c = true) (number : Nat) :
    ∀ c ∈ (numbered base number).toList, Allowed c = true := by
  intro c member
  rw [numbered, String.toList_ofList] at member
  rcases List.mem_append.mp member with front | suffix
  · exact allowed c (mem_slice front)
  · rcases List.mem_cons.mp suffix with rfl | digit
    · decide
    · exact allowed_repr number c digit

/-- A name is found, whatever is in use. -/
theorem makeUniqueToolName_finds (serverId toolName : String) (used : List String) (room : used.length < 2 ^ 33)
    {fuel : Nat} (enough : 2 ^ 33 ≤ fuel) :
    ∃ name, makeUniqueToolName fuel serverId toolName used = some name ∧ name ∉ used ∧
      name.length ≤ maxToolNameLength ∧ ∀ c ∈ name.toList, Allowed c = true := by
  have allowed := allowed_baseName serverId toolName
  unfold makeUniqueToolName
  dsimp only
  split
  · rcases seek_finds (fun one other => numbered_inj (baseName serverId toolName))
      (Nat.lt_succ_self used.length) 1 with ⟨name, found⟩
    rcases seek_sound found with ⟨free, number, later, early, rfl⟩
    have small : number < 10 ^ 63 := by omega
    exact ⟨_, seek_mono found (by omega), free, length_numbered small, allowed_numbered allowed number⟩
  · rename_i free
    refine ⟨_, rfl, free, ?_, ?_⟩
    · have short := length_slice (baseName serverId toolName) (Int.natCast_nonneg maxToolNameLength)
      rw [String.length_ofList]
      omega
    · intro c member
      rw [String.toList_ofList] at member
      exact allowed c (mem_slice member)

/-! ## Resolution -/

theorem resolveFrom_finds {fuel : Nat} (enough : 2 ^ 33 ≤ fuel) (entries : List ListedTool) (used : List String)
    (room : used.length + entries.length < 2 ^ 33) :
    ∃ names, resolveFrom fuel used entries = some (List.zipWith resolvedTool entries names) ∧
      names.length = entries.length ∧ names.Nodup ∧
      ∀ name ∈ names, name ∉ used ∧ name.length ≤ maxToolNameLength ∧
        ∀ c ∈ name.toList, Allowed c = true := by
  induction entries generalizing used with
  | nil => exact ⟨[], rfl, rfl, List.nodup_nil, fun name member => absurd member List.not_mem_nil⟩
  | cons entry rest ih =>
    rw [List.length_cons] at room
    rcases makeUniqueToolName_finds entry.serverId entry.mcpTool.name used (by omega) enough with
      ⟨name, found, free, short, allowed⟩
    have roomLeft : (name :: used).length + rest.length < 2 ^ 33 := by
      rw [List.length_cons]
      omega
    rcases ih (name :: used) roomLeft with
      ⟨names, resolved, lengths, distinct, each⟩
    refine ⟨name :: names, ?_, congrArg Nat.succ lengths, ?_, ?_⟩
    · rw [resolveFrom, found]
      dsimp only
      rw [resolved]
      rfl
    · exact List.nodup_cons.mpr ⟨fun member => (each name member).1 List.mem_cons_self, distinct⟩
    · intro other member
      rcases List.mem_cons.mp member with rfl | later
      · exact ⟨free, short, allowed⟩
      · exact ⟨fun inUse => (each other later).1 (List.mem_cons_of_mem _ inUse), (each other later).2⟩

theorem names_zipWith {entries : List ListedTool} {names : List String} (lengths : names.length = entries.length) :
    (List.zipWith resolvedTool entries names).map (fun tool => tool.tool.name) = names := by
  induction entries generalizing names with
  | nil => rw [List.length_eq_zero_iff.mp lengths]; rfl
  | cons entry rest ih =>
    cases names with
    | nil => cases lengths
    | cons name others =>
      rw [List.zipWith_cons_cons, List.map_cons, ih (Nat.succ.inj lengths)]
      rfl

theorem get?_toolMapOf {resolved : List ResolvedMCPTool} (distinct : (resolved.map fun tool => tool.tool.name).Nodup)
    {tool : ResolvedMCPTool} (member : tool ∈ resolved) :
    (toolMapOf resolved).get? tool.tool.name = some tool := by
  have nodup : ((resolved.map fun tool => (tool.tool.name, tool)).map Prod.fst).Nodup := by
    rw [List.map_map]
    exact distinct
  rw [toolMapOf, OrderedMap.get?_ofList nodup]
  exact OrderedMap.lookup_eq_some_of_mem nodup (List.mem_map_of_mem (f := fun tool => (tool.tool.name, tool)) member)

/-- Whatever the input's tools are called and whatever the servers offer, the
resolution ends, and every tool gets a name of its own that leads back to it. -/
theorem resolveTools_routable (inputTools : JsArray Tool)
    (mcpServers : JsArray (MCPClientConfig × Option (JsArray McpTool))) :
    ∃ enough, ∀ fuel, enough ≤ fuel -> ∃ resolved,
      resolveTools fuel inputTools (listAllTools mcpServers) = some resolved ∧
        Routable inputTools.items (listAllTools mcpServers).items resolved := by
  refine ⟨2 ^ 33, ?_⟩
  intro fuel enough
  have first := inputTools.bounded
  have second := (listAllTools mcpServers).bounded
  rcases resolveFrom_finds enough (listAllTools mcpServers).items (inputTools.items.map Tool.name)
    (by rw [List.length_map]; omega) with ⟨names, resolved, lengths, distinct, each⟩
  have spelled := names_zipWith lengths
  have named : ∀ tool ∈ List.zipWith resolvedTool (listAllTools mcpServers).items names,
      tool.tool.name ∈ names := by
    intro tool member
    rw [← spelled]
    exact List.mem_map_of_mem (f := fun tool => tool.tool.name) member
  have apart :
      ((List.zipWith resolvedTool (listAllTools mcpServers).items names).map fun tool => tool.tool.name).Nodup := by
    rw [spelled]
    exact distinct
  refine ⟨_, resolved, ?_⟩
  exact {
    distinct := apart
    fresh := fun tool member => (each _ (named tool member)).1
    short := fun tool member => (each _ (named tool member)).2.1
    allowed := fun tool member => (each _ (named tool member)).2.2
    complete := by rw [List.length_zipWith, lengths, Nat.min_self]
    routed := by
      intro position entry there
      have inside : position < names.length := by
        rw [lengths]
        exact (List.getElem?_eq_some_iff.mp there).1
      have made : (List.zipWith resolvedTool (listAllTools mcpServers).items names)[position]? =
          some (resolvedTool entry names[position]) := by
        rw [List.getElem?_zipWith, there, List.getElem?_eq_getElem inside]
      refine ⟨_, made, ?_, rfl, rfl⟩
      exact get?_toolMapOf apart (List.mem_of_getElem? made) }

end Mcp
end Middleware
end AgUi
