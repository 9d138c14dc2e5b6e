import AgUi.Generator.Drawing

namespace AgUi
namespace Generator

open Library Library.Building

/-!
# What a generation pushes

The walk through the schema pushes what it makes.  Nothing it draws is left
over: from the first enum to the last message a generation hands on nothing,
so at its end every slot in use belongs to a block it wrote.
-/

variable [Casing]

/-! ## The walk -/

/-- Visiting a definition hands nothing on. -/
def Settles (visit : Text -> Build Unit) : Prop :=
  ∀ name before result, visit name before = .ok result -> Draws before result.2 []

section Walk

variable {defs : Definitions} {visit : Text -> Build Unit} (settles : Settles visit)

include settles

variable {depth : Nat}

omit [Casing] in
theorem draws_walk {type : TypeExpr} {before : Wiring} {result : Unit × Wiring}
    (done : walk defs visit depth type before = .ok result) : Draws before result.2 [] := by
  induction depth generalizing type before result with
  | zero => cases done
  | succ depth ih =>
    cases type with
    | ref name =>
      cases found : defs.get? name with
      | some definition =>
        cases definition with
        | «alias» target =>
          simp only [walk, found] at done
          exact ih done
        | object definition | union definition | enum definition =>
          simp only [walk, found] at done
          split at done
          · cases done
            exact .refl before
          · exact settles name before result done
      | none =>
        simp only [walk, found] at done
        split at done
        · cases done
          exact .refl before
        · exact settles name before result done
    | array items => exact ih done
    | union members =>
      exact forM_invariant (fun state => Draws before state [])
        (fun _ _ _ held round => held.append (ih round)) (Draws.refl before) done
    | string | integer | boolean | literal value | any | openMap | stringEnum =>
      cases done
      exact .refl before

omit [Casing] in
theorem draws_visitFields {fields : List Field} {before : Wiring} {result : Unit × Wiring}
    (done : fields.forM (visitField defs visit depth) before = .ok result) : Draws before result.2 [] :=
  forM_invariant (fun state => Draws before state [])
    (fun _ _ _ held round => held.append (draws_walk settles round)) (Draws.refl before) done

omit [Casing] in
theorem draws_visitDissolved {memberName : Text} {before : Wiring} {result : Unit × Wiring}
    (done : visitDissolved defs visit depth memberName before = .ok result) : Draws before result.2 [] := by
  rcases bind_ok_iff.mp done with ⟨marked, marking, rest⟩
  rcases bind_ok_iff.mp rest with ⟨found, lifted, more⟩
  rcases lift_ok_iff.mp lifted with ⟨definition, -, rfl⟩
  apply (draws_addDissolved marking).after
  cases definition with
  | object member => exact draws_visitFields settles more
  | union definition | enum definition | «alias» definition =>
    cases more
    exact .refl marked.2

/-! ## A oneof -/

variable {baseFieldNames : List Text}

theorem draws_emitArm {union : UnionDefinition} {oneofName : OneofName}
    {entries : List WireField} {memberName : Text} {start before : Wiring} {result : List WireField × Wiring}
    (draws : Draws start before (fieldSlots (slot (protoName union.name) oneofName.text) entries))
    (done : emitArm defs visit depth baseFieldNames union oneofName entries memberName before = .ok result) :
    Draws start result.2 (fieldSlots (slot (protoName union.name) oneofName.text) result.1) := by
  rcases bind_ok_iff.mp done with ⟨found, lifted, rest⟩
  rcases lift_ok_iff.mp lifted with ⟨member, -, rfl⟩
  cases literal : literalOf member union.discriminator with
  | none =>
    rw [literal] at rest
    exact absurd rest lift_refuse_ne_ok
  | some value =>
    rw [literal] at rest
    rcases bind_ok_iff.mp rest with ⟨message, making, more⟩
    rcases bind_ok_iff.mp more with ⟨pushed, pushing, more⟩
    rcases bind_ok_iff.mp more with ⟨marked, marking, more⟩
    rcases bind_ok_iff.mp more with ⟨visited, visiting, more⟩
    rcases bind_ok_iff.mp more with ⟨number, numbering, last⟩
    cases last
    have emitted := (makes_emitObjectMessage making).push pushing
    have reached := (emitted.append (draws_addEmitted marking)).append (draws_visitFields settles visiting)
    rw [fieldSlots_append]
    exact (draws.then_silent reached).append (draws_numberFor numbering)

theorem draws_emitOneof {union : UnionDefinition} {before : Wiring}
    {result : Unit × Wiring} (done : emitOneof defs visit depth baseFieldNames union before = .ok result) :
    Draws before result.2 [] := by
  rcases bind_ok_iff.mp done with ⟨entries, folded, rest⟩
  rcases bind_ok_iff.mp rest with ⟨reserved, reserving, pushing⟩
  have reserved' := reservedIn_ok reserving
  rw [reserved'.1] at pushing
  have draws := foldlM_invariant
    (fun state made => Draws before state
      (fieldSlots (slot (protoName union.name)
        (if union.name = ("PartSource" : Text) then OneofName.source else OneofName.part).text) made))
    (fun _ _ _ _ held round => draws_emitArm settles held round) (Draws.refl before) folded
  refine (makes_plain draws ?_ reserved'.2).push pushing
  intro entry
  simp only [MessageBody.block, oneofSlots, fieldSlots_nil, List.nil_append]
  exact mem_fieldSlots_sortFields _ _ entry

/-! ## A tagged message -/

def tagSlots (union : UnionDefinition) (enumName : Text) (tagging : Tagging) : List (Text × Nat) :=
  valueSlots enumName tagging.values ++ mapSlots (protoName union.name) tagging.merged

omit [Casing] settles in
theorem tagSlots_require (union : UnionDefinition) (enumName : Text) (tagging : Tagging) (wireName : Text)
    (required : Bool) :
    tagSlots union enumName (tagging.require wireName required) = tagSlots union enumName tagging := by
  cases required <;> rfl

theorem draws_tagField {union : UnionDefinition} {enumName : Text} {tagging : Tagging} {field : Field}
    {start before : Wiring} {result : Tagging × Wiring} (draws : Draws start before (tagSlots union enumName tagging))
    (done : tagField defs visit depth union tagging field before = .ok result) :
    Draws start result.2 (tagSlots union enumName result.1) := by
  unfold tagField at done
  split at done
  · cases done
    exact draws
  · rcases bind_ok_iff.mp done with ⟨visited, visiting, rest⟩
    have reached := draws.then_silent (draws_walk settles visiting)
    dsimp only at rest
    split at rest
    · cases rest
      rw [tagSlots_require]
      exact reached
    · rename_i absent
      rcases bind_ok_iff.mp rest with ⟨typed, lifted, more⟩
      rcases lift_ok_iff.mp lifted with ⟨wire, -, rfl⟩
      cases wire with
      | flatten union => exact absurd more lift_refuse_ne_ok
      | plain type repeated =>
        rcases bind_ok_iff.mp more with ⟨made, making, last⟩
        cases last
        rw [tagSlots_require]
        unfold tagSlots
        rw [mapSlots_set (Bool.eq_false_iff.mpr absent), ← List.append_assoc]
        exact reached.append (draws_makeField making).1

theorem draws_tagMember {union : UnionDefinition} {enumName : Text} {tagging : Tagging}
    {memberName : Text} {start before : Wiring} {result : Tagging × Wiring}
    (draws : Draws start before (tagSlots union enumName tagging))
    (done : tagMember defs visit depth union enumName tagging memberName before = .ok result) :
    Draws start result.2 (tagSlots union enumName result.1) := by
  rcases bind_ok_iff.mp done with ⟨marked, marking, rest⟩
  rcases bind_ok_iff.mp rest with ⟨found, lifted, more⟩
  rcases lift_ok_iff.mp lifted with ⟨member, -, rfl⟩
  cases literal : literalOf member union.discriminator with
  | none =>
    rw [literal] at more
    exact absurd more lift_refuse_ne_ok
  | some value =>
    rw [literal] at more
    rcases bind_ok_iff.mp more with ⟨number, numbering, folding⟩
    have numbered := (draws.then_silent (draws_addDissolved marking)).append (draws_numberFor numbering)
    refine foldlM_invariant (fun state tagged => Draws start state (tagSlots union enumName tagged))
      (fun _ _ _ _ held round => draws_tagField settles held round) (numbered.congr ?_) folding
    intro entry
    simp only [tagSlots, valueSlots, List.map_append, List.map_cons, List.map_nil, List.mem_append]
    tauto

omit [Casing] settles in
theorem Tagging.settle_name (tagging : Tagging) (members : List Text) (field : WireField) :
    (tagging.settle members field).name = field.name := rfl

omit [Casing] settles in
theorem Tagging.settle_number (tagging : Tagging) (members : List Text) (field : WireField) :
    (tagging.settle members field).number = field.number := rfl

theorem draws_emitTagged {union : UnionDefinition} {before : Wiring} {result : Unit × Wiring}
    (done : emitTagged defs visit depth union before = .ok result) : Draws before result.2 [] := by
  rcases bind_ok_iff.mp done with ⟨tagging, folded, rest⟩
  rcases bind_ok_iff.mp rest with ⟨enumReserved, enumReserving, rest⟩
  rcases bind_ok_iff.mp rest with ⟨enumPushed, enumPushing, rest⟩
  rcases bind_ok_iff.mp rest with ⟨tag, making, rest⟩
  rcases bind_ok_iff.mp rest with ⟨reserved, reserving, pushing⟩
  have enumReserved' := reservedIn_ok enumReserving
  have reserved' := reservedIn_ok reserving
  rw [enumReserved'.1] at enumPushing
  rw [reserved'.1] at pushing
  have draws := foldlM_invariant
    (fun state tagged => Draws before state (tagSlots union (protoName union.name ++ "Type") tagged))
    (fun _ _ _ _ held round => draws_tagMember settles held round) (Draws.refl before) folded
  have listed : ∀ entry, entry ∈ valueSlots (protoName union.name ++ "Type") (sortValues tagging.1.values) ++
      mapSlots (protoName union.name) tagging.1.merged ↔
        entry ∈ tagSlots union (protoName union.name ++ "Type") tagging.1 := by
    intro entry
    rw [tagSlots, List.mem_append, List.mem_append, mem_valueSlots_sortValues]
  have pushed : Draws before enumPushed.2 (mapSlots (protoName union.name) tagging.1.merged) := by
    refine draws_pushEnum ?_ ?_ enumPushing
    · exact draws.congr listed
    · exact {
        numbered := fun entry member => (draws.congr listed).numbered entry (List.mem_append_left _ member)
        withheld := enumReserved'.2
        shaped := shaped_enum _ }
  refine (makes_plain (pushed.append (draws_makeField making).1) ?_ reserved'.2).push pushing
  intro entry
  simp only [MessageBody.block, oneofSlots, List.append_nil]
  rw [mem_fieldSlots_sortFields, ← List.singleton_append, fieldSlots_append,
    fieldSlots_map (tagging.1.settle_name union.members) (tagging.1.settle_number union.members),
    List.mem_append, List.mem_append]
  exact or_comm

/-! ## A definition -/

theorem draws_emitUnion {name : Text} {union : UnionDefinition} {before : Wiring} {result : Unit × Wiring}
    (done : emitUnion defs visit depth baseFieldNames name union before = .ok result) :
    Draws before result.2 [] := by
  have dissolve : ∀ {outcome : Unit × Wiring},
      union.members.forM (visitDissolved defs visit depth) before = .ok outcome -> Draws before outcome.2 [] :=
    fun round => forM_invariant (fun state => Draws before state [])
      (fun _ _ _ held round => held.append (draws_visitDissolved settles round)) (Draws.refl before) round
  cases strategy : unionStrategies.lookup name with
  | none =>
    simp only [emitUnion, strategy] at done
    exact absurd done lift_refuse_ne_ok
  | some strategyFound =>
    cases strategyFound <;> simp only [emitUnion, strategy] at done
    case envelope => exact absurd done lift_refuse_ne_ok
    case flatten => exact dissolve done
    case merge =>
      rcases bind_ok_iff.mp done with ⟨dissolved, dissolving, rest⟩
      rcases bind_ok_iff.mp rest with ⟨message, making, pushing⟩
      exact (dissolve dissolving).append ((makes_mergeUnion making).push pushing)
    case oneof => exact draws_emitOneof settles done
    case tagged => exact draws_emitTagged settles done

theorem draws_emitDefinition {name : Text} {definition : Definition}
    {before : Wiring} {result : Unit × Wiring}
    (done : emitDefinition defs visit depth baseFieldNames name definition before = .ok result) :
    Draws before result.2 [] := by
  cases definition with
  | «alias» definition | enum definition =>
    cases done
    exact .refl before
  | union union => exact draws_emitUnion settles done
  | object object =>
    rcases bind_ok_iff.mp done with ⟨visited, visiting, rest⟩
    rcases bind_ok_iff.mp rest with ⟨message, making, pushing⟩
    exact (draws_visitFields settles visiting).append ((makes_emitObjectMessage making).push pushing)

end Walk

theorem settles_visit (defs : Definitions) (baseFieldNames : List Text) (depth : Nat) :
    Settles (visit defs baseFieldNames depth) := by
  induction depth with
  | zero =>
    intro name before result done
    cases done
  | succ depth ih =>
    intro name before result done
    rcases bind_ok_iff.mp done with ⟨known, asking, rest⟩
    cases asking
    dsimp only at rest
    split at rest
    · cases rest
      exact .refl before
    · rcases bind_ok_iff.mp rest with ⟨found, lifted, more⟩
      rcases lift_ok_iff.mp lifted with ⟨definition, -, rfl⟩
      rcases bind_ok_iff.mp more with ⟨marked, marking, last⟩
      exact (draws_addEmitted marking).append (draws_emitDefinition ih last)

/-! ## A generation -/

omit [Casing] in
theorem draws_emitEventType {definition : EnumDefinition} {before : Wiring} {result : Unit × Wiring}
    (done : emitEventType definition before = .ok result) : Draws before result.2 [] := by
  rcases bind_ok_iff.mp done with ⟨values, making, rest⟩
  rcases bind_ok_iff.mp rest with ⟨reserved, reserving, pushing⟩
  have reserved' := reservedIn_ok reserving
  rw [reserved'.1] at pushing
  have draws : Draws before values.2 (valueSlots "EventType" values.1) := by
    refine draws_mapM rfl (fun _ _ => List.map_append) ?_ making
    intro value state outcome round
    rcases bind_ok_iff.mp round with ⟨number, numbering, last⟩
    cases last
    exact draws_numberFor numbering
  have sorted : Draws before values.2 (valueSlots "EventType" (sortValues values.1) ++ []) := by
    rw [List.append_nil]
    exact draws.congr (mem_valueSlots_sortValues _ _)
  refine draws_pushEnum sorted ?_ pushing
  exact {
    numbered := (List.forall_mem_append.mp sorted.numbered).1
    withheld := reserved'.2
    shaped := shaped_enum _ }

theorem draws_emitBaseEvent {defs : Definitions} {depth : Nat} {mixin : ObjectDefinition} {before : Wiring}
    {result : Unit × Wiring} (done : emitBaseEvent defs depth mixin before = .ok result) :
    Draws before result.2 [] := by
  rcases bind_ok_iff.mp done with ⟨fields, making, rest⟩
  rcases bind_ok_iff.mp rest with ⟨reserved, reserving, rest⟩
  rcases bind_ok_iff.mp rest with ⟨pushed, pushing, marking⟩
  have reserved' := reservedIn_ok reserving
  rw [reserved'.1] at pushing
  have draws : Draws before fields.2 (fieldSlots "BaseEvent" fields.1) := by
    refine draws_mapM rfl (fieldSlots_append _) ?_ making
    intro field state outcome round
    rcases bind_ok_iff.mp round with ⟨typed, lifted, last⟩
    rcases lift_ok_iff.mp lifted with ⟨wire, -, rfl⟩
    exact (draws_makeField last).1
  refine ((makes_plain draws ?_ reserved'.2).push pushing).after (draws_addEmitted marking)
  intro entry
  simp only [MessageBody.block, oneofSlots, List.append_nil]
  exact mem_fieldSlots_sortFields _ _ entry

theorem draws_emitEvent {defs : Definitions} {depth : Nat} {baseFieldNames : List Text} {eventName : Text}
    {before : Wiring} {result : Unit × Wiring}
    (done : emitEvent defs depth baseFieldNames eventName before = .ok result) : Draws before result.2 [] := by
  rcases bind_ok_iff.mp done with ⟨found, lifted, rest⟩
  rcases lift_ok_iff.mp lifted with ⟨definition, -, rfl⟩
  rcases bind_ok_iff.mp rest with ⟨message, making, more⟩
  rcases bind_ok_iff.mp more with ⟨pushed, pushing, marking⟩
  exact ((makes_emitObjectMessage making).push pushing).append (draws_addEmitted marking)

omit [Casing] in
theorem draws_emitEnvelope {eventUnion : UnionDefinition} {envelope : List (Text × Text)} {before : Wiring}
    {result : Unit × Wiring} (done : emitEnvelope eventUnion envelope before = .ok result) :
    Draws before result.2 [] := by
  rcases bind_ok_iff.mp done with ⟨entries, making, rest⟩
  rcases bind_ok_iff.mp rest with ⟨reserved, reserving, rest⟩
  rcases bind_ok_iff.mp rest with ⟨pushed, pushing, marking⟩
  have reserved' := reservedIn_ok reserving
  rw [reserved'.1] at pushing
  have draws : Draws before entries.2 (fieldSlots (slot "Event" OneofName.event.text) entries.1) := by
    refine draws_mapM rfl (fieldSlots_append _) ?_ making
    intro entry state outcome round
    rcases bind_ok_iff.mp round with ⟨number, numbering, last⟩
    cases last
    exact draws_numberFor numbering
  refine ((makes_plain draws ?_ reserved'.2).push pushing).after (draws_addEmitted marking)
  intro entry
  simp only [MessageBody.block, oneofSlots, fieldSlots_nil, List.nil_append]
  exact mem_fieldSlots_sortFields _ _ entry

theorem draws_visitEvent {defs : Definitions} {depth : Nat} {baseFieldNames : List Text} {eventName : Text}
    {before : Wiring} {result : Unit × Wiring}
    (done : visitEvent defs depth baseFieldNames eventName before = .ok result) : Draws before result.2 [] := by
  rcases bind_ok_iff.mp done with ⟨found, lifted, rest⟩
  rcases lift_ok_iff.mp lifted with ⟨definition, -, rfl⟩
  cases definition with
  | object definition => exact draws_visitFields (settles_visit defs baseFieldNames depth) rest
  | union definition | enum definition | «alias» definition =>
    cases rest
    exact .refl before

omit [Casing] in
theorem draws_assertEveryDefinitionIsOnTheWire {model : ProtocolModel} {before : Wiring} {result : Unit × Wiring}
    (done : assertEveryDefinitionIsOnTheWire model before = .ok result) : Draws before result.2 [] := by
  unfold assertEveryDefinitionIsOnTheWire at done
  dsimp only at done
  split at done
  · cases done
    exact .refl before
  · cases done

/-- A whole generation leaves nothing at hand. -/
theorem draws_wire {model : ProtocolModel} {defs : Definitions} {depth : Nat} {eventUnion : UnionDefinition}
    {baseMixin : ObjectDefinition} {eventType : EnumDefinition} {before : Wiring} {result : Unit × Wiring}
    (done : wire model defs depth eventUnion baseMixin eventType before = .ok result) : Draws before result.2 [] := by
  rcases bind_ok_iff.mp done with ⟨typed, typing, rest⟩
  rcases bind_ok_iff.mp rest with ⟨based, basing, rest⟩
  rcases bind_ok_iff.mp rest with ⟨emitted, emitting, rest⟩
  rcases bind_ok_iff.mp rest with ⟨enveloped, enveloping, rest⟩
  rcases bind_ok_iff.mp rest with ⟨visited, visiting, asserting⟩
  have events := forM_invariant (fun state => Draws based.2 state [])
    (fun _ _ _ held round => held.append (draws_emitEvent round)) (Draws.refl based.2) emitting
  have visits := forM_invariant (fun state => Draws enveloped.2 state [])
    (fun _ _ _ held round => held.append (draws_visitEvent round)) (Draws.refl enveloped.2) visiting
  have start := (draws_emitEventType typing).append (draws_emitBaseEvent basing)
  exact ((start.append events).append (draws_emitEnvelope enveloping)).append
    (visits.append (draws_assertEveryDefinitionIsOnTheWire asserting))

end Generator
end AgUi
