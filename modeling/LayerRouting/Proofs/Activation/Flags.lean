import LayerRouting.Proofs.RouteSet.Live
import LayerRouting.Proofs.RouteSet.Reading

/-!
# Recording flags

A plan records the flags of some route sets one after the other, each in the log that the
ones before it left. `Draft.flagsSet_setFlags` says what the resolved tree is then, for every
log: each named item has its flag, and nothing else that is read has changed. From that
follows what the route sets are (`Document.FlagsSet`): those that were not named are as
before, and a named one has its flag, unless its value was no object and no longer reads.
-/

namespace LayerRouting

open Segment (IsName)

/-- The name of the field that holds whether a route set is active is never an index. -/
theorem isName_active : IsName "active" :=
  RouteSet.isName_of_mem_memberNames (by decide)

/-! ## Trees -/

/-- Whether a collection comes from another by giving some items a flag, and by nothing else
that shows in items or named fields. -/
structure Json.FlagsSet (flags : List (String × Bool)) (before after : Json) : Prop where
  items : ∀ id, id ∉ flags.map Prod.fst -> after.get? id = before.get? id
  flag : ∀ id active, (id, active) ∈ flags -> after.field? id "active" = some (.bool active)
  fields : ∀ id name, IsName name -> name ≠ "active" -> after.field? id name = before.field? id name

namespace Json

/-- Without flags nothing changes. -/
theorem FlagsSet.nil (tree : Json) : FlagsSet [] tree tree where
  items _ _ := rfl
  flag _ _ member := nomatch member
  fields _ _ _ _ := rfl

/-- One flag, and then the flags of other items. -/
theorem FlagsSet.cons {id : String} {active : Bool} {rest : List (String × Bool)}
    (fresh : id ∉ rest.map Prod.fst) {before middle after : Json}
    (first : FieldSet id "active" (.bool active) before middle)
    (later : FlagsSet rest middle after) : FlagsSet ((id, active) :: rest) before after where
  items other unnamed := by
    obtain ⟨elsewhere, unnamedLater⟩ := not_or.mp (mt List.mem_cons.mpr unnamed)
    rw [later.items other unnamedLater, first.agree.items other elsewhere]
  flag other flag member := by
    rcases List.mem_cons.mp member with same | member
    · cases same
      rw [field?, later.items id fresh]
      exact sameAt_bool_iff.mp first.reads
    · exact later.flag other flag member
  fields other name named distinct := by
    rw [later.fields other name named distinct]
    by_cases same : other = id
    · subst same
      exact (first.agree.fields name named distinct).symm
    · rw [field?, field?, first.agree.items other same]

end Json

/-! ## Drafts -/

namespace Draft

/-- The document that a draft would be committed as. -/
def document (draft : Draft) : Document Json :=
  ⟨draft.defaults, draft.log⟩

/-- Records flags one after the other. -/
def setFlags (draft : Draft) (flags : List (String × Bool)) : Draft :=
  flags.foldl (fun draft flag => draft.setActive flag.1 flag.2) draft

/-- Recording flags touches no defaults. -/
theorem defaults_setFlags (draft : Draft) (flags : List (String × Bool)) :
    (draft.setFlags flags).defaults = draft.defaults :=
  List.foldlRecOn (motive := fun current : Draft => current.defaults = draft.defaults) _ _ rfl
    fun current same _ _ => (defaults_setPath current _ _).trans same

variable {draft : Draft}

/-- Recording a flag leaves a collection a collection. -/
theorem isCollection_setActive (collection : draft.document.IsCollection) (id : String)
    (active : Bool) : (draft.setActive id active).document.IsCollection := by
  have defaults : (draft.setActive id active).defaults = draft.defaults :=
    defaults_setPath draft _ _
  exact ⟨by simpa [document, defaults] using collection.object,
    by simpa [document, defaults] using collection.distinct,
    isBelowRoot_setPath collection.belowRoot (by simp [Path.item]) _⟩

/-- Recording the flags of different items sets them in the resolved tree, and nothing else. -/
theorem flagsSet_setFlags (collection : draft.document.IsCollection)
    {flags : List (String × Bool)} (distinct : (flags.map Prod.fst).Nodup) :
    (draft.setFlags flags).document.IsCollection
      ∧ (draft.setFlags flags).defaults = draft.defaults
      ∧ Json.FlagsSet flags draft.resolved (draft.setFlags flags).resolved := by
  induction flags generalizing draft with
  | nil => exact ⟨collection, rfl, .nil _⟩
  | cons flag rest inductionHypothesis =>
      obtain ⟨fresh, others⟩ := List.nodup_cons.mp distinct
      have first : Json.FieldSet flag.1 "active" (.bool flag.2) draft.resolved
          (draft.setActive flag.1 flag.2).resolved :=
        fieldSet_setField collection.object collection.belowRoot flag.1 isName_active _
      obtain ⟨laterCollection, laterDefaults, later⟩ :=
        inductionHypothesis (isCollection_setActive collection flag.1 flag.2) others
      exact ⟨laterCollection, laterDefaults.trans (defaults_setPath draft _ _),
        later.cons fresh first⟩

end Draft

/-! ## Route sets -/

/-- A document in whose log flags were recorded. -/
def Document.withFlags (document : Document Json) (supply : IdSupply)
    (flags : List (String × Bool)) : Document Json :=
  { document with log := ((Draft.ofDocument document supply).setFlags flags).log }

/-- The tree of a document in whose log flags were recorded. -/
theorem Document.resolved_withFlags (document : Document Json) (supply : IdSupply)
    (flags : List (String × Bool)) :
    (document.withFlags supply flags).resolved
      = ((Draft.ofDocument document supply).setFlags flags).resolved := by
  rw [Draft.resolved, Draft.defaults_setFlags]
  rfl

/-- Whether a collection comes from another with the same defaults by giving some items a
flag, and by nothing else that shows in items or named fields. -/
structure Document.FlagsSet (flags : List (String × Bool)) (before after : Document Json) :
    Prop where
  beforeCollection : before.IsCollection
  afterCollection : after.IsCollection
  defaults : after.defaults = before.defaults
  resolved : Json.FlagsSet flags before.resolved after.resolved

namespace RouteSets

/-- A route set is live when its value reads and its default does not keep it from being
read. -/
theorem liveSet?_ofDocument_iff {document : Document Json} (collection : document.IsCollection)
    {id : String} {set : RouteSet} :
    (ofDocument document).liveSet? id = some set
      ↔ (Item.readOptional? RouteSet.ofJson? (document.defaults.get? id)).isSome
        ∧ ∃ value, document.resolved.get? id = some value ∧ RouteSet.ofJson? value = some set := by
  rw [liveSet?_eq, values?_ofDocument collection]
  cases document.resolved.get? id with
  | none => simp [bind_fst_readValues?_none]
  | some value =>
      rw [readValues?_some]
      cases reads : RouteSet.ofJson? value <;>
        cases Item.readOptional? RouteSet.ofJson? (document.defaults.get? id) <;> simp [reads]

end RouteSets

namespace Document.FlagsSet

variable {flags : List (String × Bool)} {before after : Document Json}

/-- Recording the flags of different items sets them in the document. -/
theorem of_setFlags {document : Document Json} (collection : document.IsCollection)
    (supply : IdSupply) (distinct : (flags.map Prod.fst).Nodup) :
    FlagsSet flags document
      { document with log := ((Draft.ofDocument document supply).setFlags flags).log } := by
  have drafted : (Draft.ofDocument document supply).document.IsCollection := collection
  obtain ⟨recorded, defaults, resolved⟩ := Draft.flagsSet_setFlags drafted distinct
  have same : (Draft.setFlags (Draft.ofDocument document supply) flags).document
      = { document with log := ((Draft.ofDocument document supply).setFlags flags).log } := by
    rw [Draft.document, defaults]
    rfl
  exact ⟨collection, same ▸ recorded, rfl, same ▸ resolved⟩

/-- The values of an item that gets no flag stay as they are. -/
theorem values?_of_unnamed (set : FlagsSet flags before after) {id : String}
    (unnamed : id ∉ flags.map Prod.fst) :
    (RouteSets.ofDocument after).values? id = (RouteSets.ofDocument before).values? id := by
  rw [RouteSets.values?_ofDocument set.afterCollection,
    RouteSets.values?_ofDocument set.beforeCollection, set.defaults,
    set.resolved.items id unnamed]

/-- The value of an item that gets a flag has the flag, and otherwise the members that the
value before had. -/
theorem exists_flagged (set : FlagsSet flags before after) {id : String} {active : Bool}
    (named : (id, active) ∈ flags) {value : Json} (held : before.resolved.get? id = some value) :
    ∃ flagged, after.resolved.get? id = some flagged
      ∧ flagged.get? "active" = some (.bool active)
      ∧ ∀ name ∈ RouteSet.memberNames, name ≠ "active" -> flagged.get? name = value.get? name := by
  obtain ⟨flagged, found, flag⟩ := Option.bind_eq_some_iff.mp (set.resolved.flag id active named)
  refine ⟨flagged, found, flag, fun name member distinct => ?_⟩
  have same := set.resolved.fields id name (RouteSet.isName_of_mem_memberNames member) distinct
  simpa [Json.field?, found, held] using same

/-- The values of an item that gets a flag, when its value is an object. -/
theorem values?_of_named (set : FlagsSet flags before after) {id : String} {active : Bool}
    (named : (id, active) ∈ flags) {value : Json} (held : before.resolved.get? id = some value)
    (object : value.isObject) {routeSet : RouteSet}
    (live : (RouteSets.ofDocument before).liveSet? id = some routeSet) :
    (RouteSets.ofDocument after).values? id
      = ((RouteSets.ofDocument before).values? id).map fun values =>
          (values.1.map fun routeSet => { routeSet with active }, values.2) := by
  obtain ⟨default, _, foundValue, reads⟩ :=
    (RouteSets.liveSet?_ofDocument_iff set.beforeCollection).mp live
  rw [held] at foundValue
  cases foundValue
  obtain ⟨flagged, found, flag, others⟩ := set.exists_flagged named held
  have readsNow := RouteSet.ofJson?_of_flag object flag others reads
  rw [RouteSets.values?_ofDocument set.afterCollection,
    RouteSets.values?_ofDocument set.beforeCollection, set.defaults, found, held,
    RouteSets.readValues?_some, RouteSets.readValues?_some, reads, readsNow]
  cases Item.readOptional? RouteSet.ofJson? (before.defaults.get? id) <;> rfl

/-- A route set that gets a flag and whose value is no object is lost. -/
theorem liveSet?_of_not_isObject (set : FlagsSet flags before after) {id : String}
    (named : id ∈ flags.map Prod.fst) {routeSet : RouteSet}
    (live : (RouteSets.ofDocument before).liveSet? id = some routeSet)
    (other : ¬ (before.resolved.get? id).any Json.isObject) :
    (RouteSets.ofDocument after).liveSet? id = none := by
  obtain ⟨⟨id, active⟩, member, rfl⟩ := List.mem_map.mp named
  obtain ⟨-, value, held, -⟩ :=
    (RouteSets.liveSet?_ofDocument_iff set.beforeCollection).mp live
  have noObject : ¬ value.isObject := by simpa [held] using other
  obtain ⟨flagged, found, flag, others⟩ := set.exists_flagged member held
  rw [RouteSets.liveSet?_eq, RouteSets.values?_ofDocument set.afterCollection, found,
    RouteSets.readValues?_some,
    RouteSet.ofJson?_of_flag_of_not_isObject noObject flag others]
  rfl

/-- A route set that gets a flag and whose value is an object has the flag and is otherwise as it
was. -/
theorem liveSet?_of_isObject (set : FlagsSet flags before after) {id : String} {active : Bool}
    (named : (id, active) ∈ flags) {routeSet : RouteSet}
    (live : (RouteSets.ofDocument before).liveSet? id = some routeSet)
    (object : (before.resolved.get? id).any Json.isObject) :
    (RouteSets.ofDocument after).liveSet? id = some { routeSet with active } := by
  obtain ⟨value, held, valueObject⟩ := (Option.any_eq_true _ _).mp object
  have values := set.values?_of_named named held valueObject live
  rw [RouteSets.liveSet?_eq] at live ⊢
  obtain ⟨pair, found, first⟩ := Option.bind_eq_some_iff.mp live
  rw [values, found, Option.map_some, Option.bind_some, first, Option.map_some]

/-- A live route set that gets a flag has the flag and is otherwise as it was, or its value
no longer reads. -/
theorem liveSet?_of_named (set : FlagsSet flags before after) {id : String} {active : Bool}
    (named : (id, active) ∈ flags) {routeSet : RouteSet}
    (live : (RouteSets.ofDocument before).liveSet? id = some routeSet) :
    (RouteSets.ofDocument after).liveSet? id = none
      ∨ (RouteSets.ofDocument after).liveSet? id = some { routeSet with active } := by
  by_cases object : (before.resolved.get? id).any Json.isObject
  · exact .inr (set.liveSet?_of_isObject named live object)
  · exact .inl (set.liveSet?_of_not_isObject (List.mem_map_of_mem named) live object)

/-- The values of every item after flags of live route sets were set, when their values are
objects and a change is what the flags come to. -/
theorem values?_of_change (set : FlagsSet flags before after)
    {change : String -> RouteSet -> RouteSet}
    (alive : ∀ flag ∈ flags, ((RouteSets.ofDocument before).liveSet? flag.1).isSome)
    (flagged : ∀ flag ∈ flags, ∀ routeSet,
      (RouteSets.ofDocument before).liveSet? flag.1 = some routeSet ->
      change flag.1 routeSet = { routeSet with active := flag.2 })
    (unflagged : ∀ id, id ∉ flags.map Prod.fst -> ∀ routeSet,
      (RouteSets.ofDocument before).liveSet? id = some routeSet -> change id routeSet = routeSet)
    (objects : ∀ id, ((RouteSets.ofDocument before).liveSet? id).isSome ->
      (before.resolved.get? id).any Json.isObject) (id : String) :
    (RouteSets.ofDocument after).values? id
      = ((RouteSets.ofDocument before).values? id).map fun values =>
          (values.1.map (change id), values.2) := by
  have liveValue : ∀ values ∈ (RouteSets.ofDocument before).values? id,
      (RouteSets.ofDocument before).liveSet? id = values.1 := by
    intro values held
    rw [RouteSets.liveSet?_eq, Option.mem_def.mp held, Option.bind_some]
  by_cases named : id ∈ flags.map Prod.fst
  · obtain ⟨⟨id, flag⟩, member, rfl⟩ := List.mem_map.mp named
    obtain ⟨old, oldLive⟩ := Option.isSome_iff_exists.mp (alive _ member)
    obtain ⟨value, held, object⟩ := (Option.any_eq_true _ _).mp (objects id (alive _ member))
    rw [set.values?_of_named member held object oldLive]
    refine Option.map_congr fun values listed => ?_
    rw [← liveValue values listed, oldLive, Option.map_some, Option.map_some,
      flagged _ member old oldLive]
  · rw [set.values?_of_unnamed named]
    cases held : (RouteSets.ofDocument before).values? id with
    | none => rfl
    | some values =>
        obtain ⟨computed, default⟩ := values
        have valueLive := liveValue _ held
        cases computed with
        | none => rfl
        | some old => rw [Option.map_some, Option.map_some, unflagged id named old valueLive]

/-- A route set that is live after flags were set was live before, when only live ones got
flags. It has its flag if it got one, and is otherwise as it was. -/
theorem exists_live (set : FlagsSet flags before after)
    (named : ∀ flag ∈ flags, ((RouteSets.ofDocument before).liveSet? flag.1).isSome)
    {id : String} {routeSet : RouteSet}
    (live : (RouteSets.ofDocument after).liveSet? id = some routeSet) :
    ∃ old, (RouteSets.ofDocument before).liveSet? id = some old
      ∧ ((∃ active, (id, active) ∈ flags ∧ routeSet = { old with active })
        ∨ (id ∉ flags.map Prod.fst ∧ routeSet = old)) := by
  by_cases flagged : id ∈ flags.map Prod.fst
  · obtain ⟨⟨_, active⟩, member, rfl⟩ := List.mem_map.mp flagged
    obtain ⟨old, liveBefore⟩ := Option.isSome_iff_exists.mp (named _ member)
    refine ⟨old, liveBefore, .inl ⟨active, member, ?_⟩⟩
    rcases set.liveSet?_of_named member liveBefore with dead | liveNow
    · rw [dead] at live
      cases live
    · rw [liveNow] at live
      exact (Option.some.inj live).symm
  · refine ⟨routeSet, ?_, .inr ⟨flagged, rfl⟩⟩
    rwa [RouteSets.liveSet?_eq, ← set.values?_of_unnamed flagged, ← RouteSets.liveSet?_eq]

end Document.FlagsSet

end LayerRouting
