import Mathlib.Data.List.Forall2
import LayerRouting.Proofs.RouteSet.Contribution
import LayerRouting.Proofs.RouteSet.Outputs

/-!
# Routed tables

Routing writes the outputs of the layers in order of their names and then those of the routes
that make new layers, and of outputs with one name the last one counts. If no two outputs have
one name, the table has exactly one entry for each effective route and each layer without
routes (`MappingTable.routing_loses_nothing`). If a layer without routes shares its name with
later outputs, the last of them takes its place (`MappingTable.get?_apply_of_unrouted`): a route
of a later layer may hide it, a route of an earlier layer does not.
-/

namespace LayerRouting

namespace MappingTable

/-! ## Tables of entries -/

/-- Of the entries of one layer the last one counts. -/
theorem get?_ofEntries (layer : String) (entries : List (String × Mapping)) :
    Entries.get? layer (ofEntries entries) = Entries.get? layer entries.reverse := by
  rw [ofEntries, Entries.get?_foldl Entries.get?_insertSorted]
  exact Option.or_none

/-- A table lists its layers in order of their names, each once. -/
theorem ordered_ofEntries (entries : List (String × Mapping)) :
    Entries.Ordered (ofEntries entries) :=
  List.foldlRecOn entries _ List.Pairwise.nil fun _ ordered entry _ =>
    ordered.insertSorted entry.1 entry.2

/-- A table has no entries but those that it is made of. -/
theorem mem_of_mem_ofEntries {entries : List (String × Mapping)} {entry : String × Mapping}
    (member : entry ∈ ofEntries entries) : entry ∈ entries := by
  have found := Entries.get?_of_mem (ordered_ofEntries entries).nodup_keys member
  rw [get?_ofEntries] at found
  exact List.mem_reverse.mp (Entries.mem_of_get? found)

/-- A table of entries with distinct names has each of them once. -/
theorem perm_ofEntries {entries : List (String × Mapping)}
    (distinct : (Entries.keys entries).Nodup) : (ofEntries entries).Perm entries := by
  have reversed : (Entries.keys entries.reverse).Nodup := by
    rw [Entries.keys, List.map_reverse, List.nodup_reverse]
    exact distinct
  rw [List.perm_ext_iff_of_nodup (List.Nodup.of_map _ (ordered_ofEntries entries).nodup_keys)
    (List.Nodup.of_map _ distinct)]
  intro entry
  constructor
  · exact mem_of_mem_ofEntries
  · intro member
    have found : Entries.get? entry.1 (ofEntries entries) = some entry.2 := by
      rw [get?_ofEntries]
      exact Entries.get?_of_mem reversed (List.mem_reverse.mpr member)
    exact Entries.mem_of_get? found

/-- Two cameras on two devices. -/
def cameras : MappingTable := [("camera1", .onDevice "A"), ("camera2", .onDevice "B")]

theorem ordered_cameras : Entries.Ordered cameras := by
  simp only [cameras, Entries.Ordered]
  decide +kernel

/-! ## The outputs of a table -/

/-- The layers of a table that none of some routes names, with their mappings. -/
def unrouted (input : MappingTable) (contributed : List Route) : MappingTable :=
  input.filter fun entry => ∀ route ∈ contributed, route.input? ≠ some entry.1

/-- Of the layers of a table only the one with a name has a part in what is made of it. -/
theorem flatMap_of_layer {β : Type} {input : MappingTable} (distinct : (Entries.keys input).Nodup)
    (layer : String) (made : Mapping -> Option β) :
    (input.flatMap fun entry => if layer = entry.1 then (made entry.2).toList else [])
      = ((Entries.get? layer input).bind made).toList := by
  induction input with
  | nil => rfl
  | cons entry rest inductionHypothesis =>
      obtain ⟨name, base⟩ := entry
      obtain ⟨fresh, others⟩ := List.nodup_cons.mp distinct
      rw [List.flatMap_cons, inductionHypothesis others]
      by_cases here : layer = name
      · subst here
        have absent : Entries.get? layer rest = none :=
          Option.not_isSome_iff_eq_none.mp fun found => fresh (Entries.get?_isSome_iff.mp found)
        simp [Entries.get?, absent]
      · simp [Entries.get?, here, Ne.symm here]

/-- What the routes that name a layer make of it. -/
def routedOutputs (contributed : List Route) (entry : String × Mapping) :
    List (String × Mapping) :=
  (contributed.filter fun route => route.input? = some entry.1).filterMap fun route =>
    route.outputFor? entry.2

/-- What the routes without an input layer make. -/
def newOutputs (contributed : List Route) : List (String × Mapping) :=
  (contributed.filter fun route => route.input? = none).filterMap Route.newOutput?

theorem routedOutputs_cons (route : Route) (rest : List Route) (entry : String × Mapping) :
    routedOutputs (route :: rest) entry
      = (if route.input? = some entry.1 then (route.outputFor? entry.2).toList else [])
        ++ routedOutputs rest entry := by
  by_cases named : route.input? = some entry.1
  · cases made : route.outputFor? entry.2 <;> simp [routedOutputs, named, made]
  · simp [routedOutputs, named]

theorem newOutputs_cons (route : Route) (rest : List Route) :
    newOutputs (route :: rest)
      = (if route.input? = none then route.newOutput?.toList else []) ++ newOutputs rest := by
  by_cases new : route.input? = none
  · cases made : route.newOutput? <;> simp [newOutputs, new, made]
  · simp [newOutputs, new]

/-- One route makes something of one layer or a new one, and this is the entry that it gives. -/
theorem toList_outputOn? {input : MappingTable} (distinct : (Entries.keys input).Nodup)
    (route : Route) :
    (input.flatMap fun entry =>
          if route.input? = some entry.1 then (route.outputFor? entry.2).toList else [])
        ++ (if route.input? = none then route.newOutput?.toList else [])
      = (route.outputOn? input).toList := by
  cases layer : route.input? with
  | some name =>
      simp only [Option.some.injEq]
      rw [flatMap_of_layer distinct, if_neg (by simp), List.append_nil, Route.outputOn?, layer]
  | none => simp [Route.outputOn?, layer]

/-- The outputs of routed layers and new layers are the entries that the routes give. -/
theorem routedOutputs_perm {input : MappingTable} (distinct : (Entries.keys input).Nodup)
    (contributed : List Route) :
    (input.flatMap (routedOutputs contributed) ++ newOutputs contributed).Perm
      (contributed.filterMap (Route.outputOn? input)) := by
  induction contributed with
  | nil => simp [routedOutputs, newOutputs]
  | cons route rest inductionHypothesis =>
      have given : ((route :: rest).filterMap (Route.outputOn? input))
          = (route.outputOn? input).toList ++ rest.filterMap (Route.outputOn? input) := by
        rw [List.filterMap_cons]
        cases route.outputOn? input <;> rfl
      rw [given, ← toList_outputOn? distinct, newOutputs_cons,
        show routedOutputs (route :: rest) = _ from funext (routedOutputs_cons route rest)]
      refine ((List.flatMap_append_perm input _ _).symm.append_right _).trans ?_
      rw [List.append_assoc, List.append_assoc]
      refine List.Perm.append_left _ ?_
      exact (List.perm_append_comm_assoc _ _ _).trans (inductionHypothesis.append_left _)

/-- The outputs of a layer are itself if no route names it, and what the routes that name it
make of it. -/
theorem layerOutputs_eq {routes : ActiveRoutes} {contributed : List Route}
    (holds : routes.Holds contributed) (entry : String × Mapping) :
    layerOutputs routes entry
      = (if ∀ route ∈ contributed, route.input? ≠ some entry.1 then [entry] else [])
        ++ routedOutputs contributed entry := by
  rw [layerOutputs, holds.ofLayer, routedOutputs]
  cases named : contributed.filter fun route => route.input? = some entry.1 with
  | nil =>
      rw [if_pos (by simpa [List.filter_eq_nil_iff] using named)]
      rfl
  | cons route rest =>
      have first : route ∈ contributed.filter fun route => route.input? = some entry.1 :=
        named ▸ List.mem_cons_self
      rw [List.mem_filter, decide_eq_true_eq] at first
      rw [if_neg fun unnamed => unnamed route first.1 first.2, List.nil_append]

theorem flatMap_unrouted (input : MappingTable) (contributed : List Route) :
    (input.flatMap fun entry =>
        if ∀ route ∈ contributed, route.input? ≠ some entry.1 then [entry] else [])
      = input.unrouted contributed := by
  induction input with
  | nil => rfl
  | cons entry rest inductionHypothesis =>
      rw [List.flatMap_cons, inductionHypothesis, unrouted, unrouted, List.filter_cons]
      simp only [decide_eq_true_eq]
      split <;> rfl

/-- The outputs are the layers that no route names and the entries that the routes give. -/
theorem outputs_perm {input : MappingTable} {routes : ActiveRoutes} {contributed : List Route}
    (holds : routes.Holds contributed) (distinct : (Entries.keys input).Nodup) :
    (input.outputs routes).Perm
      (input.unrouted contributed ++ contributed.filterMap (Route.outputOn? input)) := by
  rw [outputs, holds.inserted, show layerOutputs routes = _ from funext (layerOutputs_eq holds)]
  refine ((List.flatMap_append_perm input _ _).symm.append_right _).trans ?_
  rw [flatMap_unrouted, List.append_assoc]
  exact (routedOutputs_perm distinct contributed).append_left _

/-! ## Outputs with names of their own -/

/-- Whether each effective route has an output name of its own, which is not the name of a layer
that no route names. -/
structure HaveOwnNames (input : MappingTable) (contributed : List Route) : Prop where
  apart : ((contributed.filter (Route.isEffective input)).map Route.output?).Nodup
  free : ∀ entry ∈ input.unrouted contributed,
    some entry.1 ∉ (contributed.filter (Route.isEffective input)).map Route.output?

/-- Routes give entries under the names of their output layers. -/
theorem map_output?_eq {input : MappingTable} {routes : List Route}
    {made : List (String × Mapping)} (gives : List.Forall₂ (Route.Gives input) routes made) :
    routes.map Route.output? = (Entries.keys made).map some := by
  induction gives with
  | nil => rfl
  | cons first _ inductionHypothesis =>
      rw [List.map_cons, first.output, inductionHypothesis]
      rfl

/-- Where outputs have names of their own, the layers that no route names and the entries that
the routes give have distinct names. -/
theorem HaveOwnNames.nodup_keys {input : MappingTable} {contributed : List Route}
    (own : input.HaveOwnNames contributed) (distinct : (Entries.keys input).Nodup)
    {made : List (String × Mapping)}
    (gives : List.Forall₂ (Route.Gives input) (contributed.filter (Route.isEffective input)) made) :
    (Entries.keys (input.unrouted contributed ++ made)).Nodup := by
  have names := map_output?_eq gives
  rw [Entries.keys, List.map_append, List.nodup_append]
  refine ⟨distinct.sublist (List.filter_sublist.map _), ?_, ?_⟩
  · exact List.Nodup.of_map some (names ▸ own.apart)
  · rintro name layer other output rfl
    obtain ⟨entry, member, rfl⟩ := List.mem_map.mp layer
    exact own.free entry member (names ▸ List.mem_map_of_mem output)

/-- Active routes hold exactly the routes that the active route sets that are not ignored offer.
If the outputs of these on a table have names of their own, the routed table consists of one
entry for each effective route, as the route gives it, and of the layers that no route names
with their mappings. -/
theorem routing_loses_nothing (sets : RouteSets) :
    (ActiveRoutes.ofRouteSets sets).Holds sets.unignored.offeredRoutes
      ∧ ∀ input : MappingTable, Entries.Ordered input ->
        input.HaveOwnNames sets.unignored.offeredRoutes ->
        Entries.Ordered (input.apply (ActiveRoutes.ofRouteSets sets))
          ∧ ∃ made, List.Forall₂ (Route.Gives input)
              (sets.unignored.offeredRoutes.filter (Route.isEffective input)) made
            ∧ (input.apply (ActiveRoutes.ofRouteSets sets)).Perm
              (input.unrouted sets.unignored.offeredRoutes ++ made) := by
  have holds := sets.holds_unignored
  refine ⟨holds, fun input ordered own => ⟨ordered_ofEntries _, ?_⟩⟩
  have gives : List.Forall₂ (Route.Gives input)
      (sets.unignored.offeredRoutes.filter (Route.isEffective input)) _ :=
    Route.forall₂_gives fun route member => (List.mem_filter.mp member).2
  have outputs := outputs_perm holds ordered.nodup_keys
  have distinct : (Entries.keys (input.outputs (ActiveRoutes.ofRouteSets sets))).Nodup :=
    (outputs.map Prod.fst).nodup_iff.mpr (own.nodup_keys ordered.nodup_keys gives)
  exact ⟨_, gives, (perm_ofEntries distinct).trans outputs⟩

/-- Two active route sets of one group. The first one sends a camera to two layers and makes a
new layer; the second one is ignored. -/
def forkedSets : RouteSets :=
  [{ id := "left"
     computed := some { RouteSets.leftSide with
       routes := [.renaming "camera1" "stage", .renaming "camera1" "lobby", .playing "banner"] }
     defaultValue := none
     ops := [] },
   { id := "right"
     computed := some { RouteSets.leftSide with routes := [.renaming "camera2" "stage"] }
     defaultValue := none
     ops := [] }]

/-- The outputs of the two cameras have names of their own, so nothing is lost. -/
theorem routing_loses_nothing_of_forkedSets :
    Entries.Ordered cameras
      ∧ cameras.HaveOwnNames forkedSets.unignored.offeredRoutes
      ∧ ∃ made, List.Forall₂ (Route.Gives cameras)
          (forkedSets.unignored.offeredRoutes.filter (Route.isEffective cameras)) made
        ∧ (cameras.apply (ActiveRoutes.ofRouteSets forkedSets)).Perm
          (cameras.unrouted forkedSets.unignored.offeredRoutes ++ made) := by
  have own : cameras.HaveOwnNames forkedSets.unignored.offeredRoutes :=
    ⟨by decide +kernel, by decide +kernel⟩
  exact ⟨ordered_cameras, own,
    ((routing_loses_nothing forkedSets).2 cameras ordered_cameras own).2⟩

/-! ## Outputs that share a name -/

/-- What is written after a layer: the outputs of the layers whose names come later, and those
of the routes that make new layers. -/
def laterOutputs (input : MappingTable) (routes : ActiveRoutes) (layer : String) :
    List (String × Mapping) :=
  (input.filter fun entry => layer < entry.1).flatMap (layerOutputs routes)
    ++ routes.inserted.filterMap Route.newOutput?

section Sharing

variable {input : MappingTable} {routes : ActiveRoutes} {layer : String} {mapping : Mapping}

/-- A layer without routes is written before the later outputs. -/
theorem exists_outputs_eq (ordered : Entries.Ordered input)
    (held : Entries.get? layer input = some mapping) (unrouted : routes.ofLayer layer = []) :
    ∃ earlier, input.outputs routes
      = earlier ++ (layer, mapping) :: input.laterOutputs routes layer := by
  obtain ⟨before, after, split⟩ := List.mem_iff_append.mp (Entries.mem_of_get? held)
  have later : (input.filter fun entry => layer < entry.1) = after := by
    rw [Entries.Ordered, split, List.pairwise_append, List.pairwise_cons] at ordered
    obtain ⟨-, ⟨above, -⟩, below⟩ := ordered
    have none : (before.filter fun entry => layer < entry.1) = [] := by
      refine List.filter_eq_nil_iff.mpr fun entry member above => ?_
      exact lt_asymm (of_decide_eq_true above) (below entry member _ List.mem_cons_self)
    have all : (after.filter fun entry => layer < entry.1) = after :=
      List.filter_eq_self.mpr fun entry member => decide_eq_true (above entry member)
    have own : ¬ decide (layer < layer) := fun above => lt_irrefl layer (of_decide_eq_true above)
    rw [split, List.filter_append, List.filter_cons, none, all, if_neg own, List.nil_append]
  refine ⟨before.flatMap (layerOutputs routes), ?_⟩
  rw [outputs, laterOutputs, later, split, List.flatMap_append, List.flatMap_cons, layerOutputs,
    unrouted, List.append_assoc, List.append_assoc]
  rfl

/-- No later output has the name of a layer that is the output neither of a route of a later
layer nor of a complete route that makes a new layer. -/
theorem not_mem_laterOutputs
    (unnamed : ∀ entry ∈ input, layer < entry.1 -> ∀ route ∈ routes.ofLayer entry.1,
      route.output? ≠ some layer)
    (incomplete : ∀ route ∈ routes.inserted, route.output? = some layer ->
      route.fullRemap? = none)
    (value : Mapping) : (layer, value) ∉ input.laterOutputs routes layer := by
  rw [laterOutputs, List.mem_append, List.mem_flatMap, List.mem_filterMap]
  rintro (⟨entry, later, written⟩ | ⟨route, inserted, made⟩)
  · obtain ⟨member, above⟩ := List.mem_filter.mp later
    have above := of_decide_eq_true above
    rw [layerOutputs] at written
    split at written
    · rw [List.mem_singleton] at written
      exact absurd (congrArg Prod.fst written) above.ne
    · obtain ⟨route, named, made⟩ := List.mem_filterMap.mp written
      obtain ⟨target, output, same⟩ := Option.map_eq_some_iff.mp made
      obtain rfl : target = layer := congrArg Prod.fst same
      exact unnamed entry member above route named output
  · simp only [Route.newOutput?, Option.bind_eq_bind, Option.bind_eq_some_iff, Option.some.injEq,
      Prod.mk.injEq] at made
    obtain ⟨target, output, complete, full, rfl, -⟩ := made
    rw [incomplete route inserted output] at full
    cases full

/-- A layer without routes is in the routed table, with the mapping of the last of the later
outputs that have its name, or with its own mapping if there are none. There are none if neither
a route of a later layer nor a complete route that makes a new layer has its name as output. -/
theorem get?_apply_of_unrouted (ordered : Entries.Ordered input)
    (held : Entries.get? layer input = some mapping) (unrouted : routes.ofLayer layer = []) :
    Entries.get? layer (input.apply routes)
        = some ((Entries.get? layer (input.laterOutputs routes layer).reverse).getD mapping)
      ∧ ((∀ entry ∈ input, layer < entry.1 -> ∀ route ∈ routes.ofLayer entry.1,
            route.output? ≠ some layer) ->
          (∀ route ∈ routes.inserted, route.output? = some layer -> route.fullRemap? = none) ->
          Entries.get? layer (input.apply routes) = some mapping) := by
  obtain ⟨earlier, outputs⟩ := exists_outputs_eq ordered held unrouted
  have shown : Entries.get? layer (input.apply routes)
      = some ((Entries.get? layer (input.laterOutputs routes layer).reverse).getD mapping) := by
    rw [apply, get?_ofEntries, outputs, List.reverse_append, List.reverse_cons, List.append_assoc,
      Entries.get?_append]
    cases Entries.get? layer (input.laterOutputs routes layer).reverse <;>
      simp [Entries.get?]
  refine ⟨shown, fun unnamed incomplete => ?_⟩
  have absent : Entries.get? layer (input.laterOutputs routes layer).reverse = none := by
    refine Option.not_isSome_iff_eq_none.mp fun found => ?_
    obtain ⟨value, found⟩ := Option.isSome_iff_exists.mp found
    refine not_mem_laterOutputs unnamed incomplete value ?_
    exact List.mem_reverse.mp (Entries.mem_of_get? found)
  rw [shown, absent, Option.getD_none]

end Sharing

/-- The route of the second camera puts out the name of the first one. The first camera has no
routes, but its mapping is replaced, since its name comes first. -/
theorem hidden_by_later_layer :
    Entries.Ordered cameras
      ∧ Entries.get? "camera1" cameras = some (.onDevice "A")
      ∧ (ActiveRoutes.mk [("camera2", [.renaming "camera2" "camera1"])] []).ofLayer "camera1" = []
      ∧ Entries.get? "camera1"
          (cameras.apply ⟨[("camera2", [.renaming "camera2" "camera1"])], []⟩)
        = some (.onDevice "B") := by
  have shown := @get?_apply_of_unrouted cameras
    ⟨[("camera2", [.renaming "camera2" "camera1"])], []⟩ "camera1" (.onDevice "A")
    ordered_cameras rfl rfl
  refine ⟨ordered_cameras, rfl, rfl, ?_⟩
  rw [shown.1]
  decide +kernel

end MappingTable

end LayerRouting
