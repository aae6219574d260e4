import LayerRouting.Proofs.Activation.Switching

/-!
# Route sets that survive a request

The reader of route sets takes objects and arrays of members, but a flag is set in an object:
where the value of a route set is an array, an object that holds nothing but the flag takes its
place, and the set is lost. So after a request that succeeds a route set is still there, with
its flag and otherwise as it was, exactly if it got no flag or its value was an object
(`Controller.switch_survivors`).
-/

namespace LayerRouting

namespace Controller

variable {σ : Type} [DocumentStore σ]

/-- After a request that succeeds every route set that was live is live, with the flag that the
request gives it and otherwise as it was, unless it got a flag and its value was no object. In
that case it is lost. Binary64 numbers are as they were if those of the document come back from
the store. -/
theorem switch_survivors [LawfulStore σ] (controller : Controller σ) {owner id : String}
    {active : Bool} {document : Document Json} {outcome : SwitchOutcome}
    (stored : DocumentStore.load controller.store owner = .ok document)
    (collection : document.IsCollection)
    (succeeded : (controller.switch owner id active).1 = .ok outcome) :
    ∃ target sets, (RouteSets.ofDocument document).liveSet? id = some target
      ∧ (controller.switch owner id active).2.routeSets owner = .ok sets
      ∧ ∀ other set, (RouteSets.ofDocument document).liveSet? other = some set ->
          GivenBack (Option.map RouteSet.withoutFloats) (LawfulStore.KeepsNumbers σ document)
            (if other ∈ ((RouteSets.ofDocument document).switchFlags id target active).map Prod.fst
                ∧ ¬ (document.resolved.get? other).any Json.isObject then none
              else some (RouteSets.afterSwitch id target active other set))
            (sets.liveSet? other) := by
  have distinct := RouteSets.nodup_ids_ofDocument collection
  obtain ⟨target, kept, final, live, held, flagged, alike, same, -, -⟩ :=
    switch_kept controller stored collection succeeded
  refine ⟨target, RouteSets.ofDocument final, live, by rw [routeSets, held], ?_⟩
  intro other set otherLive
  have survives : (RouteSets.ofDocument kept).liveSet? other
      = if other ∈ ((RouteSets.ofDocument document).switchFlags id target active).map Prod.fst
          ∧ ¬ (document.resolved.get? other).any Json.isObject then none
        else some (RouteSets.afterSwitch id target active other set) := by
    split
    · next lost => exact flagged.liveSet?_of_not_isObject lost.1 otherLive lost.2
    · next survives =>
        by_cases named : other ∈ ((RouteSets.ofDocument document).switchFlags id target
            active).map Prod.fst
        · have object := not_not.mp fun array => survives ⟨named, array⟩
          obtain ⟨⟨other, flag⟩, member, rfl⟩ := List.mem_map.mp named
          rw [flagged.liveSet?_of_isObject member otherLive object,
            RouteSets.afterSwitch_of_mem distinct member otherLive]
        · rw [RouteSets.afterSwitch_of_not_mem distinct named otherLive, RouteSets.liveSet?_eq,
            flagged.values?_of_unnamed named, ← RouteSets.liveSet?_eq, otherLive]
  rw [← survives]
  exact ⟨alike.live other, fun numbers => by rw [same numbers]⟩

end Controller

/-! ## A side that is an array -/

/-- A collection of two route sets of one group, of which the left one is an array of members. -/
def Document.arraySides : Document Json where
  defaults := .object [
    ("left", .array [.string "Left", .bool true, .null, .string "TOGGLE", .string "side"]),
    ("right", .object [("name", .string "Right"), ("exclusivityGroup", .string "side")])]
  log := []

theorem RouteSets.ofDocument_arraySides :
    ofDocument Document.arraySides
      = [
        { id := "left", computed := some leftSide, defaultValue := some leftSide, ops := [] },
        { id := "right", computed := some rightSide, defaultValue := some rightSide, ops := [] }
      ] :=
  ofDocument_of_ordered (by decide +kernel) (by decide +kernel)

namespace Controller

/-- A controller of a store in service, in which one owner has these sides. -/
def ofArraySides : Controller (MonitoredStore MemoryStore) :=
  { ofSides with store := MonitoredStore.ofStore ⟨[("stage", Document.arraySides)]⟩ }

/-- Switching the right side on loses the left side, which is an array. -/
theorem switch_survivors_of_arraySides :
    (RouteSets.ofDocument Document.arraySides).liveSet? "left" = some RouteSets.leftSide
      ∧ ∃ sets, (ofArraySides.switch "stage" "right" true).2.routeSets "stage" = .ok sets
        ∧ sets.liveSet? "left" = none
        ∧ sets.liveSet? "right" = some { RouteSets.rightSide with active := true } := by
  have stored : DocumentStore.load ofArraySides.store "stage" = .ok Document.arraySides := rfl
  have succeeded : (ofArraySides.switch "stage" "right" true).1
      = .ok { routeSetId := "right", active := true, previouslyActive := false,
              deactivated := ["left"], committed := true, logLength := 2 } := by
    have held : (ofArraySides.locks.request "stage").2.holds
        (ofArraySides.locks.request "stage").1 := holds_ofSides
    rw [switch_of_holds held]
    simp only [switchLocked, stored, planSwitch, RouteSets.ofDocument_arraySides]
    rfl
  obtain ⟨target, sets, live, read, survivors⟩ := switch_survivors ofArraySides stored
    ⟨by decide, by decide, by decide⟩ succeeded
  have exactly := fun other set live =>
    (survivors other set live).same (Document.mapFloats_id Document.arraySides)
  rw [RouteSets.ofDocument_arraySides] at live exactly ⊢
  obtain rfl : RouteSets.rightSide = target := Option.some.inj live
  refine ⟨rfl, sets, read, ?_, ?_⟩
  · exact (exactly "left" RouteSets.leftSide rfl).trans (by decide)
  · exact (exactly "right" RouteSets.rightSide rfl).trans (by decide)

end Controller

end LayerRouting
