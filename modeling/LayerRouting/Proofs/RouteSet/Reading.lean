import LayerRouting.Proofs.Override.FieldEdit
import LayerRouting.RouteSet.Codec

/-!
# Reading a route set whose flag was set

The reader of route sets looks at the members that it knows by name and at nothing else. So
setting the member `active` of an object changes the flag of the route set that it reads as
and nothing else (`RouteSet.ofJson?_of_flag`). An array of members gives way to an object
when the flag is set, and no longer reads, for want of a name.
-/

namespace LayerRouting

namespace Record

variable {α : Type} {left right : Record} {name : String}

theorem required?_congr (same : Entries.get? name left = Entries.get? name right)
    (read? : Json -> Option α) : left.required? name read? = right.required? name read? := by
  simp only [required?, same]

theorem defaulted?_congr (same : Entries.get? name left = Entries.get? name right)
    (default : α) (read? : Json -> Option α) :
    left.defaulted? name default read? = right.defaulted? name default read? := by
  simp only [defaulted?, same]

theorem optional?_congr (same : Entries.get? name left = Entries.get? name right)
    (read? : Json -> Option α) : left.optional? name read? = right.optional? name read? := by
  simp only [optional?, same]

end Record

namespace RouteSet

/-! ## The members that are read -/

/-- The route set that a record is. -/
def ofRecord? (record : Record) : Option RouteSet := do
  let name ← record.required? "name" Json.asString?
  let active ← record.defaulted? "active" false Json.asBool?
  let defaultActive ← record.optional? "defaultActive" Json.asBool?
  let behavior ← record.defaulted? "behavior" .toggle Behavior.ofJson?
  let exclusivityGroup ← record.optional? "exclusivityGroup" Json.asString?
  let routes ← record.defaulted? "routes" [] (Json.readItems? Route.ofJson?)
  let abPlayers ← record.defaulted? "abPlayers" [] (Json.readItems? PoolMember.ofJson?)
  let rank ← record.optional? "_rank" Json.asBinary64?
  some { name, active, defaultActive, behavior, exclusivityGroup, routes, abPlayers, rank }

theorem ofJson?_eq (tree : Json) :
    ofJson? tree = (Record.ofTree? memberNames tree).bind ofRecord? :=
  rfl

/-- The names of a route set's members are never read as indices. -/
theorem isName_of_mem_memberNames {name : String} (member : name ∈ memberNames) :
    Segment.IsName name := by
  simp only [memberNames, List.mem_cons, List.not_mem_nil, or_false] at member
  rcases member with rfl | rfl | rfl | rfl | rfl | rfl | rfl | rfl <;>
    exact Segment.isName_of_head rfl (by decide) (by decide)

/-- Setting the flag of a record that reads changes the flag and nothing else. -/
theorem ofRecord?_of_flag {before after : Record} {set : RouteSet} {active : Bool}
    (flag : Entries.get? "active" after = some (.bool active))
    (others : ∀ name ∈ memberNames, name ≠ "active" ->
      Entries.get? name after = Entries.get? name before)
    (reads : ofRecord? before = some set) :
    ofRecord? after = some { set with active } := by
  have other : ∀ name, name ∈ memberNames ∧ name ≠ "active" ->
      Entries.get? name after = Entries.get? name before :=
    fun name known => others name known.1 known.2
  have flagRead : after.defaulted? "active" false Json.asBool? = some active := by
    simp [Record.defaulted?, flag, Json.asBool?]
  simp only [ofRecord?, Option.bind_eq_bind, Option.bind_eq_some_iff, Option.some.injEq] at reads
  obtain ⟨name, nameRead, old, -, defaultActive, defaultRead, behavior, behaviorRead, group,
    groupRead, routes, routesRead, abPlayers, abPlayersRead, rank, rankRead, rfl⟩ := reads
  rw [ofRecord?, Record.required?_congr (other "name" (by decide)), nameRead, flagRead,
    Record.optional?_congr (other "defaultActive" (by decide)), defaultRead,
    Record.defaulted?_congr (other "behavior" (by decide)), behaviorRead,
    Record.optional?_congr (other "exclusivityGroup" (by decide)), groupRead,
    Record.defaulted?_congr (other "routes" (by decide)), routesRead,
    Record.defaulted?_congr (other "abPlayers" (by decide)), abPlayersRead,
    Record.optional?_congr (other "_rank" (by decide)), rankRead]
  rfl

/-! ## The flag -/

/-- Setting the flag of an object that reads changes the flag and nothing else. -/
theorem ofJson?_of_flag {before after : Json} {set : RouteSet} {active : Bool}
    (object : before.isObject) (flag : after.get? "active" = some (.bool active))
    (others : ∀ name ∈ memberNames, name ≠ "active" -> after.get? name = before.get? name)
    (reads : ofJson? before = some set) : ofJson? after = some { set with active } := by
  obtain ⟨left, rfl⟩ := Json.isObject_iff.mp object
  obtain ⟨right, rfl⟩ := Json.isObject_iff.mp (Json.isObject_of_get? (by rw [flag]; rfl))
  exact ofRecord?_of_flag flag others reads

/-- An object without a name does not read. -/
theorem ofJson?_of_unnamed {tree : Json} (object : tree.isObject)
    (unnamed : tree.get? "name" = none) : ofJson? tree = none := by
  obtain ⟨entries, rfl⟩ := Json.isObject_iff.mp object
  have absent : Record.required? entries "name" Json.asString? = none := by
    have missing : Entries.get? "name" entries = none := unnamed
    rw [Record.required?, missing]
    rfl
  rw [ofJson?_eq, Record.ofTree?, Option.bind_some, ofRecord?, absent]
  rfl

/-- Setting the flag of a tree that is no object makes an object without a name, which does not
read. -/
theorem ofJson?_of_flag_of_not_isObject {before after : Json} {active : Bool}
    (other : ¬ before.isObject) (flag : after.get? "active" = some (.bool active))
    (others : ∀ name ∈ memberNames, name ≠ "active" -> after.get? name = before.get? name) :
    ofJson? after = none := by
  refine ofJson?_of_unnamed (Json.isObject_of_get? (by rw [flag]; rfl)) ?_
  rw [others "name" (by decide) (by decide), Json.get?_of_not_isObject other]

end RouteSet

end LayerRouting
