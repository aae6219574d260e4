import LayerRouting.Proofs.Json.Entries
import LayerRouting.RouteSet.ActiveRoutes

/-!
# What active routes hold

Active routes are built route by route. `ActiveRoutes.Holds` says what the result is for a list
of routes: each of them is there once, under its input layer or among the inserted routes, in
the order of the list, and nothing else is there. Adding a route keeps this
(`ActiveRoutes.Holds.add`), so the active routes of a collection hold exactly the routes that
its route sets contribute (`ActiveRoutes.holds_ofRouteSets`).
-/

namespace LayerRouting

/-- A name that is not empty. -/
theorem nonempty?_eq_some_iff {name : Option String} {text : String} :
    nonempty? name = some text ↔ name = some text ∧ text ≠ "" := by
  simp [nonempty?, Option.filter_eq_some_iff]

/-! ## Lists by key -/

namespace Entries

variable {α : Type}

/-- Adding to the list of a key adds to the lists as a whole. -/
theorem flatMap_insertSorted_append {entries : List (String × List α)} (ordered : Ordered entries)
    (key : String) (value : α) :
    ((insertSorted key ((get? key entries).getD [] ++ [value]) entries).flatMap Prod.snd).Perm
      (entries.flatMap Prod.snd ++ [value]) := by
  induction entries with
  | nil => simp [insertSorted, get?]
  | cons entry rest inductionHypothesis =>
      obtain ⟨name, list⟩ := entry
      obtain ⟨first, later⟩ := List.pairwise_cons.mp ordered
      by_cases here : name = key
      · simp only [insertSorted, get?, here, if_true, Option.getD_some, List.flatMap_cons,
          List.append_assoc]
        exact List.Perm.append_left _ List.perm_append_comm
      · by_cases before : key < name
        · -- The list is ordered, so a key before its first one is new.
          have new : get? key rest = none := by
            refine Option.not_isSome_iff_eq_none.mp fun found => ?_
            obtain ⟨entry, member, same⟩ := List.mem_map.mp (get?_isSome_iff.mp found)
            exact absurd (first entry member) (not_lt.mpr (same ▸ before.le))
          simp only [insertSorted, get?, here, before, new, if_true, if_false, Option.getD_none,
            List.nil_append, List.flatMap_cons]
          exact List.perm_append_comm
        · simp only [insertSorted, get?, here, before, if_false, List.flatMap_cons,
            List.append_assoc]
          exact (inductionHypothesis later).append_left list

end Entries

/-! ## The routes that are held -/

namespace ActiveRoutes

/-- Whether active routes hold a list of routes, each once and in the order of the list, and
nothing else. -/
structure Holds (routes : ActiveRoutes) (contributed : List Route) : Prop where
  /-- The input layers are listed in order of their names. -/
  ordered : Entries.Ordered routes.existing
  /-- An input layer is listed by its name, which is not empty, and with its routes. -/
  listed : ∀ entry ∈ routes.existing, entry.1 ≠ "" ∧ entry.2 ≠ []
  /-- The routes of an input layer are those that name it. -/
  ofLayer : ∀ layer, routes.ofLayer layer
    = contributed.filter fun route => route.input? = some layer
  /-- The inserted routes are those without an input layer. -/
  inserted : routes.inserted = contributed.filter fun route => route.input? = none
  /-- No route is lost or repeated. -/
  once : (routes.existing.flatMap Prod.snd ++ routes.inserted).Perm contributed

theorem holds_empty : empty.Holds [] where
  ordered := List.Pairwise.nil
  listed := List.forall_mem_nil _
  ofLayer := fun _ => rfl
  inserted := rfl
  once := List.Perm.nil

variable {routes : ActiveRoutes} {contributed : List Route}

/-- A route that is added comes last. -/
theorem Holds.add (holds : routes.Holds contributed) (route : Route) :
    (routes.add route).Holds (contributed ++ [route]) := by
  rw [ActiveRoutes.add]
  cases input : route.input? with
  | none =>
      refine ⟨holds.ordered, holds.listed, fun layer => ?_, ?_, ?_⟩
      · rw [List.filter_append, ← holds.ofLayer layer]
        simp [ActiveRoutes.ofLayer, input]
      · rw [List.filter_append, ← holds.inserted]
        simp [input]
      · rw [← List.append_assoc]
        exact holds.once.append_right [route]
  | some layer =>
      refine ⟨holds.ordered.insertSorted _ _, ?_, fun other => ?_, ?_, ?_⟩
      · intro entry member
        rcases Entries.mem_of_mem_insertSorted member with rfl | old
        · exact ⟨(nonempty?_eq_some_iff.mp input).2, by simp⟩
        · exact holds.listed entry old
      · rw [List.filter_append, ← holds.ofLayer other]
        by_cases same : layer = other
        · simp [ActiveRoutes.ofLayer, Entries.get?_insertSorted, input, same]
        · simp [ActiveRoutes.ofLayer, Entries.get?_insertSorted, input, same]
      · rw [List.filter_append, ← holds.inserted]
        simp [input]
      · have grown := (Entries.flatMap_insertSorted_append holds.ordered layer route).append_right
          routes.inserted
        refine grown.trans ((List.Perm.trans ?_ (holds.once.append_right [route])))
        rw [List.append_assoc, List.append_assoc]
        exact List.perm_append_comm.append_left _

/-- Routes that are added one after another are held in their order. -/
theorem Holds.foldl_add (holds : routes.Holds contributed) (further : List Route) :
    (further.foldl ActiveRoutes.add routes).Holds (contributed ++ further) := by
  induction further generalizing routes contributed with
  | nil => rwa [List.append_nil]
  | cons route rest inductionHypothesis =>
      have next := inductionHypothesis (holds.add route)
      rwa [List.append_assoc, List.singleton_append] at next

/-- The active routes of a collection hold the routes that it contributes. -/
theorem holds_ofRouteSets (sets : RouteSets) : (ofRouteSets sets).Holds sets.contributedRoutes :=
  holds_empty.foldl_add sets.contributedRoutes

end ActiveRoutes

end LayerRouting
