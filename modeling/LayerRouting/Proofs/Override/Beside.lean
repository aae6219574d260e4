import LayerRouting.Proofs.Override.Disturbance

/-!
# Places beside a path

Two paths that part in an object lead to places of which each may change without the other. In an
array this is not so: setting an element makes the ones before it, deleting one moves the ones
behind it. But a name leads nowhere in an array, whatever happens to the elements. So a place that
parts from a path at one of the path's names, or at the root of an object, is beside the path
(`Path.isBeside`), and an op at such a place leaves what is found at the path as it is, also where
nothing is found (`Op.lookup?_apply_of_isBeside`).
-/

namespace LayerRouting

namespace Path

/-- Whether a place parts from a path where no array can be: at a name of the path, or at the root
if that is an object. -/
def isBeside (objectRoot : Bool) : Path -> Path -> Bool
  | first :: others, segment :: rest =>
      if first.Matches segment then isBeside false others rest
      else objectRoot || segment.asIndex?.isNone
  | _, _ => false

variable {objectRoot : Bool} {first segment : Segment} {others rest place path : Path}

theorem isBeside_cons_of_matches (same : first.asKey = segment.asKey) :
    isBeside objectRoot (first :: others) (segment :: rest) = isBeside false others rest :=
  if_pos same

theorem isBeside_cons_of_not_matches (distinct : first.asKey ≠ segment.asKey) :
    isBeside objectRoot (first :: others) (segment :: rest)
      = (objectRoot || segment.asIndex?.isNone) :=
  if_neg distinct

/-- A place that is beside a path is not the whole tree, and neither is the path. -/
theorem ne_nil_of_isBeside (beside : isBeside objectRoot place path) : place ≠ [] ∧ path ≠ [] := by
  cases place <;> cases path <;> simp_all [isBeside]

/-- A place that is neither on a path of names nor above or below it is beside it. -/
theorem isBeside_of_names (names : ∀ segment ∈ path, segment.asIndex? = none)
    (notBelow : ¬ place.isWithin path) (notAbove : ¬ path.isWithin place) :
    isBeside objectRoot place path := by
  induction place generalizing path objectRoot with
  | nil => exact absurd (isWithin_nil path) notAbove
  | cons first others inductionHypothesis =>
      cases path with
      | nil => exact absurd (isWithin_nil _) notBelow
      | cons segment rest =>
          rw [isWithin_cons_cons] at notBelow notAbove
          obtain ⟨name, restNames⟩ := List.forall_mem_cons.mp names
          by_cases same : first.asKey = segment.asKey
          · rw [isBeside_cons_of_matches same]
            exact inductionHypothesis restNames (fun within => notBelow ⟨same.symm, within⟩)
              (fun within => notAbove ⟨same, within⟩)
          · rw [isBeside_cons_of_not_matches same, name]
            exact Bool.or_true _

/-- A place that is neither on a field of names nor above or below it is beside it, whatever the
item is called: the root is an object there. -/
theorem isBeside_item_of_names {id : String} {field : Path}
    (names : ∀ segment ∈ field, segment.asIndex? = none)
    (notBelow : ¬ place.isWithin (item id ++ field))
    (notAbove : ¬ isWithin (item id ++ field) place) :
    isBeside true place (item id ++ field) := by
  cases place with
  | nil => exact absurd (isWithin_nil _) notAbove
  | cons first others =>
      rw [item, List.singleton_append, isWithin_cons_cons] at notBelow notAbove
      rw [item, List.singleton_append]
      by_cases same : first.asKey = (Segment.key id).asKey
      · rw [isBeside_cons_of_matches same]
        exact isBeside_of_names names (fun within => notBelow ⟨same.symm, within⟩)
          (fun within => notAbove ⟨same, within⟩)
      · rw [isBeside_cons_of_not_matches same]
        rfl

end Path

/-- An op at a place beside a path does not disturb the path. -/
theorem Path.not_disturbs_of_isBeside {deletes objectRoot : Bool} {place path : Path} {tree : Json}
    (object : objectRoot -> tree.isObject) (beside : isBeside objectRoot place path) :
    disturbs deletes place path tree = false := by
  induction place generalizing path tree objectRoot with
  | nil => exact absurd rfl (ne_nil_of_isBeside beside).1
  | cons first others inductionHypothesis =>
      obtain ⟨segment, rest, rfl⟩ := List.exists_cons_of_ne_nil (ne_nil_of_isBeside beside).2
      by_cases same : first.asKey = segment.asKey
      · rw [isBeside_cons_of_matches same] at beside
        rw [disturbs_cons_of_joins (.inl same)]
        exact inductionHypothesis Bool.noConfusion beside
      · rw [isBeside_cons_of_not_matches same, Bool.or_eq_true, Option.isNone_iff_eq_none] at beside
        obtain root | name := beside
        · exact disturbs_cons_of_not_items (Json.itemsAt?_of_isObject (object root)) same
        · exact disturbs_cons_of_name name same

/-- An op beside a path leaves what is found at the path as it is. -/
theorem Op.lookup?_apply_of_isBeside {op : Op} {objectRoot : Bool} {path : Path} {tree : Json}
    (object : objectRoot -> tree.isObject) (beside : Path.isBeside objectRoot op.path path) :
    (op.apply tree).lookup? path = tree.lookup? path :=
  lookup?_apply_of_not_disturbs (Path.not_disturbs_of_isBeside object beside)

end LayerRouting
