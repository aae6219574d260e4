import LayerRouting.Json.Basic

/-!
# Merging layers

Layers of configuration from the weakest to the strongest. Objects merge member by
member; any other value of a stronger layer replaces the weaker one. Members keep the
place of their first appearance.
-/

namespace LayerRouting

namespace Json

mutual

/-- A tree overlaid by a stronger one. -/
def overlay (weaker : Json) : Json -> Json
  | .object stronger =>
      match weaker with
      | .object entries => .object (overlayEntries entries stronger)
      | _ => .object stronger
  | other => other

/-- The entries of an object overlaid by stronger ones, one after the other. -/
def overlayEntries (entries : List (String × Json)) :
    List (String × Json) -> List (String × Json)
  | [] => entries
  | (key, value) :: rest =>
      let merged :=
        match Entries.get? key entries with
        | some old => overlay old value
        | none => value
      overlayEntries (Entries.insert key merged entries) rest

end

/-- The tree of layers from the weakest to the strongest; null when there are none. -/
def mergeLayers (layers : List Json) : Json :=
  layers.foldl overlay .null

end Json

end LayerRouting
