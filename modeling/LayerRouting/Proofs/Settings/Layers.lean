import LayerRouting.Settings.Merge
import LayerRouting.Proofs.Json.Same
import Mathlib.Data.List.DropRight

/-!
# Layers key by key

Layers merge one after the other, each over the tree that the weaker ones came to. What they
come to can be read off the list of layers (`Json.mergeLayers_keywise`): only the objects at its
end count, the keys stand in the order in which these objects bring them, and under each key is
the merge of the values that the objects hold there. So a layer that is no object hides all
layers below it, at every depth.
-/

namespace LayerRouting

namespace Json

/-! ## One layer over a tree -/

theorem overlay_of_not_isObject {layer : Json} (other : ¬ layer.isObject) (weaker : Json) :
    overlay weaker layer = layer := by
  cases layer <;> simp_all [overlay, isObject]

theorem overlay_of_not_isObject_left {weaker : Json} (other : ¬ weaker.isObject) (layer : Json) :
    overlay weaker layer = layer := by
  cases layer <;> cases weaker <;> simp_all [overlay, isObject]

@[simp]
theorem overlay_null (layer : Json) : overlay null layer = layer :=
  overlay_of_not_isObject_left (by decide) layer

/-- Each entry of a layer overlays what is under its key; null stands for an absent value. -/
theorem overlayEntries_cons (entries : List (String × Json)) (key : String) (value : Json)
    (rest : List (String × Json)) :
    overlayEntries entries ((key, value) :: rest)
      = overlayEntries
          (Entries.insert key (overlay ((Entries.get? key entries).getD null) value) entries)
          rest := by
  rw [overlayEntries]
  cases Entries.get? key entries with
  | none => rw [Option.getD_none, overlay_null]
  | some old => rfl

theorem keys_overlayEntries (entries stronger : List (String × Json)) :
    Entries.keys (overlayEntries entries stronger)
      = Entries.keys entries
        ++ ((Entries.keys stronger).filter (· ∉ Entries.keys entries)).eraseDups := by
  rw [← Entries.foldl_addNew]
  induction stronger generalizing entries with
  | nil => rfl
  | cons entry rest inductionHypothesis =>
      obtain ⟨key, value⟩ := entry
      rw [overlayEntries_cons, inductionHypothesis, Entries.keys_insert]
      rfl

theorem get?_overlayEntries {stronger : List (String × Json)}
    (distinct : (Entries.keys stronger).Nodup) (entries : List (String × Json)) (key : String) :
    Entries.get? key (overlayEntries entries stronger)
      = (Entries.get? key stronger).elim (Entries.get? key entries)
          fun value => some (overlay ((Entries.get? key entries).getD null) value) := by
  induction stronger generalizing entries with
  | nil => rfl
  | cons entry rest inductionHypothesis =>
      obtain ⟨name, value⟩ := entry
      obtain ⟨absent, later⟩ := List.nodup_cons.mp distinct
      rw [overlayEntries_cons, inductionHypothesis later, Entries.get?_insert, Entries.get?]
      by_cases here : name = key
      · -- The key is not met again in the rest of the layer.
        subst here
        have gone : Entries.get? name rest = none := by
          rwa [← Option.not_isSome_iff_eq_none, Entries.get?_isSome_iff]
        simp [gone]
      · simp [here]

theorem nodup_keys_overlayEntries {entries : List (String × Json)}
    (distinct : (Entries.keys entries).Nodup) (stronger : List (String × Json)) :
    (Entries.keys (overlayEntries entries stronger)).Nodup := by
  induction stronger generalizing entries with
  | nil => exact distinct
  | cons entry rest inductionHypothesis =>
      obtain ⟨key, value⟩ := entry
      rw [overlayEntries_cons]
      exact inductionHypothesis (Entries.nodup_keys_insert distinct key _)

/-! ## An object over a tree -/

section Object

variable {layer : Json}

theorem isObject_overlay (object : layer.isObject) (weaker : Json) :
    (overlay weaker layer).isObject := by
  obtain ⟨stronger, rfl⟩ := isObject_iff.mp object
  cases weaker <;> rfl

/-- An object keeps the keys below it in their places and puts its new ones behind them. -/
theorem keys_overlay (object : layer.isObject) (distinct : layer.keys.Nodup) (weaker : Json) :
    (overlay weaker layer).keys
      = weaker.keys ++ (layer.keys.filter (· ∉ weaker.keys)).eraseDups := by
  by_cases below : weaker.isObject
  · obtain ⟨stronger, rfl⟩ := isObject_iff.mp object
    obtain ⟨entries, rfl⟩ := isObject_iff.mp below
    exact keys_overlayEntries entries stronger
  · rw [overlay_of_not_isObject_left below, keys_of_not_isObject below]
    simp [Entries.eraseDups_of_nodup distinct]

/-- An object changes the members that it has itself: its own values overlay those below it. -/
theorem get?_overlay (object : layer.isObject) (distinct : layer.keys.Nodup) (weaker : Json)
    (key : String) :
    (overlay weaker layer).get? key
      = (layer.get? key).elim (weaker.get? key)
          fun value => some (overlay ((weaker.get? key).getD null) value) := by
  by_cases below : weaker.isObject
  · obtain ⟨stronger, rfl⟩ := isObject_iff.mp object
    obtain ⟨entries, rfl⟩ := isObject_iff.mp below
    exact get?_overlayEntries distinct entries key
  · rw [overlay_of_not_isObject_left below, get?_of_not_isObject below]
    cases layer.get? key with
    | none => rfl
    | some value => simp

theorem nodup_keys_overlay {weaker : Json} (weakerDistinct : weaker.keys.Nodup)
    (object : layer.isObject) (distinct : layer.keys.Nodup) :
    (overlay weaker layer).keys.Nodup := by
  by_cases below : weaker.isObject
  · obtain ⟨stronger, rfl⟩ := isObject_iff.mp object
    obtain ⟨entries, rfl⟩ := isObject_iff.mp below
    exact nodup_keys_overlayEntries weakerDistinct stronger
  · rwa [overlay_of_not_isObject_left below]

end Object

/-! ## A run of objects -/

theorem mergeLayers_concat (layers : List Json) (layer : Json) :
    mergeLayers (layers ++ [layer]) = overlay (mergeLayers layers) layer :=
  List.foldl_concat ..

/-- The keys of layers, in the order in which they first appear. -/
def layerKeys (layers : List Json) : List String :=
  (layers.flatMap keys).eraseDups

/-- The values that layers hold under a key, from the weakest to the strongest. -/
def layerValues (key : String) (layers : List Json) : List Json :=
  layers.filterMap fun layer => layer.get? key

theorem layerKeys_concat (layers : List Json) (layer : Json) :
    layerKeys (layers ++ [layer])
      = layerKeys layers ++ (layer.keys.filter (· ∉ layerKeys layers)).eraseDups := by
  have known : ∀ key, key ∈ layerKeys layers ↔ key ∈ layers.flatMap keys :=
    fun key => List.mem_eraseDups
  simp only [layerKeys, List.flatMap_append, List.flatMap_singleton, List.eraseDups_append,
    List.removeAll] at known ⊢
  simp only [known, List.elem_eq_mem, decide_not]

theorem layerValues_concat (key : String) (layers : List Json) (layer : Json) :
    layerValues key (layers ++ [layer]) = layerValues key layers ++ (layer.get? key).toList := by
  cases found : layer.get? key <;> simp [layerValues, found]

/-- Whether a tree is a run of objects taken key by key. -/
structure MergesKeywise (run : List Json) (merged : Json) : Prop where
  isObject : run ≠ [] -> merged.isObject
  distinct : merged.keys.Nodup
  keys : merged.keys = layerKeys run
  member : ∀ key, (merged.get? key).getD null = mergeLayers (layerValues key run)

theorem mergesKeywise_mergeLayers {run : List Json} (objects : ∀ layer ∈ run, layer.isObject)
    (distinct : ∀ layer ∈ run, layer.keys.Nodup) : MergesKeywise run (mergeLayers run) := by
  induction run using List.reverseRecOn with
  | nil => exact ⟨fun further => absurd rfl further, List.nodup_nil, rfl, fun _ => rfl⟩
  | append_singleton run layer inductionHypothesis =>
      obtain ⟨runObjects, object⟩ := List.forall_mem_append.mp objects
      obtain ⟨runDistinct, layerDistinct⟩ := List.forall_mem_append.mp distinct
      rw [List.forall_mem_singleton] at object layerDistinct
      have merged := inductionHypothesis runObjects runDistinct
      rw [mergeLayers_concat]
      constructor
      · exact fun _ => isObject_overlay object _
      · exact nodup_keys_overlay merged.distinct object layerDistinct
      · rw [keys_overlay object layerDistinct, merged.keys, layerKeys_concat]
      · intro key
        rw [get?_overlay object layerDistinct, layerValues_concat]
        cases layer.get? key with
        | none =>
            rw [Option.toList_none, List.append_nil]
            exact merged.member key
        | some value =>
            rw [Option.toList_some, mergeLayers_concat, ← merged.member key]
            rfl

/-- The tree is determined by its keys and the values under them. -/
theorem MergesKeywise.eq_object {run : List Json} {merged : Json}
    (merges : MergesKeywise run merged) (further : run ≠ []) :
    merged = object ((layerKeys run).map fun key => (key, mergeLayers (layerValues key run))) := by
  obtain ⟨entries, rfl⟩ := isObject_iff.mp (merges.isObject further)
  have shown : ∀ key ∈ Entries.keys entries,
      Entries.get? key entries = some (mergeLayers (layerValues key run)) := by
    intro key member
    obtain ⟨value, found⟩ := Option.isSome_iff_exists.mp (Entries.get?_isSome_iff.mpr member)
    have held := merges.member key
    rw [get?, found, Option.getD_some] at held
    rw [found, held]
  rw [← merges.keys]
  exact congrArg object (Entries.eq_map_keys merges.distinct shown)

/-! ## All layers -/

/-- The objects at the end of a list of layers, behind the last layer that is no object. -/
def objectRun (layers : List Json) : List Json :=
  layers.rtakeWhile isObject

/-- Before the run of objects at the end stands nothing, or a layer that is no object. -/
theorem not_isObject_mergeLayers_rdropWhile (layers : List Json) :
    ¬ (mergeLayers (layers.rdropWhile isObject)).isObject := by
  rcases List.eq_nil_or_concat' (layers.rdropWhile isObject) with none | ⟨earlier, other, split⟩
  · rw [none]
    exact Bool.false_ne_true
  · have stops := List.rdropWhile_last_not isObject layers (by simp [split])
    simp only [split, List.getLast_append_singleton] at stops ⊢
    rwa [mergeLayers_concat, overlay_of_not_isObject stops]

/-- Layers that end with an object merge to what the run of objects at the end merges to. -/
theorem mergeLayers_eq_objectRun {layers : List Json} (further : objectRun layers ≠ []) :
    mergeLayers layers = mergeLayers (objectRun layers) := by
  obtain ⟨first, rest, run⟩ := List.exists_cons_of_ne_nil further
  have split : layers = layers.rdropWhile isObject ++ first :: rest := by
    rw [← run, objectRun, List.rdropWhile_append_rtakeWhile]
  have below := not_isObject_mergeLayers_rdropWhile layers
  calc mergeLayers layers
      = rest.foldl overlay (overlay (mergeLayers (layers.rdropWhile isObject)) first) := by
        conv_lhs => rw [split, mergeLayers, List.foldl_append, List.foldl_cons, ← mergeLayers]
    _ = rest.foldl overlay (overlay null first) := by
        rw [overlay_of_not_isObject_left below, overlay_null]
    _ = mergeLayers (objectRun layers) := by rw [run, mergeLayers, List.foldl_cons]

/-- No layers merge to null, and layers of which the last one is no object merge to that one. All
others merge to an object: its keys are those of the objects at the end of the list, in the order
in which these bring them, and under each key is the merge of the values that they hold there. An
object repeats no key. -/
theorem mergeLayers_keywise (layers : List Json) (distinct : ∀ layer ∈ layers, layer.keys.Nodup) :
    mergeLayers layers
      = match layers.getLast? with
        | none => null
        | some last =>
            if last.isObject then
              object ((layerKeys (objectRun layers)).map fun key =>
                (key, mergeLayers (layerValues key (objectRun layers))))
            else last := by
  rcases List.eq_nil_or_concat' layers with rfl | ⟨earlier, last, rfl⟩
  · rfl
  · rw [List.getLast?_concat]
    simp only
    split
    · next isObject =>
        have further : objectRun (earlier ++ [last]) ≠ [] := by simp [objectRun, isObject]
        have merges : MergesKeywise (objectRun (earlier ++ [last])) _ :=
          mergesKeywise_mergeLayers (fun layer member => List.mem_rtakeWhile_imp member)
            fun layer member => distinct layer ((List.rtakeWhile_suffix _ _).mem member)
        rw [mergeLayers_eq_objectRun further]
        exact merges.eq_object further
    · next other => rw [mergeLayers_concat, overlay_of_not_isObject other]

/-- Layers of which one in the middle is no object, and of which two hold objects under one key. -/
def interruptedLayers : List Json :=
  [.object [("store", .object [("dir", .string "built-in")])], .string "off",
    .object [("log", .object [("filter", .string "info")]), ("store", .bool false)],
    .object [("lock", .null), ("log", .object [("level", .bool true), ("filter", .null)])]]

theorem mergeLayers_interruptedLayers :
    (∀ layer ∈ interruptedLayers, layer.keys.Nodup)
      ∧ mergeLayers interruptedLayers
        = .object [("log", .object [("filter", .null), ("level", .bool true)]),
            ("store", .bool false), ("lock", .null)] := by
  have distinct : ∀ layer ∈ interruptedLayers, layer.keys.Nodup := by decide
  exact ⟨distinct, (mergeLayers_keywise interruptedLayers distinct).trans (by decide)⟩

end Json

end LayerRouting
