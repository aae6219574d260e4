import LayerRouting.CommandLine.Program
import LayerRouting.Proofs.RouteSet.Live
import LayerRouting.Proofs.RouteSet.Rereading

/-!
# Players that are printed

Of the players that a command line names for a pool, those are printed that no inactive route set
of the owner's document lists for it. Players are compared as ids, while what is named and what is
printed are texts. An argument that spells a number is the id of that number, so no argument is the
id of a name that spells one: such a name in a document keeps back nobody, and its text is printed
for the number (`RouteSets.KeepsEnabled.text_mem_iff`). Every other text of a player that is
disabled is not printed, and every argument that has no such text is (`Program.printsPlayers`).
-/

namespace LayerRouting

/-! ## Ids and their texts -/

namespace PlayerId

/-- The text of a number reads as the number. -/
theorem ofText_text (value : Int64) : ofText (text (.number value)) = .number value := by
  rw [ofText, text, String.toList_ofList, Text.signed?_integerText, Option.bind_some, ofInt?_toInt]

/-- A text that reads as a name is the name. -/
theorem eq_of_ofText {argument name : String} (read : ofText argument = .name name) :
    argument = name := by
  rw [ofText] at read
  split at read
  · next player known =>
      obtain ⟨value, -, fits⟩ := Option.bind_eq_some_iff.mp known
      rw [read, ofInt?] at fits
      split at fits <;> cases fits
  · exact PlayerId.name.inj read

/-- An id that has the text of one that was read is this id, or it is a name that spells a number
and the other is the number. -/
theorem text_eq_text_ofText_iff {listed : PlayerId} {argument : String} :
    listed.text = (ofText argument).text
      ↔ listed = ofText argument
        ∨ ∃ value, ofText argument = .number value ∧ listed = .name (text (.number value)) := by
  constructor
  · intro same
    cases read : ofText argument with
    | name name =>
        obtain rfl := eq_of_ofText read
        rw [read] at same
        cases listed with
        | name other => exact .inl (congrArg PlayerId.name same)
        | number value =>
            rw [← ofText_text, same, text, read]
            exact .inl rfl
    | number value =>
        rw [read] at same
        cases listed with
        | name other => exact .inr ⟨value, rfl, congrArg PlayerId.name same⟩
        | number other =>
            rw [← ofText_text other, same, ofText_text]
            exact .inl rfl
  · rintro (rfl | ⟨value, read, rfl⟩)
    · rfl
    · rw [read]
      rfl

end PlayerId

/-! ## Players that are kept -/

namespace RouteSets

/-- The players that inactive live route sets list for a pool. -/
def disabledPlayers (sets : RouteSets) (pool : String) : List PlayerId :=
  (sets.live.filter fun entry => !entry.2.active).flatMap fun entry =>
    (entry.2.abPlayers.filter fun member => member.poolName = pool).map PoolMember.playerId

/-- The statuses of a pool disable the players that inactive route sets list. -/
theorem isPlayerDisabled_iff {sets : RouteSets} {pool : String} {player : PlayerId} :
    isPlayerDisabled pool sets.poolStatuses player ↔ player ∈ sets.disabledPlayers pool := by
  simp only [isPlayerDisabled, poolStatuses, disabledPlayers, List.any_eq_true, List.mem_flatMap,
    List.mem_map, List.mem_filter]
  constructor
  · rintro ⟨_, ⟨entry, live, member, held, rfl⟩, same⟩
    simp only [Bool.and_eq_true, decide_eq_true_eq] at same
    exact ⟨entry, ⟨live, same.1.1⟩, member, ⟨held, decide_eq_true same.1.2⟩, same.2⟩
  · rintro ⟨entry, ⟨live, inactive⟩, member, ⟨held, own⟩, rfl⟩
    refine ⟨_, ⟨entry, live, member, held, rfl⟩, ?_⟩
    simpa [inactive] using own

/-- Whether of the ids that were read from arguments those are kept that are not disabled. -/
structure KeepsEnabled (sets : RouteSets) (pool : String) (arguments : List String)
    (kept : List PlayerId) : Prop where
  /-- The ids that are kept, in order and with repetitions. -/
  eq_filter : kept
    = (arguments.map PlayerId.ofText).filter fun player => player ∉ sets.disabledPlayers pool
  /-- The text of a disabled player is among the texts of those that are kept exactly if the player
  is a name that spells a number and some argument reads as that number, which is not disabled. -/
  text_mem_iff : ∀ listed ∈ sets.disabledPlayers pool,
    (listed.text ∈ kept.map PlayerId.text
      ↔ ∃ value, listed = .name (PlayerId.text (.number value))
        ∧ .number value ∈ arguments.map PlayerId.ofText
        ∧ .number value ∉ sets.disabledPlayers pool)
  /-- The ids whose texts are those of no disabled player are all kept, in order and with
  repetitions. -/
  spares : (kept.filter fun player =>
      player.text ∉ (sets.disabledPlayers pool).map PlayerId.text)
    = (arguments.map PlayerId.ofText).filter fun player =>
      player.text ∉ (sets.disabledPlayers pool).map PlayerId.text

theorem keepsEnabled (sets : RouteSets) (pool : String) (arguments : List String) :
    sets.KeepsEnabled pool arguments
      (enabledPlayers pool (arguments.map PlayerId.ofText) sets.poolStatuses) := by
  have kept : enabledPlayers pool (arguments.map PlayerId.ofText) sets.poolStatuses
      = (arguments.map PlayerId.ofText).filter fun player =>
        player ∉ sets.disabledPlayers pool := by
    refine List.filter_congr fun player _ => ?_
    rw [Bool.eq_iff_iff, Bool.not_eq_true', ← Bool.not_eq_true, isPlayerDisabled_iff,
      decide_eq_true_eq]
  refine ⟨kept, fun listed disabled => ?_, ?_⟩
  · rw [kept, List.mem_map]
    constructor
    · rintro ⟨player, member, same⟩
      obtain ⟨asked, enabled⟩ := List.mem_filter.mp member
      obtain ⟨argument, given, rfl⟩ := List.mem_map.mp asked
      rcases PlayerId.text_eq_text_ofText_iff.mp same.symm with rfl | ⟨value, read, rfl⟩
      · exact absurd disabled (of_decide_eq_true enabled)
      · rw [read] at enabled
        exact ⟨value, rfl, read ▸ asked, of_decide_eq_true enabled⟩
    · rintro ⟨value, rfl, asked, enabled⟩
      exact ⟨.number value, List.mem_filter.mpr ⟨asked, decide_eq_true enabled⟩, rfl⟩
  · rw [kept, List.filter_filter]
    refine List.filter_congr fun player _ => ?_
    rw [← Bool.decide_and, decide_eq_decide, and_iff_left_iff_imp]
    exact fun apart disabled => apart (List.mem_map_of_mem disabled)

end RouteSets

/-! ## The command -/

namespace Program

variable {δ : Type} [StoreDirectory δ]

/-- The command for the players of a pool prints those that are kept and leaves the store as it
is, wherever the owner's document is loaded. -/
theorem runCommand_pools (surroundings : Surroundings) {arguments : Arguments}
    (effective : EffectiveSettings) (directory : δ) (input : Except FileFault Content)
    {owner pool : String} {players : List String} {document : Document Json}
    (asked : arguments.command = .pools owner pool players)
    (loaded : FileStore.load { directory, now := surroundings.now } owner = .ok document) :
    runCommand surroundings arguments effective directory input
      = ({ code := 0
           standardOutput := Report.printed arguments.options.json (.ofPlayers
             (enabledPlayers pool (players.map PlayerId.ofText)
               (RouteSets.ofDocument document).poolStatuses))
           standardError := "" }, directory) := by
  have sets : routeSets (Controller.ofStore ({ directory, now := surroundings.now } : FileStore δ)
      effective.settings.lockTiming surroundings.supply) owner
        = .ok (RouteSets.ofDocument document) := by
    have held : DocumentStore.load ({ directory, now := surroundings.now } : FileStore δ) owner
        = .ok document := loaded
    rw [routeSets, Controller.routeSets, Controller.ofStore, held]
    rfl
  simp only [runCommand, asked, execute, sets]
  rfl

/-- Where an owner's document is loaded, the command for the players of a pool prints those of the
players that it is given that are not disabled, and nothing else happens. So the text of a disabled
player is not printed, unless the player is a name that spells a number and an argument reads as the
number; and every argument without such a text is printed, in order and with repetitions. -/
theorem printsPlayers (surroundings : Surroundings) {arguments : Arguments}
    (effective : EffectiveSettings) (directory : δ) (input : Except FileFault Content)
    {owner pool : String} {players : List String} {document : Document Json}
    (asked : arguments.command = .pools owner pool players)
    (loaded : FileStore.load { directory, now := surroundings.now } owner = .ok document) :
    ∃ kept, (RouteSets.ofDocument document).KeepsEnabled pool players kept
      ∧ runCommand surroundings arguments effective directory input
        = ({ code := 0
             standardOutput := Report.printed arguments.options.json (.ofPlayers kept)
             standardError := "" }, directory) :=
  ⟨_, RouteSets.keepsEnabled _ _ _, runCommand_pools surroundings effective directory input asked
    loaded⟩

end Program

/-! ## A name that spells a number -/

/-- A route set that lists three players of a pool: a name that spells a number, a number and
another name. It is inactive. -/
def Document.pooled : Document Json where
  defaults := .object [("backup", .object [("name", .string "Backup"),
    ("abPlayers", .array [
      .object [("poolName", .string "clips"), ("playerId", .string "2")],
      .object [("poolName", .string "clips"), ("playerId", .ofNat 3)],
      .object [("poolName", .string "clips"), ("playerId", .string "left")]])])]
  log := []

theorem RouteSets.disabledPlayers_pooled :
    (ofDocument Document.pooled).disabledPlayers "clips"
      = [.name "2", .number 3, .name "left"] := by
  rw [ofDocument_of_ordered (by decide +kernel) rfl]
  decide +kernel

namespace Program

/-- A directory that holds that document. -/
def pooledDirectory : Directory :=
  .holding [("stage.json", .file (StoredDocument.toContent
    { version := schemaVersion, updatedAt := ⟨0, 0⟩, document := Document.pooled }))]

/-- What a run at that time knows. -/
def pooledSurroundings : Surroundings where
  now := ⟨0, 0⟩
  home := none
  supply := ⟨0⟩

/-- The settings of a run without files of settings. -/
def pooledSettings : EffectiveSettings where
  loadedAt := ⟨0, 0⟩
  settings := Settings.builtin
  sources := []

/-- A command line that names the players of the route set among others. -/
def pooledArguments : Arguments where
  options := GlobalOptions.none
  command := .pools "stage" "clips" ["1", "2", "+3", "left", "1"]

theorem load_pooledDirectory :
    FileStore.load { directory := pooledDirectory, now := pooledSurroundings.now } "stage"
      = .ok Document.pooled := by
  decide +kernel

/-- Two of the three players are kept back, one of them named with a sign. -/
theorem printsPlayers_pooled :
    pooledArguments.command = .pools "stage" "clips" ["1", "2", "+3", "left", "1"]
      ∧ FileStore.load { directory := pooledDirectory, now := pooledSurroundings.now } "stage"
        = .ok Document.pooled
      ∧ ∃ kept, (RouteSets.ofDocument Document.pooled).KeepsEnabled "clips"
          ["1", "2", "+3", "left", "1"] kept
        ∧ runCommand pooledSurroundings pooledArguments pooledSettings pooledDirectory (.ok [])
          = ({ code := 0
               standardOutput := Report.printed false (.ofPlayers kept)
               standardError := "" }, pooledDirectory) :=
  ⟨rfl, load_pooledDirectory,
    printsPlayers pooledSurroundings pooledSettings pooledDirectory (.ok []) rfl
      load_pooledDirectory⟩

/-- The third, which is a name that spells a number, is printed though it is disabled. -/
theorem prints_name_of_number :
    PlayerId.name "2" ∈ (RouteSets.ofDocument Document.pooled).disabledPlayers "clips"
      ∧ runCommand pooledSurroundings pooledArguments pooledSettings pooledDirectory (.ok [])
        = ({ code := 0, standardOutput := "1 2 1\n", standardError := "" }, pooledDirectory) := by
  refine ⟨by simp [RouteSets.disabledPlayers_pooled], ?_⟩
  rw [runCommand_pools _ _ _ _ rfl load_pooledDirectory, (RouteSets.keepsEnabled _ _ _).eq_filter,
    RouteSets.disabledPlayers_pooled]
  decide +kernel

end Program

end LayerRouting
