import VeritasSync.Common.ConfigFormat

/-
  Loading the configuration at start-up: two files, each of
  which may be missing, may not be JSON, or may hold a value
  of the wrong type somewhere.

  Main declarations:
    * `Config.loadConfigOrCreateDefault`
    * `Config.separate_configFields`
    * `Config.separate_advancedFields`
    * `Config.Unloadable`, `Config.leavesDefaults_iff`
    * `Config.KeepsNothing`, `Config.keepsNothing_iff`
-/

namespace VeritasSync

namespace Config

------------------------------------------------------------
-- Files
------------------------------------------------------------

/-
  What is found at the path of a file.  A value that has
  been written is the one its text is parsed to.
-/
inductive Stored where
| missing : Stored
| garbled : Stored
| json : Json → Stored

/-
  How writing a file ends: it cannot be opened, only a part
  gets into it, or all of it.
-/
inductive Writing where
| refused
| cut
| done
deriving DecidableEq

def Writing.apply : Writing → Json → Stored → Stored
| .refused, _, stored => stored
| .cut, _, _ => .garbled
| .done, json, _ => .json json

/- The directory with the configuration. -/
structure ConfigDir where
  config : Stored
  backup : Stored
  advanced : Stored

/-
  What the host does during the start: the identifier that
  it generates, which is empty when that fails, and how its
  file operations end.
-/
structure Startup where
  uuid : String
  renameFails : Bool
  configWriting : Writing
  advancedWriting : Writing

------------------------------------------------------------
-- Loading
------------------------------------------------------------

structure Loading where
  config : Config
  dir : ConfigDir
  needSaveConfig : Bool
  needSaveAdvanced : Bool

def createDefault (S : Startup) : Config :=
  { deviceId := S.uuid }

/- The unusable file is put aside, and nothing of it kept. -/
def backUp
    (S : Startup)
    (dir : ConfigDir) : Loading where
  config := createDefault S
  dir :=
    if S.renameFails then
      dir
    else
      { dir with backup := dir.config, config := .missing }
  needSaveConfig := true
  needSaveAdvanced := true

def loadConfigJson
    (S : Startup)
    (dir : ConfigDir) : Loading :=
  match dir.config with
  | .missing => ⟨createDefault S, dir, true, true⟩
  | .garbled => backUp S dir
  | .json json =>
      match configFromJson json {} with
      | (_, false) => backUp S dir
      | (c, true) =>
          if c.deviceId = "" then
            ⟨{ c with deviceId := S.uuid }, dir, true, false⟩
          else
            ⟨c, dir, false, false⟩

/- After an error the configuration is used as it is. -/
def loadAdvancedJson (l : Loading) : Loading :=
  match l.dir.advanced with
  | .missing => { l with needSaveAdvanced := true }
  | .garbled => { l with needSaveAdvanced := true }
  | .json json =>
      match advancedFromJson json l.config with
      | (c, true) => { l with config := c }
      | (c, false) =>
          { l with config := c, needSaveAdvanced := true }

def writeBack
    (S : Startup)
    (l : Loading) : ConfigDir :=
  { l.dir with
    config :=
      if l.needSaveConfig then
        S.configWriting.apply (configToJson l.config)
          l.dir.config
      else
        l.dir.config
    advanced :=
      if l.needSaveAdvanced then
        S.advancedWriting.apply (advancedToJson l.config)
          l.dir.advanced
      else
        l.dir.advanced }

def loadConfigOrCreateDefault
    (S : Startup)
    (dir : ConfigDir) : Config × ConfigDir :=
  let l := loadAdvancedJson (loadConfigJson S dir)
  (l.config, writeBack S l)

------------------------------------------------------------
-- Fields Apart
------------------------------------------------------------

section Separation

/- Every field of one list is apart from the other's. -/
def AllApart
    {σ : Type}
    (entries others : List (Entry Json σ)) : Prop :=
  ∀ e ∈ entries, ∀ e' ∈ others, e.place.Apart e'.place

variable
  {τ υ : Type}
  {p : Place Config τ}
  {q : Place Config υ}

theorem separate_group
    {fields : List (Entry Json τ)}
    (hFields : Separate fields)
    (name : String)
    (p : Place Config τ) :
    Separate (group name p fields) := by
  rw [Separate, group, List.pairwise_map]
  exact hFields.imp (fun hApart => hApart.within p)

/- The fields are parts of the place. -/
def InPlace
    (p : Place Config τ)
    (entries : List (Entry Json Config)) : Prop :=
  ∀ e ∈ entries, ∀ {α : Type} {q : Place Config α},
    p.Apart q → e.place.Apart q

theorem inPlace_group
    (name : String)
    (p : Place Config τ)
    (fields : List (Entry Json τ)) :
    InPlace p (group name p fields) := by
  intro e hMem α q hApart
  rcases List.mem_map.mp hMem with ⟨field, -, rfl⟩
  exact hApart.comp_left field.place

theorem inPlace_opt
    (key : String)
    (codec : Codec τ)
    (p : Place Config τ) :
    InPlace p [opt key codec p] := by
  intro e hMem α q hApart
  rw [List.mem_singleton.mp hMem]
  exact hApart

theorem allApart_of_inPlace
    {entries others : List (Entry Json Config)}
    (hEntries : InPlace p entries)
    (hOthers : InPlace q others)
    (hApart : p.Apart q) :
    AllApart entries others :=
  fun e hMem _ hMem' =>
    (hOthers _ hMem' (hEntries e hMem hApart).symm).symm

/- Two parts of one group, read from two files. -/
theorem allApart_within
    {fields fields' : List (Entry Json τ)}
    (hFields : AllApart fields fields')
    (name : String)
    (p : Place Config τ) :
    AllApart (group name p fields)
      (group name p fields') := by
  intro e hMem e' hMem'
  rcases List.mem_map.mp hMem with ⟨field, hField, rfl⟩
  rcases List.mem_map.mp hMem' with ⟨field', hField', rfl⟩
  exact (hFields field hField field' hField').within p

/- The parts of a list, apart in themselves and pairwise. -/
theorem separate_flatten
    {parts : List (List (Entry Json Config))}
    (hParts : ∀ part ∈ parts, Separate part)
    (hPairs : parts.Pairwise AllApart) :
    Separate parts.flatten :=
  List.pairwise_flatten.mpr ⟨hParts, hPairs⟩

theorem allApart_flatten
    {parts others : List (List (Entry Json Config))}
    (hPairs : ∀ part ∈ parts, ∀ other ∈ others,
      AllApart part other) :
    AllApart parts.flatten others.flatten := by
  intro e hMem e' hMem'
  rcases List.mem_flatten.mp hMem with ⟨part, hPart, hIn⟩
  rcases List.mem_flatten.mp hMem' with
    ⟨other, hOther, hIn'⟩
  exact hPairs part hPart other hOther e hIn e' hIn'

end Separation

------------------------------------------------------------
-- The Fields of the Two Files
------------------------------------------------------------

section Fields

/- Lists of fields whose places are all different. -/
theorem separate_fields :
    Separate networkBasicFields ∧ Separate llmBasicFields ∧
    Separate networkAdvancedFields ∧
    Separate transferFields ∧ Separate kcpFields ∧
    Separate syncFields ∧ Separate loggingAdvancedFields ∧
    Separate webuiAdvancedFields ∧
    Separate llmAdvancedFields ∧
    Separate advancedGroupFields := by
  and_intros
  all_goals
    simp only [Separate, networkBasicFields, llmBasicFields,
      networkAdvancedFields, transferFields, kcpFields,
      syncFields, loggingAdvancedFields,
      webuiAdvancedFields, llmAdvancedFields,
      advancedGroupFields, List.pairwise_cons,
      List.forall_mem_cons, List.Pairwise.nil,
      List.not_mem_nil, false_implies, implies_true,
      and_true, Place.Apart]
    and_intros <;> intros <;> rfl

/- The groups that both files have share no field. -/
theorem allApart_fields :
    AllApart networkBasicFields networkAdvancedFields ∧
    AllApart loggingBasicFields loggingAdvancedFields ∧
    AllApart webuiBasicFields webuiAdvancedFields ∧
    AllApart llmBasicFields llmAdvancedFields := by
  and_intros
  all_goals
    simp only [AllApart, networkBasicFields,
      networkAdvancedFields, loggingBasicFields,
      loggingAdvancedFields, webuiBasicFields,
      webuiAdvancedFields, llmBasicFields,
      llmAdvancedFields, List.forall_mem_cons,
      List.not_mem_nil, false_implies, implies_true,
      and_true, Place.Apart]
    and_intros <;> intros <;> rfl

theorem separate_configFields :
    Separate configFields := by
  rcases separate_fields with ⟨hNetwork, hLlm, -⟩
  apply separate_flatten
  · simp only [List.forall_mem_cons, List.not_mem_nil,
      false_implies, implies_true, and_true]
    exact ⟨List.pairwise_singleton _ _,
      separate_group hNetwork _ _,
      separate_group (List.pairwise_singleton _ _) _ _,
      separate_group (List.pairwise_singleton _ _) _ _,
      separate_group hLlm _ _, List.pairwise_singleton _ _⟩
  · simp only [List.pairwise_cons, List.forall_mem_cons,
      List.Pairwise.nil, List.not_mem_nil, false_implies,
      implies_true, and_true]
    and_intros
    all_goals
      apply allApart_of_inPlace
      · first
        | exact inPlace_group _ _ _
        | exact inPlace_opt _ _ _
      · first
        | exact inPlace_group _ _ _
        | exact inPlace_opt _ _ _
      · exact ⟨fun _ _ => rfl, fun _ _ => rfl⟩

theorem separate_advancedFields :
    Separate advancedFields := by
  rcases separate_fields with ⟨-, -, hNetwork, hTransfer,
    hKcp, hSync, hLogging, hWebui, hLlm, hAdvanced⟩
  apply separate_flatten
  · simp only [List.forall_mem_cons, List.not_mem_nil,
      false_implies, implies_true, and_true]
    exact ⟨separate_group hNetwork _ _,
      separate_group hTransfer _ _, separate_group hKcp _ _,
      separate_group hSync _ _, separate_group hLogging _ _,
      separate_group hWebui _ _, separate_group hLlm _ _,
      separate_group (List.pairwise_singleton _ _) _ _,
      separate_group hAdvanced _ _⟩
  · simp only [List.pairwise_cons, List.forall_mem_cons,
      List.Pairwise.nil, List.not_mem_nil, false_implies,
      implies_true, and_true]
    and_intros
    all_goals
      exact allApart_of_inPlace (inPlace_group _ _ _)
        (inPlace_group _ _ _)
        ⟨fun _ _ => rfl, fun _ _ => rfl⟩

/- No field is read from both files. -/
theorem allApart_files :
    AllApart configFields advancedFields := by
  rcases allApart_fields with
    ⟨hNetwork, hLogging, hWebui, hLlm⟩
  apply allApart_flatten
  simp only [List.forall_mem_cons, List.not_mem_nil,
    false_implies, implies_true, and_true]
  and_intros
  all_goals
    first
    | exact allApart_of_inPlace (inPlace_group _ _ _)
        (inPlace_group _ _ _)
        ⟨fun _ _ => rfl, fun _ _ => rfl⟩
    | exact allApart_of_inPlace (inPlace_opt _ _ _)
        (inPlace_group _ _ _)
        ⟨fun _ _ => rfl, fun _ _ => rfl⟩
    | exact allApart_within ‹_› _ _

end Fields

------------------------------------------------------------
-- An Unusable File
------------------------------------------------------------

section Unusable

/- Every field of `advanced.json` has its default. -/
def FieldsDefault (c : Config) : Prop :=
  ∀ e ∈ advancedFields,
    e.place.get c = e.place.get ({} : Config)

/- A group that is there, but is not an object. -/
def GroupWrong (json : Json) : Prop :=
  ∃ name ∈ ["network", "transfer", "kcp", "sync", "logging",
      "webui", "llm", "database", "advanced"],
    ∃ value, json.find? name = some value ∧
      value.isObj = false

/-
  The text is not JSON, the value is not an object, or some
  group or some field has the wrong type.
-/
def Unloadable : Stored → Prop
| .missing => False
| .garbled => True
| .json json =>
    json.isObj = false ∨ GroupWrong json ∨
      ∃ e ∈ advancedFields, e.read json = none

/-
  Of an unusable `advanced.json` nothing is kept, and what
  is written in its place are the defaults.
-/
def LeavesDefaults
    (S : Startup)
    (dir : ConfigDir) : Prop :=
  let after := loadConfigOrCreateDefault S dir
  FieldsDefault after.1 ∧
    (after.2.advanced = dir.advanced ∨
      after.2.advanced = .garbled ∨
      after.2.advanced = .json (advancedToJson {}))

/-
  Each field before the first of a wrong type is missing, or
  has its default.
-/
def BeginsWithDefaults : Stored → Prop
| .json json =>
    ∀ e ∈ reached advancedFields json, e.Keeps json {}
| _ => True

/- What `advanced.json` holds does not depend on the rest. -/
theorem advancedToJson_of_fieldsDefault
    {c : Config}
    (hDefault : FieldsDefault c) :
    advancedToJson c = advancedToJson {} := by
  simp [FieldsDefault, advancedFields, group,
    networkAdvancedFields, transferFields, kcpFields,
    syncFields, loggingAdvancedFields, webuiAdvancedFields,
    llmAdvancedFields, databaseFields, advancedGroupFields,
    opt, Entry.within, Place.comp, networkPlace,
    transferPlace, kcpPlace, syncPlace, loggingPlace,
    webuiPlace, llmPlace, databasePlace,
    advancedPlace] at hDefault
  simp [advancedToJson, advancedMembers,
    networkAdvancedMembers, transferMembers, kcpMembers,
    syncMembers, loggingAdvancedMembers,
    webuiAdvancedMembers, llmAdvancedMembers,
    databaseMembers, advancedGroupMembers, hDefault]

section Start

variable
  (S : Startup)
  (dir : ConfigDir)

theorem fieldsDefault_deviceId
    {c : Config}
    (hDefault : FieldsDefault c)
    (deviceId : String) :
    FieldsDefault { c with deviceId := deviceId } := by
  intro e hMem
  have hApart := allApart_files
    (opt "device_id" text deviceIdPlace)
    (List.mem_flatten.mpr
      ⟨_, List.mem_cons_self, List.mem_cons_self⟩) e hMem
  exact (hApart.1 c deviceId).trans (hDefault e hMem)

/- `config.json` has no say in the other file's fields. -/
theorem fieldsDefault_configFromJson
    (json : Json) :
    FieldsDefault (configFromJson json {}).1 :=
  fun e hMem => get_assignAll_of_apart
    (fun e' hMem' => allApart_files e' hMem' e hMem) {}

theorem fieldsDefault_createDefault :
    FieldsDefault (createDefault S) :=
  fieldsDefault_deviceId (fun _ _ => rfl) S.uuid

theorem fieldsDefault_loadConfigJson :
    FieldsDefault (loadConfigJson S dir).config := by
  unfold loadConfigJson
  split
  · exact fieldsDefault_createDefault S
  · exact fieldsDefault_createDefault S
  next json _ =>
    have hRead := fieldsDefault_configFromJson json
    split
    next => exact fieldsDefault_createDefault S
    next c hLoaded =>
      rw [hLoaded] at hRead
      split
      · exact fieldsDefault_deviceId hRead S.uuid
      · exact hRead

theorem advanced_loadConfigJson :
    (loadConfigJson S dir).dir.advanced = dir.advanced := by
  unfold loadConfigJson backUp
  split
  · rfl
  · split <;> rfl
  · split
    · split <;> rfl
    · split <;> rfl

/- Whatever is written has the fields of the result. -/
theorem advanced_writeBack
    {l : Loading}
    (hDefault : FieldsDefault l.config) :
    (writeBack S l).advanced = l.dir.advanced ∨
      (writeBack S l).advanced = .garbled ∨
      (writeBack S l).advanced =
        .json (advancedToJson {}) := by
  rw [← advancedToJson_of_fieldsDefault hDefault]
  unfold writeBack
  dsimp only
  split
  · cases S.advancedWriting with
    | refused => exact Or.inl rfl
    | cut => exact Or.inr (Or.inl rfl)
    | done => exact Or.inr (Or.inr rfl)
  · exact Or.inl rfl

theorem advanced_loadAdvancedJson
    (l : Loading) :
    (loadAdvancedJson l).dir = l.dir := by
  unfold loadAdvancedJson
  split
  · rfl
  · rfl
  · split <;> rfl

/- What reading `advanced.json` makes of default fields. -/
theorem fieldsDefault_advancedFromJson_iff
    {c : Config}
    (hDefault : FieldsDefault c)
    (json : Json) :
    FieldsDefault (advancedFromJson json c).1 ↔
      BeginsWithDefaults (.json json) := by
  have hKeeps := assignAll_keeps_iff
    json separate_advancedFields c
  have hFields : FieldsDefault (advancedFromJson json c).1 ↔
      ∀ e ∈ advancedFields,
        e.place.get (assignAll advancedFields json c).1 =
          e.place.get c :=
    forall₂_congr (fun e hMem => by
      rw [hDefault e hMem, advancedFromJson])
  rw [hFields, hKeeps]
  refine forall₂_congr (fun e hReached => ?_)
  have hMem := (List.takeWhile_sublist _).subset hReached
  rw [Entry.Keeps, Entry.Keeps, hDefault e hMem]

theorem fieldsDefault_loadAdvancedJson_iff
    {l : Loading}
    (hDefault : FieldsDefault l.config) :
    FieldsDefault (loadAdvancedJson l).config ↔
      BeginsWithDefaults l.dir.advanced := by
  unfold loadAdvancedJson
  split
  next hFile =>
    rw [hFile]
    exact iff_of_true hDefault trivial
  next hFile =>
    rw [hFile]
    exact iff_of_true hDefault trivial
  next json hFile =>
    rw [hFile]
    have hRun := fieldsDefault_advancedFromJson_iff hDefault
      json
    split
    next c hLoaded =>
      rw [hLoaded] at hRun
      exact hRun
    next c hLoaded =>
      rw [hLoaded] at hRun
      exact hRun

end Start

/- An unusable `advanced.json` leaves nothing behind. -/
def KeepsNothing
    (S : Startup)
    (dir : ConfigDir) : Prop :=
  Unloadable dir.advanced → LeavesDefaults S dir

/-
  The start keeps nothing of an unusable `advanced.json`
  exactly when there was nothing but defaults in it up to
  the first error.
-/
theorem leavesDefaults_iff
    (S : Startup)
    (dir : ConfigDir) :
    LeavesDefaults S dir ↔
      BeginsWithDefaults dir.advanced := by
  have hFirst := fieldsDefault_loadConfigJson S dir
  rw [← advanced_loadConfigJson S dir,
    ← fieldsDefault_loadAdvancedJson_iff hFirst]
  constructor
  · exact fun hLeaves => hLeaves.1
  · intro hFields
    refine ⟨hFields, ?_⟩
    have hWritten := advanced_writeBack S hFields
    rw [advanced_loadAdvancedJson,
      advanced_loadConfigJson] at hWritten
    exact hWritten

/-
  It is so exactly when the unusable file is no JSON at all,
  or has nothing but defaults up to the first error.
-/
theorem keepsNothing_iff
    (S : Startup)
    (dir : ConfigDir) :
    KeepsNothing S dir ↔
      (Unloadable dir.advanced →
        BeginsWithDefaults dir.advanced) :=
  imp_congr_right (fun _ => leavesDefaults_iff S dir)

end Unusable

/- The window size is text; the number before it is fine. -/
def wrongField : Json :=
  .obj [("network", .obj
      [("tracker_reconnect_interval_seconds", .num 9)]),
    ("kcp", .obj [("window_size", .str "large")])]

/- A group that is a number, beside one that is fine. -/
def wrongGroup : Json :=
  .obj [("network", .obj
      [("tracker_reconnect_interval_seconds", .num 9)]),
    ("kcp", .num 256)]

/- A host on which every call works. -/
def calmStartup : Startup where
  uuid := "9b2f"
  renameFails := false
  configWriting := .done
  advancedWriting := .done

/- Only `advanced.json` is there. -/
def dirWith (json : Json) : ConfigDir where
  config := .missing
  backup := .missing
  advanced := .json json

theorem not_keepsNothing_wrongField :
    ¬ KeepsNothing calmStartup (dirWith wrongField) ∧
      ¬ KeepsNothing calmStartup (dirWith wrongGroup) := by
  have hInterval : ∀ c, FieldsDefault c →
      c.network.trackerReconnectIntervalSeconds = 5 :=
    fun c hDefault => hDefault _ (List.mem_flatten.mpr
      ⟨_, List.mem_cons_self, List.mem_cons_self⟩)
  have hWrong : ∃ e ∈ advancedFields,
      e.read wrongField = none := by
    have hAny : advancedFields.any (fun e =>
        (e.read wrongField).isNone) = true := by
      decide +kernel
    rcases List.any_eq_true.mp hAny with ⟨e, hMem, hNone⟩
    exact ⟨e, hMem, Option.isNone_iff_eq_none.mp hNone⟩
  refine ⟨fun hNothing => ?_, fun hNothing => ?_⟩
  · have hLeaves := hNothing (Or.inr (Or.inr hWrong))
    exact absurd (hInterval _ hLeaves.1) (by decide +kernel)
  · have hLeaves := hNothing (Or.inr (Or.inl
      ⟨"kcp", by decide, .num 256, rfl, rfl⟩))
    exact absurd (hInterval _ hLeaves.1) (by decide +kernel)

end Config

end VeritasSync
