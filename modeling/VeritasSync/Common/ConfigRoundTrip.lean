import VeritasSync.Common.ConfigLoading

/-
  Writing a configuration and reading it back, as one object
  and as the two files of a restart.

  Main declarations:
    * `Config.find?_foldl_mergeMember`
    * `Config.HoldsBasics`, `Config.HoldsAdvanced`
    * `Config.Survives`, `Config.survives_iff`
-/

namespace VeritasSync

namespace Config

------------------------------------------------------------
-- Members
------------------------------------------------------------

section Members

variable
  {members others : List (String × Json)}
  {key : String}

theorem find?_setMember
    (name : String)
    (value : Json) :
    (Json.obj (setMember members name value)).find? key =
      if key = name then
        some value
      else
        (Json.obj members).find? key := by
  by_cases hKey : key = name
  · simp [Json.find?, setMember, hKey]
  · have hName : (name == key) = false := by
      simpa using Ne.symm hKey
    have hFilter : (fun member : String × Json =>
        decide ((member.1 != name) = true ∧
          (member.1 == key) = true)) =
            fun member => member.1 == key := by
      funext member
      by_cases hSame : member.1 = key
      · simp [hSame, hKey]
      · simp [hSame]
    rw [if_neg hKey]
    simp only [Json.find?, setMember, List.find?_cons, hName,
      List.find?_filter, hFilter]

/- A fold over new members, each with a name of its own. -/
theorem find?_foldl_set
    (value : Option Json → Json → Json)
    (hNodup : (others.map Prod.fst).Nodup) :
    (Json.obj (others.foldl
        (fun members other => setMember members other.1
          (value ((Json.obj members).find? other.1)
            other.2)) members)).find? key =
      ((Json.obj others).find? key).elim
        ((Json.obj members).find? key)
        (fun new => some
          (value ((Json.obj members).find? key) new)) := by
  induction others generalizing members with
  | nil => rfl
  | cons other rest ih =>
      rw [List.map_cons, List.nodup_cons] at hNodup
      rw [List.foldl_cons, ih hNodup.2, find?_setMember]
      by_cases hKey : key = other.1
      · have hAbsent : (Json.obj rest).find? key = none := by
          simp only [Json.find?, Option.map_eq_none_iff,
            List.find?_eq_none]
          intro member hMember hSame
          apply hNodup.1
          rw [← hKey, ← eq_of_beq hSame]
          exact List.mem_map_of_mem hMember
        rw [hAbsent, if_pos hKey]
        simp [Json.find?, hKey]
      · have hOther : (other.1 == key) = false := by
          simpa using Ne.symm hKey
        rw [if_neg hKey]
        simp only [Json.find?, List.find?_cons, hOther]

theorem find?_update
    (hNodup : (others.map Prod.fst).Nodup) :
    (Json.obj (update members others)).find? key =
      ((Json.obj others).find? key).elim
        ((Json.obj members).find? key) some :=
  find?_foldl_set (fun _ new => new) hNodup

theorem find?_foldl_mergeMember
    (hNodup : (others.map Prod.fst).Nodup) :
    (Json.obj (others.foldl mergeMember members)).find? key =
      ((Json.obj others).find? key).elim
        ((Json.obj members).find? key)
        (fun new => some
          (merged ((Json.obj members).find? key) new)) :=
  find?_foldl_set merged hNodup

/- Whatever the one list has, the other has as well. -/
def Includes
    (members part : List (String × Json)) : Prop :=
  ∀ key value, (Json.obj part).find? key = some value →
    (Json.obj members).find? key = some value

theorem includes_refl
    (members : List (String × Json)) :
    Includes members members :=
  fun _ _ hFind => hFind

theorem includes_update_right
    (hNodup : (others.map Prod.fst).Nodup)
    (members : List (String × Json)) :
    Includes (update members others) others := by
  intro key value hFind
  rw [find?_update hNodup, hFind]
  rfl

theorem includes_update_left
    (hNodup : (others.map Prod.fst).Nodup)
    (hApart : ∀ member ∈ members,
      (Json.obj others).find? member.1 = none) :
    Includes (update members others) members := by
  intro key value hFind
  have hMember : ∃ member ∈ members, member.1 = key := by
    rcases Option.map_eq_some_iff.mp hFind with
      ⟨member, hFound, -⟩
    have hSame := List.find?_some hFound
    exact ⟨member, List.mem_of_find?_eq_some hFound,
      eq_of_beq hSame⟩
  rcases hMember with ⟨member, hMem, rfl⟩
  rw [find?_update hNodup, hApart member hMem]
  exact hFind

end Members

------------------------------------------------------------
-- Values in Their Places
------------------------------------------------------------

section Finding

variable
  {json : Json}
  {c : Config}

theorem finds_opt
    {σ α : Type}
    {s : σ}
    {key : String}
    {codec : Codec α}
    {place : Place σ α}
    (hFind : json.find? key =
      some (codec.write (place.get s))) :
    (opt key codec place).Finds json s := by
  simp [Entry.Finds, opt, hFind, codec.read_write]

/- The group is an object with these members at least. -/
def HasGroup
    (json : Json)
    (name : String)
    (part : List (String × Json)) : Prop :=
  ∃ members, json.find? name = some (.obj members) ∧
    Includes members part

/- A list of fields reads what a list of members says. -/
def ReadsBack
    {τ : Type}
    (fields : List (Entry Json τ))
    (part : τ → List (String × Json)) : Prop :=
  ∀ t members, Includes members (part t) →
    ∀ e ∈ fields, e.Finds (.obj members) t

theorem finds_group
    {τ : Type}
    {name : String}
    {place : Place Config τ}
    {fields : List (Entry Json τ)}
    {part : τ → List (String × Json)}
    (hReads : ReadsBack fields part)
    (hGroup : HasGroup json name (part (place.get c))) :
    ∀ e ∈ group name place fields, e.Finds json c := by
  rcases hGroup with ⟨members, hFind, hIncludes⟩
  intro e hMem
  rcases List.mem_map.mp hMem with ⟨field, hField, rfl⟩
  have hFinds := hReads _ members hIncludes field hField
  simp only [Entry.Finds, Entry.within, hFind,
    Option.elim_some]
  exact hFinds

/- The fields of a group read what its writer writes. -/
theorem readsBack_fields :
    (ReadsBack networkBasicFields networkBasicMembers ∧
      ReadsBack loggingBasicFields loggingBasicMembers ∧
      ReadsBack webuiBasicFields webuiBasicMembers ∧
      ReadsBack llmBasicFields llmBasicMembers) ∧
    ReadsBack networkAdvancedFields
        networkAdvancedMembers ∧
      ReadsBack transferFields transferMembers ∧
      ReadsBack kcpFields kcpMembers ∧
      ReadsBack syncFields syncMembers ∧
      ReadsBack loggingAdvancedFields
        loggingAdvancedMembers ∧
      ReadsBack webuiAdvancedFields webuiAdvancedMembers ∧
      ReadsBack llmAdvancedFields llmAdvancedMembers ∧
      ReadsBack databaseFields databaseMembers ∧
      ReadsBack advancedGroupFields
        advancedGroupMembers := by
  and_intros
  all_goals
    intro t members hIncludes
    simp only [networkBasicFields, loggingBasicFields,
      webuiBasicFields, llmBasicFields,
      networkAdvancedFields, transferFields, kcpFields,
      syncFields, loggingAdvancedFields,
      webuiAdvancedFields, llmAdvancedFields,
      databaseFields, advancedGroupFields,
      List.forall_mem_cons, List.not_mem_nil, false_implies,
      implies_true, and_true]
    and_intros
    all_goals
      exact finds_opt (hIncludes _ _ rfl)

/- All of what belongs to `config.json` is there. -/
structure HoldsBasics
    (json : Json)
    (c : Config) : Prop where
  deviceId : json.find? "device_id" =
    some (text.write c.deviceId)
  network : HasGroup json "network"
    (networkBasicMembers c.network)
  logging : HasGroup json "logging"
    (loggingBasicMembers c.logging)
  webui : HasGroup json "webui" (webuiBasicMembers c.webui)
  llm : HasGroup json "llm" (llmBasicMembers c.llm)
  tasks : json.find? "tasks" = some (taskList.write c.tasks)

/- All of what belongs to `advanced.json` is there. -/
structure HoldsAdvanced
    (json : Json)
    (c : Config) : Prop where
  network : HasGroup json "network"
    (networkAdvancedMembers c.network)
  transfer : HasGroup json "transfer"
    (transferMembers c.transfer)
  kcp : HasGroup json "kcp" (kcpMembers c.kcp)
  sync : HasGroup json "sync" (syncMembers c.sync)
  logging : HasGroup json "logging"
    (loggingAdvancedMembers c.logging)
  webui : HasGroup json "webui"
    (webuiAdvancedMembers c.webui)
  llm : HasGroup json "llm" (llmAdvancedMembers c.llm)
  database : HasGroup json "database"
    (databaseMembers c.database)
  advanced : HasGroup json "advanced"
    (advancedGroupMembers c.advanced)

theorem finds_configFields
    (hHolds : HoldsBasics json c) :
    ∀ e ∈ configFields, e.Finds json c := by
  rcases readsBack_fields.1 with
    ⟨hNetwork, hLogging, hWebui, hLlm⟩
  simp only [configFields, List.forall_mem_flatten,
    List.forall_mem_cons, List.not_mem_nil, false_implies,
    implies_true, and_true]
  exact ⟨finds_opt hHolds.deviceId,
    finds_group hNetwork hHolds.network,
    finds_group hLogging hHolds.logging,
    finds_group hWebui hHolds.webui,
    finds_group hLlm hHolds.llm, finds_opt hHolds.tasks⟩

theorem finds_advancedFields
    (hHolds : HoldsAdvanced json c) :
    ∀ e ∈ advancedFields, e.Finds json c := by
  rcases readsBack_fields.2 with ⟨hNetwork, hTransfer, hKcp,
    hSync, hLogging, hWebui, hLlm, hDatabase, hAdvanced⟩
  simp only [advancedFields, List.forall_mem_flatten,
    List.forall_mem_cons, List.not_mem_nil, false_implies,
    implies_true, and_true]
  exact ⟨finds_group hNetwork hHolds.network,
    finds_group hTransfer hHolds.transfer,
    finds_group hKcp hHolds.kcp,
    finds_group hSync hHolds.sync,
    finds_group hLogging hHolds.logging,
    finds_group hWebui hHolds.webui,
    finds_group hLlm hHolds.llm,
    finds_group hDatabase hHolds.database,
    finds_group hAdvanced hHolds.advanced⟩

theorem holdsBasics_configToJson
    (c : Config) :
    HoldsBasics (configToJson c) c where
  deviceId := rfl
  network := ⟨_, rfl, includes_refl _⟩
  logging := ⟨_, rfl, includes_refl _⟩
  webui := ⟨_, rfl, includes_refl _⟩
  llm := ⟨_, rfl, includes_refl _⟩
  tasks := rfl

theorem holdsAdvanced_advancedToJson
    (c : Config) :
    HoldsAdvanced (advancedToJson c) c where
  network := ⟨_, rfl, includes_refl _⟩
  transfer := ⟨_, rfl, includes_refl _⟩
  kcp := ⟨_, rfl, includes_refl _⟩
  sync := ⟨_, rfl, includes_refl _⟩
  logging := ⟨_, rfl, includes_refl _⟩
  webui := ⟨_, rfl, includes_refl _⟩
  llm := ⟨_, rfl, includes_refl _⟩
  database := ⟨_, rfl, includes_refl _⟩
  advanced := ⟨_, rfl, includes_refl _⟩

/- What the object for both files has under a name. -/
theorem find?_toJson
    (c : Config)
    (key : String) :
    (toJson c).find? key =
      ((advancedToJson c).find? key).elim
        ((configToJson c).find? key)
        (fun new => some
          (merged ((configToJson c).find? key) new)) := by
  apply find?_foldl_mergeMember
  simp [advancedMembers]

/- Groups of the two files that go by one name. -/
theorem hasGroup_toJson
    (c : Config)
    (name : String)
    {basic adv : List (String × Json)}
    (hBasic : (configToJson c).find? name =
      some (.obj basic))
    (hAdvanced : (advancedToJson c).find? name =
      some (.obj adv))
    (hNodup : (adv.map Prod.fst).Nodup)
    (hApart : ∀ member ∈ basic,
      (Json.obj adv).find? member.1 = none) :
    HasGroup (toJson c) name basic ∧
      HasGroup (toJson c) name adv := by
  have hFind : (toJson c).find? name =
      some (.obj (update basic adv)) := by
    rw [find?_toJson, hBasic, hAdvanced]
    rfl
  exact ⟨⟨_, hFind, includes_update_left hNodup hApart⟩,
    ⟨_, hFind, includes_update_right hNodup basic⟩⟩

/- A group of one file only. -/
theorem hasGroup_toJson_of_absent
    (c : Config)
    (name : String)
    {adv : List (String × Json)}
    (hBasic : (configToJson c).find? name = none)
    (hAdvanced : (advancedToJson c).find? name =
      some (.obj adv)) :
    HasGroup (toJson c) name adv := by
  refine ⟨adv, ?_, includes_refl adv⟩
  rw [find?_toJson, hBasic, hAdvanced]
  rfl

theorem holds_toJson
    (c : Config) :
    HoldsBasics (toJson c) c ∧
      HoldsAdvanced (toJson c) c := by
  have hNetwork := hasGroup_toJson c "network" rfl rfl
    (by simp [networkAdvancedMembers])
    (by simp [networkBasicMembers, networkAdvancedMembers,
      Json.find?])
  have hLogging := hasGroup_toJson c "logging" rfl rfl
    (by simp [loggingAdvancedMembers])
    (by simp [loggingBasicMembers, loggingAdvancedMembers,
      Json.find?])
  have hWebui := hasGroup_toJson c "webui" rfl rfl
    (by simp [webuiAdvancedMembers])
    (by simp [webuiBasicMembers, webuiAdvancedMembers,
      Json.find?])
  have hLlm := hasGroup_toJson c "llm" rfl rfl
    (by simp [llmAdvancedMembers])
    (by simp [llmBasicMembers, llmAdvancedMembers,
      Json.find?])
  refine ⟨?_, ?_⟩
  · exact {
      deviceId := find?_toJson c "device_id"
      network := hNetwork.1
      logging := hLogging.1
      webui := hWebui.1
      llm := hLlm.1
      tasks := find?_toJson c "tasks" }
  · exact {
      network := hNetwork.2
      transfer :=
        hasGroup_toJson_of_absent c "transfer" rfl rfl
      kcp := hasGroup_toJson_of_absent c "kcp" rfl rfl
      sync := hasGroup_toJson_of_absent c "sync" rfl rfl
      logging := hLogging.2
      webui := hWebui.2
      llm := hLlm.2
      database :=
        hasGroup_toJson_of_absent c "database" rfl rfl
      advanced :=
        hasGroup_toJson_of_absent c "advanced" rfl rfl }

end Finding

------------------------------------------------------------
-- Two Fields That No Reader Names
------------------------------------------------------------

section Lan

/- The two have the values that a new configuration has. -/
def LanTimesDefault (c : Config) : Prop :=
  c.network.lanHeartbeatIntervalSeconds = 5 ∧
    c.network.lanPeerTimeoutSeconds = 30

theorem apart_lanTimes :
    (∀ e ∈ configFields,
      e.place.Apart heartbeatPlace ∧
        e.place.Apart peerTimeoutPlace) ∧
    ∀ e ∈ advancedFields,
      e.place.Apart heartbeatPlace ∧
        e.place.Apart peerTimeoutPlace := by
  simp only [configFields, advancedFields, group,
    networkBasicFields, networkAdvancedFields,
    loggingBasicFields, loggingAdvancedFields,
    webuiBasicFields, webuiAdvancedFields, llmBasicFields,
    llmAdvancedFields, transferFields, kcpFields,
    syncFields, databaseFields, advancedGroupFields,
    List.forall_mem_flatten, List.forall_mem_map,
    List.forall_mem_cons, List.not_mem_nil, false_implies,
    implies_true, and_true, Place.Apart]
  and_intros <;> intros <;> rfl

/- The fields of both readers and these two are all. -/
theorem eq_of_fields
    {c d : Config}
    (hBasics : ∀ e ∈ configFields,
      e.place.get d = e.place.get c)
    (hAdvanced : ∀ e ∈ advancedFields,
      e.place.get d = e.place.get c)
    (hHeartbeat : heartbeatPlace.get d =
      heartbeatPlace.get c)
    (hTimeout : peerTimeoutPlace.get d =
      peerTimeoutPlace.get c) :
    d = c := by
  simp only [configFields, advancedFields, group, opt,
    networkBasicFields, networkAdvancedFields,
    loggingBasicFields, loggingAdvancedFields,
    webuiBasicFields, webuiAdvancedFields, llmBasicFields,
    llmAdvancedFields, transferFields, kcpFields,
    syncFields, databaseFields, advancedGroupFields,
    List.forall_mem_flatten, List.forall_mem_map,
    List.forall_mem_cons, List.not_mem_nil, false_implies,
    implies_true, and_true, Entry.within, Place.comp,
    deviceIdPlace, networkPlace, transferPlace, kcpPlace,
    syncPlace, loggingPlace, webuiPlace, llmPlace,
    databasePlace, advancedPlace, tasksPlace]
      at hBasics hAdvanced
  simp only [Config.ext_iff, Network.ext_iff,
    Transfer.ext_iff, Kcp.ext_iff, Sync.ext_iff,
    Logging.ext_iff, WebUI.ext_iff, LLM.ext_iff,
    Database.ext_iff, Advanced.ext_iff, hBasics, hAdvanced,
    true_and, and_true]
  exact ⟨hHeartbeat, hTimeout⟩

/- A configuration that has got everything that is read. -/
theorem eq_iff_of_filled
    {c d : Config}
    (hBasics : ∀ e ∈ configFields,
      e.place.get d = e.place.get c)
    (hAdvanced : ∀ e ∈ advancedFields,
      e.place.get d = e.place.get c)
    (hLan : LanTimesDefault d) :
    d = c ↔ LanTimesDefault c := by
  constructor
  · rintro rfl
    exact hLan
  · intro hDefault
    exact eq_of_fields hBasics hAdvanced
      (hLan.1.trans hDefault.1.symm)
      (hLan.2.trans hDefault.2.symm)

end Lan

------------------------------------------------------------
-- Saving and Loading
------------------------------------------------------------

section Saving

variable
  {json : Json}
  {c d : Config}

theorem lanTimesDefault_configFromJson
    (hLan : LanTimesDefault d) :
    LanTimesDefault (configFromJson json d).1 := by
  have hApart := apart_lanTimes.1
  refine ⟨?_, ?_⟩
  · rw [← hLan.1]
    exact get_assignAll_of_apart (q := heartbeatPlace)
      (fun e hMem => (hApart e hMem).1) d
  · rw [← hLan.2]
    exact get_assignAll_of_apart (q := peerTimeoutPlace)
      (fun e hMem => (hApart e hMem).2) d

theorem lanTimesDefault_advancedFromJson
    (hLan : LanTimesDefault d) :
    LanTimesDefault (advancedFromJson json d).1 := by
  have hApart := apart_lanTimes.2
  refine ⟨?_, ?_⟩
  · rw [← hLan.1]
    exact get_assignAll_of_apart (q := heartbeatPlace)
      (fun e hMem => (hApart e hMem).1) d
  · rw [← hLan.2]
    exact get_assignAll_of_apart (q := peerTimeoutPlace)
      (fun e hMem => (hApart e hMem).2) d

/- Reading `config.json` fills in what belongs to it. -/
theorem configFromJson_of_holds
    (hHolds : HoldsBasics json c)
    (d : Config) :
    (configFromJson json d).2 = true ∧
      ∀ e ∈ configFields,
        e.place.get (configFromJson json d).1 =
          e.place.get c :=
  get_assignAll_of_finds separate_configFields
    (finds_configFields hHolds) d

/- Reading `advanced.json` keeps what is filled in. -/
theorem advancedFromJson_of_holds
    (hHolds : HoldsAdvanced json c)
    (d : Config) :
    (advancedFromJson json d).2 = true ∧
      (∀ e ∈ advancedFields,
        e.place.get (advancedFromJson json d).1 =
          e.place.get c) ∧
      ∀ e ∈ configFields,
        e.place.get (advancedFromJson json d).1 =
          e.place.get d := by
  have hFilled := get_assignAll_of_finds
    separate_advancedFields (finds_advancedFields hHolds) d
  refine ⟨hFilled.1, hFilled.2, fun e hMem => ?_⟩
  exact get_assignAll_of_apart (fun e' hMem' =>
    (allApart_files e hMem e' hMem').symm) d

/- Both readers, one after the other. -/
theorem eq_iff_of_holds
    (hHolds : HoldsAdvanced json c)
    (hBasics : ∀ e ∈ configFields,
      e.place.get d = e.place.get c)
    (hLan : LanTimesDefault d) :
    (advancedFromJson json d).1 = c ↔ LanTimesDefault c := by
  rcases advancedFromJson_of_holds hHolds d with
    ⟨-, hAdvanced, hKept⟩
  refine eq_iff_of_filled (fun e hMem => ?_) hAdvanced
    (lanTimesDefault_advancedFromJson hLan)
  rw [hKept e hMem, hBasics e hMem]

/- Reading the one object back gives the configuration. -/
def SurvivesTogether (c : Config) : Prop :=
  fromJson (toJson c) {} = (c, true)

/- A start with the two files gives the configuration. -/
def SurvivesRestart
    (S : Startup)
    (c : Config) : Prop :=
  ∀ backup,
    (loadConfigOrCreateDefault S
      { config := .json (configToJson c)
        backup := backup
        advanced := .json (advancedToJson c) }).1 = c

theorem survivesTogether_iff
    (c : Config) :
    SurvivesTogether c ↔ LanTimesDefault c := by
  rcases holds_toJson c with ⟨hBasic, hAdvanced⟩
  have hFirst := configFromJson_of_holds hBasic {}
  have hLan : LanTimesDefault
      (configFromJson (toJson c) {}).1 :=
    lanTimesDefault_configFromJson ⟨rfl, rfl⟩
  have hSecond := advancedFromJson_of_holds hAdvanced
    (configFromJson (toJson c) {}).1
  have hSame := eq_iff_of_holds hAdvanced hFirst.2 hLan
  have hRun : fromJson (toJson c) {} =
      advancedFromJson (toJson c)
        (configFromJson (toJson c) {}).1 := by
    unfold fromJson
    split
    next d hRead => rw [hRead]
    next d hRead =>
      rw [hRead] at hFirst
      cases hFirst.1
  rw [SurvivesTogether, hRun, Prod.ext_iff,
    and_iff_left hSecond.1, hSame]

/- A configuration without an identifier gets one. -/
def named
    (S : Startup)
    (c : Config) : Config :=
  if c.deviceId = "" then
    { c with deviceId := S.uuid }
  else
    c

theorem named_eq_self
    {S : Startup}
    (hUuid : d.deviceId = "" → S.uuid = "") :
    named S d = d := by
  unfold named
  split
  next hEmpty =>
    have hSame : S.uuid = d.deviceId := by
      rw [hUuid hEmpty, hEmpty]
    rw [hSame]
  next => rfl

/- What the two written files are loaded as. -/
theorem load_written
    (S : Startup)
    (c : Config)
    (backup : Stored) :
    (loadConfigOrCreateDefault S
      { config := .json (configToJson c)
        backup := backup
        advanced := .json (advancedToJson c) }).1 =
      (advancedFromJson (advancedToJson c)
        (named S (configFromJson (configToJson c) {}).1)).1 := by
  have hRead :=
    (configFromJson_of_holds (holdsBasics_configToJson c)
      {}).1
  have hFirst : ∀ dir : ConfigDir,
      dir.config = .json (configToJson c) →
        (loadConfigJson S dir).config =
          named S (configFromJson (configToJson c) {}).1 := by
    intro dir hConfig
    unfold loadConfigJson named
    rw [hConfig]
    dsimp only
    split
    next d hFails =>
      rw [hFails] at hRead
      cases hRead
    next d hLoaded =>
      rw [hLoaded]
      split <;> rfl
  have hSecond : ∀ l : Loading,
      l.dir.advanced = .json (advancedToJson c) →
        (loadAdvancedJson l).config =
          (advancedFromJson (advancedToJson c)
            l.config).1 := by
    intro l hAdvanced
    unfold loadAdvancedJson
    rw [hAdvanced]
    dsimp only
    split
    next d hLoaded => rw [hLoaded]
    next d hLoaded => rw [hLoaded]
  rw [loadConfigOrCreateDefault, hSecond, hFirst _ rfl]
  rw [advanced_loadConfigJson]

theorem survivesRestart_iff
    (S : Startup)
    (c : Config) :
    SurvivesRestart S c ↔
      LanTimesDefault c ∧
        (c.deviceId = "" → S.uuid = "") := by
  have hFirst := configFromJson_of_holds
    (holdsBasics_configToJson c) {}
  have hLan : LanTimesDefault
      (configFromJson (configToJson c) {}).1 :=
    lanTimesDefault_configFromJson ⟨rfl, rfl⟩
  have hId : (configFromJson (configToJson c) {}).1.deviceId
      = c.deviceId :=
    hFirst.2 _ (List.mem_flatten.mpr
      ⟨_, List.mem_cons_self, List.mem_cons_self⟩)
  simp only [SurvivesRestart, load_written]
  refine Iff.trans
    ⟨fun hAll => hAll .missing, fun hSame _ => hSame⟩ ?_
  generalize (configFromJson (configToJson c) {}).1 = d at *
  have hHolds := holdsAdvanced_advancedToJson c
  by_cases hUuid : c.deviceId = "" → S.uuid = ""
  · rw [named_eq_self (hId ▸ hUuid), and_iff_left hUuid]
    exact eq_iff_of_holds hHolds hFirst.2 hLan
  · refine iff_of_false (fun hSame => hUuid ?_)
      (fun hBoth => hUuid hBoth.2)
    intro hEmpty
    have hKept : (advancedFromJson (advancedToJson c)
        (named S d)).1.deviceId = (named S d).deviceId :=
      (advancedFromJson_of_holds hHolds (named S d)).2.2 _
        (List.mem_flatten.mpr
          ⟨_, List.mem_cons_self, List.mem_cons_self⟩)
    rw [hSame, hEmpty, named, if_pos (hId.trans hEmpty)]
      at hKept
    exact hKept.symm

/-
  A configuration survives saving and loading: as one
  object, and as the two files of a restart.
-/
def Survives
    (S : Startup)
    (c : Config) : Prop :=
  SurvivesTogether c ∧ SurvivesRestart S c

/-
  It does exactly when the two times of the discovery on the
  local network are the default ones.  At a restart it must
  have an identifier too, or the start cannot make one.
-/
theorem survives_iff
    (S : Startup)
    (c : Config) :
    (SurvivesTogether c ↔ LanTimesDefault c) ∧
      (Survives S c ↔
        LanTimesDefault c ∧
          (c.deviceId = "" → S.uuid = "")) := by
  refine ⟨survivesTogether_iff c, ?_⟩
  rw [Survives, survivesTogether_iff, survivesRestart_iff]
  exact ⟨And.right, fun hBoth => ⟨hBoth.1, hBoth⟩⟩

end Saving

/- Heartbeats every seven seconds, everything else usual. -/
def slowHeartbeat : Config :=
  { deviceId := "9b2f"
    network := { lanHeartbeatIntervalSeconds := 7 } }

theorem not_survives_slowHeartbeat :
    ¬ SurvivesTogether slowHeartbeat ∧
      ¬ SurvivesRestart calmStartup slowHeartbeat := by
  refine ⟨fun hTogether => ?_, fun hRestart => ?_⟩
  · have hTimes : LanTimesDefault slowHeartbeat :=
      (survivesTogether_iff _).mp hTogether
    exact absurd hTimes.1 (by decide)
  · have hTimes : LanTimesDefault slowHeartbeat :=
      ((survivesRestart_iff _ _).mp hRestart).1
    exact absurd hTimes.1 (by decide)

end Config

end VeritasSync
