import VeritasSync.Library.Assignment
import VeritasSync.Sync.Protocol

/-
  The configuration and the two JSON files it is kept in:
  `config.json` with what users change, `advanced.json` with
  the rest.  A writer lists the members of each group, a
  reader lists the fields it fills in from them; both are
  the source's own lists.

  Main declarations:
    * `Config`, `SyncTask`
    * `Config.configToJson`, `Config.configFromJson`
    * `Config.advancedToJson`, `Config.advancedFromJson`
    * `Config.toJson`, `Config.fromJson`
-/

namespace VeritasSync

------------------------------------------------------------
-- The Configuration
------------------------------------------------------------

@[ext]
structure SyncTask where
  syncKey : String
  role : String
  syncFolder : String
  mode : SyncMode := .oneWay
deriving DecidableEq

namespace Config

@[ext]
structure Network where
  trackerHost : String := "47.121.187.240"
  trackerPort : UInt16 := 8800
  trackerReconnectIntervalSeconds : Int32 := 5
  trackerMaxPacketSizeMb : Int32 := 1
  stunHost : String := "stun.l.google.com"
  stunPort : UInt16 := 19302
  turnHost : String := ""
  turnPort : UInt16 := 3478
  turnUsername : String := ""
  turnPassword : String := ""
  iceAnswerWaitTimeoutSeconds : Int32 := 30
  upnpDiscoverTimeoutMs : Int32 := 2000
  peerCleanupIntervalMinutes : Int32 := 5
  lanDiscoveryEnabled : Bool := true
  lanMulticastGroup : String := "239.255.0.100"
  lanMulticastPort : UInt16 := 9989
  lanHeartbeatIntervalSeconds : Int32 := 5
  lanPeerTimeoutSeconds : Int32 := 30

@[ext]
structure Transfer where
  chunkSize : UInt64 := 16384
  stallThresholdMs : Int32 := 5000
  receiveTimeoutMinutes : Int32 := 10
  congestionWaitHighMs : Int32 := 200
  congestionWaitLowMs : Int32 := 100
  congestionHighMultiplier : Int32 := 4
  congestionThreshold : Int32 := 256
  speedUpdateIntervalSec : Float := 0.5
  fileOpenMaxRetries : Int32 := 5
  fileOpenRetryDelayMs : Int32 := 200
  maxTotalChunks : UInt64 := 8388608
  maxPathLength : UInt64 := 4096
  broadcastFileUpdateBatchSize : Int32 := 50
  broadcastFileDeleteBatchSize : Int32 := 100

@[ext]
structure Kcp where
  updateIntervalMs : UInt32 := 20
  windowSize : UInt32 := 256

@[ext]
structure Sync where
  sessionTimeoutSeconds : Int32 := 60
  flowControlThreshold : Int32 := 1024
  flowControlSleepMs : Int32 := 20
  fileChangeDebounceDelayMs : Int32 := 5000
  batchTriggerThreshold : Int32 := 100
  batchMinIntervalMs : Int32 := 1000
  fileHashRetryDelayMs : Int32 := 250

@[ext]
structure Logging where
  level : String := "info"
  libjuiceLevel : String := "info"
  maxFileSizeMb : Int32 := 5
  maxFiles : Int32 := 3
  threadPoolSize : Int32 := 8192

@[ext]
structure WebUI where
  port : UInt16 := 8800
  logTailStatusBytes : Int32 := 16384
  logTailTaskBytes : Int32 := 32768
  authTokenBytes : Int32 := 32
  maxDescriptionLength : Int32 := 4096
  maxRulesLength : Int32 := 10000

@[ext]
structure LLM where
  apiUrl : String :=
    "https://dashscope.aliyuncs.com/" ++
      "compatible-mode/v1/chat/completions"
  apiKey : String := ""
  model : String := "qwen-turbo"
  temperature : Float := 0.3
  maxTokens : Int32 := 1024
  timeoutSeconds : Int32 := 30
  maxScanFiles : Int32 := 50000
  largeDirThreshold : Int32 := 500

@[ext]
structure Database where
  busyTimeoutMs : Int32 := 5000

@[ext]
structure Advanced where
  workerThreadCount : Int32 := 0
  hashThreadCount : Int32 := 0
  hashReadBufferSizeKb : Int32 := 64
  trackerMaxMessageLengthBytes : Int32 := 262144
end Config

@[ext]
structure Config where
  deviceId : String := ""
  network : Config.Network := {}
  transfer : Config.Transfer := {}
  kcp : Config.Kcp := {}
  sync : Config.Sync := {}
  logging : Config.Logging := {}
  webui : Config.WebUI := {}
  llm : Config.LLM := {}
  database : Config.Database := {}
  advanced : Config.Advanced := {}
  tasks : List SyncTask := []

namespace Config

------------------------------------------------------------
-- Values
------------------------------------------------------------

/- How a type of values is written, and what is read. -/
structure Codec (α : Type) where
  write : α → Json
  read : Json → Option α
  read_write : ∀ a, read (write a) = some a

/- An integer type takes any number, and true and false. -/
def integer?
    {α : Type}
    (ofInt : Int → α) : Json → Option α
| .num value => some (ofInt value)
| .real value => some (ofInt (Json.truncate value))
| .bool value => some (ofInt (if value then 1 else 0))
| _ => none

def bool? : Json → Option Bool
| .bool value => some value
| _ => none

def real? : Json → Option Float
| .num value => some (Float.ofInt value)
| .real value => some value
| _ => none

def text : Codec String where
  write := .str
  read := Json.str?
  read_write _ := rfl

def flag : Codec Bool where
  write := .bool
  read := bool?
  read_write _ := rfl

def real : Codec Float where
  write := .real
  read := real?
  read_write _ := rfl

def int : Codec Int32 where
  write value := .num value.toInt
  read := integer? Int32.ofInt
  read_write value := by
    rw [integer?, Int32.ofInt_toInt]

def ushort : Codec UInt16 where
  write value := .num value.toNat
  read := Json.uint16?
  read_write := Json.uint16?_num_toNat

def uint32 : Codec UInt32 where
  write value := .num value.toNat
  read := integer? UInt32.ofInt
  read_write value := by
    apply congrArg some
    apply UInt32.toNat_inj.mp
    have hLt := value.toNat_lt
    rw [UInt32.ofInt, UInt32.toNat_ofNat']
    omega

/- The widest integer type does not take true and false. -/
def size : Codec UInt64 where
  write value := .num value.toNat
  read json := json.uint64?.map UInt64.ofNat
  read_write value := by
    apply congrArg some
    apply UInt64.toNat_inj.mp
    have hLt := value.toNat_lt
    rw [UInt64.toNat_ofNat']
    omega

/- An unknown name is read as the first of the modes. -/
def mode : Codec SyncMode where
  write
  | .oneWay => .str "oneway"
  | .biDirectional => .str "bidirectional"
  read
  | .str "bidirectional" => some .biDirectional
  | _ => some .oneWay
  read_write value := by
    cases value with
    | oneWay => rfl
    | biDirectional => rfl

def taskToJson (task : SyncTask) : Json :=
  .obj [("sync_key", .str task.syncKey),
    ("role", .str task.role),
    ("sync_folder", .str task.syncFolder),
    ("mode", mode.write task.mode)]

/- The first three members must be there. -/
def taskFromJson (json : Json) : Option SyncTask := do
  let syncKey ← json.strAt? "sync_key"
  let role ← json.strAt? "role"
  let syncFolder ← json.strAt? "sync_folder"
  let taskMode ← (json.find? "mode").elim (some .oneWay)
    mode.read
  return ⟨syncKey, role, syncFolder, taskMode⟩

theorem taskFromJson_taskToJson
    (task : SyncTask) :
    taskFromJson (taskToJson task) = some task := by
  simp [taskFromJson, taskToJson, Json.strAt?, Json.find?,
    Json.str?, mode.read_write]

def taskList : Codec (List SyncTask) where
  write tasks := .arr (tasks.map taskToJson)
  read
  | .arr values => values.mapM taskFromJson
  | _ => none
  read_write tasks := by
    induction tasks with
    | nil => rfl
    | cons task tasks ih =>
        simp only [List.map_cons, List.mapM_cons] at ih ⊢
        rw [taskFromJson_taskToJson, ih]
        rfl

------------------------------------------------------------
-- Writing
------------------------------------------------------------

section Writing

def networkBasicMembers (n : Network) : List (String × Json) :=
  [("tracker_host", text.write n.trackerHost),
    ("tracker_port", ushort.write n.trackerPort),
    ("stun_host", text.write n.stunHost),
    ("stun_port", ushort.write n.stunPort),
    ("turn_host", text.write n.turnHost),
    ("turn_port", ushort.write n.turnPort),
    ("turn_username", text.write n.turnUsername),
    ("turn_password", text.write n.turnPassword)]

def loggingBasicMembers (l : Logging) : List (String × Json) :=
  [("level", text.write l.level)]

def webuiBasicMembers (w : WebUI) : List (String × Json) :=
  [("port", ushort.write w.port)]

def llmBasicMembers (l : LLM) : List (String × Json) :=
  [("api_url", text.write l.apiUrl),
    ("api_key", text.write l.apiKey),
    ("model", text.write l.model)]

def configMembers (c : Config) : List (String × Json) :=
  [("device_id", text.write c.deviceId),
    ("network", .obj (networkBasicMembers c.network)),
    ("logging", .obj (loggingBasicMembers c.logging)),
    ("webui", .obj (webuiBasicMembers c.webui)),
    ("llm", .obj (llmBasicMembers c.llm)),
    ("tasks", taskList.write c.tasks)]

def configToJson (c : Config) : Json :=
  .obj (configMembers c)

def networkAdvancedMembers
    (n : Network) : List (String × Json) :=
  [("tracker_reconnect_interval_seconds",
      int.write n.trackerReconnectIntervalSeconds),
    ("tracker_max_packet_size_mb",
      int.write n.trackerMaxPacketSizeMb),
    ("ice_answer_wait_timeout_seconds",
      int.write n.iceAnswerWaitTimeoutSeconds),
    ("upnp_discover_timeout_ms",
      int.write n.upnpDiscoverTimeoutMs),
    ("peer_cleanup_interval_minutes",
      int.write n.peerCleanupIntervalMinutes),
    ("lan_discovery_enabled",
      flag.write n.lanDiscoveryEnabled),
    ("lan_multicast_group", text.write n.lanMulticastGroup),
    ("lan_multicast_port", ushort.write n.lanMulticastPort)]

def transferMembers (t : Transfer) : List (String × Json) :=
  [("chunk_size", size.write t.chunkSize),
    ("stall_threshold_ms", int.write t.stallThresholdMs),
    ("receive_timeout_minutes",
      int.write t.receiveTimeoutMinutes),
    ("congestion_wait_high_ms",
      int.write t.congestionWaitHighMs),
    ("congestion_wait_low_ms",
      int.write t.congestionWaitLowMs),
    ("congestion_high_multiplier",
      int.write t.congestionHighMultiplier),
    ("congestion_threshold", int.write t.congestionThreshold),
    ("speed_update_interval_sec",
      real.write t.speedUpdateIntervalSec),
    ("file_open_max_retries", int.write t.fileOpenMaxRetries),
    ("file_open_retry_delay_ms",
      int.write t.fileOpenRetryDelayMs),
    ("max_total_chunks", size.write t.maxTotalChunks),
    ("max_path_length", size.write t.maxPathLength),
    ("broadcast_file_update_batch_size",
      int.write t.broadcastFileUpdateBatchSize),
    ("broadcast_file_delete_batch_size",
      int.write t.broadcastFileDeleteBatchSize)]

def kcpMembers (k : Kcp) : List (String × Json) :=
  [("update_interval_ms", uint32.write k.updateIntervalMs),
    ("window_size", uint32.write k.windowSize)]

def syncMembers (s : Sync) : List (String × Json) :=
  [("session_timeout_seconds",
      int.write s.sessionTimeoutSeconds),
    ("flow_control_threshold",
      int.write s.flowControlThreshold),
    ("flow_control_sleep_ms", int.write s.flowControlSleepMs),
    ("file_change_debounce_delay_ms",
      int.write s.fileChangeDebounceDelayMs),
    ("batch_trigger_threshold",
      int.write s.batchTriggerThreshold),
    ("batch_min_interval_ms", int.write s.batchMinIntervalMs),
    ("file_hash_retry_delay_ms",
      int.write s.fileHashRetryDelayMs)]

def loggingAdvancedMembers
    (l : Logging) : List (String × Json) :=
  [("libjuice_level", text.write l.libjuiceLevel),
    ("max_file_size_mb", int.write l.maxFileSizeMb),
    ("max_files", int.write l.maxFiles),
    ("thread_pool_size", int.write l.threadPoolSize)]

def webuiAdvancedMembers (w : WebUI) : List (String × Json) :=
  [("log_tail_status_bytes", int.write w.logTailStatusBytes),
    ("log_tail_task_bytes", int.write w.logTailTaskBytes),
    ("auth_token_bytes", int.write w.authTokenBytes),
    ("max_description_length",
      int.write w.maxDescriptionLength),
    ("max_rules_length", int.write w.maxRulesLength)]

def llmAdvancedMembers (l : LLM) : List (String × Json) :=
  [("temperature", real.write l.temperature),
    ("max_tokens", int.write l.maxTokens),
    ("timeout_seconds", int.write l.timeoutSeconds),
    ("max_scan_files", int.write l.maxScanFiles),
    ("large_dir_threshold", int.write l.largeDirThreshold)]

def databaseMembers (d : Database) : List (String × Json) :=
  [("busy_timeout_ms", int.write d.busyTimeoutMs)]

def advancedGroupMembers
    (a : Advanced) : List (String × Json) :=
  [("worker_thread_count", int.write a.workerThreadCount),
    ("hash_thread_count", int.write a.hashThreadCount),
    ("hash_read_buffer_size_kb",
      int.write a.hashReadBufferSizeKb),
    ("tracker_max_message_length_bytes",
      int.write a.trackerMaxMessageLengthBytes)]

def advancedMembers (c : Config) : List (String × Json) :=
  [("network", .obj (networkAdvancedMembers c.network)),
    ("transfer", .obj (transferMembers c.transfer)),
    ("kcp", .obj (kcpMembers c.kcp)),
    ("sync", .obj (syncMembers c.sync)),
    ("logging", .obj (loggingAdvancedMembers c.logging)),
    ("webui", .obj (webuiAdvancedMembers c.webui)),
    ("llm", .obj (llmAdvancedMembers c.llm)),
    ("database", .obj (databaseMembers c.database)),
    ("advanced", .obj (advancedGroupMembers c.advanced))]

def advancedToJson (c : Config) : Json :=
  .obj (advancedMembers c)

end Writing

------------------------------------------------------------
-- Reading
------------------------------------------------------------

section Reading

/- A field that is left as it is when its key is missing. -/
def opt
    {σ α : Type}
    (key : String)
    (codec : Codec α)
    (place : Place σ α) : Entry Json σ where
  Value := α
  place := place
  read json :=
    (json.find? key).elim (some none)
      (fun member => (codec.read member).map some)

/- The fields of a group, read when the group is there. -/
def group
    {τ : Type}
    (name : String)
    (place : Place Config τ)
    (fields : List (Entry Json τ)) :
    List (Entry Json Config) :=
  fields.map (Entry.within (fun json => json.find? name)
    place)

def deviceIdPlace : Place Config String :=
  .mk (·.deviceId) fun c v => { c with deviceId := v }

def networkPlace : Place Config Network :=
  .mk (·.network) fun c v => { c with network := v }

def transferPlace : Place Config Transfer :=
  .mk (·.transfer) fun c v => { c with transfer := v }

def kcpPlace : Place Config Kcp :=
  .mk (·.kcp) fun c v => { c with kcp := v }

def syncPlace : Place Config Sync :=
  .mk (·.sync) fun c v => { c with sync := v }

def loggingPlace : Place Config Logging :=
  .mk (·.logging) fun c v => { c with logging := v }

def webuiPlace : Place Config WebUI :=
  .mk (·.webui) fun c v => { c with webui := v }

def llmPlace : Place Config LLM :=
  .mk (·.llm) fun c v => { c with llm := v }

def databasePlace : Place Config Database :=
  .mk (·.database) fun c v => { c with database := v }

def advancedPlace : Place Config Advanced :=
  .mk (·.advanced) fun c v => { c with advanced := v }

def tasksPlace : Place Config (List SyncTask) :=
  .mk (·.tasks) fun c v => { c with tasks := v }

/- Single fields that are written by name elsewhere. -/
def turnUsernamePlace : Place Config String :=
  networkPlace.comp
    (.mk (·.turnUsername) fun n v =>
      { n with turnUsername := v })

def turnPasswordPlace : Place Config String :=
  networkPlace.comp
    (.mk (·.turnPassword) fun n v =>
      { n with turnPassword := v })

def apiUrlPlace : Place Config String :=
  llmPlace.comp
    (.mk (·.apiUrl) fun l v => { l with apiUrl := v })

def apiKeyPlace : Place Config String :=
  llmPlace.comp
    (.mk (·.apiKey) fun l v => { l with apiKey := v })

def modelPlace : Place Config String :=
  llmPlace.comp
    (.mk (·.model) fun l v => { l with model := v })

def heartbeatPlace : Place Config Int32 :=
  networkPlace.comp
    (.mk (·.lanHeartbeatIntervalSeconds) fun n v =>
      { n with lanHeartbeatIntervalSeconds := v })

def peerTimeoutPlace : Place Config Int32 :=
  networkPlace.comp
    (.mk (·.lanPeerTimeoutSeconds) fun n v =>
      { n with lanPeerTimeoutSeconds := v })

def networkBasicFields : List (Entry Json Network) :=
  [opt "tracker_host" text
      (.mk (·.trackerHost) fun n v =>
        { n with trackerHost := v }),
    opt "tracker_port" ushort
      (.mk (·.trackerPort) fun n v =>
        { n with trackerPort := v }),
    opt "stun_host" text
      (.mk (·.stunHost) fun n v => { n with stunHost := v }),
    opt "stun_port" ushort
      (.mk (·.stunPort) fun n v => { n with stunPort := v }),
    opt "turn_host" text
      (.mk (·.turnHost) fun n v => { n with turnHost := v }),
    opt "turn_port" ushort
      (.mk (·.turnPort) fun n v => { n with turnPort := v }),
    opt "turn_username" text
      (.mk (·.turnUsername) fun n v =>
        { n with turnUsername := v }),
    opt "turn_password" text
      (.mk (·.turnPassword) fun n v =>
        { n with turnPassword := v })]

def loggingBasicFields : List (Entry Json Logging) :=
  [opt "level" text
      (.mk (·.level) fun l v => { l with level := v })]

def webuiBasicFields : List (Entry Json WebUI) :=
  [opt "port" ushort
      (.mk (·.port) fun w v => { w with port := v })]

def llmBasicFields : List (Entry Json LLM) :=
  [opt "api_url" text
      (.mk (·.apiUrl) fun l v => { l with apiUrl := v }),
    opt "api_key" text
      (.mk (·.apiKey) fun l v => { l with apiKey := v }),
    opt "model" text
      (.mk (·.model) fun l v => { l with model := v })]

def configFields : List (Entry Json Config) :=
  [[opt "device_id" text deviceIdPlace],
    group "network" networkPlace networkBasicFields,
    group "logging" loggingPlace loggingBasicFields,
    group "webui" webuiPlace webuiBasicFields,
    group "llm" llmPlace llmBasicFields,
    [opt "tasks" taskList tasksPlace]].flatten

/- A wrong type ends the reading; what was read stays. -/
def configFromJson
    (json : Json)
    (c : Config) : Config × Bool :=
  assignAll configFields json c

def networkAdvancedFields : List (Entry Json Network) :=
  [opt "tracker_reconnect_interval_seconds" int
      (.mk (·.trackerReconnectIntervalSeconds) fun n v =>
        { n with trackerReconnectIntervalSeconds := v }),
    opt "tracker_max_packet_size_mb" int
      (.mk (·.trackerMaxPacketSizeMb) fun n v =>
        { n with trackerMaxPacketSizeMb := v }),
    opt "ice_answer_wait_timeout_seconds" int
      (.mk (·.iceAnswerWaitTimeoutSeconds) fun n v =>
        { n with iceAnswerWaitTimeoutSeconds := v }),
    opt "upnp_discover_timeout_ms" int
      (.mk (·.upnpDiscoverTimeoutMs) fun n v =>
        { n with upnpDiscoverTimeoutMs := v }),
    opt "peer_cleanup_interval_minutes" int
      (.mk (·.peerCleanupIntervalMinutes) fun n v =>
        { n with peerCleanupIntervalMinutes := v }),
    opt "lan_discovery_enabled" flag
      (.mk (·.lanDiscoveryEnabled) fun n v =>
        { n with lanDiscoveryEnabled := v }),
    opt "lan_multicast_group" text
      (.mk (·.lanMulticastGroup) fun n v =>
        { n with lanMulticastGroup := v }),
    opt "lan_multicast_port" ushort
      (.mk (·.lanMulticastPort) fun n v =>
        { n with lanMulticastPort := v })]

def transferFields : List (Entry Json Transfer) :=
  [opt "chunk_size" size
      (.mk (·.chunkSize) fun t v => { t with chunkSize := v }),
    opt "stall_threshold_ms" int
      (.mk (·.stallThresholdMs) fun t v =>
        { t with stallThresholdMs := v }),
    opt "receive_timeout_minutes" int
      (.mk (·.receiveTimeoutMinutes) fun t v =>
        { t with receiveTimeoutMinutes := v }),
    opt "congestion_wait_high_ms" int
      (.mk (·.congestionWaitHighMs) fun t v =>
        { t with congestionWaitHighMs := v }),
    opt "congestion_wait_low_ms" int
      (.mk (·.congestionWaitLowMs) fun t v =>
        { t with congestionWaitLowMs := v }),
    opt "congestion_high_multiplier" int
      (.mk (·.congestionHighMultiplier) fun t v =>
        { t with congestionHighMultiplier := v }),
    opt "congestion_threshold" int
      (.mk (·.congestionThreshold) fun t v =>
        { t with congestionThreshold := v }),
    opt "speed_update_interval_sec" real
      (.mk (·.speedUpdateIntervalSec) fun t v =>
        { t with speedUpdateIntervalSec := v }),
    opt "file_open_max_retries" int
      (.mk (·.fileOpenMaxRetries) fun t v =>
        { t with fileOpenMaxRetries := v }),
    opt "file_open_retry_delay_ms" int
      (.mk (·.fileOpenRetryDelayMs) fun t v =>
        { t with fileOpenRetryDelayMs := v }),
    opt "max_total_chunks" size
      (.mk (·.maxTotalChunks) fun t v =>
        { t with maxTotalChunks := v }),
    opt "max_path_length" size
      (.mk (·.maxPathLength) fun t v =>
        { t with maxPathLength := v }),
    opt "broadcast_file_update_batch_size" int
      (.mk (·.broadcastFileUpdateBatchSize) fun t v =>
        { t with broadcastFileUpdateBatchSize := v }),
    opt "broadcast_file_delete_batch_size" int
      (.mk (·.broadcastFileDeleteBatchSize) fun t v =>
        { t with broadcastFileDeleteBatchSize := v })]

def kcpFields : List (Entry Json Kcp) :=
  [opt "update_interval_ms" uint32
      (.mk (·.updateIntervalMs) fun k v =>
        { k with updateIntervalMs := v }),
    opt "window_size" uint32
      (.mk (·.windowSize) fun k v =>
        { k with windowSize := v })]

def syncFields : List (Entry Json Sync) :=
  [opt "session_timeout_seconds" int
      (.mk (·.sessionTimeoutSeconds) fun s v =>
        { s with sessionTimeoutSeconds := v }),
    opt "flow_control_threshold" int
      (.mk (·.flowControlThreshold) fun s v =>
        { s with flowControlThreshold := v }),
    opt "flow_control_sleep_ms" int
      (.mk (·.flowControlSleepMs) fun s v =>
        { s with flowControlSleepMs := v }),
    opt "file_change_debounce_delay_ms" int
      (.mk (·.fileChangeDebounceDelayMs) fun s v =>
        { s with fileChangeDebounceDelayMs := v }),
    opt "batch_trigger_threshold" int
      (.mk (·.batchTriggerThreshold) fun s v =>
        { s with batchTriggerThreshold := v }),
    opt "batch_min_interval_ms" int
      (.mk (·.batchMinIntervalMs) fun s v =>
        { s with batchMinIntervalMs := v }),
    opt "file_hash_retry_delay_ms" int
      (.mk (·.fileHashRetryDelayMs) fun s v =>
        { s with fileHashRetryDelayMs := v })]

def loggingAdvancedFields : List (Entry Json Logging) :=
  [opt "libjuice_level" text
      (.mk (·.libjuiceLevel) fun l v =>
        { l with libjuiceLevel := v }),
    opt "max_file_size_mb" int
      (.mk (·.maxFileSizeMb) fun l v =>
        { l with maxFileSizeMb := v }),
    opt "max_files" int
      (.mk (·.maxFiles) fun l v => { l with maxFiles := v }),
    opt "thread_pool_size" int
      (.mk (·.threadPoolSize) fun l v =>
        { l with threadPoolSize := v })]

def webuiAdvancedFields : List (Entry Json WebUI) :=
  [opt "log_tail_status_bytes" int
      (.mk (·.logTailStatusBytes) fun w v =>
        { w with logTailStatusBytes := v }),
    opt "log_tail_task_bytes" int
      (.mk (·.logTailTaskBytes) fun w v =>
        { w with logTailTaskBytes := v }),
    opt "auth_token_bytes" int
      (.mk (·.authTokenBytes) fun w v =>
        { w with authTokenBytes := v }),
    opt "max_description_length" int
      (.mk (·.maxDescriptionLength) fun w v =>
        { w with maxDescriptionLength := v }),
    opt "max_rules_length" int
      (.mk (·.maxRulesLength) fun w v =>
        { w with maxRulesLength := v })]

def llmAdvancedFields : List (Entry Json LLM) :=
  [opt "temperature" real
      (.mk (·.temperature) fun l v =>
        { l with temperature := v }),
    opt "max_tokens" int
      (.mk (·.maxTokens) fun l v => { l with maxTokens := v }),
    opt "timeout_seconds" int
      (.mk (·.timeoutSeconds) fun l v =>
        { l with timeoutSeconds := v }),
    opt "max_scan_files" int
      (.mk (·.maxScanFiles) fun l v =>
        { l with maxScanFiles := v }),
    opt "large_dir_threshold" int
      (.mk (·.largeDirThreshold) fun l v =>
        { l with largeDirThreshold := v })]

def databaseFields : List (Entry Json Database) :=
  [opt "busy_timeout_ms" int
      (.mk (·.busyTimeoutMs) fun d v =>
        { d with busyTimeoutMs := v })]

def advancedGroupFields : List (Entry Json Advanced) :=
  [opt "worker_thread_count" int
      (.mk (·.workerThreadCount) fun a v =>
        { a with workerThreadCount := v }),
    opt "hash_thread_count" int
      (.mk (·.hashThreadCount) fun a v =>
        { a with hashThreadCount := v }),
    opt "hash_read_buffer_size_kb" int
      (.mk (·.hashReadBufferSizeKb) fun a v =>
        { a with hashReadBufferSizeKb := v }),
    opt "tracker_max_message_length_bytes" int
      (.mk (·.trackerMaxMessageLengthBytes) fun a v =>
        { a with trackerMaxMessageLengthBytes := v })]

def advancedFields : List (Entry Json Config) :=
  [group "network" networkPlace networkAdvancedFields,
    group "transfer" transferPlace transferFields,
    group "kcp" kcpPlace kcpFields,
    group "sync" syncPlace syncFields,
    group "logging" loggingPlace loggingAdvancedFields,
    group "webui" webuiPlace webuiAdvancedFields,
    group "llm" llmPlace llmAdvancedFields,
    group "database" databasePlace databaseFields,
    group "advanced" advancedPlace advancedGroupFields].flatten

def advancedFromJson
    (json : Json)
    (c : Config) : Config × Bool :=
  assignAll advancedFields json c

end Reading

------------------------------------------------------------
-- Both Files in One Object
------------------------------------------------------------

def setMember
    (members : List (String × Json))
    (name : String)
    (value : Json) : List (String × Json) :=
  (name, value) ::
    members.filter (fun member => member.1 != name)

/- The new members go over the old ones. -/
def update
    (members others : List (String × Json)) :
    List (String × Json) :=
  others.foldl
    (fun members other => setMember members other.1 other.2)
    members

def merged : Option Json → Json → Json
| some (.obj members), .obj others =>
    .obj (update members others)
| _, value => value

def mergeMember
    (members : List (String × Json))
    (member : String × Json) : List (String × Json) :=
  setMember members member.1
    (merged ((Json.obj members).find? member.1) member.2)

def toJson (c : Config) : Json :=
  .obj ((advancedMembers c).foldl mergeMember
    (configMembers c))

def fromJson
    (json : Json)
    (c : Config) : Config × Bool :=
  match configFromJson json c with
  | (c, true) => advancedFromJson json c
  | (c, false) => (c, false)

end Config

end VeritasSync
