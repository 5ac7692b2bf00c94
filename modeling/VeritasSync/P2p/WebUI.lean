import Mathlib.Data.List.InsertIdx
import VeritasSync.Common.Config
import VeritasSync.Common.ConfigRoundTrip

/-
  The requests of the web page that change the
  configuration, each of which also saves it.  They are
  looked at one at a time.

  Main declarations:
    * `WebUIServer.Server`, `WebUIServer.Agrees`
    * `WebUIServer.postConfig`, `WebUIServer.postTask`
    * `WebUIServer.deleteTask`, `WebUIServer.handle`
    * `WebUIServer.Atomic`, `WebUIServer.atomic_iff`
-/

namespace VeritasSync

namespace WebUIServer

open Config

------------------------------------------------------------
-- The Server
------------------------------------------------------------

/- The configuration in memory, and the file it is kept in. -/
structure Server where
  config : Config
  file : Stored

/- What is sent back; some errors have no body. -/
structure Response where
  status : Nat
  content : Option Json

def Response.isFailure (res : Response) : Bool :=
  400 ≤ res.status

def success : Response where
  status := 200
  content := some (.obj [("success", .bool true)])

def failure
    (status : Nat)
    (error : String) : Response where
  status := status
  content :=
    some (.obj [("success", .bool false),
      ("error", .str error)])

def plainFailure
    (status : Nat)
    (error : String) : Response where
  status := status
  content := some (.obj [("error", .str error)])

def unauthorized : Response :=
  plainFailure 401 "Unauthorized"

/-
  How saving ends.  A file that cannot be opened stays as it
  was; opening it empties it, and then the text may not be
  made, or only a part of it be written.  That the writing
  failed is not noticed.
-/
inductive Saving where
| openFails
| dumpFails
| cut
| done
deriving DecidableEq

def saveConfigInternal
    (saving : Saving)
    (s : Server) : Server × Bool :=
  match saving with
  | .openFails => (s, false)
  | .dumpFails => ({ s with file := .garbled }, false)
  | .cut => ({ s with file := .garbled }, true)
  | .done =>
      ({ s with file := .json (configToJson s.config) }, true)

/- What the callback for a new task does, if there is one. -/
inductive Starting where
| absent
| starts
| refuses
| throws
deriving DecidableEq

/- What the callback for a removed task does. -/
inductive Removing where
| absent
| returns
| throws : String → Removing
deriving DecidableEq

/- The outcomes of what the handlers call. -/
structure Calls where
  authorized : Bool
  isAbsolute : String → Bool
  weaklyCanonical : String → Option String
  saving : Saving
  rollbackSaving : Saving
  starting : Starting
  removing : Removing

------------------------------------------------------------
-- POST /api/config
------------------------------------------------------------

section PostConfig

def isValidPort (port : Int32) : Bool :=
  0 < port && port ≤ 65535

/- The hosts and ports, with ports of a type. -/
@[ext]
structure Hosts (π : Type) where
  trackerHost : String
  trackerPort : π
  stunHost : String
  stunPort : π
  turnHost : String
  turnPort : π

def Hosts.map
    {π ρ : Type}
    (f : π → ρ)
    (hosts : Hosts π) : Hosts ρ :=
  { hosts with
    trackerPort := f hosts.trackerPort
    stunPort := f hosts.stunPort
    turnPort := f hosts.turnPort }

def hostsPlace : Place Config (Hosts UInt16) :=
  networkPlace.comp
    (.mk
      (fun n => ⟨n.trackerHost, n.trackerPort, n.stunHost,
        n.stunPort, n.turnHost, n.turnPort⟩)
      fun n hosts =>
        { n with
          trackerHost := hosts.trackerHost
          trackerPort := hosts.trackerPort
          stunHost := hosts.stunHost
          stunPort := hosts.stunPort
          turnHost := hosts.turnHost
          turnPort := hosts.turnPort })

/- The conversions between `int` and `unsigned short`. -/
def toInt (port : UInt16) : Int32 :=
  Int32.ofInt port.toNat

def toUshort (port : Int32) : UInt16 :=
  UInt16.ofInt port.toInt

/- `value(key, current)`, which needs an object. -/
def valueOr
    {α : Type}
    (json : Json)
    (key : String)
    (codec : Codec α)
    (current : α) : Option α :=
  if json.isObj then
    (json.find? key).elim (some current) codec.read
  else
    none

/- A value that the request leaves out is the current one. -/
def readHosts
    (json : Json)
    (c : Config) : Option (Hosts Int32) := do
  let old := (hostsPlace.get c).map toInt
  let trackerHost ←
    valueOr json "tracker_host" text old.trackerHost
  let trackerPort ←
    valueOr json "tracker_port" int old.trackerPort
  let stunHost ← valueOr json "stun_host" text old.stunHost
  let stunPort ← valueOr json "stun_port" int old.stunPort
  let turnHost ← valueOr json "turn_host" text old.turnHost
  let turnPort ← valueOr json "turn_port" int old.turnPort
  return ⟨trackerHost, trackerPort, stunHost, stunPort,
    turnHost, turnPort⟩

def Hosts.portsValid (hosts : Hosts Int32) : Bool :=
  isValidPort hosts.trackerPort &&
    isValidPort hosts.stunPort && isValidPort hosts.turnPort

/- What the page shows in place of a secret. -/
def maskedPlaceholder : String := "***"

/- A field that the placeholder does not overwrite. -/
def optSecret
    (key : String)
    (place : Place Config String) : Entry Json Config where
  Value := String
  place := place
  read json :=
    (json.find? key).elim (some none) (fun member =>
      (text.read member).map (fun value =>
        if value = maskedPlaceholder then
          none
        else
          some value))

/- Written straight into the configuration, in this order. -/
def optionalFields : List (Entry Json Config) :=
  [opt "turn_username" text turnUsernamePlace,
    optSecret "turn_password" turnPasswordPlace,
    opt "llm_api_url" text apiUrlPlace,
    optSecret "llm_api_key" apiKeyPlace,
    opt "llm_model" text modelPlace]

def badConfig : Response :=
  plainFailure 400 "无效的 JSON 格式或参数错误"

/- What follows once the ports have been found valid. -/
def applyConfig
    (C : Calls)
    (json : Json)
    (hosts : Hosts Int32)
    (s : Server) : Server × Response :=
  let assigned :=
    hostsPlace.set s.config (hosts.map toUshort)
  let filled := assignAll optionalFields json assigned
  let s := { s with config := filled.1 }
  if !filled.2 then
    (s, badConfig)
  else
    let saved := saveConfigInternal C.saving s
    if saved.2 then
      (saved.1, success)
    else
      (saved.1, plainFailure 500 "无法写入配置文件")

/- The body is `none` when it is not JSON. -/
def postConfig
    (C : Calls)
    (body : Option Json)
    (s : Server) : Server × Response :=
  if !C.authorized then
    (s, unauthorized)
  else
    match body with
    | none => (s, badConfig)
    | some json =>
        match readHosts json s.config with
        | none => (s, badConfig)
        | some hosts =>
            if !hosts.portsValid then
              (s, plainFailure 400
                "端口号无效，请输入 1-65535 之间的整数")
            else
              applyConfig C json hosts s

end PostConfig

------------------------------------------------------------
-- POST /api/tasks
------------------------------------------------------------

section PostTask

/- An exception is answered without a body. -/
def badTask : Response where
  status := 400
  content := none

def required
    {α : Type}
    (value : Option α) : Except Response α :=
  match value with
  | none => .error badTask
  | some value => .ok value

def parseTask
    (C : Calls)
    (json : Json) : Except Response SyncTask := do
  let syncKey ← required (json.strAt? "sync_key")
  let syncKeyError := getSyncKeyValidationError syncKey
  if syncKeyError ≠ "" then
    throw (failure 400 syncKeyError)
  let role ← required (json.strAt? "role")
  let syncFolder ← required (json.strAt? "sync_folder")
  if !C.isAbsolute syncFolder then
    throw (failure 400 "sync_folder 必须是绝对路径")
  match C.weaklyCanonical syncFolder with
  | none => throw (failure 400 "sync_folder 路径无效")
  | some canonical =>
      let taskMode ← required
        ((json.find? "mode").elim (some .oneWay) mode.read)
      return ⟨syncKey, role, canonical, taskMode⟩

def withTasks
    (tasks : List SyncTask)
    (s : Server) : Server :=
  { s with config := { s.config with tasks := tasks } }

/- The task is taken out again, and what is left saved. -/
def rollBack
    (C : Calls)
    (task : SyncTask)
    (s : Server) : Server :=
  let isTask := fun t : SyncTask => t.syncKey == task.syncKey
  if s.config.tasks.any isTask then
    (saveConfigInternal C.rollbackSaving
      (withTasks (s.config.tasks.eraseP isTask) s)).1
  else
    s

def startTask
    (C : Calls)
    (task : SyncTask)
    (s : Server) : Server × Response :=
  match C.starting with
  | .absent => (s, success)
  | .starts => (s, success)
  | .refuses =>
      (rollBack C task s, failure 500 "任务启动失败")
  | .throws => (s, badTask)

/- What follows once the task has been found acceptable. -/
def saveTask
    (C : Calls)
    (task : SyncTask)
    (s : Server) : Server × Response :=
  let saved := saveConfigInternal C.saving
    (withTasks (s.config.tasks ++ [task]) s)
  if saved.2 then
    startTask C task saved.1
  else
    (withTasks saved.1.config.tasks.dropLast saved.1,
      failure 500 "无法保存配置")

def postTask
    (C : Calls)
    (body : Option Json)
    (s : Server) : Server × Response :=
  if !C.authorized then
    (s, unauthorized)
  else
    match body with
    | none => (s, badTask)
    | some json =>
        match parseTask C json with
        | .error res => (s, res)
        | .ok task =>
            if s.config.tasks.any
                (fun t => t.syncKey == task.syncKey) then
              (s, failure 409
                "sync_key 已存在，不能添加重复的任务")
            else
              saveTask C task s

end PostTask

------------------------------------------------------------
-- DELETE /api/tasks/:id
------------------------------------------------------------

section DeleteTask

def isSpace (c : Char) : Bool :=
  c ∈ [' ', '\t', '\n', '\r', '\x0b', '\x0c']

/- A sign in front of the digits. -/
def takeSign : List Char → Bool × List Char
| '-' :: rest => (true, rest)
| '+' :: rest => (false, rest)
| chars => (false, chars)

def digitsValue (digits : List Char) : Nat :=
  digits.foldl
    (fun value c => 10 * value + (c.toNat - '0'.toNat)) 0

/-
  `stoul` on the whole text; `unsigned long` has 64 bits, in
  which a minus sign is the complement.
-/
def parseTaskIndex (id : String) : Except Response Nat :=
  let signed := takeSign (id.toList.dropWhile isSpace)
  let digits := signed.2.takeWhile Char.isDigit
  if digits = [] then
    .error (failure 400 "无效的任务ID格式")
  else if 2 ^ 64 ≤ digitsValue digits then
    .error (failure 400 "任务ID超出范围")
  else if digits.length < signed.2.length then
    .error (failure 400 "无效的任务ID格式")
  else if signed.1 then
    .ok ((2 ^ 64 - digitsValue digits) % 2 ^ 64)
  else
    .ok (digitsValue digits)

/- The callback is not called for a task without a key. -/
def notifyRemoved
    (C : Calls)
    (syncKey : String)
    (s : Server) : Server × Response :=
  match C.removing with
  | .throws what =>
      if syncKey = "" then
        (s, success)
      else
        (s, failure 500 what)
  | .absent => (s, success)
  | .returns => (s, success)

/- What follows once the task has been found. -/
def removeTask
    (C : Calls)
    (idx : Nat)
    (removed : SyncTask)
    (s : Server) : Server × Response :=
  let saved := saveConfigInternal C.saving
    (withTasks (s.config.tasks.eraseIdx idx) s)
  if saved.2 then
    notifyRemoved C removed.syncKey saved.1
  else
    (withTasks (saved.1.config.tasks.insertIdx idx removed)
      saved.1, failure 500 "无法保存配置")

def deleteTask
    (C : Calls)
    (id : String)
    (s : Server) : Server × Response :=
  if !C.authorized then
    (s, unauthorized)
  else
    match parseTaskIndex id with
    | .error res => (s, res)
    | .ok idx =>
        match s.config.tasks[idx]? with
        | none => (s, failure 404 "任务不存在")
        | some removed => removeTask C idx removed s

end DeleteTask

------------------------------------------------------------
-- Requests
------------------------------------------------------------

inductive Request where
| postConfig : Option Json → Request
| postTask : Option Json → Request
| deleteTask : String → Request

def handle
    (C : Calls) :
    Request → Server → Server × Response
| .postConfig body => postConfig C body
| .postTask body => postTask C body
| .deleteTask id => deleteTask C id

/- The file is read as what the configuration holds. -/
def Agrees (s : Server) : Prop :=
  match s.file with
  | .json json =>
      (configFromJson json {}).2 = true ∧
        ∀ e ∈ configFields,
          e.place.get (configFromJson json {}).1 =
            e.place.get s.config
  | _ => False

/- A request that fails has changed nothing. -/
def Atomic
    (s : Server)
    (after : Server × Response) : Prop :=
  after.2.isFailure = true →
    after.1.config = s.config ∧ Agrees after.1

------------------------------------------------------------
-- Memory and File
------------------------------------------------------------

section Agreement

variable
  {s : Server}
  {res : Response}

/- What has just been written agrees. -/
theorem agrees_written (c : Config) :
    Agrees ⟨c, .json (configToJson c)⟩ :=
  configFromJson_of_holds (holdsBasics_configToJson c) {}

/- A file that was written agrees on the tasks. -/
theorem tasks_of_agrees_written
    {c d : Config}
    (hAgrees : Agrees ⟨c, .json (configToJson d)⟩) :
    c.tasks = d.tasks := by
  have hTasks : opt "tasks" taskList tasksPlace ∈
      configFields :=
    List.mem_flatten.mpr
      ⟨[opt "tasks" taskList tasksPlace],
        by simp, List.mem_cons_self⟩
  have hRead : (configFromJson (configToJson d) {}).1.tasks =
      d.tasks := (agrees_written d).2 _ hTasks
  have hSame : (configFromJson (configToJson d) {}).1.tasks =
      c.tasks := hAgrees.2 _ hTasks
  rw [← hSame, hRead]

theorem atomic_unchanged
    (hAgrees : Agrees s)
    (res : Response) :
    Atomic s (s, res) :=
  fun _ => ⟨rfl, hAgrees⟩

theorem atomic_of_success
    (after : Server) :
    Atomic s (after, success) := by
  intro hFails
  cases hFails

theorem not_atomic_of_garbled
    (hFails : res.isFailure = true)
    (c : Config) :
    ¬ Atomic s (⟨c, .garbled⟩, res) :=
  fun hAtomic => (hAtomic hFails).2

/- Memory alone has been written to. -/
theorem atomic_reassigned_iff
    (hAgrees : Agrees s)
    (hFails : res.isFailure = true)
    (c : Config) :
    Atomic s ({ s with config := c }, res) ↔
      c = s.config := by
  constructor
  · exact fun hAtomic => (hAtomic hFails).1
  · intro hSame _
    rw [hSame]
    exact ⟨rfl, hAgrees⟩

end Agreement

------------------------------------------------------------
-- A New Configuration
------------------------------------------------------------

section ConfigRequests

variable
  {C : Calls}
  {json : Json}
  {c : Config}
  {hosts : Hosts Int32}

theorem toUshort_toInt (port : UInt16) :
    toUshort (toInt port) = port := by
  have hLt := port.toNat_lt
  apply UInt16.toNat_inj.mp
  rw [toUshort, toInt, Int32.toInt_ofInt_of_le (by omega)
    (by omega), UInt16.ofInt, UInt16.toNat_ofNat']
  omega

theorem toInt_toUshort
    {port : Int32}
    (hValid : isValidPort port = true) :
    toInt (toUshort port) = port := by
  simp only [isValidPort, Bool.and_eq_true,
    decide_eq_true_eq, Int32.lt_iff_toInt_lt,
    Int32.le_iff_toInt_le] at hValid
  have hLow : (0 : Int32).toInt = 0 := rfl
  have hHigh : (65535 : Int32).toInt = 65535 := rfl
  rw [hLow, hHigh] at hValid
  have hNat : ((toUshort port).toNat : Int) = port.toInt := by
    rw [toUshort, UInt16.ofInt, UInt16.toNat_ofNat']
    omega
  rw [toInt, hNat, Int32.ofInt_toInt]

/- Valid hosts that are stored as the ones there are. -/
theorem map_toUshort_eq_iff
    (hValid : hosts.portsValid = true)
    (old : Hosts UInt16) :
    hosts.map toUshort = old ↔ hosts = old.map toInt := by
  simp only [Hosts.portsValid, Bool.and_eq_true] at hValid
  constructor
  · rintro rfl
    simp only [Hosts.map, toInt_toUshort hValid.1.1,
      toInt_toUshort hValid.1.2, toInt_toUshort hValid.2]
  · rintro rfl
    simp only [Hosts.map, toUshort_toInt]

theorem separate_optionalFields :
    Separate optionalFields ∧
      ∀ e ∈ optionalFields, e.place.Apart hostsPlace := by
  simp only [Separate, optionalFields, List.pairwise_cons,
    List.forall_mem_cons, List.Pairwise.nil,
    List.not_mem_nil, false_implies, implies_true, and_true,
    Place.Apart]
  and_intros <;> intros <;> rfl

/- What the request says is what there is already. -/
def NothingNew
    (json : Json)
    (c : Config) : Prop :=
  readHosts json c =
      some ((hostsPlace.get c).map toInt) ∧
    ∀ e ∈ reached optionalFields json, e.Keeps json c

/- An optional field of the request has a wrong type. -/
def Mistyped (json : Json) : Prop :=
  ∃ e ∈ optionalFields, e.read json = none

theorem assignAll_optionalFields_eq_iff
    (hHosts : readHosts json c = some hosts)
    (hValid : hosts.portsValid = true) :
    (assignAll optionalFields json
        (hostsPlace.set c (hosts.map toUshort))).1 = c ↔
      NothingNew json c := by
  rw [NothingNew, hHosts, Option.some.injEq,
    ← map_toUshort_eq_iff hValid]
  have hSeparate := separate_optionalFields
  constructor
  · intro hSame
    have hRest : hostsPlace.get
        (assignAll optionalFields json
          (hostsPlace.set c (hosts.map toUshort))).1 =
            hostsPlace.get
              (hostsPlace.set c (hosts.map toUshort)) :=
      get_assignAll_of_apart hSeparate.2 _
    have hOld : hosts.map toUshort = hostsPlace.get c := by
      rw [← hostsPlace.get_set c (hosts.map toUshort),
        ← hRest, hSame]
    refine ⟨hOld, ?_⟩
    rw [hOld, hostsPlace.set_get] at hSame
    refine (assignAll_keeps_iff json hSeparate.1 c).mp
      (fun e _ => ?_)
    rw [hSame]
  · rintro ⟨hOld, hKeeps⟩
    rw [hOld, hostsPlace.set_get]
    exact assignAll_of_keeps hKeeps

theorem assignAll_optionalFields_flag
    (json : Json)
    (d : Config) :
    (assignAll optionalFields json d).2 = false ↔
      Mistyped json := by
  constructor
  · intro hFlag
    by_contra hTyped
    have hReads : ∀ e ∈ optionalFields,
        (e.read json).isSome = true := by
      intro e hMem
      rw [Option.isSome_iff_ne_none]
      exact fun hNone => hTyped ⟨e, hMem, hNone⟩
    rw [assignAll_completes hReads d] at hFlag
    cases hFlag
  · rintro ⟨e, hMem, hNone⟩
    exact assignAll_fails hMem hNone d

/- The request writes nothing new, or what it writes lasts. -/
def ConfigKept
    (C : Calls)
    (json : Json)
    (c : Config) : Prop :=
  (Mistyped json → NothingNew json c) ∧
    (¬ Mistyped json → C.saving ≠ .dumpFails ∧
      (C.saving = .openFails → NothingNew json c))

/-
  A configuration with valid ports that is refused after
  all, or cannot be saved, must have said nothing new.
-/
def ConfigSafe
    (C : Calls)
    (body : Option Json)
    (c : Config) : Prop :=
  C.authorized = true → ∀ json hosts, body = some json →
    readHosts json c = some hosts →
      hosts.portsValid = true → ConfigKept C json c

variable {s : Server}

theorem atomic_applyConfig_iff
    (hAgrees : Agrees s)
    (hHosts : readHosts json s.config = some hosts)
    (hValid : hosts.portsValid = true) :
    Atomic s (applyConfig C json hosts s) ↔
      ConfigKept C json s.config := by
  have hSame := assignAll_optionalFields_eq_iff hHosts hValid
  have hFlag := assignAll_optionalFields_flag json
    (hostsPlace.set s.config (hosts.map toUshort))
  unfold applyConfig ConfigKept
  dsimp only
  generalize assignAll optionalFields json
    (hostsPlace.set s.config (hosts.map toUshort)) = filled
    at hSame hFlag
  rcases filled with ⟨c, flag⟩
  dsimp only at hSame hFlag ⊢
  cases flag with
  | false =>
      have hWrong := hFlag.mp rfl
      simp only [hWrong, forall_const, not_true_eq_false,
        false_implies, and_true, ← hSame]
      exact atomic_reassigned_iff hAgrees rfl c
  | true =>
      have hTyped : ¬ Mistyped json :=
        fun hWrong => Bool.noConfusion (hFlag.mpr hWrong)
      simp only [hTyped, false_implies, true_and,
        not_false_eq_true, forall_const, ← hSame]
      cases hSaving : C.saving with
      | openFails =>
          simp only [ne_eq, reduceCtorEq,
            not_false_eq_true, forall_const, true_and]
          exact atomic_reassigned_iff hAgrees rfl c
      | dumpFails =>
          exact iff_of_false (not_atomic_of_garbled rfl c)
            (fun hBoth => hBoth.1 rfl)
      | cut =>
          refine iff_of_true (atomic_of_success _) ?_
          exact ⟨nofun, nofun⟩
      | done =>
          refine iff_of_true (atomic_of_success _) ?_
          exact ⟨nofun, nofun⟩

theorem atomic_postConfig_iff
    (hAgrees : Agrees s)
    (body : Option Json) :
    Atomic s (postConfig C body s) ↔
      ConfigSafe C body s.config := by
  have hEarly : ∀ res, Atomic s (s, res) :=
    atomic_unchanged hAgrees
  unfold postConfig
  constructor
  · intro hAtomic hAuth json hosts hBody hHosts hValid
    subst hBody
    simp only [hAuth, Bool.not_true, Bool.false_eq_true,
      if_false, hHosts, hValid] at hAtomic
    exact (atomic_applyConfig_iff hAgrees hHosts
      hValid).mp hAtomic
  · intro hSafe
    split
    next => exact hEarly _
    next hAuth =>
      split
      next => exact hEarly _
      next json =>
        split
        next => exact hEarly _
        next hosts hHosts =>
          split
          next => exact hEarly _
          next hValid =>
            rw [Bool.not_eq_true', Bool.not_eq_false]
              at hAuth hValid
            exact (atomic_applyConfig_iff hAgrees hHosts
              hValid).mpr (hSafe hAuth json hosts rfl
                hHosts hValid)

end ConfigRequests

------------------------------------------------------------
-- A New Task
------------------------------------------------------------

section TaskRequests

variable
  {C : Calls}
  {s : Server}
  {task : SyncTask}

/- The list with a task more is another list. -/
theorem withTasks_config_ne
    {tasks : List SyncTask}
    (hLength : tasks.length ≠ s.config.tasks.length) :
    (withTasks tasks s).config ≠ s.config := by
  intro hSame
  have hTasks : tasks = s.config.tasks :=
    congrArg Config.tasks hSame
  exact hLength (congrArg List.length hTasks)

/- Without the new task the old list is left. -/
theorem eraseP_append_task
    {tasks : List SyncTask}
    (hNew : ∀ t ∈ tasks, t.syncKey ≠ task.syncKey) :
    (tasks ++ [task]).eraseP
      (fun t => t.syncKey == task.syncKey) = tasks := by
  rw [List.eraseP_append_right _ (by simpa using hNew)]
  simp

/- The new task, with the file as saving has left it. -/
def added
    (task : SyncTask)
    (file : Stored)
    (s : Server) : Server :=
  { withTasks (s.config.tasks ++ [task]) s with
    file := file }

theorem rollBack_added
    (hNew : ∀ t ∈ s.config.tasks,
      t.syncKey ≠ task.syncKey)
    (file : Stored) :
    rollBack C task (added task file s) =
      (saveConfigInternal C.rollbackSaving
        { s with file := file }).1 := by
  have hAny : (s.config.tasks ++ [task]).any
      (fun t => t.syncKey == task.syncKey) = true := by
    simp
  simp only [rollBack, added, withTasks, hAny, if_true,
    eraseP_append_task hNew]

/-
  Once the task has been saved, failing is safe only when
  the callback refuses and the old list is saved again.
-/
def StartKept (C : Calls) : Prop :=
  C.starting ≠ .throws ∧
    (C.starting = .refuses → C.rollbackSaving = .done)

/- The file after a saving that has reported success. -/
theorem not_agrees_added
    {file : Stored}
    (hFile : file = .garbled ∨
      file = .json (configToJson
        (withTasks (s.config.tasks ++ [task]) s).config)) :
    ¬ Agrees { s with file := file } := by
  rcases hFile with hCut | hDone
  · rw [hCut]
    exact id
  · rw [hDone]
    intro hAgrees
    have hTasks := tasks_of_agrees_written hAgrees
    have hLength := congrArg List.length hTasks
    simp [withTasks] at hLength

theorem atomic_startTask_iff
    (hNew : ∀ t ∈ s.config.tasks,
      t.syncKey ≠ task.syncKey)
    {file : Stored}
    (hFile : file = .garbled ∨
      file = .json (configToJson
        (withTasks (s.config.tasks ++ [task]) s).config)) :
    Atomic s (startTask C task (added task file s)) ↔
      StartKept C := by
  unfold startTask StartKept
  cases hStarting : C.starting with
  | absent =>
      exact iff_of_true (atomic_of_success _) ⟨nofun, nofun⟩
  | starts =>
      exact iff_of_true (atomic_of_success _) ⟨nofun, nofun⟩
  | throws =>
      refine iff_of_false (fun hAtomic => ?_)
        (fun hBoth => hBoth.1 rfl)
      exact withTasks_config_ne (by simp) (hAtomic rfl).1
  | refuses =>
      simp only [ne_eq, reduceCtorEq, not_false_eq_true,
        true_and, forall_const, rollBack_added hNew]
      cases hRollback : C.rollbackSaving with
      | openFails =>
          refine iff_of_false (fun hAtomic => ?_) nofun
          exact not_agrees_added hFile (hAtomic rfl).2
      | dumpFails =>
          exact iff_of_false (not_atomic_of_garbled rfl _)
            nofun
      | cut =>
          exact iff_of_false (not_atomic_of_garbled rfl _)
            nofun
      | done =>
          refine iff_of_true (fun _ => ?_) rfl
          exact ⟨rfl, agrees_written s.config⟩

/- What saving the new task and starting it may do. -/
def TaskKept (C : Calls) : Prop :=
  C.saving ≠ .dumpFails ∧
    (C.saving ≠ .openFails → StartKept C)

/-
  A task that gets as far as being saved must be saved and
  started, or taken back in memory and in the file.
-/
def TaskSafe
    (C : Calls)
    (body : Option Json)
    (c : Config) : Prop :=
  C.authorized = true → ∀ json task, body = some json →
    parseTask C json = .ok task →
      (∀ t ∈ c.tasks, t.syncKey ≠ task.syncKey) →
        TaskKept C

theorem atomic_saveTask_iff
    (hAgrees : Agrees s)
    (hNew : ∀ t ∈ s.config.tasks,
      t.syncKey ≠ task.syncKey) :
    Atomic s (saveTask C task s) ↔ TaskKept C := by
  unfold saveTask TaskKept
  cases hSaving : C.saving with
  | openFails =>
      refine iff_of_true (fun _ => ?_) ⟨nofun, nofun⟩
      simp only [saveConfigInternal, withTasks,
        List.dropLast_concat]
      exact ⟨rfl, hAgrees⟩
  | dumpFails =>
      exact iff_of_false (not_atomic_of_garbled rfl _)
        (fun hBoth => hBoth.1 rfl)
  | cut =>
      have hStart := atomic_startTask_iff (C := C) hNew
        (Or.inl rfl)
      simpa [saveConfigInternal, added] using hStart
  | done =>
      have hStart := atomic_startTask_iff (C := C) hNew
        (Or.inr rfl)
      simpa [saveConfigInternal, added] using hStart

theorem atomic_postTask_iff
    (hAgrees : Agrees s)
    (body : Option Json) :
    Atomic s (postTask C body s) ↔
      TaskSafe C body s.config := by
  have hEarly : ∀ res, Atomic s (s, res) :=
    atomic_unchanged hAgrees
  unfold postTask
  constructor
  · intro hAtomic hAuth json task hBody hTask hNew
    subst hBody
    have hAny : s.config.tasks.any
        (fun t => t.syncKey == task.syncKey) = false := by
      simpa using hNew
    simp only [hAuth, Bool.not_true, Bool.false_eq_true,
      if_false, hTask, hAny] at hAtomic
    exact (atomic_saveTask_iff hAgrees hNew).mp hAtomic
  · intro hSafe
    split
    next => exact hEarly _
    next hAuth =>
      split
      next => exact hEarly _
      next json =>
        split
        next => exact hEarly _
        next task hTask =>
          split
          next => exact hEarly _
          next hAny =>
            rw [Bool.not_eq_true', Bool.not_eq_false]
              at hAuth
            have hNew : ∀ t ∈ s.config.tasks,
                t.syncKey ≠ task.syncKey := by
              simpa using hAny
            exact (atomic_saveTask_iff hAgrees hNew).mpr
              (hSafe hAuth json task rfl hTask hNew)

end TaskRequests

------------------------------------------------------------
-- A Removed Task
------------------------------------------------------------

section DeleteRequests

variable
  {C : Calls}
  {s : Server}
  {idx : Nat}
  {removed : SyncTask}

/- What saving without the task and the callback may do. -/
def RemovalKept
    (C : Calls)
    (removed : SyncTask) : Prop :=
  C.saving ≠ .dumpFails ∧
    (C.saving ≠ .openFails → removed.syncKey ≠ "" →
      ∀ what, C.removing ≠ .throws what)

/- Deleting a task that exists must not fail half-way. -/
def DeleteSafe
    (C : Calls)
    (id : String)
    (c : Config) : Prop :=
  C.authorized = true → ∀ idx removed,
    parseTaskIndex id = .ok idx →
      c.tasks[idx]? = some removed → RemovalKept C removed

theorem atomic_notifyRemoved_iff
    (hFound : s.config.tasks[idx]? = some removed)
    (file : Stored) :
    Atomic s (notifyRemoved C removed.syncKey
        { withTasks (s.config.tasks.eraseIdx idx) s with
          file := file }) ↔
      (removed.syncKey ≠ "" →
        ∀ what, C.removing ≠ .throws what) := by
  unfold notifyRemoved
  cases hRemoving : C.removing with
  | absent =>
      exact iff_of_true (atomic_of_success _)
        (fun _ _ => nofun)
  | returns =>
      exact iff_of_true (atomic_of_success _)
        (fun _ _ => nofun)
  | throws what =>
      dsimp only
      split
      next hKey =>
        exact iff_of_true (atomic_of_success _)
          (fun hSome => absurd hKey hSome)
      next hKey =>
        refine iff_of_false (fun hAtomic => ?_)
          (fun hNever => hNever hKey what rfl)
        have hLt :=
          (List.getElem?_eq_some_iff.mp hFound).1
        refine withTasks_config_ne ?_ (hAtomic rfl).1
        rw [List.length_eraseIdx_of_lt hLt]
        omega

theorem atomic_removeTask_iff
    (hAgrees : Agrees s)
    (hFound : s.config.tasks[idx]? = some removed) :
    Atomic s (removeTask C idx removed s) ↔
      RemovalKept C removed := by
  unfold removeTask RemovalKept
  cases hSaving : C.saving with
  | openFails =>
      refine iff_of_true (fun _ => ?_) ⟨nofun, nofun⟩
      rcases List.getElem?_eq_some_iff.mp hFound with
        ⟨hLt, rfl⟩
      simp only [saveConfigInternal, withTasks,
        List.insertIdx_eraseIdx_getElem hLt]
      exact ⟨rfl, hAgrees⟩
  | dumpFails =>
      exact iff_of_false (not_atomic_of_garbled rfl _)
        (fun hBoth => hBoth.1 rfl)
  | cut =>
      have hNotify := atomic_notifyRemoved_iff (C := C)
        hFound .garbled
      simpa [saveConfigInternal] using hNotify
  | done =>
      have hNotify := atomic_notifyRemoved_iff (C := C)
        hFound (.json (configToJson (withTasks
          (s.config.tasks.eraseIdx idx) s).config))
      simpa [saveConfigInternal] using hNotify

theorem atomic_deleteTask_iff
    (hAgrees : Agrees s)
    (id : String) :
    Atomic s (deleteTask C id s) ↔
      DeleteSafe C id s.config := by
  have hEarly : ∀ res, Atomic s (s, res) :=
    atomic_unchanged hAgrees
  unfold deleteTask
  constructor
  · intro hAtomic hAuth idx removed hIdx hFound
    simp only [hAuth, Bool.not_true, Bool.false_eq_true,
      if_false, hIdx, hFound] at hAtomic
    exact (atomic_removeTask_iff hAgrees hFound).mp hAtomic
  · intro hSafe
    split
    next => exact hEarly _
    next hAuth =>
      split
      next => exact hEarly _
      next idx hIdx =>
        split
        next => exact hEarly _
        next removed hFound =>
          rw [Bool.not_eq_true', Bool.not_eq_false] at hAuth
          exact (atomic_removeTask_iff hAgrees hFound).mpr
            (hSafe hAuth idx removed hIdx hFound)

end DeleteRequests

------------------------------------------------------------
-- Every Request
------------------------------------------------------------

/- When a request leaves nothing behind if it fails. -/
def Safe
    (C : Calls) : Request → Config → Prop
| .postConfig body, c => ConfigSafe C body c
| .postTask body, c => TaskSafe C body c
| .deleteTask id, c => DeleteSafe C id c

/-
  A request that fails has changed nothing, in memory or in
  the file, exactly when it is safe in this sense.
-/
theorem atomic_iff
    {s : Server}
    (hAgrees : Agrees s)
    (C : Calls)
    (request : Request) :
    Atomic s (handle C request s) ↔
      Safe C request s.config := by
  cases request with
  | postConfig body => exact atomic_postConfig_iff hAgrees body
  | postTask body => exact atomic_postTask_iff hAgrees body
  | deleteTask id => exact atomic_deleteTask_iff hAgrees id

/- Files can be written, but both callbacks throw. -/
def sampleCalls : Calls where
  authorized := true
  isAbsolute _ := true
  weaklyCanonical := some
  saving := .done
  rollbackSaving := .done
  starting := .throws
  removing := .throws "stop failed"

def sampleTask : SyncTask where
  syncKey := "docs"
  role := "source"
  syncFolder := "/home/docs"

/- One task, in memory and in the file. -/
def sampleServer : Server where
  config := { deviceId := "9b2f", tasks := [sampleTask] }
  file := .json (configToJson
    { deviceId := "9b2f", tasks := [sampleTask] })

/- The configuration file cannot be opened. -/
theorem atomic_unwritable :
    let C := { sampleCalls with saving := .openFails }
    let after := handle C (.deleteTask "0") sampleServer
    after.2.isFailure = true ∧
      Atomic sampleServer after := by
  intro C after
  have hAgrees : Agrees sampleServer := agrees_written _
  refine ⟨rfl, (atomic_iff hAgrees C
    (.deleteTask "0")).mpr ?_⟩
  intro _ idx removed _ _
  exact ⟨nofun, fun hOpens => absurd rfl hOpens⟩

/- A host is stored before the bad type of a password. -/
def mistypedBody : Json :=
  .obj [("tracker_host", .str "tracker.example"),
    ("turn_password", .num 5)]

def photosBody : Json :=
  .obj [("sync_key", .str "photos"),
    ("role", .str "source"),
    ("sync_folder", .str "/home/photos")]

theorem not_atomic_samples :
    Agrees sampleServer ∧
    ¬ Atomic sampleServer (handle sampleCalls
        (.postConfig (some mistypedBody)) sampleServer) ∧
    ¬ Atomic sampleServer (handle sampleCalls
        (.postTask (some photosBody)) sampleServer) ∧
    ¬ Atomic sampleServer (handle
        { sampleCalls with
          starting := .refuses
          rollbackSaving := .openFails }
        (.postTask (some photosBody)) sampleServer) ∧
    ¬ Atomic sampleServer (handle sampleCalls
        (.deleteTask "0") sampleServer) := by
  refine ⟨agrees_written _, ?_, ?_, ?_, ?_⟩
  · intro hAtomic
    have hHost := congrArg
      (fun c : Config => c.network.trackerHost)
      (hAtomic (by decide +kernel)).1
    exact absurd hHost (by decide +kernel)
  · intro hAtomic
    have hTasks := congrArg
      (fun c : Config => c.tasks.length)
      (hAtomic (by decide +kernel)).1
    exact absurd hTasks (by decide +kernel)
  · intro hAtomic
    have hTasks := tasks_of_agrees_written
      (hAtomic (by decide +kernel)).2
    exact absurd (congrArg List.length hTasks)
      (by decide +kernel)
  · intro hAtomic
    have hTasks := congrArg
      (fun c : Config => c.tasks.length)
      (hAtomic (by decide +kernel)).1
    exact absurd hTasks (by decide +kernel)

end WebUIServer

end VeritasSync
