import VeritasSync.Library.Simulation
import VeritasSync.P2p.WebUI

/-
  The configuration as the web page is shown it, with two
  secrets masked, and that no answer tells more of them.

  Main declarations:
    * `WebUIServer.maskField`, `WebUIServer.getConfig`
    * `WebUIServer.PageRequest`, `WebUIServer.answer`
    * `WebUIServer.SameMasked`
    * `WebUIServer.secrets_unseen`
-/

namespace VeritasSync

namespace WebUIServer

open Config

------------------------------------------------------------
-- GET /api/config
------------------------------------------------------------

/- `json[name] = value`, for an object. -/
def assignMember
    (json : Json)
    (name : String)
    (value : Json) : Json :=
  match json with
  | .obj members => .obj (setMember members name value)
  | json => json

/- A member that is not a string is an exception. -/
def maskField
    (part key : String)
    (json : Json) : Option Json :=
  match json.find? part with
  | none => some json
  | some inner =>
      match inner.find? key with
      | none => some json
      | some value =>
          value.str?.map (fun text =>
            if text = "" then
              json
            else
              assignMember json part
                (assignMember inner key
                  (.str maskedPlaceholder)))

/- The HTTP server answers an exception of a handler. -/
def crashed : Response where
  status := 500
  content := none

def shownConfig (c : Config) : Option Json :=
  (maskField "network" "turn_password" (toJson c)).bind
    (maskField "llm" "api_key")

def getConfig
    (C : Calls)
    (s : Server) : Response :=
  if !C.authorized then
    unauthorized
  else
    match shownConfig s.config with
    | none => crashed
    | some json => ⟨200, some json⟩

------------------------------------------------------------
-- Requests of the Page
------------------------------------------------------------

inductive PageRequest
| getConfig : PageRequest
| change : Request → PageRequest

def answer
    (s : Server)
    (request : Calls × PageRequest) : Server × Response :=
  match request.2 with
  | .getConfig => (s, getConfig request.1 s)
  | .change change => handle request.1 change s

------------------------------------------------------------
-- Masked Configurations
------------------------------------------------------------

/- All that a secret is known to be. -/
def mask (secret : String) : String :=
  if secret = "" then "" else maskedPlaceholder

def masked (c : Config) : Config :=
  { c with
    network :=
      { c.network with
        turnPassword := mask c.network.turnPassword }
    llm := { c.llm with apiKey := mask c.llm.apiKey } }

/- Servers that differ in the secrets, if in anything. -/
def SameMasked (s s' : Server) : Prop :=
  masked s.config = masked s'.config

------------------------------------------------------------
-- Members That Are Replaced
------------------------------------------------------------

section Members

/- All but one member. -/
def others
    (members : List (String × Json))
    (name : String) : List (String × Json) :=
  members.filter (fun member => member.1 != name)

theorem others_cons
    (member : String × Json)
    (members : List (String × Json))
    (name : String) :
    others (member :: members) name =
      (if member.1 = name then [] else [member]) ++
        others members name := by
  by_cases hName : member.1 = name
  · simp [others, hName]
  · simp [others, hName]

theorem others_comm
    (members : List (String × Json))
    (name name' : String) :
    others (others members name) name' =
      others (others members name') name := by
  simp only [others, List.filter_filter, Bool.and_comm]

theorem others_setMember_self
    (members : List (String × Json))
    (name : String)
    (value : Json) :
    others (setMember members name value) name =
      others members name := by
  simp [others, setMember]

theorem others_setMember_of_ne
    {name name' : String}
    (hNe : name ≠ name')
    (members : List (String × Json))
    (value : Json) :
    others (setMember members name value) name' =
      setMember (others members name') name value := by
  rw [others, setMember, List.filter_cons_of_pos (by simpa)]
  exact congrArg _ (others_comm members name name')

theorem find?_others
    {name key : String}
    (hNe : key ≠ name)
    (members : List (String × Json)) :
    (Json.obj (others members name)).find? key =
      (Json.obj members).find? key := by
  have hAgain : (fun member : String × Json =>
      decide (member.1 != name ∧ member.1 == key)) =
        fun member => member.1 == key := by
    funext member
    by_cases hKey : member.1 = key
    · simp [hKey, hNe]
    · simp [hKey]
  simp only [Json.find?, others, List.find?_filter, hAgain]

/- Members that are set one after the other, but for one. -/
theorem others_foldl_set
    (value : Option Json → Json → Json)
    (members news : List (String × Json))
    (name : String) :
    others (news.foldl (fun members other =>
        setMember members other.1
          (value ((Json.obj members).find? other.1) other.2))
        members) name =
      (others news name).foldl (fun members other =>
        setMember members other.1
          (value ((Json.obj members).find? other.1) other.2))
        (others members name) := by
  induction news generalizing members with
  | nil => rfl
  | cons new news ih =>
      rw [List.foldl_cons, ih]
      by_cases hName : new.1 = name
      · have hGone : others (new :: news) name =
            others news name :=
          List.filter_cons_of_neg (by simp [hName])
        rw [hGone, ← hName, others_setMember_self]
      · have hStays : others (new :: news) name =
            new :: others news name :=
          List.filter_cons_of_pos (by simpa)
        rw [hStays, List.foldl_cons,
          others_setMember_of_ne hName, find?_others hName]

end Members

------------------------------------------------------------
-- What Is Shown
------------------------------------------------------------

section Shown

/- With any two texts the masked member is the same. -/
theorem maskField_congr
    {part key : String}
    {members members' inner inner' : List (String × Json)}
    {text text' : String}
    (hPart : (Json.obj members).find? part =
      some (.obj inner))
    (hPart' : (Json.obj members').find? part =
      some (.obj inner'))
    (hKey : (Json.obj inner).find? key = some (.str text))
    (hKey' : (Json.obj inner').find? key =
      some (.str text'))
    (hText : text ≠ "")
    (hText' : text' ≠ "")
    (hOuter : others members part = others members' part)
    (hInner : others inner key = others inner' key) :
    maskField part key (.obj members) =
      maskField part key (.obj members') := by
  have hSet : ∀ value : Json,
      setMember inner key value =
        setMember inner' key value :=
    fun _ => congrArg _ hInner
  have hAll : ∀ value : Json,
      setMember members part value =
        setMember members' part value :=
    fun _ => congrArg _ hOuter
  simp only [maskField, hPart, hPart', hKey, hKey',
    Json.str?, Option.map_some, if_neg hText, if_neg hText',
    assignMember, hSet, hAll]

/- Secrets that are masked alike. -/
theorem eq_or_ne_of_mask
    {secret secret' : String}
    (hMask : mask secret = mask secret') :
    secret = secret' ∨ secret ≠ "" ∧ secret' ≠ "" := by
  unfold mask at hMask
  by_cases hEmpty : secret = ""
  · left
    rw [hEmpty, if_pos rfl] at hMask
    by_cases hEmpty' : secret' = ""
    · rw [hEmpty, hEmpty']
    · rw [if_neg hEmpty'] at hMask
      exact absurd hMask (by decide)
  · rw [if_neg hEmpty] at hMask
    by_cases hEmpty' : secret' = ""
    · rw [if_pos hEmpty'] at hMask
      exact absurd hMask (by decide)
    · exact Or.inr ⟨hEmpty, hEmpty'⟩

def shownMembers (c : Config) : List (String × Json) :=
  (advancedMembers c).foldl mergeMember (configMembers c)

def networkMembers (c : Config) : List (String × Json) :=
  update (networkBasicMembers c.network)
    (networkAdvancedMembers c.network)

def llmMembers (c : Config) : List (String × Json) :=
  update (llmBasicMembers c.llm) (llmAdvancedMembers c.llm)

theorem find?_network (c : Config) :
    (Json.obj (shownMembers c)).find? "network" =
      some (.obj (networkMembers c)) :=
  find?_toJson c "network"

theorem find?_llm (c : Config) :
    (Json.obj (shownMembers c)).find? "llm" =
      some (.obj (llmMembers c)) :=
  find?_toJson c "llm"

theorem find?_turnPassword (c : Config) :
    (Json.obj (networkMembers c)).find? "turn_password" =
      some (.str c.network.turnPassword) := by
  rw [networkMembers, find?_update
    (by simp [networkAdvancedMembers])]
  simp [networkAdvancedMembers, networkBasicMembers,
    Json.find?, text]

theorem find?_apiKey (c : Config) :
    (Json.obj (llmMembers c)).find? "api_key" =
      some (.str c.llm.apiKey) := by
  rw [llmMembers, find?_update
    (by simp [llmAdvancedMembers])]
  simp [llmAdvancedMembers, llmBasicMembers, Json.find?,
    text]

theorem others_shownMembers
    (c : Config)
    (name : String) :
    others (shownMembers c) name =
      (others (advancedMembers c) name).foldl mergeMember
        (others (configMembers c) name) :=
  others_foldl_set merged (configMembers c)
    (advancedMembers c) name

theorem others_update
    (basics advanced : List (String × Json))
    (name : String) :
    others (update basics advanced) name =
      update (others basics name) (others advanced name) :=
  others_foldl_set (fun _ new => new) basics advanced name

def withPassword
    (c : Config)
    (password : String) : Config :=
  { c with
    network := { c.network with turnPassword := password } }

def withKey
    (c : Config)
    (key : String) : Config :=
  { c with llm := { c.llm with apiKey := key } }

theorem shownConfig_withPassword
    {c : Config}
    {password : String}
    (hMask : mask password = mask c.network.turnPassword) :
    shownConfig (withPassword c password) =
      shownConfig c := by
  rcases eq_or_ne_of_mask hMask with hSame | ⟨hNew, hOld⟩
  · rw [hSame]
    rfl
  · have hOuter : others
        (shownMembers (withPassword c password)) "network" =
          others (shownMembers c) "network" := by
      have hBasic : others
          (configMembers (withPassword c password))
          "network" = others (configMembers c) "network" := by
        simp only [configMembers, others_cons,
          String.reduceEq, if_true, if_false]
        rfl
      have hAdvanced : advancedMembers
          (withPassword c password) = advancedMembers c := rfl
      rw [others_shownMembers, others_shownMembers, hBasic,
        hAdvanced]
    have hInner : others
        (networkMembers (withPassword c password))
        "turn_password" =
          others (networkMembers c) "turn_password" := by
      have hBasic : others (networkBasicMembers
          (withPassword c password).network)
          "turn_password" = others
            (networkBasicMembers c.network)
            "turn_password" := by
        simp only [networkBasicMembers, others_cons,
          String.reduceEq, if_true, if_false]
        rfl
      have hAdvanced : networkAdvancedMembers
          (withPassword c password).network =
            networkAdvancedMembers c.network := rfl
      rw [networkMembers, networkMembers, others_update,
        others_update, hBasic, hAdvanced]
    have hField := maskField_congr (find?_network _)
      (find?_network c) (find?_turnPassword _)
      (find?_turnPassword c) hNew hOld hOuter hInner
    exact congrArg
      (fun json => json.bind (maskField "llm" "api_key"))
      hField

/- The members once the password has been masked. -/
theorem maskField_network (c : Config) :
    maskField "network" "turn_password" (toJson c) =
      some (.obj (if c.network.turnPassword = "" then
        shownMembers c
      else
        setMember (shownMembers c) "network"
          (.obj (setMember (networkMembers c)
            "turn_password" (.str maskedPlaceholder))))) := by
  have hNetwork : (toJson c).find? "network" = _ :=
    find?_network c
  simp only [maskField, hNetwork, find?_turnPassword,
    Json.str?, Option.map_some]
  split
  · rfl
  · rfl

theorem shownConfig_withKey
    {c : Config}
    {key : String}
    (hMask : mask key = mask c.llm.apiKey) :
    shownConfig (withKey c key) = shownConfig c := by
  rcases eq_or_ne_of_mask hMask with hSame | ⟨hNew, hOld⟩
  · rw [hSame]
    rfl
  · have hOuter : others (shownMembers (withKey c key))
        "llm" = others (shownMembers c) "llm" := by
      have hBasic : others (configMembers (withKey c key))
          "llm" = others (configMembers c) "llm" := by
        simp only [configMembers, others_cons,
          String.reduceEq, if_true, if_false]
        rfl
      have hAdvanced : advancedMembers (withKey c key) =
          advancedMembers c := rfl
      rw [others_shownMembers, others_shownMembers, hBasic,
        hAdvanced]
    have hInner : others (llmMembers (withKey c key))
        "api_key" = others (llmMembers c) "api_key" := by
      have hBasic : others
          (llmBasicMembers (withKey c key).llm) "api_key" =
            others (llmBasicMembers c.llm) "api_key" := by
        simp only [llmBasicMembers, others_cons,
          String.reduceEq, if_true, if_false]
        rfl
      have hAdvanced : llmAdvancedMembers
          (withKey c key).llm = llmAdvancedMembers c.llm :=
        rfl
      rw [llmMembers, llmMembers, others_update,
        others_update, hBasic, hAdvanced]
    rw [shownConfig, shownConfig, maskField_network,
      maskField_network, Option.bind_some,
      Option.bind_some]
    have hNetwork : networkMembers (withKey c key) =
        networkMembers c := rfl
    have hPassword :
        (withKey c key).network.turnPassword =
          c.network.turnPassword := rfl
    rw [hNetwork, hPassword]
    split
    · exact maskField_congr (find?_llm _) (find?_llm c)
        (find?_apiKey _) (find?_apiKey c) hNew hOld hOuter
        hInner
    · refine maskField_congr ?_ ?_ (find?_apiKey _)
        (find?_apiKey c) hNew hOld ?_ hInner
      · rw [find?_setMember, if_neg (by decide)]
        exact find?_llm _
      · rw [find?_setMember, if_neg (by decide)]
        exact find?_llm c
      · rw [others_setMember_of_ne (by decide),
          others_setMember_of_ne (by decide), hOuter]

/- What is shown depends on the masked secrets alone. -/
theorem shownConfig_eq_of_masked
    {c d : Config}
    (hMasked : masked c = masked d) :
    shownConfig c = shownConfig d := by
  have hPassword : mask d.network.turnPassword =
      mask c.network.turnPassword :=
    congrArg (fun m => m.network.turnPassword) hMasked.symm
  have hKey : mask d.llm.apiKey = mask c.llm.apiKey :=
    congrArg (fun m => m.llm.apiKey) hMasked.symm
  have hBoth := congrArg (fun m => withKey
    (withPassword m d.network.turnPassword)
    d.llm.apiKey) hMasked
  have hSame : withKey
      (withPassword c d.network.turnPassword)
      d.llm.apiKey = d := hBoth
  rw [← shownConfig_withPassword hPassword,
    ← shownConfig_withKey (c := withPassword c
      d.network.turnPassword) hKey, hSame]

end Shown

------------------------------------------------------------
-- Answers
------------------------------------------------------------

section Answers

variable
  {C : Calls}
  {s s' : Server}

/- The answers are the same, and the servers still alike. -/
def SameAnswer (after after' : Server × Response) : Prop :=
  after.2 = after'.2 ∧ SameMasked after.1 after'.1

theorem sameMasked_withTasks
    (hSame : SameMasked s s')
    (tasks : List SyncTask) :
    SameMasked (withTasks tasks s) (withTasks tasks s') := by
  have hBoth := congrArg
    (fun c : Config => { c with tasks := tasks }) hSame
  exact hBoth

theorem SameMasked.tasks
    (hSame : SameMasked s s') :
    s.config.tasks = s'.config.tasks := by
  have hTasks := congrArg Config.tasks hSame
  exact hTasks

/- Whether saving works is not up to what is saved. -/
theorem sameMasked_save
    (hSame : SameMasked s s')
    (saving : Saving) :
    (saveConfigInternal saving s).2 =
        (saveConfigInternal saving s').2 ∧
      SameMasked (saveConfigInternal saving s).1
        (saveConfigInternal saving s').1 := by
  cases saving <;> exact ⟨rfl, hSame⟩

/- Setting the field hides as much as before. -/
def SetsAlike (e : Entry Json Config) : Prop :=
  ∀ (value : e.Value) (c d : Config),
    masked c = masked d →
      masked (e.place.set c value) =
        masked (e.place.set d value)

/- The secrets are among the fields. -/
theorem setsAlike_optionalFields :
    ∀ e ∈ optionalFields, SetsAlike e := by
  simp only [optionalFields, List.forall_mem_cons,
    List.not_mem_nil, false_implies, implies_true, and_true]
  refine ⟨?_, ?_, ?_, ?_, ?_⟩
  · intro value c d hMasked
    have hBoth := congrArg
      (fun m => turnUsernamePlace.set m value) hMasked
    exact hBoth
  · intro value c d hMasked
    have hBoth := congrArg
      (fun m => turnPasswordPlace.set m (mask value)) hMasked
    exact hBoth
  · intro value c d hMasked
    have hBoth := congrArg
      (fun m => apiUrlPlace.set m value) hMasked
    exact hBoth
  · intro value c d hMasked
    have hBoth := congrArg
      (fun m => apiKeyPlace.set m (mask value)) hMasked
    exact hBoth
  · intro value c d hMasked
    have hBoth := congrArg
      (fun m => modelPlace.set m value) hMasked
    exact hBoth

theorem masked_assignAll
    {entries : List (Entry Json Config)}
    (hEntries : ∀ e ∈ entries, SetsAlike e)
    (json : Json)
    {c d : Config}
    (hMasked : masked c = masked d) :
    (assignAll entries json c).2 =
        (assignAll entries json d).2 ∧
      masked (assignAll entries json c).1 =
        masked (assignAll entries json d).1 := by
  induction entries generalizing c d with
  | nil => exact ⟨rfl, hMasked⟩
  | cons e rest ih =>
      rw [List.forall_mem_cons] at hEntries
      simp only [assignAll, Entry.apply]
      cases e.read json with
      | none => exact ⟨rfl, hMasked⟩
      | some found =>
          cases found with
          | none => exact ih hEntries.2 hMasked
          | some value =>
              exact ih hEntries.2
                (hEntries.1 value c d hMasked)

theorem sameAnswer_postConfig
    (hSame : SameMasked s s')
    (body : Option Json) :
    SameAnswer (postConfig C body s)
      (postConfig C body s') := by
  have hPlace : hostsPlace.get s.config =
      hostsPlace.get s'.config := by
    have hBoth := congrArg hostsPlace.get hSame
    exact hBoth
  have hRead : ∀ json,
      readHosts json s'.config = readHosts json s.config := by
    intro json
    rw [readHosts, readHosts, hPlace]
  unfold postConfig
  split
  · exact ⟨rfl, hSame⟩
  · split
    · exact ⟨rfl, hSame⟩
    next json =>
      rw [hRead]
      split
      · exact ⟨rfl, hSame⟩
      next hosts _ =>
        split
        · exact ⟨rfl, hSame⟩
        · have hAssigned := congrArg (fun m =>
            hostsPlace.set m (hosts.map toUshort)) hSame
          have hFilled := masked_assignAll
            setsAlike_optionalFields json
            (c := hostsPlace.set s.config
              (hosts.map toUshort))
            (d := hostsPlace.set s'.config
              (hosts.map toUshort)) hAssigned
          unfold applyConfig
          dsimp only
          generalize assignAll optionalFields json
            (hostsPlace.set s.config _) = filled
              at hFilled ⊢
          generalize assignAll optionalFields json
            (hostsPlace.set s'.config _) = filled'
              at hFilled ⊢
          have hBoth : SameMasked
              { s with config := filled.1 }
              { s' with config := filled'.1 } := hFilled.2
          have hSaved := sameMasked_save hBoth C.saving
          rw [← hFilled.1, ← hSaved.1]
          split
          · exact ⟨rfl, hFilled.2⟩
          · split
            · exact ⟨rfl, hSaved.2⟩
            · exact ⟨rfl, hSaved.2⟩

theorem sameMasked_rollBack
    (hSame : SameMasked s s')
    (task : SyncTask) :
    SameMasked (rollBack C task s) (rollBack C task s') := by
  unfold rollBack
  dsimp only
  rw [← hSame.tasks]
  split
  · exact (sameMasked_save
      (sameMasked_withTasks hSame _) _).2
  · exact hSame

theorem sameAnswer_startTask
    (hSame : SameMasked s s')
    (task : SyncTask) :
    SameAnswer (startTask C task s)
      (startTask C task s') := by
  unfold startTask
  split
  · exact ⟨rfl, hSame⟩
  · exact ⟨rfl, hSame⟩
  · exact ⟨rfl, sameMasked_rollBack hSame task⟩
  · exact ⟨rfl, hSame⟩

theorem sameAnswer_saveTask
    (hSame : SameMasked s s')
    (task : SyncTask) :
    SameAnswer (saveTask C task s) (saveTask C task s') := by
  unfold saveTask
  dsimp only
  rw [← hSame.tasks]
  have hSaved := sameMasked_save (sameMasked_withTasks hSame
    (s.config.tasks ++ [task])) C.saving
  rw [← hSaved.1]
  split
  · exact sameAnswer_startTask hSaved.2 task
  · refine ⟨rfl, ?_⟩
    rw [← hSaved.2.tasks]
    exact sameMasked_withTasks hSaved.2 _

theorem sameAnswer_postTask
    (hSame : SameMasked s s')
    (body : Option Json) :
    SameAnswer (postTask C body s) (postTask C body s') := by
  unfold postTask
  rw [← hSame.tasks]
  split
  · exact ⟨rfl, hSame⟩
  · split
    · exact ⟨rfl, hSame⟩
    · split
      · exact ⟨rfl, hSame⟩
      next task _ =>
        split
        · exact ⟨rfl, hSame⟩
        · exact sameAnswer_saveTask hSame task

theorem sameAnswer_notifyRemoved
    (hSame : SameMasked s s')
    (syncKey : String) :
    SameAnswer (notifyRemoved C syncKey s)
      (notifyRemoved C syncKey s') := by
  unfold notifyRemoved
  split
  · split
    · exact ⟨rfl, hSame⟩
    · exact ⟨rfl, hSame⟩
  · exact ⟨rfl, hSame⟩
  · exact ⟨rfl, hSame⟩

theorem sameAnswer_deleteTask
    (hSame : SameMasked s s')
    (id : String) :
    SameAnswer (deleteTask C id s) (deleteTask C id s') := by
  unfold deleteTask
  rw [← hSame.tasks]
  split
  · exact ⟨rfl, hSame⟩
  · split
    · exact ⟨rfl, hSame⟩
    next idx _ =>
      split
      · exact ⟨rfl, hSame⟩
      next removed _ =>
        unfold removeTask
        dsimp only
        rw [← hSame.tasks]
        have hSaved := sameMasked_save (sameMasked_withTasks
          hSame (s.config.tasks.eraseIdx idx)) C.saving
        rw [← hSaved.1]
        split
        · exact sameAnswer_notifyRemoved hSaved.2 _
        · refine ⟨rfl, ?_⟩
          rw [← hSaved.2.tasks]
          exact sameMasked_withTasks hSaved.2 _

theorem sameAnswer_answer
    (hSame : SameMasked s s')
    (request : Calls × PageRequest) :
    SameAnswer (answer s request) (answer s' request) := by
  rcases request with ⟨C, request⟩
  cases request with
  | getConfig =>
      refine ⟨?_, hSame⟩
      simp only [answer, getConfig,
        shownConfig_eq_of_masked hSame]
  | change change =>
      cases change with
      | postConfig body =>
          exact sameAnswer_postConfig hSame body
      | postTask body => exact sameAnswer_postTask hSame body
      | deleteTask id => exact sameAnswer_deleteTask hSame id

/-
  Whatever a page asks for and changes, what it is answered
  depends on a secret only by whether it is empty.
-/
theorem secrets_unseen
    (hSame : SameMasked s s')
    (requests : List (Calls × PageRequest)) :
    (Transition.outputs answer s requests).2 =
      (Transition.outputs answer s' requests).2 := by
  have hStep : ∀ s s' request, SameMasked s s' →
      (answer s request).2 = (answer s' request).2 ∧
        SameMasked (answer s request).1
          (answer s' request).1 :=
    fun _ _ request hRelated =>
      sameAnswer_answer hRelated request
  exact (Transition.outputs_eq_of_related hStep hSame
    requests).1

end Answers

def guardedServer (password : String) : Server where
  config := { network := { turnPassword := password } }
  file := .missing

/- The page sends back what it has been shown. -/
def shownRequests : List (Calls × PageRequest) :=
  [(sampleCalls, .getConfig),
    (sampleCalls, .change (.postConfig
      (some (.obj [("turn_host", .str "turn.example"),
        ("turn_password", .str "***")])))),
    (sampleCalls, .getConfig)]

theorem secrets_unseen_password :
    (Transition.outputs answer (guardedServer "alpha")
        shownRequests).2 =
      (Transition.outputs answer (guardedServer "omega")
        shownRequests).2 := by
  apply secrets_unseen
  simp [SameMasked, masked, mask, guardedServer]

end WebUIServer

end VeritasSync
