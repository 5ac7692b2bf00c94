import VeritasSync.Library.Simulation
import VeritasSync.P2p.WebUI
import VeritasSync.Storage.RuleLoaders

/-
  The rules file of a task as the web page reads it, replaces
  it and appends to it, and what the filter makes of it.

  Main declarations:
    * `RulesPage`, `RulesPage.answer`
    * `RulesPage.appended`, `RulesPage.fileRules_appended`
    * `RulesPage.asked`, `RulesPage.editsAt`
    * `RulesPage.rulesOf_run`, `RulesPage.shouldIgnore_append`
    * `RulesPage.appended_rules_decide`
-/

namespace VeritasSync

open WebUIServer (Server Calls Response Request failure
  success unauthorized parseTaskIndex)
open FileFilter (UserRule fileRules loadRules readLine
  loadUserRules lastMatchIgnores shortcutHits)

/- The tasks, and what is in the rules files by place. -/
structure RulesPage (ρ : Type) where
  server : Server
  texts : ρ → Option (List Char)

namespace RulesPage

------------------------------------------------------------
-- Calls
------------------------------------------------------------

/- How reading a file ends: one may be there and not open. -/
inductive Reading
| throws
| unreadable
| done
deriving DecidableEq

/- How writing ends; that a text was cut is not noticed. -/
inductive Writing
| refused
| cut : ℕ → Writing
| done
deriving DecidableEq

/- The outcomes of one request, and an exception's text. -/
structure FileCalls where
  calls : Calls
  reading : Reading
  writing : Writing
  what : String

/- An exception in one of these handlers. -/
def caught (F : FileCalls) : Response :=
  failure 500 F.what

def noTask : Response :=
  failure 404 "任务不存在"

/- The text that a handler goes on with. -/
def existing
    (F : FileCalls)
    (text : Option (List Char)) : Option (List Char) :=
  match F.reading with
  | .throws => none
  | .unreadable => some []
  | .done => some (text.getD [])

/- Bytes are sent only if they are UTF-8. -/
def decode (text : List Char) : Option String :=
  String.fromUTF8?
    ⟨(text.map (fun c => c.toNat.toUInt8)).toArray⟩

def sendContent
    (F : FileCalls)
    (text : List Char) : Response :=
  match decode text with
  | none => caught F
  | some content =>
      ⟨200, some (.obj [("success", .bool true),
        ("content", .str content)])⟩

------------------------------------------------------------
-- Handlers
------------------------------------------------------------

section Handlers

variable {ρ : Type} [DecidableEq ρ]
variable
  (locate : String → ρ)
  (F : FileCalls)

/- The place of a text is the task's folder. -/
def write
    (place : ρ)
    (text : List Char)
    (page : RulesPage ρ) : RulesPage ρ :=
  match F.writing with
  | .refused => page
  | .cut kept =>
      { page with
        texts := Function.update page.texts place
          (some (text.take kept)) }
  | .done =>
      { page with
        texts := Function.update page.texts place
          (some text) }

def getIgnore
    (id : String)
    (page : RulesPage ρ) : Response :=
  if !F.calls.authorized then
    unauthorized
  else
    match parseTaskIndex id with
    | .error res => res
    | .ok idx =>
        match page.server.config.tasks[idx]? with
        | none => noTask
        | some task =>
            match existing F
                (page.texts (locate task.syncFolder)) with
            | none => caught F
            | some text => sendContent F text

/- The body is `none` when it is not JSON. -/
def postIgnore
    (id : String)
    (body : Option Json)
    (page : RulesPage ρ) : RulesPage ρ × Response :=
  if !F.calls.authorized then
    (page, unauthorized)
  else
    match parseTaskIndex id with
    | .error res => (page, res)
    | .ok idx =>
        match body.bind (fun json =>
            json.strD "content") with
        | none => (page, caught F)
        | some content =>
            match page.server.config.tasks[idx]? with
            | none => (page, noTask)
            | some task =>
                if F.writing = .refused then
                  (page, failure 500 "无法写入文件")
                else
                  (write F (locate task.syncFolder)
                    (bytes content) page, success)

/- An `int` is made a `size_t`. -/
def maxRulesLength (s : Server) : ℕ :=
  (s.config.webui.maxRulesLength.toInt % 2 ^ 64).toNat

def ended (text : List Char) : List Char :=
  if text.getLast? = some '\n' then
    text
  else
    text ++ ['\n']

def separator : List Char :=
  bytes "\n# --- 以下规则由自然语言生成 ---\n"

/- The new rules come last, with a comment before them. -/
def appended
    (existing rules : List Char) : List Char :=
  if existing = [] then
    ended rules
  else
    ended (ended existing ++ separator ++ rules)

def appendIgnore
    (id : String)
    (body : Option Json)
    (page : RulesPage ρ) : RulesPage ρ × Response :=
  if !F.calls.authorized then
    (page, unauthorized)
  else
    match parseTaskIndex id with
    | .error res => (page, res)
    | .ok idx =>
        match body.bind (fun json => json.strD "rules") with
        | none => (page, caught F)
        | some rules =>
            if rules = "" then
              (page, failure 400 "规则不能为空")
            else if maxRulesLength page.server <
                rules.utf8ByteSize then
              (page, failure 400
                "规则内容过长，最大支持10000字符")
            else
              match page.server.config.tasks[idx]? with
              | none => (page, noTask)
              | some task =>
                  let place := locate task.syncFolder
                  match existing F (page.texts place) with
                  | none => (page, caught F)
                  | some text =>
                      let final :=
                        appended text (bytes rules)
                      if F.writing = .refused then
                        (page,
                          failure 500 "无法写入文件")
                      else
                        (write F place final page,
                          sendContent F final)

inductive RulesRequest
| getIgnore : String → RulesRequest
| postIgnore : String → Option Json → RulesRequest
| appendIgnore : String → Option Json → RulesRequest
| change : Request → RulesRequest

/- A request that changes the tasks leaves their files. -/
def answer
    (page : RulesPage ρ) :
    RulesRequest → RulesPage ρ × Response
| .getIgnore id => (page, getIgnore locate F id page)
| .postIgnore id body => postIgnore locate F id body page
| .appendIgnore id body =>
    appendIgnore locate F id body page
| .change request =>
    let after :=
      WebUIServer.handle F.calls request page.server
    ({ page with server := after.1 }, after.2)

end Handlers

------------------------------------------------------------
-- Edits
------------------------------------------------------------

/- What a request asks to be done to the rules of a task. -/
inductive Edit
| replace : List Char → Edit
| append : List Char → Edit

namespace Edit

def rules : Edit → List UserRule
| .replace text => fileRules text
| .append text => fileRules text

def apply : Edit → List UserRule → List UserRule
| .replace text, _ => fileRules text
| .append text, old => old ++ fileRules text

def isAppend : Edit → Bool
| .replace _ => false
| .append _ => true

/- What is in the file once the edit has been made. -/
def text : Edit → Option (List Char) → List Char
| .replace new, _ => new
| .append new, old => appended (old.getD []) new

end Edit

/- The rules of a file, which need not be there. -/
def rulesOf (text : Option (List Char)) : List UserRule :=
  fileRules (text.getD [])

section Text

/- Each line of a file is a rule or drops out. -/
theorem fileRules_eq_splitOn (text : List Char) :
    fileRules text =
      ((text.splitOn '\n').map readLine).filter
        (fun r => r.text != []) := by
  rw [fileRules, Lines.filter_map_splitOn '\n' rfl]

theorem fileRules_append_line
    (text later : List Char) :
    fileRules (text ++ '\n' :: later) =
      fileRules text ++ fileRules later := by
  rw [fileRules_eq_splitOn, fileRules_eq_splitOn,
    fileRules_eq_splitOn, List.splitOn_append_cons_self,
    List.map_append, List.filter_append]

/- The comment that is put in stands on a line of its own. -/
theorem fileRules_separator_append
    (later : List Char) :
    fileRules (separator ++ later) = fileRules later := by
  have hLines : separator =
      '\n' :: (separator.tail.dropLast ++ ['\n']) := by
    decide +kernel
  have hComment : fileRules separator.tail.dropLast = [] := by
    decide +kernel
  rw [hLines, List.cons_append, List.append_assoc,
    List.singleton_append,
    ← List.nil_append (_ :: _), fileRules_append_line,
    fileRules_append_line, hComment]
  rfl

theorem fileRules_ended (text : List Char) :
    fileRules (ended text) = fileRules text := by
  unfold ended
  split
  · rfl
  · rw [fileRules_append_line]
    exact List.append_nil _

/- Behind an end of line another text is read as it is. -/
theorem fileRules_ended_append
    {text : List Char}
    (hText : text ≠ [])
    (later : List Char) :
    fileRules (ended text ++ later) =
      fileRules text ++ fileRules later := by
  unfold ended
  split
  next hLast =>
    rcases List.getLast?_eq_some_iff.mp hLast with
      ⟨init, rfl⟩
    rw [List.append_assoc, List.singleton_append,
      fileRules_append_line, fileRules_append_line]
    congr 1
    exact (List.append_nil _).symm
  next =>
    rw [List.append_assoc, List.singleton_append,
      fileRules_append_line]

/-
  The rules that are there stay as they are, whatever their
  text ends with, and the new ones are read as if alone.
-/
theorem fileRules_appended
    (existing rules : List Char) :
    fileRules (appended existing rules) =
      fileRules existing ++ fileRules rules := by
  unfold appended
  split
  next hEmpty =>
    rw [hEmpty, fileRules_ended]
    rfl
  next hSome =>
    rw [fileRules_ended, List.append_assoc,
      fileRules_ended_append hSome,
      fileRules_separator_append]

end Text

------------------------------------------------------------
-- What Is Asked For
------------------------------------------------------------

section Asked

variable {ρ : Type} [DecidableEq ρ]
variable
  (locate : String → ρ)

/- Where the rules of a task are, for who may ask. -/
def target
    (F : FileCalls)
    (id : String)
    (page : RulesPage ρ) : Option ρ :=
  if !F.calls.authorized then
    none
  else
    match parseTaskIndex id with
    | .error _ => none
    | .ok idx =>
        page.server.config.tasks[idx]?.map
          (fun task => locate task.syncFolder)

/- What is turned down, or fails before anything is written. -/
def replaces
    (F : FileCalls)
    (body : Option Json) : Option Edit :=
  if F.writing = .refused then
    none
  else
    (body.bind (fun json => json.strD "content")).map
      (fun content => .replace (bytes content))

def appends
    (F : FileCalls)
    (s : Server)
    (body : Option Json) : Option Edit :=
  if F.reading = .throws ∨ F.writing = .refused then
    none
  else
    (body.bind (fun json => json.strD "rules")).bind
      (fun rules =>
        if rules = "" ∨
            maxRulesLength s < rules.utf8ByteSize then
          none
        else
          some (.append (bytes rules)))

/- The edit that a request makes, and where. -/
def asked
    (F : FileCalls)
    (page : RulesPage ρ) : RulesRequest → Option (ρ × Edit)
| .getIgnore _ => none
| .postIgnore id body =>
    (target locate F id page).bind (fun place =>
      (replaces F body).map (fun edit => (place, edit)))
| .appendIgnore id body =>
    (target locate F id page).bind (fun place =>
      (appends F page.server body).map
        (fun edit => (place, edit)))
| .change _ => none

/- The texts once an edit has been made. -/
def made
    (texts : ρ → Option (List Char)) :
    Option (ρ × Edit) → ρ → Option (List Char)
| none => texts
| some (place, edit) =>
    Function.update texts place
      (some (edit.text (texts place)))

/- No text is cut, and none that is there is passed over. -/
def FileCalls.Sound (F : FileCalls) : Prop :=
  (∀ kept, F.writing ≠ .cut kept) ∧ F.reading ≠ .unreadable

def step
    (page : RulesPage ρ)
    (request : FileCalls × RulesRequest) :
    RulesPage ρ × Response :=
  answer locate request.1 page request.2

/- The edits of one file, in the order they are made. -/
def editsAt
    (place : ρ) :
    RulesPage ρ → List (FileCalls × RulesRequest) → List Edit
| _, [] => []
| page, request :: requests =>
    let later := editsAt place (step locate page request).1
      requests
    match asked locate request.1 page request.2 with
    | none => later
    | some (here, edit) =>
        if here = place then edit :: later else later

end Asked

------------------------------------------------------------
-- Runs
------------------------------------------------------------

section Runs

variable {ρ : Type} [DecidableEq ρ]
variable {locate : String → ρ}

/- A text that is written whole. -/
theorem write_texts
    {F : FileCalls}
    (hSound : F.Sound)
    (hWriting : F.writing ≠ .refused)
    (place : ρ)
    (text : List Char)
    (page : RulesPage ρ) :
    (write F place text page).texts =
      Function.update page.texts place (some text) := by
  unfold write
  cases hCase : F.writing with
  | refused => exact absurd hCase hWriting
  | cut kept => exact absurd hCase (hSound.1 kept)
  | done => rfl

/- A text that is there is read, or nothing is done. -/
theorem existing_of_sound
    {F : FileCalls}
    (hSound : F.Sound)
    (hReading : F.reading ≠ .throws)
    (text : Option (List Char)) :
    existing F text = some (text.getD []) := by
  unfold existing
  cases hCase : F.reading with
  | throws => exact absurd hCase hReading
  | unreadable => exact absurd hCase hSound.2
  | done => rfl

theorem postIgnore_texts
    {F : FileCalls}
    (hSound : F.Sound)
    (id : String)
    (body : Option Json)
    (page : RulesPage ρ) :
    (postIgnore locate F id body page).1.texts =
      made page.texts
        (asked locate F page (.postIgnore id body)) := by
  simp only [postIgnore, asked, target, replaces]
  cases F.calls.authorized with
  | false => rfl
  | true =>
      simp only [Bool.not_true, Bool.false_eq_true, if_false]
      cases parseTaskIndex id with
      | error res => rfl
      | ok idx =>
          dsimp only
          cases body.bind (fun json =>
              json.strD "content") with
          | none =>
              simp only [Option.map_none, ite_self,
                Option.bind_fun_none]
              rfl
          | some content =>
              cases page.server.config.tasks[idx]? with
              | none => rfl
              | some task =>
                  by_cases hWriting : F.writing = .refused
                  · simp [hWriting, made]
                  · simp only [hWriting, if_false,
                      Option.map_some, Option.bind_some]
                    exact write_texts hSound hWriting _ _ _

theorem appendIgnore_texts
    {F : FileCalls}
    (hSound : F.Sound)
    (id : String)
    (body : Option Json)
    (page : RulesPage ρ) :
    (appendIgnore locate F id body page).1.texts =
      made page.texts
        (asked locate F page (.appendIgnore id body)) := by
  simp only [appendIgnore, asked, target, appends]
  cases F.calls.authorized with
  | false => rfl
  | true =>
      simp only [Bool.not_true, Bool.false_eq_true, if_false]
      cases parseTaskIndex id with
      | error res => rfl
      | ok idx =>
          dsimp only
          cases body.bind (fun json => json.strD "rules") with
          | none =>
              simp only [Option.bind_none, Option.map_none,
                ite_self, Option.bind_fun_none]
              rfl
          | some rules =>
              simp only [Option.bind_some]
              by_cases hEmpty : rules = ""
              · simp [hEmpty, made]
              by_cases hLong : maxRulesLength page.server <
                  rules.utf8ByteSize
              · simp [hEmpty, hLong, made]
              simp only [hEmpty, hLong, or_self, if_false]
              cases page.server.config.tasks[idx]? with
              | none => rfl
              | some task =>
                  by_cases hReading : F.reading = .throws
                  · simp [existing, hReading, made]
                  · simp only
                      [existing_of_sound hSound hReading]
                    by_cases hWriting : F.writing = .refused
                    · simp [hWriting, made]
                    · simp only [hReading, hWriting,
                        or_self, if_false, Option.map_some,
                        Option.bind_some]
                      exact write_texts hSound hWriting _ _ _

theorem answer_texts
    {F : FileCalls}
    (hSound : F.Sound)
    (page : RulesPage ρ)
    (request : RulesRequest) :
    (answer locate F page request).1.texts =
      made page.texts (asked locate F page request) := by
  cases request with
  | getIgnore id => rfl
  | postIgnore id body =>
      exact postIgnore_texts hSound id body page
  | appendIgnore id body =>
      exact appendIgnore_texts hSound id body page
  | change request => rfl

/- An edit of the text is that edit of the rules. -/
theorem rulesOf_text
    (edit : Edit)
    (text : Option (List Char)) :
    rulesOf (some (edit.text text)) =
      edit.apply (rulesOf text) := by
  cases edit with
  | replace new => rfl
  | append new => exact fileRules_appended _ new

/- What becomes of one file is what its edits make of it. -/
theorem rulesOf_run
    {requests : List (FileCalls × RulesRequest)}
    (hSound : ∀ request ∈ requests, request.1.Sound)
    (place : ρ)
    (page : RulesPage ρ) :
    rulesOf ((Transition.outputs (step locate) page
        requests).1.texts place) =
      (editsAt locate place page requests).foldl
        (fun rules edit => edit.apply rules)
        (rulesOf (page.texts place)) := by
  induction requests generalizing page with
  | nil => rfl
  | cons request requests ih =>
      rw [List.forall_mem_cons] at hSound
      have hTexts : (step locate page request).1.texts =
          made page.texts
            (asked locate request.1 page request.2) :=
        answer_texts hSound.1 page request.2
      simp only [Transition.outputs, editsAt]
      rw [ih hSound.2, hTexts]
      cases asked locate request.1 page request.2 with
      | none => rfl
      | some found =>
          rcases found with ⟨here, edit⟩
          by_cases hHere : here = place
          · subst hHere
            simp only [made, Function.update_self, if_true,
              List.foldl_cons, rulesOf_text]
          · simp only [made, hHere, if_false,
              Function.update_of_ne (Ne.symm hHere)]

end Runs

------------------------------------------------------------
-- What Is Ignored Afterwards
------------------------------------------------------------

section Appended

/- Among the rules of two texts, one of the later decides. -/
theorem lastMatchIgnores_append
    (old added : List UserRule)
    (path : List Char) :
    lastMatchIgnores (old ++ added) path =
      if added.any (fun r => r.matchesPath path) then
        lastMatchIgnores added path
      else
        lastMatchIgnores old path := by
  unfold lastMatchIgnores
  rw [List.filter_append, List.getLast?_append]
  by_cases hAny : added.any (fun r => r.matchesPath path)
  · rcases List.any_eq_true.mp hAny with ⟨r, hMem, hMatch⟩
    have hNe : added.filter (fun r => r.matchesPath path) ≠
        [] :=
      List.ne_nil_of_mem (List.mem_filter.mpr ⟨hMem, hMatch⟩)
    rw [if_pos hAny,
      Option.or_of_isSome (List.getLast?_isSome.mpr hNe)]
  · have hNil : added.filter (fun r => r.matchesPath path) =
        [] := by
      rw [List.filter_eq_nil_iff]
      intro r hMem hMatch
      exact hAny (List.any_eq_true.mpr ⟨r, hMem, hMatch⟩)
    rw [if_neg hAny, hNil]
    rfl

/- Behind a negated rule no shortcut is filled. -/
theorem shortcutHits_append
    (old added : List UserRule)
    (path : List Char) :
    shortcutHits (old ++ added) path =
      (shortcutHits old path ||
        (!old.any UserRule.isNegating &&
          shortcutHits added path)) := by
  induction old with
  | nil => rfl
  | cons r old ih =>
      simp only [shortcutHits, FileFilter.beforeNegation,
        List.cons_append, List.takeWhile_cons,
        List.any_cons] at ih ⊢
      cases r.isNegating with
      | true => rfl
      | false =>
          simp only [Bool.not_false, if_true, List.any_cons,
            Bool.false_or, ih, Bool.or_assoc]

theorem loadRules_eq_rulesOf
    (text : Option (List Char)) :
    loadRules text = loadUserRules (rulesOf text) := by
  cases text with
  | none => rfl
  | some text => exact FileFilter.loadRules_eq_fileRules text

theorem foldl_apply_of_isAppend
    {edits : List Edit}
    (hAppends : ∀ edit ∈ edits, edit.isAppend = true)
    (rules : List UserRule) :
    edits.foldl (fun rules edit => edit.apply rules) rules =
      rules ++ edits.flatMap Edit.rules := by
  induction edits generalizing rules with
  | nil => exact (List.append_nil rules).symm
  | cons edit edits ih =>
      rw [List.forall_mem_cons] at hAppends
      rw [List.foldl_cons, ih hAppends.2, List.flatMap_cons,
        ← List.append_assoc]
      cases edit with
      | replace text => cases hAppends.1
      | append text => rfl

theorem any_matchesPath_or_isNegating
    (rules : List UserRule)
    (path : List Char) :
    rules.any (fun r => r.matchesPath path || r.isNegating) =
      (rules.any (fun r => r.matchesPath path) ||
        rules.any UserRule.isNegating) := by
  induction rules with
  | nil => rfl
  | cons r rules ih =>
      simp only [List.any_cons, ih]
      grind

/-
  Rules that come behind others: one of them that matches
  decides, and otherwise the old ones do, but for shortcuts
  where they neither match nor negate.
-/
theorem shouldIgnore_append
    (old added : List UserRule)
    {path : List Char}
    (hPath : path ≠ [])
    (hDefault : FileFilter.defaults.ignoredByDefault path =
      false) :
    (loadUserRules (old ++ added)).shouldIgnore path =
      if added.any (fun r => r.matchesPath path) then
        lastMatchIgnores added path
      else
        (loadUserRules old).shouldIgnore path ||
          (!old.any (fun r =>
              r.matchesPath path || r.isNegating) &&
            shortcutHits added path) := by
  rw [FileFilter.shouldIgnore_loadUserRules _ hPath hDefault,
    FileFilter.shouldIgnore_loadUserRules _ hPath hDefault,
    List.any_append, lastMatchIgnores_append,
    shortcutHits_append, any_matchesPath_or_isNegating]
  cases added.any (fun r => r.matchesPath path) with
  | true => simp
  | false =>
      -- an old rule that matches leaves no shortcut a say
      cases old.any (fun r => r.matchesPath path) with
      | true => simp
      | false => simp

/-
  Whatever is asked of the page: if the file of a task was
  only appended to, its old rules stay, the added ones come
  behind them, and a path no added rule is about is ignored
  as before, but for the shortcuts of the added rules.
-/
theorem appended_rules_decide
    {ρ : Type}
    [DecidableEq ρ]
    {locate : String → ρ}
    {requests : List (FileCalls × RulesRequest)}
    (hSound : ∀ request ∈ requests, request.1.Sound)
    {place : ρ}
    {page : RulesPage ρ}
    (hAppends : ∀ edit ∈ editsAt locate place page requests,
      edit.isAppend = true) :
    let before := page.texts place
    let after := (Transition.outputs (step locate) page
      requests).1.texts place
    let added := (editsAt locate place page
      requests).flatMap Edit.rules
    rulesOf after = rulesOf before ++ added ∧
      ∀ path, path ≠ [] →
        FileFilter.defaults.ignoredByDefault path = false →
        (loadRules after).shouldIgnore path =
          if added.any (fun r => r.matchesPath path) then
            lastMatchIgnores added path
          else
            (loadRules before).shouldIgnore path ||
              (!(rulesOf before).any (fun r =>
                  r.matchesPath path || r.isNegating) &&
                shortcutHits added path) := by
  intro before after added
  have hRules : rulesOf after = rulesOf before ++ added :=
    (rulesOf_run hSound place page).trans
      (foldl_apply_of_isAppend hAppends _)
  refine ⟨hRules, ?_⟩
  intro path hPath hDefault
  rw [loadRules_eq_rulesOf, loadRules_eq_rulesOf, hRules]
  exact shouldIgnore_append _ _ hPath hDefault

end Appended

def rulesPage : RulesPage String where
  server := WebUIServer.sampleServer
  texts := fun _ => some (bytes "*.log")

def smooth : FileCalls where
  calls := WebUIServer.sampleCalls
  reading := .done
  writing := .done
  what := ""

/- A rule is added, and then one that takes it back. -/
def appendRequests : List (FileCalls × RulesRequest) :=
  [(smooth, .appendIgnore "0"
      (some (.obj [("rules", .str "tmp/\n!tmp/keep.log")]))),
    (smooth, .getIgnore "0"),
    (smooth, .appendIgnore "0"
      (some (.obj [("rules", .str "!debug.log")])))]

theorem appended_rules_decide_debug :
    let after := (Transition.outputs (step id) rulesPage
      appendRequests).1.texts "/home/docs"
    rulesOf after = rulesOf (some (bytes "*.log")) ++
      (editsAt id "/home/docs" rulesPage
        appendRequests).flatMap Edit.rules :=
  (appended_rules_decide
    (by simp [appendRequests, FileCalls.Sound, smooth])
    (by decide +kernel)).1

end RulesPage

end VeritasSync
