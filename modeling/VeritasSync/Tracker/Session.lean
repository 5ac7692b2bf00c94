import VeritasSync.Common.Config
import VeritasSync.Library.Transition
import VeritasSync.Tracker.TrackerServer

/-
  What the sessions of the tracker make of the frames that
  they read, and the tracker as a system of sessions.

  Main declarations:
    * `Session.handleMessage`
    * `Tracker.Event`, `Tracker.step`
-/

namespace VeritasSync

open TrackerServer

/- What a session registers as. -/
structure Registration where
  id : String
  syncKey : String
deriving DecidableEq, Repr

namespace Session

/-
  The key is stored before it is checked, and stays when the
  registration fails after that.
-/
def handleRegister
    (payload : Json)
    (session : SessionRef)
    (t : TrackerServer) : TrackerServer :=
  match payload.strAt? "sync_key" with
  | none => t
  | some syncKey =>
      let keyed := { t with
        sessions := Function.update t.sessions session
          { t.sessions session with syncKey := syncKey } }
      if Config.getSyncKeyValidationError syncKey ≠ "" then
        keyed
      else
        match payload.strAt? "device_id" with
        | none => keyed
        | some deviceId =>
            if deviceId = "" then
              keyed
            else
              let named := { keyed with
                sessions := Function.update keyed.sessions
                  session
                  { keyed.sessions session with
                    id := deviceId } }
              named.join session syncKey

/- The whole message goes to the peer it names. -/
def handleSignal
    (msg payload : Json)
    (t : TrackerServer) : TrackerServer :=
  match payload.strAt? "to" with
  | none => t
  | some toPeerId =>
      if toPeerId = "" then
        t
      else
        t.forward toPeerId msg

/- What is not as expected is logged, and nothing is done. -/
def handleMessage
    (msg : Json)
    (session : SessionRef)
    (t : TrackerServer) : TrackerServer :=
  match msg.strAt? "type", msg.find? "payload" with
  | some type, some payload =>
      if type = "REGISTER" then
        handleRegister payload session t
      else if type = "SIGNAL" then
        handleSignal msg payload t
      else
        t
  | _, _ => t

end Session

namespace Tracker

------------------------------------------------------------
-- Registrations And Signals
------------------------------------------------------------

/- What a payload registers, if it is accepted. -/
def accepted? (payload : Json) : Option Registration :=
  match payload.strAt? "sync_key",
    payload.strAt? "device_id" with
  | some syncKey, some deviceId =>
      if Config.isValidSyncKey syncKey &&
          deviceId != "" then
        some ⟨deviceId, syncKey⟩
      else
        none
  | _, _ => none

/- What a message registers, if it is an accepted one. -/
def registration? (msg : Json) : Option Registration :=
  match msg.strAt? "type", msg.find? "payload" with
  | some type, some payload =>
      if type = "REGISTER" then accepted? payload else none
  | _, _ => none

/- Whom a message is for, if it is a signal. -/
def signalTo? (msg : Json) : Option String :=
  match msg.strAt? "type", msg.find? "payload" with
  | some type, some payload =>
      if type = "SIGNAL" then
        (payload.strAt? "to").filter (fun id => id != "")
      else
        none
  | _, _ => none

/- Who is registered, and has not left or been replaced. -/
abbrev Roster := SessionRef → Option Registration

namespace Roster

/- Whoever had the id before is replaced. -/
def register
    (roster : Roster)
    (session : SessionRef)
    (own : Registration) : Roster :=
  fun other =>
    if other = session then
      some own
    else
      (roster other).filter (fun reg => reg.id != own.id)

def leave
    (roster : Roster)
    (session : SessionRef) : Roster :=
  Function.update roster session none

end Roster

------------------------------------------------------------
-- The System
------------------------------------------------------------

/-
  A frame has a message when its body can be parsed.  An
  ended connection is one that a read failed on.
-/
inductive Event where
| accept : SessionRef → Event
| frame : SessionRef → Option Json → Event
| ended : SessionRef → Event

/- `roster` is kept for the statements only. -/
structure System where
  server : TrackerServer
  roster : Roster

def start : System where
  server := .start
  roster := fun _ => none

def setPhase
    (session : SessionRef)
    (phase : Phase)
    (t : TrackerServer) : TrackerServer :=
  { t with
    sessions := Function.update t.sessions session
      { t.sessions session with phase := phase } }

def acceptStep
    (session : SessionRef)
    (sys : System) : Option System :=
  if (sys.server.sessions session).phase = .unaccepted then
    some { sys with
      server := setPhase session .reading sys.server }
  else
    none

def frameStep
    (session : SessionRef)
    (body : Option Json)
    (sys : System) : Option System :=
  if (sys.server.sessions session).phase = .reading then
    match body with
    | none => some sys
    | some msg => some
        { server := Session.handleMessage msg session
            sys.server
          roster :=
            match registration? msg with
            | some own => sys.roster.register session own
            | none => sys.roster }
  else
    none

def endStep
    (session : SessionRef)
    (sys : System) : Option System :=
  if (sys.server.sessions session).phase = .reading then
    some
      { server := setPhase session .ended
          (sys.server.leave session)
        roster := sys.roster.leave session }
  else
    none

def step
    (sys : System) : Event → Option System
| .accept session => acceptStep session sys
| .frame session body => frameStep session body sys
| .ended session => endStep session sys

end Tracker

end VeritasSync
