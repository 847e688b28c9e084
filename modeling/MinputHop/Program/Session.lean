import MinputHop.Library.ActionSystem
import MinputHop.Program.Arguments

/-!
# The whole process

`minput_main` from its start to its end: the loop iterations, the Save button
and the ways to quit that the Windows build has, and the clean-up.  A message is
handled here before the next one is looked at.
-/

namespace MinputHop

open FlatMemory

/-! ## `osio_win.c` -/

/-- `GetWindowText( h, buffer, size )`, with `buffer` full of zeros. -/
def getWindowText (size : Nat) (field : Text) : Text :=
  ⟨field.bytes.take (size - 1), fun member => field.noNul (List.mem_of_mem_take member)⟩

/-- The texts of the edit fields. -/
structure Fields where
  clientName : Text
  serverAddr : Text
  serverPort : Text

/-- `osio_win_save_fields`; `none` is the undefined behaviour of `atoi()`. -/
def osioWinSaveFields (platform : Platform) (host : Host) (fields : Fields) (input : IterInput)
    (s : Sys) : Option Sys :=
  let s := netioDisconnect s
  let s := { s with config.clientName := strncpy 64 (getWindowText 64 fields.clientName) }
  let s := osioPrintf .debug "set client name to: %s" [.str (cString s.config.clientNameMem)] s
  let s := { s with config.serverAddr := strncpy 64 (getWindowText 64 fields.serverAddr) }
  let s := osioPrintf .debug "set server address to: %s" [.str (cString s.config.serverAddrMem)] s
  (atoi? platform (getWindowText 64 fields.serverPort)).map fun port =>
    let s := { s with config.serverPort := port }
    let s := osioPrintf .debug "set server port to: %u" [.num s.config.serverPort] s
    (netioConnect host input s).2

/-- `osio_win_quit`; that it also clears `g_running` is seen in the place where
control goes. -/
def osioWinQuit (fromUi : Bool) (s : Sys) : Sys :=
  let s := osioPrintf .debug "quit command received%s"
    [.str (if fromUi then ascii " from UI..." else [])] s
  if s.config.socketFd ≠ 0 then netioDisconnect s else s

/-- `osio_loop` on Windows behind its loop. -/
def leaveMessageLoop (s : Sys) : Sys := osioPrintf .info "leaving message loop..." [] s

/-- `osio_loop` on Windows where `WM_QUIT` comes although nobody quit. -/
def unaskedQuit (s : Sys) : Sys :=
  leaveMessageLoop (osioPrintf .debug "found quit message while still running!" [] s)

/-! ## `minput_main` behind the loop -/

def minputMainCleanup (s : Sys) : Sys :=
  if 0 < s.config.socketFd then netioDisconnect s else s

/-- Where control is in `minput_main`. -/
inductive Place where
  /-- Between two iterations; on Windows, in the message loop. -/
  | idle
  | inside (input : IterInput) (stage : Stage)
  /-- Behind the loop, or where an error jumped to. -/
  | leaving
  | finished

/-- The process, and what the user gave as the name last. -/
structure Session where
  place : Place
  sys : Sys
  name : Text

/-- What the process does next. -/
inductive Act where
  /-- The loop goes round, or the timer fires. -/
  | iterate (input : IterInput)
  /-- The iteration goes on by one stage, or ends. -/
  | proceed
  /-- The Save button, with the answers that the system gives to it. -/
  | save (fields : Fields) (input : IterInput)
  /-- The user quits. -/
  | quit
  /-- The message loop ends with a `WM_QUIT` that nobody asked for. -/
  | stop
  | cleanup

def Session.act (platform : Platform) (host : Host) : Act → Session → Option Session
  | .iterate input, ⟨.idle, s, name⟩ => some ⟨.inside input .connect, s, name⟩
  | .proceed, ⟨.inside input stage, s, name⟩ =>
      match stage with
      | .returned retval =>
          if retval = 0 then some ⟨.idle, s, name⟩
          else if platform = .unix then some ⟨.leaving, s, name⟩
          else some ⟨.leaving, leaveMessageLoop (osioWinQuit false s), name⟩
      | stage =>
          let (stage, s) := stageStep host input stage s
          some ⟨.inside input stage, s, name⟩
  | .save fields input, ⟨.idle, s, _⟩ =>
      if platform = .unix then none
      else (osioWinSaveFields platform host fields input s).map fun s =>
        ⟨.idle, s, fields.clientName⟩
  | .quit, ⟨.idle, s, name⟩ =>
      if platform = .unix then none
      else some ⟨.leaving, leaveMessageLoop (osioWinQuit true s), name⟩
  | .stop, ⟨.idle, s, name⟩ =>
      if platform = .unix then none else some ⟨.leaving, unaskedQuit s, name⟩
  | .cleanup, ⟨.leaving, s, name⟩ => some ⟨.finished, minputMainCleanup s, name⟩
  | _, _ => none

/-- The states met in the runs of the process all of whose actions are admitted. -/
abbrev Session.Reach (platform : Platform) (host : Host) :=
  ActionSystem.Reach (Session.act platform host)

/-- A side condition that admits every action. -/
def anyAct (_ : Act) (_ : Session) : Prop := True

/-- Where `minput_main` is when it has come to the loop, or to an error.  What an
error leaves of the packet buffer is only freed. -/
def Session.launch (input : StartInput) (config : NetioCfg) (name : Text) : Session :=
  match (minputMain input config).2 with
  | .ok s => ⟨.idle, s, name⟩
  | .error _ =>
      ⟨.leaving, { config := config, mouseX := 0, mouseY := 0, ticks := 0, trace := [] }, name⟩

/-- It comes to one of two places, with what the configuration says about the
connection. -/
theorem Session.launch_cases (input : StartInput) (config : NetioCfg) (name : Text) :
    ∃ place config', Session.launch input config name = ⟨place, ⟨config', 0, 0, 0, []⟩, name⟩ ∧
      (place = .idle ∨ place = .leaving) ∧ SameTarget config config' ∧
      config'.socketFd = config.socketFd := by
  have general : ∀ started, (minputMain input config).2 = started →
      (∃ error, started = .error error) ∨
        ∃ config', started = .ok ⟨config', 0, 0, 0, []⟩ ∧ SameTarget config config' ∧
          config'.socketFd = config.socketFd := by
    rintro _ rfl
    rw [minputMain]
    split_ifs
    · exact .inl ⟨_, rfl⟩
    · exact .inl ⟨_, rfl⟩
    · exact .inl ⟨_, rfl⟩
    · exact .inr ⟨_, rfl, ⟨rfl, rfl, rfl⟩, rfl⟩
    · exact .inl ⟨_, rfl⟩
  rw [Session.launch]
  rcases general _ rfl with ⟨error, failed⟩ | ⟨config', started, same, socketFd_eq⟩
  · rw [failed]
    exact ⟨.leaving, config, rfl, .inr rfl, ⟨rfl, rfl, rfl⟩, rfl⟩
  · rw [started]
    exact ⟨.idle, config', rfl, .inl rfl, same, socketFd_eq⟩

/-! ## What each action can do -/

/-- Every way the process can go. -/
inductive Session.Moves (platform : Platform) (host : Host) : Act → Session → Session → Prop where
  | iterated {s : Sys} {name : Text} (input : IterInput) :
      Moves platform host (.iterate input) ⟨.idle, s, name⟩ ⟨.inside input .connect, s, name⟩
  | staged {input : IterInput} {stage : Stage} {s : Sys} {name : Text}
      (running : ∀ retval, stage ≠ .returned retval) :
      Moves platform host .proceed ⟨.inside input stage, s, name⟩
        ⟨.inside input (stageStep host input stage s).1, (stageStep host input stage s).2, name⟩
  | again {input : IterInput} {s : Sys} {name : Text} :
      Moves platform host .proceed ⟨.inside input (.returned 0), s, name⟩ ⟨.idle, s, name⟩
  | broke {input : IterInput} {retval : Int} {s s' : Sys} {name : Text} (error : retval ≠ 0)
      (left : s' = if platform = .unix then s else leaveMessageLoop (osioWinQuit false s)) :
      Moves platform host .proceed ⟨.inside input (.returned retval), s, name⟩
        ⟨.leaving, s', name⟩
  | saved {fields : Fields} {input : IterInput} {s s' : Sys} {name : Text}
      (windows : platform ≠ .unix)
      (saved : osioWinSaveFields platform host fields input s = some s') :
      Moves platform host (.save fields input) ⟨.idle, s, name⟩ ⟨.idle, s', fields.clientName⟩
  | quitted {s : Sys} {name : Text} (windows : platform ≠ .unix) :
      Moves platform host .quit ⟨.idle, s, name⟩
        ⟨.leaving, leaveMessageLoop (osioWinQuit true s), name⟩
  | stopped {s : Sys} {name : Text} (windows : platform ≠ .unix) :
      Moves platform host .stop ⟨.idle, s, name⟩ ⟨.leaving, unaskedQuit s, name⟩
  | cleaned {s : Sys} {name : Text} :
      Moves platform host .cleanup ⟨.leaving, s, name⟩ ⟨.finished, minputMainCleanup s, name⟩

section Moves

variable {platform : Platform} {host : Host} {s s' : Sys}

theorem Session.act_moves {action : Act} {session next : Session}
    (taken : session.act platform host action = some next) :
    Moves platform host action session next := by
  obtain ⟨place, s, name⟩ := session
  cases action with
  | iterate input =>
      cases place with
      | idle => exact Option.some.inj taken ▸ .iterated input
      | inside | leaving | finished => cases taken
  | proceed =>
      cases place with
      | idle | leaving | finished => cases taken
      | inside input stage =>
          cases stage with
          | connect | fetch | process | keepalive =>
              exact Option.some.inj taken ▸ .staged nofun
          | returned retval =>
              by_cases ok : retval = 0
              · subst ok
                exact Option.some.inj taken ▸ .again
              · rw [act, if_neg ok] at taken
                split at taken
                · next unix => exact Option.some.inj taken ▸ .broke ok (if_pos unix).symm
                · next windows => exact Option.some.inj taken ▸ .broke ok (if_neg windows).symm
  | save fields input =>
      cases place with
      | inside | leaving | finished => cases taken
      | idle =>
          rw [act] at taken
          split at taken
          · cases taken
          · next windows =>
              obtain ⟨s', saved, rfl⟩ := Option.map_eq_some_iff.mp taken
              exact .saved windows saved
  | quit =>
      cases place with
      | inside | leaving | finished => cases taken
      | idle =>
          rw [act] at taken
          split at taken
          · cases taken
          · next windows => exact Option.some.inj taken ▸ .quitted windows
  | stop =>
      cases place with
      | inside | leaving | finished => cases taken
      | idle =>
          rw [act] at taken
          split at taken
          · cases taken
          · next windows => exact Option.some.inj taken ▸ .stopped windows
  | cleanup =>
      cases place with
      | idle | inside | finished => cases taken
      | leaving => exact Option.some.inj taken ▸ .cleaned

/-- To quit is to disconnect, if there is a descriptor that is not 0. -/
theorem osioWinQuit_cases (fromUi : Bool) (s : Sys) :
    (s.config.socketFd ≠ 0 ∧
      Follows s (osioWinQuit fromUi s) { s.config with socketFd := 0, pktBufSz := 0 } 0
        [.close s.config.socketFd]) ∨
    (s.config.socketFd = 0 ∧ Follows s (osioWinQuit fromUi s) s.config 0 []) := by
  by_cases up : s.config.socketFd ≠ 0
  · refine .inl ⟨up, ?_⟩
    rw [osioWinQuit, if_pos (by exact up)]
    exact (Follows.refl s).log.disconnect
  · refine .inr ⟨not_not.mp up, ?_⟩
    rw [osioWinQuit, if_neg (by exact up)]
    exact (Follows.refl s).log

/-- The lines at the end of the loop run nothing else. -/
theorem follows_leaveMessageLoop (s : Sys) : Follows s (leaveMessageLoop s) s.config 0 [] :=
  (Follows.refl s).log

theorem follows_unaskedQuit (s : Sys) : Follows s (unaskedQuit s) s.config 0 [] :=
  (Follows.refl s).log.log

theorem minputMainCleanup_cases (s : Sys) :
    (0 < s.config.socketFd ∧
      Follows s (minputMainCleanup s) { s.config with socketFd := 0, pktBufSz := 0 } 0
        [.close s.config.socketFd]) ∨
    (¬0 < s.config.socketFd ∧ minputMainCleanup s = s) := by
  by_cases up : 0 < s.config.socketFd
  · refine .inl ⟨up, ?_⟩
    rw [minputMainCleanup, if_pos up]
    exact (Follows.refl s).disconnect
  · exact .inr ⟨up, by rw [minputMainCleanup, if_neg up]⟩

/-- The configuration that the fields are saved into. -/
def savedConfig (config : NetioCfg) (fields : Fields) (port : Int) : NetioCfg :=
  { config with
    clientName := strncpy 64 (getWindowText 64 fields.clientName)
    serverAddr := strncpy 64 (getWindowText 64 fields.serverAddr)
    serverPort := port
    socketFd := 0
    pktBufSz := 0 }

/-- To save is to disconnect in any case, to save, and to connect. -/
theorem osioWinSaveFields_cases {fields : Fields} {input : IterInput}
    (saved : osioWinSaveFields platform host fields input s = some s') :
    ∃ port mid, Follows s mid (savedConfig s.config fields port) 0 [.close s.config.socketFd] ∧
      s' = (netioConnect host input mid).2 := by
  obtain ⟨port, _, rfl⟩ := Option.map_eq_some_iff.mp saved
  exact ⟨port, _, (Follows.refl s).disconnect.set.log.set.log.set.log, rfl⟩

end Moves

end MinputHop
