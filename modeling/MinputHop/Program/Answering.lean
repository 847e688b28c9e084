import MinputHop.Program.Handling
import MinputHop.Program.Replies

/-!
# What is sent in all runs

A message box in the middle of an iteration may lose packets, or hand one on twice, but
it tears no reply apart: on every connection of every run, with Saves and quits at any
moment, what is sent decodes into the answers to the packets handed on there.
-/

namespace MinputHop

open Framing

section Answered

variable {host : Host} {start s s' : Sys} {calls : List Event}

/-- A call that is no packet and no output leaves the answers of all connections alone. -/
theorem answered_trackConn {e : Event} {conns : List Conn} (noPacket : e.packet? = none)
    (noOutput : e.output? = none) (answered : ∀ conn ∈ conns, Answered host conn) :
    ∀ conn ∈ trackConn conns e, Answered host conn := by
  -- Only the newest connection changes, and not in its packets or in what is sent.
  have newest : ∀ change : Conn → Conn, (∀ conn, Answered host conn → Answered host (change conn)) →
      ∀ conn ∈ conns.modifyHead change, Answered host conn := by
    intro change keeps
    cases conns with
    | nil => exact List.forall_mem_nil _
    | cons conn older =>
        rw [List.forall_mem_cons] at answered
        rw [List.modifyHead_cons, List.forall_mem_cons]
        exact ⟨keeps conn answered.1, answered.2⟩
  cases e with
  | connect time fd addr port ret =>
      rw [trackConn]
      split
      · rw [List.forall_mem_cons]
        exact ⟨⟨[], .nil, List.forall_mem_nil _, rfl⟩, answered⟩
      · exact answered
  | recv time fd result =>
      cases result with
      | none => exact answered
      | some bytes => exact newest _ fun _ => id
  | memcpy | close | invalidate => exact newest _ fun _ => id
  | dispatch => cases noPacket
  | send => cases noOutput
  | _ => exact answered

theorem answered_calls {conns : List Conn} (noPacket : calls.filterMap Event.packet? = [])
    (noOutput : calls.filterMap Event.output? = []) (answered : ∀ conn ∈ conns, Answered host conn) :
    ∀ conn ∈ calls.foldl trackConn conns, Answered host conn := by
  induction calls generalizing conns with
  | nil => exact answered
  | cons e calls ih =>
      rw [List.filterMap_eq_nil_iff, List.forall_mem_cons, ← List.filterMap_eq_nil_iff]
        at noPacket noOutput
      exact ih noPacket.2 noOutput.2 (answered_trackConn noPacket.1 noOutput.1 answered)

/-- Without a connection nothing is kept of a packet. -/
theorem trackConn_packet_nil (time : Nat) (pktBuf : Nat → UInt8) (pktBufSz : UInt32) (sockfd : Int)
    (outputs : List Output) :
    (Event.dispatch time pktBuf pktBufSz :: outputs.map (Output.event sockfd)).foldl trackConn [] =
      [] := by
  rw [List.foldl_cons]
  induction outputs with
  | nil => rfl
  | cons output outputs ih => cases output <;> exact ih

/-- A packet is handed on together with its answer, whatever is done around it. -/
theorem Works.answered (works : Works host start s)
    (initial : ∀ conn ∈ start.connections, Answered host conn) :
    ∀ conn ∈ s.connections, Answered host conn := by
  induction works with
  | start => exact initial
  | called _ calls_eq _ noPacket noOutput ih =>
      rw [Sys.connections_of_calls calls_eq]
      exact answered_calls noPacket noOutput ih
  | @handedOn s s' time pktBuf pktBufSz sockfd _ calls_eq _ ih =>
      cases current : s.connections with
      | nil =>
          rw [Sys.connections_of_calls calls_eq, current, trackConn_packet_nil]
          exact List.forall_mem_nil _
      | cons conn older =>
          rw [current, List.forall_mem_cons] at ih
          rw [connections_handedOn calls_eq current, List.forall_mem_cons]
          exact ⟨ih.1.take s.config (s.mouseX, s.mouseY) pktBuf pktBufSz, ih.2⟩

end Answered

/-- In every run everything sent on a connection decodes completely, into one answer for
each packet handed on there, in the same order. -/
theorem Met.sent_decodes {platform : Platform} {host : Host} {serverAddr clientName : Vector UInt8 64}
    {serverPort : Int} {s : Sys}
    (met : Met platform host (minputMainSetup serverAddr clientName serverPort) s) {conn : Conn}
    (member : conn ∈ s.connections) :
    ∃ groups : List (List (List UInt8)),
      List.Forall₂ (fun packet payloads => AnswersWith host packet.1 payloads)
        conn.packets groups ∧
      wireCode.decode conn.sent = some (groups.flatten.map lengthPrefixed) := by
  obtain ⟨groups, answers, short, sent⟩ :=
    met.works.answered (List.forall_mem_nil _) conn member
  refine ⟨groups, answers, ?_⟩
  rw [sent]
  apply Code.decode_flatten
  intro frame framed
  obtain ⟨payload, among, rfl⟩ := List.mem_map.mp framed
  exact isFrame_lengthPrefixed (short payload among)

/-- A greeting, a packet that opens a message box, and a keepalive behind it. -/
def greetingChunk : Chunk :=
  ⟨lengthPrefixed (ascii "Barrier" ++ [0, 1, 0, 6]) ++ shortClipboard.bytes ++
    lengthPrefixed (ascii "CALV"), by decide, by decide⟩

/-- The timer fires behind the message box, and the box of the nested iteration is closed. -/
def greetingActs : List LoopAct :=
  .getMessage (.timer (receives greetingChunk) 1 Int.one_pos) ::
    ([.proceed true, .proceed true, .proceed true, .proceed true, .timer receivesNothing,
      .proceed true, .proceed true, .proceed true, .close, .proceed true]).map LoopAct.dispatch

/-- The packet behind the greeting is handed on twice, and the keepalive is answered while
its box is still open. -/
theorem Met.sent_decodes_desk : ∃ s conn, Met .win32 win32Host defaultSetup s ∧
    conn ∈ s.connections ∧ conn.packets.length = 4 ∧
    ∃ groups : List (List (List UInt8)),
      List.Forall₂ (fun packet payloads => AnswersWith win32Host packet.1 payloads)
        conn.packets groups ∧
      wireCode.decode conn.sent = some (groups.flatten.map lengthPrefixed) := by
  have ran : (ActionSystem.run (MessageLoop.act .win32 win32Host)
      (fun action _ => action.allocates) greetingActs (.start defaultSetup true)).map
        (·.thread.sys.connections.map (·.packets.length)) = some [4] := by
    decide +kernel
  obtain ⟨loop, ran, counted⟩ := Option.map_eq_some_iff.mp ran
  obtain ⟨conn, only, four⟩ := List.map_eq_singleton_iff.mp counted
  have member : conn ∈ loop.thread.sys.connections := by
    rw [only]
    exact List.mem_singleton_self conn
  have reach : MessageLoop.Reach .win32 win32Host allocates (.start defaultSetup true) loop :=
    .of_run (fun _ _ admitted => admitted) .start ran
  have met : Met .win32 win32Host defaultSetup loop.thread.sys :=
    .loop (reach.mono fun _ _ _ => trivial)
  exact ⟨_, conn, met, member, four, Met.sent_decodes met member⟩

end MinputHop
