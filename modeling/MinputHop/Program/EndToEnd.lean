import MinputHop.Program.Desktop
import MinputHop.Program.TimerRuns

/-!
# From the server to the desktop

The server writes frames on one connection after another.  However they are cut into
pieces, delayed, or lost with a connection, the desktop of the client is what the frames
say that came through: a front part of every stream, the streams in their order.
-/

namespace MinputHop

open FlatMemory

/-- What frames say about the desktop. -/
def Desktop.ofFrames (platform : Platform) (host : Host) (left : Nat → UInt8)
    (frames : List (List UInt8)) : Desktop where
  held := Registers.store (fun _ => false) (frames.filterMap strokeOf?)
  button := Registers.store (fun _ => false) (frames.filterMap clickOf?)
  pointer := (Registers.last? moveOf? frames).map fun (x, y) =>
    (platform.intOf x, platform.intOf y)
  clipboard := (Registers.last? clipOf? frames).map fun buffer => cString (clipMem host left buffer)

section Streams

variable {platform : Platform} {host : Host}

/-- The calls that are made for some frames bring about what they say. -/
theorem desktop_inputReading (windows : platform ≠ .unix) (left : Nat → UInt8)
    (frames : List (List UInt8)) :
    desktop platform host left (inputReading frames) = .ofFrames platform host left frames := by
  have held : (desktop platform host left (inputReading frames)).held =
      (Desktop.ofFrames platform host left frames).held := by
    rw [held_desktop windows, strokes_inputReading, Desktop.ofFrames]
  have button : (desktop platform host left (inputReading frames)).button =
      (Desktop.ofFrames platform host left frames).button := by
    rw [button_desktop windows, clicks_inputReading, Desktop.ofFrames]
  have pointer : (desktop platform host left (inputReading frames)).pointer =
      (Desktop.ofFrames platform host left frames).pointer := by
    rw [pointer_desktop windows, Registers.last?, moves_inputReading, ← Registers.last?,
      Desktop.ofFrames]
  have clipboard : (desktop platform host left (inputReading frames)).clipboard =
      (Desktop.ofFrames platform host left frames).clipboard := by
    rw [clipboard_desktop windows, Registers.last?, clips_inputReading, ← Registers.last?,
      Desktop.ofFrames]
  exact Desktop.ext pointer button held clipboard

/-- The name and the screen are only in replies. -/
theorem filter_reading (screenW screenH : UInt16) (name : List UInt8) (frames : List (List UInt8)) :
    (reading screenW screenH name frames).filter Output.isInput = inputReading frames := by
  have each : ∀ frames before, ((reader screenW screenH name).run before frames).filter
      Output.isInput = inputReader.run before frames := by
    intro frames
    induction frames with
    | nil => exact fun before => rfl
    | cons frame frames ih =>
        intro before
        rw [Transducer.run, Transducer.run, List.filter_append, ih]
        exact congrArg (· ++ _) (filter_readFrame screenW screenH name before frame)
  rw [reading, inputReading, reading, ← inputReader_run]
  exact each frames []

/-- What a connection carried is the start of a stream of these frames. -/
structure CarriedBy (conn : Conn) (frames : List (List UInt8)) : Prop where
  received : conn.received <+: frames.flatten
  wire : ∀ frame ∈ frames, WireFrame frame
  long : ∀ frame ∈ frames, LongEnough frame

/-- The frames handed on, on all connections, the oldest first. -/
def Sys.fronts (s : Sys) : List (List (List UInt8)) := s.connections.reverse.map Conn.dispatched

theorem carries_packetsOf {conns : List Conn}
    (long : ∀ conn ∈ conns, ∀ frame ∈ conn.dispatched, LongEnough frame) :
    List.Forall₂ Carries (packetsOf conns) (conns.reverse.map Conn.dispatched).flatten := by
  have whole : (conns.reverse.map Conn.dispatched).flatten =
      (packetsOf conns).map fun packet => window packet.1 0 packet.2.toNat := by
    rw [packetsOf, List.map_flatMap, ← List.flatMap_def]
    rfl
  rw [whole, List.forall₂_map_right_iff, List.forall₂_same]
  intro packet member
  obtain ⟨conn, among, handed⟩ := List.mem_flatMap.mp member
  exact ⟨rfl, long conn (List.mem_reverse.mp among) _ (List.mem_map_of_mem handed)⟩

/-- The frames that were handed on are a front part of every stream, and the desktop is
what they say. -/
theorem Reach.fronts_of_streams (windows : platform ≠ .unix) (wide : 32 ≤ host.sizeTBits)
    {serverAddr clientName : Vector UInt8 64} {serverPort : Int} {input : IterInput} {stage : Stage}
    {s : Sys} {streams : List (List (List UInt8))} (terminated : Terminated clientName)
    (reach : Reach host inRange (minputMainSetup serverAddr clientName serverPort) input stage s)
    (carried : List.Forall₂ CarriedBy s.connections.reverse streams) (left : Nat → UInt8) :
    List.Forall₂ (· <+: ·) s.fronts streams ∧
      desktop platform host left s.inputs = .ofFrames platform host left s.fronts.flatten := by
  have inv := Reach.reassembled (fetchesFit_of_inRange wide) reach
  have kept : ∀ conn ∈ s.connections.reverse, ∃ pending, Keeps conn pending :=
    fun conn member => inv.ledger.past conn (List.mem_reverse.mp member)
  have front : List.Forall₂ (fun conn frames => conn.dispatched <+: frames ∧
      ∀ frame ∈ frames, LongEnough frame) s.connections.reverse streams := by
    refine List.Forall₂.imp ?_ ((List.forall₂_and_left _ _).mpr ⟨kept, carried⟩)
    rintro conn frames ⟨⟨pending, keeps⟩, carries⟩
    exact ⟨keeps.faithful frames carries.wire (keeps.arrived.trans carries.received), carries.long⟩
  have fronts : List.Forall₂ (· <+: ·) s.fronts streams := by
    rw [Sys.fronts, List.forall₂_map_left_iff]
    exact front.imp fun conn frames both => both.1
  have readable : List.Forall₂ (fun conn frames => (∀ frame ∈ conn.dispatched, LongEnough frame) ∧
      conn.dispatched <+: frames) s.connections.reverse streams :=
    front.imp fun conn frames both =>
      ⟨fun frame member => both.2 frame (both.1.subset member), both.1⟩
  have long := ((List.forall₂_and_left _ _).mp readable).1
  have start : ((0, 0) : UInt16 × UInt16) = mouseAt [] := rfl
  have outputs : s.outputs = reading host.screenW host.screenH (clientNameOf clientName)
      s.fronts.flatten := by
    rw [(Reach.replayed terminated reach).outputs_eq]
    exact (dispatcher_simulates host wide clientName.toList).run start
      (carries_packetsOf fun conn member => long conn (List.mem_reverse.mpr member))
  refine ⟨fronts, ?_⟩
  rw [Sys.inputs, outputs, filter_reading]
  exact desktop_inputReading windows left _

/-- Whatever the network did, a front part of every stream came through, in order, and
the desktop is what these front parts say: nothing of it was made up, left out or done
twice.  Behind an iteration this is a state of the message loop of Windows, in which each
message box was closed at once and `GlobalAlloc()` gave memory. -/
theorem Reach.desktop_of_streams (windows : platform ≠ .unix) (wide : 32 ≤ host.sizeTBits)
    {serverAddr clientName : Vector UInt8 64} {serverPort : Int} {input : IterInput} {stage : Stage}
    {s : Sys} {streams : List (List (List UInt8))} (terminated : Terminated clientName)
    (reach : Reach host inRange (minputMainSetup serverAddr clientName serverPort) input stage s)
    (carried : List.Forall₂ CarriedBy s.connections.reverse streams) (left : Nat → UInt8) :
    List.Forall₂ (· <+: ·) s.fronts streams ∧
      desktop platform host left s.inputs = .ofFrames platform host left s.fronts.flatten ∧
      (stage = .returned 0 → MessageLoop.Reach platform host undisturbed
        (.start (minputMainSetup serverAddr clientName serverPort) true) (.idle s)) := by
  obtain ⟨fronts, shown⟩ := Reach.fronts_of_streams windows wide terminated reach carried left
  refine ⟨fronts, shown, fun returned => ?_⟩
  subst returned
  exact Reach.on_windows reach

end Streams

/-! ### A stream that is cut in the middle of a frame -/

/-- A move and a click, of which four bytes come later. -/
def clickFrames : List (List UInt8) :=
  [lengthPrefixed (ascii "DMMV" ++ [0, 3, 0, 4]), lengthPrefixed (ascii "DMDN" ++ [1])]

def firstPart : IterInput := receives ⟨clickFrames.flatten.take 17, by decide, by decide⟩

def secondPart : IterInput := receives ⟨clickFrames.flatten.drop 17, by decide, by decide⟩

def afterFirstPart : Stage × Sys := (mainLoop unixHost).steps firstPart 13 (.connect, defaultSetup)

def afterClick : Stage × Sys :=
  (mainLoop unixHost).steps secondPart 4 (.connect, afterFirstPart.2)

theorem reach_afterFirstPart : Reach unixHost inRange defaultSetup firstPart (.returned 0)
    afterFirstPart.2 :=
  Reach.after_steps (.first firstPart) 13 (by decide +kernel) (by decide +kernel)

theorem reach_afterClick : Reach unixHost inRange defaultSetup secondPart (.returned 0)
    afterClick.2 :=
  Reach.after_steps (.next secondPart reach_afterFirstPart) 4 (by decide +kernel)
    (by decide +kernel)

theorem Reach.desktop_of_streams_click :
    List.Forall₂ (· <+: ·) afterClick.2.fronts [clickFrames] ∧
      desktop .win32 unixHost (fun _ => 0) afterClick.2.inputs =
        .ofFrames .win32 unixHost (fun _ => 0) afterClick.2.fronts.flatten ∧
      (Stage.returned 0 = .returned 0 → MessageLoop.Reach .win32 unixHost undisturbed
        (.start defaultSetup true) (.idle afterClick.2)) := by
  have received : afterClick.2.connections.map Conn.received = [clickFrames.flatten] := by
    decide +kernel
  obtain ⟨conn, only, carried⟩ := List.map_eq_singleton_iff.mp received
  have well : (∀ frame ∈ clickFrames, WireFrame frame) ∧ ∀ frame ∈ clickFrames, LongEnough frame := by
    decide +kernel
  refine Reach.desktop_of_streams (by decide) (by decide) terminated_defaultName reach_afterClick ?_ _
  rw [only]
  exact .cons ⟨carried ▸ List.prefix_refl _, well.1, well.2⟩ .nil

end MinputHop
