import MinputHop.Library.Registers
import MinputHop.Program.Handling
import MinputHop.Program.OsioWin

/-!
# What the user of the desktop sees

The desktop is a reading of the calls into Windows that the client makes; what Windows
does with them is not part of the program.  It has a pointer, two mouse buttons, a
keyboard and a clipboard, each of them a register that the calls write.  So in every
run, at any moment, each shows what the latest frame about it asked for.
-/

namespace MinputHop

open FlatMemory

/-! ## The desktop -/

inductive MouseButton where
  | left
  | right
  deriving DecidableEq

@[ext] structure Desktop where
  /-- Where `SetCursorPos()` put the pointer. -/
  pointer : Option (Int × Int)
  button : MouseButton → Bool
  /-- The virtual keys that are down. -/
  held : UInt8 → Bool
  clipboard : Option (List UInt8)

namespace Desktop

/-- Nothing was called yet. -/
def initial : Desktop := ⟨none, fun _ => false, fun _ => false, none⟩

/-- The flags of a mouse event that say that a button goes down or up. -/
def buttonFlag? (flags : UInt32) : Option (MouseButton × Bool) :=
  if flags = mouseeventfLeftdown then some (.left, true)
  else if flags = mouseeventfLeftup then some (.left, false)
  else if flags = mouseeventfRightdown then some (.right, true)
  else if flags = mouseeventfRightup then some (.right, false)
  else none

def click (d : Desktop) (flags : UInt32) : Desktop :=
  { d with button := Registers.store d.button (buttonFlag? flags).toList }

/-- How a call is read.  In the registers a key is in `AL`, and the highest bit of `AH`
says that it goes up. -/
def call (d : Desktop) : DesktopCall → Desktop
  | .setCursorPos x y => { d with pointer := some (x, y) }
  | .mouseEvent flags _ _ _ _ => d.click flags
  | .mouseEventProc ax _ _ _ _ _ => d.click ax.toUInt32
  | .keybdEvent vk _ flags _ =>
      { d with held := Function.update d.held vk (flags &&& keyeventfKeyup = 0) }
  | .keybdEventProc ax _ _ _ =>
      { d with held := Function.update d.held ax.toUInt8 (decide (ax < 0x8000)) }
  | .setClipboardData mem => { d with clipboard := some (cString mem) }

/-- What an output of the client does to it. -/
def after (platform : Platform) (host : Host) (left : Nat → UInt8) (d : Desktop)
    (output : Output) : Desktop :=
  (osioCall? platform host left output).elim d d.call

end Desktop

/-- The desktop behind these outputs; `left` is what new memory holds. -/
def desktop (platform : Platform) (host : Host) (left : Nat → UInt8) (outputs : List Output) :
    Desktop :=
  outputs.foldl (Desktop.after platform host left) .initial

/-! ## What an output writes -/

/-- A key that goes down or up. -/
def Output.stroke? : Output → Option (UInt8 × Bool)
  | .keyDown id _ _ => some (virtualKey id, true)
  | .keyUp id _ _ => some (virtualKey id, false)
  | _ => none

/-- Everything but the left button counts as the right one. -/
def mouseButton (btn : UInt16) : MouseButton := if osioMouseLeft = btn then .left else .right

def Output.click? : Output → Option (MouseButton × Bool)
  | .mouseDown _ _ btn => some (mouseButton btn, true)
  | .mouseUp _ _ btn => some (mouseButton btn, false)
  | _ => none

def Output.move? : Output → Option (UInt16 × UInt16)
  | .mouseMove x y => some (x, y)
  | _ => none

def Output.clip? : Output → Option (List UInt8)
  | .setClipboard buffer => some buffer
  | _ => none

/-- The desktop with an output done, on either Windows. -/
def Desktop.done (platform : Platform) (host : Host) (left : Nat → UInt8) (d : Desktop) :
    Output → Desktop
  | .reply _ | .keyRpt _ _ _ => d
  | .mouseMove x y => { d with pointer := some (platform.intOf x, platform.intOf y) }
  | .mouseDown _ _ btn => { d with button := Function.update d.button (mouseButton btn) true }
  | .mouseUp _ _ btn => { d with button := Function.update d.button (mouseButton btn) false }
  | .keyDown id _ _ => { d with held := Function.update d.held (virtualKey id) true }
  | .keyUp id _ _ => { d with held := Function.update d.held (virtualKey id) false }
  | .setClipboard buffer => { d with clipboard := some (cString (clipMem host left buffer)) }

section Writes

variable {platform : Platform} {host : Host} {left : Nat → UInt8}

/-- The registers of 16-bit Windows say the same as the arguments. -/
theorem call_keybdEvent (windows : platform ≠ .unix) (d : Desktop) (vk scan : UInt8) :
    d.call (keybdEvent platform vk scan 0 0) =
        { d with held := Function.update d.held vk true } ∧
      d.call (keybdEvent platform vk scan keyeventfKeyup 0) =
        { d with held := Function.update d.held vk false } := by
  cases platform with
  | unix => exact absurd rfl windows
  | win32 => exact ⟨rfl, rfl⟩
  | win16 =>
      constructor <;> simp [keybdEvent, keybdEvent16, Desktop.call, keyeventfKeyup]

theorem call_mouseEvent (windows : platform ≠ .unix) (d : Desktop) {flags : UInt32}
    (word : flags.toUInt16.toUInt32 = flags) (dx dy : UInt16) :
    d.call (mouseEvent platform flags dx dy 0 0) = d.click flags := by
  cases platform with
  | unix => exact absurd rfl windows
  | win32 => rfl
  | win16 =>
      change d.click flags.toUInt16.toUInt32 = _
      rw [word]

/-- What the calls into Windows make of an output. -/
theorem after_eq_done (windows : platform ≠ .unix) (d : Desktop) (output : Output) :
    d.after platform host left output = d.done platform host left output := by
  unfold Desktop.after osioCall? Desktop.done
  cases output with
  | reply | keyRpt => rfl
  | mouseMove | setClipboard =>
      dsimp only
      rw [if_neg windows]
      rfl
  | mouseDown x y btn =>
      dsimp only
      rw [if_neg windows, osioMouseDown, mouseButton]
      by_cases isLeft : osioMouseLeft = btn
      · rw [if_pos isLeft, if_pos isLeft]
        exact call_mouseEvent windows d rfl x y
      · rw [if_neg isLeft, if_neg isLeft]
        exact call_mouseEvent windows d rfl x y
  | mouseUp x y btn =>
      dsimp only
      rw [if_neg windows, osioMouseUp, mouseButton]
      by_cases isLeft : osioMouseLeft = btn
      · rw [if_pos isLeft, if_pos isLeft]
        exact call_mouseEvent windows d rfl x y
      · rw [if_neg isLeft, if_neg isLeft]
        exact call_mouseEvent windows d rfl x y
  | keyDown id mod btn =>
      dsimp only
      rw [if_neg windows, osioKeyDown_eq]
      exact (call_keybdEvent windows d _ _).1
  | keyUp id mod btn =>
      dsimp only
      rw [if_neg windows, osioKeyUp_eq]
      exact (call_keybdEvent windows d _ _).2

/-- Each part of the desktop is written by its own outputs, and by no others. -/
theorem held_desktop (windows : platform ≠ .unix) (outputs : List Output) :
    (desktop platform host left outputs).held =
      Registers.store (fun _ => false) (outputs.filterMap Output.stroke?) := by
  refine Registers.store_foldl Desktop.held (fun d output => ?_) _ outputs
  rw [after_eq_done windows]
  cases output <;> rfl

theorem button_desktop (windows : platform ≠ .unix) (outputs : List Output) :
    (desktop platform host left outputs).button =
      Registers.store (fun _ => false) (outputs.filterMap Output.click?) := by
  refine Registers.store_foldl Desktop.button (fun d output => ?_) _ outputs
  rw [after_eq_done windows]
  cases output <;> rfl

theorem pointer_desktop (windows : platform ≠ .unix) (outputs : List Output) :
    (desktop platform host left outputs).pointer =
      (Registers.last? Output.move? outputs).map fun (x, y) =>
        (platform.intOf x, platform.intOf y) := by
  induction outputs using List.reverseRecOn with
  | nil => rfl
  | append_singleton outputs output ih =>
      rw [desktop, List.foldl_concat, ← desktop, after_eq_done windows, Registers.last?_concat]
      cases output with
      | mouseMove => rfl
      | _ => exact ih

theorem clipboard_desktop (windows : platform ≠ .unix) (outputs : List Output) :
    (desktop platform host left outputs).clipboard =
      (Registers.last? Output.clip? outputs).map fun buffer =>
        cString (clipMem host left buffer) := by
  induction outputs using List.reverseRecOn with
  | nil => rfl
  | append_singleton outputs output ih =>
      rw [desktop, List.foldl_concat, ← desktop, after_eq_done windows, Registers.last?_concat]
      cases output with
      | setClipboard => rfl
      | _ => exact ih

end Writes

/-! ## What a frame and a packet write -/

/-- The virtual key that a frame strikes, and whether the key goes down. -/
def strokeOf? (frame : List UInt8) : Option (UInt8 × Bool) :=
  match frameType? frame with
  | some .dkdn => some (virtualKey (field frame 8), true)
  | some .dkup => some (virtualKey (field frame 8), false)
  | _ => none

/-- The button that a frame is about, and whether it goes down. -/
def clickOf? (frame : List UInt8) : Option (MouseButton × Bool) :=
  match frameType? frame with
  | some .dmdn => some (mouseButton (byteAt frame 8).toUInt16, true)
  | some .dmup => some (mouseButton (byteAt frame 8).toUInt16, false)
  | _ => none

def moveOf? (frame : List UInt8) : Option (UInt16 × UInt16) :=
  match frameType? frame with
  | some .dmmv => some (field frame 8, field frame 10)
  | _ => none

/-- What a frame puts on the clipboard. -/
def clipOf? (frame : List UInt8) : Option (List UInt8) :=
  match frameType? frame with
  | some .dclp =>
      if byteAt frame 8 = 0 ∧ byteAt frame 13 = 2 ∧ 30 ≤ frame.length then some (frame.drop 30)
      else none
  | _ => none

/-- What a frame asks for, part by part, whatever came before it. -/
theorem parts_readFrame (before : List (List UInt8)) (frame : List UInt8) :
    let outputs := (readFrame 0 0 [] before frame).filter Output.isInput
    outputs.filterMap Output.stroke? = (strokeOf? frame).toList ∧
      outputs.filterMap Output.click? = (clickOf? frame).toList ∧
      outputs.filterMap Output.move? = (moveOf? frame).toList ∧
      outputs.filterMap Output.clip? = (clipOf? frame).toList := by
  unfold readFrame strokeOf? clickOf? moveOf? clipOf?
  cases frameType? frame with
  | none => exact ⟨rfl, rfl, rfl, rfl⟩
  | some type =>
      cases type with
      | dclp =>
          dsimp only
          split <;> exact ⟨rfl, rfl, rfl, rfl⟩
      | _ => exact ⟨rfl, rfl, rfl, rfl⟩

/-- A part of the reading that each frame decides alone. -/
theorem filterMap_inputReading {γ : Type} {part : Output → Option γ}
    {part' : List UInt8 → Option γ}
    (decided : ∀ before frame, ((readFrame 0 0 [] before frame).filter Output.isInput).filterMap part =
      (part' frame).toList) (frames : List (List UInt8)) :
    (inputReading frames).filterMap part = frames.filterMap part' := by
  rw [inputReading, reading, ← inputReader_run]
  exact Transducer.filterMap_run (fun before frame _ => decided before frame) []

theorem strokes_inputReading (frames : List (List UInt8)) :
    (inputReading frames).filterMap Output.stroke? = frames.filterMap strokeOf? :=
  filterMap_inputReading (fun before frame => (parts_readFrame before frame).1) frames

theorem clicks_inputReading (frames : List (List UInt8)) :
    (inputReading frames).filterMap Output.click? = frames.filterMap clickOf? :=
  filterMap_inputReading (fun before frame => (parts_readFrame before frame).2.1) frames

theorem moves_inputReading (frames : List (List UInt8)) :
    (inputReading frames).filterMap Output.move? = frames.filterMap moveOf? :=
  filterMap_inputReading (fun before frame => (parts_readFrame before frame).2.2.1) frames

theorem clips_inputReading (frames : List (List UInt8)) :
    (inputReading frames).filterMap Output.clip? = frames.filterMap clipOf? :=
  filterMap_inputReading (fun before frame => (parts_readFrame before frame).2.2.2) frames

/-- A frame that holds its type, and if it is one of these, so many bytes. -/
def Spans (types : List PktType) (size : Nat) (frame : List UInt8) : Prop :=
  8 ≤ frame.length ∧ ∀ type ∈ types, frameType? frame = some type → size ≤ frame.length

instance (types : List PktType) (size : Nat) (frame : List UInt8) :
    Decidable (Spans types size frame) :=
  inferInstanceAs (Decidable (_ ∧ _))

section Packets

variable {host : Host} {mouse : UInt16 × UInt16} {packet : Packet}

/-- A packet strikes the key of its frame, if the frame holds the id. -/
theorem strokes_packet
    (holds : Spans [.dkdn, .dkup] 10 (window packet.1 0 packet.2.toNat)) :
    ((inputDispatcher host).emit mouse packet).filterMap Output.stroke? =
      (strokeOf? (window packet.1 0 packet.2.toNat)).toList := by
  obtain ⟨whole, long⟩ := holds
  rw [length_window] at whole long
  rw [frameType?_window whole] at long
  unfold inputDispatcher packetOutputs strokeOf?
  rw [frameType?_window whole]
  cases kind : PktType.ofCode? (pktTypeCode packet.1) with
  | none => simp [kind]
  | some type =>
      cases type with
      | dkdn | dkup =>
          have inside := long _ (by simp) kind
          rw [field_window (by omega)]
          simp only [kind]
          rfl
      | dclp =>
          simp only [kind]
          split <;> rfl
      | _ =>
          simp only [kind]
          rfl

/-- Only the left button has the number 1, however a `char` becomes a number. -/
theorem mouseButton_charVal (host : Host) (c : UInt8) :
    mouseButton (UInt16.ofInt (charVal host c)) = mouseButton c.toUInt16 := by
  have value : charVal host c = c.toNat ∨ 128 ≤ c.toNat ∧ charVal host c = c.toNat - 256 := by
    unfold charVal
    split
    · have signed : c.toInt8.toInt = if 2 * c.toNat < 256 then (c.toNat : Int) else c.toNat - 256 :=
        BitVec.toInt_eq_toNat_cond c.toBitVec
      rw [signed]
      split
      · exact .inl rfl
      · exact .inr ⟨by omega, rfl⟩
    · exact .inl rfl
  have same : osioMouseLeft = UInt16.ofInt (charVal host c) ↔ osioMouseLeft = c.toUInt16 := by
    have below := c.toNat_lt
    rw [← UInt16.toNat_inj, ← UInt16.toNat_inj, UInt16.ofInt, UInt16.toNat_ofNat',
      UInt8.toNat_toUInt16, show osioMouseLeft.toNat = 1 from rfl]
    rcases value with value | ⟨large, value⟩
    · rw [value]
      omega
    · rw [value]
      omega
  unfold mouseButton
  rw [if_congr same rfl rfl]

/-- It presses the button of its frame, if the frame holds the number. -/
theorem clicks_packet
    (holds : Spans [.dmdn, .dmup] 9 (window packet.1 0 packet.2.toNat)) :
    ((inputDispatcher host).emit mouse packet).filterMap Output.click? =
      (clickOf? (window packet.1 0 packet.2.toNat)).toList := by
  obtain ⟨whole, long⟩ := holds
  rw [length_window] at whole long
  rw [frameType?_window whole] at long
  unfold inputDispatcher packetOutputs clickOf?
  rw [frameType?_window whole]
  cases kind : PktType.ofCode? (pktTypeCode packet.1) with
  | none => simp [kind]
  | some type =>
      cases type with
      | dmdn | dmup =>
          have inside := long _ (by simp) kind
          rw [byteAt_window (by omega), ← mouseButton_charVal host]
          simp only [kind]
          rfl
      | dclp =>
          simp only [kind]
          split <;> rfl
      | _ =>
          simp only [kind]
          rfl

/-- It moves the pointer where its frame says, if the frame holds this. -/
theorem moves_packet (holds : Spans [.dmmv] 12 (window packet.1 0 packet.2.toNat)) :
    ((inputDispatcher host).emit mouse packet).filterMap Output.move? =
      (moveOf? (window packet.1 0 packet.2.toNat)).toList := by
  obtain ⟨whole, long⟩ := holds
  rw [length_window] at whole long
  rw [frameType?_window whole] at long
  unfold inputDispatcher packetOutputs moveOf?
  rw [frameType?_window whole]
  cases kind : PktType.ofCode? (pktTypeCode packet.1) with
  | none => simp [kind]
  | some type =>
      cases type with
      | dmmv =>
          have inside := long _ (by simp) kind
          rw [field_window (by omega), field_window (by omega)]
          simp only [kind]
          rfl
      | dclp =>
          simp only [kind]
          split <;> rfl
      | _ =>
          simp only [kind]
          rfl

/-- A frame that sets the clipboard holds the header. -/
theorem clipOf?_short {frame : List UInt8} (short : ¬30 ≤ frame.length) : clipOf? frame = none := by
  unfold clipOf?
  split
  · exact if_neg fun ours => short ours.2.2
  · rfl

/-- It sets the clipboard as its frame does, if a `size_t` holds its size. -/
theorem clips_packet (fits : packet.2.toNat < 2 ^ host.sizeTBits) :
    ((inputDispatcher host).emit mouse packet).filterMap Output.clip? =
      (clipOf? (window packet.1 0 packet.2.toNat)).toList := by
  have size := Nat.mod_eq_of_lt (a := packet.2.toNat - dclpBufStart)
    (Nat.lt_of_le_of_lt (Nat.sub_le _ _) fits)
  unfold inputDispatcher packetOutputs
  by_cases long : dclpBufStart ≤ packet.2.toNat
  · have whole : 30 ≤ packet.2.toNat := long
    unfold clipOf?
    rw [frameType?_window (by omega), byteAt_window (by omega), byteAt_window (by omega),
      length_window, drop_window _ _ whole]
    cases kind : PktType.ofCode? (pktTypeCode packet.1) with
    | none => simp [kind]
    | some type =>
        cases type with
        | dclp =>
            simp only [kind, size, long, whole, and_true]
            split <;> rfl
        | _ =>
          simp only [kind]
          rfl
  · have none : clipOf? (window packet.1 0 packet.2.toNat) = none :=
      clipOf?_short (by rwa [length_window])
    rw [none]
    cases kind : PktType.ofCode? (pktTypeCode packet.1) with
    | none => simp [kind]
    | some type =>
        cases type with
        | dclp => simp [kind, long]
        | _ =>
          simp only [kind]
          rfl

end Packets

/-! ## The registers in every run -/

section Runs

variable {platform : Platform} {host : Host} {serverAddr clientName : Vector UInt8 64}
  {serverPort : Int} {s : Sys}

/-- The inputs of a run, as far as its frames can be read. -/
theorem Met.read (met : Met platform host (minputMainSetup serverAddr clientName serverPort) s)
    (readable : ∀ frame ∈ s.frames, Readable host frame) : s.inputs = inputReading s.frames := by
  obtain ⟨packets, handles⟩ := met.works.handles
  exact (handles.reading rfl rfl readable).1

/-- A part of the inputs that each packet of the run decides by its frame alone. -/
theorem Met.part {γ : Type} {part : Output → Option γ} {part' : List UInt8 → Option γ}
    (met : Met platform host (minputMainSetup serverAddr clientName serverPort) s)
    (decided : ∀ mouse (packet : Packet), window packet.1 0 packet.2.toNat ∈ s.frames →
      ((inputDispatcher host).emit mouse packet).filterMap part =
        (part' (window packet.1 0 packet.2.toNat)).toList) :
    s.inputs.filterMap part = s.frames.filterMap part' := by
  obtain ⟨packets, handles⟩ := met.works.handles
  have packets_eq : s.packets = packets := handles.packets_eq
  have inputs_eq : s.inputs = (inputDispatcher host).run (0, 0) packets := handles.inputs_eq
  unfold Sys.frames at decided ⊢
  rw [inputs_eq, packets_eq, List.filterMap_map]
  refine Transducer.filterMap_run (fun mouse packet member => decided mouse packet ?_) _
  rw [packets_eq]
  exact List.mem_map_of_mem member

/-- The keys are the registers that the frames of the run write. -/
theorem Met.held_eq (windows : platform ≠ .unix)
    (met : Met platform host (minputMainSetup serverAddr clientName serverPort) s)
    (holds : ∀ frame ∈ s.frames, Spans [.dkdn, .dkup] 10 frame) (left : Nat → UInt8) :
    (desktop platform host left s.inputs).held =
      Registers.store (fun _ => false) (s.frames.filterMap strokeOf?) := by
  rw [held_desktop windows, met.part fun _ _ member => strokes_packet (holds _ member)]

/-- At any moment of any run a key is down just if the latest frame about it was a
`DKDN`: a disconnect, a reconnect, a Save or a quit in between lifts none. -/
theorem Met.held_iff (windows : platform ≠ .unix)
    (met : Met platform host (minputMainSetup serverAddr clientName serverPort) s)
    (holds : ∀ frame ∈ s.frames, Spans [.dkdn, .dkup] 10 frame) (left : Nat → UInt8) (vk : UInt8) :
    (desktop platform host left s.inputs).held vk = true ↔
      ∃ before frame after, s.frames = before ++ frame :: after ∧
        strokeOf? frame = some (vk, true) ∧
        ∀ later ∈ after, ∀ down, strokeOf? later ≠ some (vk, down) := by
  rw [met.held_eq windows holds, Registers.store_apply,
    ← Registers.latest?_filterMap_eq_some_iff]
  cases Registers.latest? (s.frames.filterMap strokeOf?) vk <;> simp

theorem holds_desk : ∀ frame ∈ shortClipboard.bytes :: deskFrames,
    Spans [.dkdn, .dkup] 10 frame ∧ Spans [.dmdn, .dmup] 9 frame ∧ Spans [.dmmv] 12 frame := by
  decide +kernel

theorem Met.held_iff_desk : ∃ s, Met .win32 win32Host defaultSetup s ∧
    ∀ vk, ((desktop .win32 win32Host (fun _ => 0) s.inputs).held vk = true ↔
      ∃ before frame after, shortClipboard.bytes :: deskFrames = before ++ frame :: after ∧
        strokeOf? frame = some (vk, true) ∧
        ∀ later ∈ after, ∀ down, strokeOf? later ≠ some (vk, down)) := by
  obtain ⟨s, met, frames⟩ := met_desk
  refine ⟨s, met, fun vk => ?_⟩
  rw [← frames]
  refine met.held_iff (by decide) (fun frame member => ?_) _ vk
  exact (holds_desk frame (frames ▸ member)).1

/-- A frame strikes a key of the keyboard. -/
def Strikes (frame : List UInt8) (key : List UInt16) (down : Bool) : Prop :=
  frameType? frame = some (if down then .dkdn else .dkup) ∧ field frame 8 ∈ key
  deriving Decidable

theorem strokeOf?_eq_some_iff {frame : List UInt8} {vk : UInt8} {down : Bool} :
    strokeOf? frame = some (vk, down) ↔
      frameType? frame = some (if down then .dkdn else .dkup) ∧ virtualKey (field frame 8) = vk := by
  unfold strokeOf?
  cases frameType? frame with
  | none => simp
  | some type => cases type <;> cases down <;> simp

/-- A frame about a known key strikes the keys that have its virtual key. -/
theorem strokeOf?_eq_keyCode_iff {frame : List UInt8} {key : List UInt16} (onKeyboard : key ∈ keyboard)
    (known : ∀ stroke, strokeOf? frame = some stroke → ∃ key ∈ keyboard, field frame 8 ∈ key)
    (down : Bool) : strokeOf? frame = some (keyCode key, down) ↔ Strikes frame key down := by
  rw [strokeOf?_eq_some_iff, Strikes, and_congr_right_iff]
  intro kind
  obtain ⟨key', onKeyboard', member⟩ := known _ (strokeOf?_eq_some_iff.mpr ⟨kind, rfl⟩)
  exact virtualKey_eq_keyCode_iff onKeyboard onKeyboard' member

/-- As long as the server sends ids of the keyboard, a key of it is down just if the
latest frame about it, with whatever id, pressed it. -/
theorem Met.key_down_iff (windows : platform ≠ .unix)
    (met : Met platform host (minputMainSetup serverAddr clientName serverPort) s)
    (holds : ∀ frame ∈ s.frames, Spans [.dkdn, .dkup] 10 frame)
    (known : ∀ frame ∈ s.frames, ∀ stroke, strokeOf? frame = some stroke →
      ∃ key ∈ keyboard, field frame 8 ∈ key)
    (left : Nat → UInt8) {key : List UInt16} (onKeyboard : key ∈ keyboard) :
    (desktop platform host left s.inputs).held (keyCode key) = true ↔
      ∃ before frame after, s.frames = before ++ frame :: after ∧ Strikes frame key true ∧
        ∀ later ∈ after, ∀ down, ¬Strikes later key down := by
  rw [met.held_iff windows holds]
  have inside : ∀ {before frame after}, s.frames = before ++ frame :: after →
      frame ∈ s.frames ∧ ∀ later ∈ after, later ∈ s.frames := by
    rintro before frame after split
    rw [split]
    exact ⟨by simp, fun later member => by simp [member]⟩
  constructor
  · rintro ⟨before, frame, after, split, pressed, quiet⟩
    obtain ⟨here, behind⟩ := inside split
    refine ⟨before, frame, after, split, ?_, fun later member down strikes => ?_⟩
    · exact (strokeOf?_eq_keyCode_iff onKeyboard (known frame here) true).mp pressed
    · refine quiet later member down ?_
      exact (strokeOf?_eq_keyCode_iff onKeyboard (known later (behind later member)) down).mpr strikes
  · rintro ⟨before, frame, after, split, pressed, quiet⟩
    obtain ⟨here, behind⟩ := inside split
    refine ⟨before, frame, after, split, ?_, fun later member down stroke => ?_⟩
    · exact (strokeOf?_eq_keyCode_iff onKeyboard (known frame here) true).mpr pressed
    · refine quiet later member down ?_
      exact (strokeOf?_eq_keyCode_iff onKeyboard (known later (behind later member)) down).mp stroke

theorem Met.key_down_iff_desk : ∃ s, Met .win32 win32Host defaultSetup s ∧
    ((desktop .win32 win32Host (fun _ => 0) s.inputs).held (keyCode [0x61, 0x41]) = true ↔
      ∃ before frame after, shortClipboard.bytes :: deskFrames = before ++ frame :: after ∧
        Strikes frame [0x61, 0x41] true ∧
        ∀ later ∈ after, ∀ down, ¬Strikes later [0x61, 0x41] down) := by
  obtain ⟨s, met, frames⟩ := met_desk
  refine ⟨s, met, ?_⟩
  have known : ∀ frame ∈ shortClipboard.bytes :: deskFrames, strokeOf? frame ≠ none →
      ∃ key ∈ keyboard, field frame 8 ∈ key := by
    decide +kernel
  rw [← frames] at known ⊢
  refine met.key_down_iff (by decide) (fun frame member => ?_) ?_ _ (by decide +kernel)
  · exact (holds_desk frame (frames ▸ member)).1
  intro frame member stroke strikes
  exact known frame member (by rw [strikes]; exact Option.some_ne_none stroke)

/-- Two ids are the same, or ids of one key. -/
def SameKey (id id' : UInt16) : Prop := id = id' ∨ ∃ key ∈ keyboard, id ∈ key ∧ id' ∈ key

instance (id id' : UInt16) : Decidable (SameKey id id') :=
  inferInstanceAs (Decidable (_ ∨ _))

/-- A frame that lifts the key that another one pressed, maybe with another of its ids. -/
def Lifts (release frame : List UInt8) : Prop :=
  frameType? release = some .dkup ∧ SameKey (field frame 8) (field release 8)
  deriving Decidable

/-- Every frame that presses a key has one behind it that lifts it. -/
def AllReleased : List (List UInt8) → Prop
  | [] => True
  | frame :: rest =>
      (frameType? frame = some .dkdn → ∃ release ∈ rest, Lifts release frame) ∧ AllReleased rest

instance : ∀ frames, Decidable (AllReleased frames)
  | [] => isTrue trivial
  | _ :: rest =>
      have : Decidable (AllReleased rest) := instDecidableAllReleased rest
      inferInstanceAs (Decidable (_ ∧ _))

theorem AllReleased.lifted {before : List (List UInt8)} {frame : List UInt8}
    {after : List (List UInt8)} (released : AllReleased (before ++ frame :: after))
    (pressed : frameType? frame = some .dkdn) : ∃ release ∈ after, Lifts release frame := by
  induction before with
  | nil => exact released.1 pressed
  | cons first before ih => exact ih released.2

theorem SameKey.virtualKey_eq {id id' : UInt16} (same : SameKey id id') :
    virtualKey id = virtualKey id' := by
  rcases same with rfl | ⟨key, onKeyboard, member, member'⟩
  · rfl
  · rw [virtualKey_of_mem onKeyboard member, virtualKey_of_mem onKeyboard member']

/-- No key gets stuck: when every press was released, even if Shift changed the id in
between, no key is down, and no id that the table does not know is in the way. -/
theorem Met.no_key_stuck (windows : platform ≠ .unix)
    (met : Met platform host (minputMainSetup serverAddr clientName serverPort) s)
    (holds : ∀ frame ∈ s.frames, Spans [.dkdn, .dkup] 10 frame) (released : AllReleased s.frames)
    (left : Nat → UInt8) : (desktop platform host left s.inputs).held = fun _ => false := by
  rw [met.held_eq windows holds]
  refine Registers.Undone.store_eq (Registers.undone_filterMap ?_)
  intro before frame after vk down split stroke busy
  obtain ⟨kind, rfl⟩ := strokeOf?_eq_some_iff.mp stroke
  obtain rfl : down = true := by simpa using busy
  obtain ⟨release, member, kind', same⟩ := (split ▸ released).lifted kind
  exact ⟨release, member, strokeOf?_eq_some_iff.mpr ⟨kind', same.virtualKey_eq.symm⟩⟩

/-- In that run "a" was pressed and "A" released. -/
theorem Met.no_key_stuck_desk : ∃ s, Met .win32 win32Host defaultSetup s ∧
    (desktop .win32 win32Host (fun _ => 0) s.inputs).held = fun _ => false := by
  obtain ⟨s, met, frames⟩ := met_desk
  refine ⟨s, met, met.no_key_stuck (by decide) (fun frame member => ?_) ?_ _⟩
  · exact (holds_desk frame (frames ▸ member)).1
  rw [frames]
  decide +kernel

/-- A button is down just if the latest frame about it was a `DMDN`, and the pointer is
where the latest `DMMV` put it. -/
theorem Met.mouse_iff (windows : platform ≠ .unix)
    (met : Met platform host (minputMainSetup serverAddr clientName serverPort) s)
    (buttons : ∀ frame ∈ s.frames, Spans [.dmdn, .dmup] 9 frame)
    (places : ∀ frame ∈ s.frames, Spans [.dmmv] 12 frame) (left : Nat → UInt8) :
    (∀ button, (desktop platform host left s.inputs).button button = true ↔
      ∃ before frame after, s.frames = before ++ frame :: after ∧
        clickOf? frame = some (button, true) ∧
        ∀ later ∈ after, ∀ down, clickOf? later ≠ some (button, down)) ∧
    ∀ x y, (desktop platform host left s.inputs).pointer = some (x, y) ↔
      ∃ before frame after target, s.frames = before ++ frame :: after ∧
        moveOf? frame = some target ∧
        (platform.intOf target.1, platform.intOf target.2) = (x, y) ∧
        ∀ later ∈ after, moveOf? later = none := by
  constructor
  · intro button
    rw [button_desktop windows, met.part fun _ _ member => clicks_packet (buttons _ member),
      Registers.store_apply, ← Registers.latest?_filterMap_eq_some_iff]
    cases Registers.latest? (s.frames.filterMap clickOf?) button <;> simp
  · intro x y
    rw [pointer_desktop windows, Registers.last?,
      met.part fun _ _ member => moves_packet (places _ member), ← Registers.last?, Option.map_eq_some_iff]
    simp only [Registers.last?_eq_some_iff]
    constructor
    · rintro ⟨target, ⟨before, frame, after, split, moved, still⟩, here⟩
      exact ⟨before, frame, after, target, split, moved, here, still⟩
    · rintro ⟨before, frame, after, target, split, moved, here, still⟩
      exact ⟨target, ⟨before, frame, after, split, moved, still⟩, here⟩

theorem Met.mouse_iff_desk : ∃ s, Met .win32 win32Host defaultSetup s ∧
    (∀ button, (desktop .win32 win32Host (fun _ => 0) s.inputs).button button = true ↔
      ∃ before frame after, s.frames = before ++ frame :: after ∧
        clickOf? frame = some (button, true) ∧
        ∀ later ∈ after, ∀ down, clickOf? later ≠ some (button, down)) ∧
    ∀ x y, (desktop .win32 win32Host (fun _ => 0) s.inputs).pointer = some (x, y) ↔
      ∃ before frame after target, s.frames = before ++ frame :: after ∧
        moveOf? frame = some target ∧
        (Platform.win32.intOf target.1, Platform.win32.intOf target.2) = (x, y) ∧
        ∀ later ∈ after, moveOf? later = none := by
  obtain ⟨s, met, frames⟩ := met_desk
  refine ⟨s, met, met.mouse_iff (by decide) (fun frame member => ?_) (fun frame member => ?_) _⟩
  · exact (holds_desk frame (frames ▸ member)).2.1
  · exact (holds_desk frame (frames ▸ member)).2.2

/-- The coordinates that go with a button. -/
def Output.aim? : Output → Option (UInt16 × UInt16)
  | .mouseDown x y _ => some (x, y)
  | .mouseUp x y _ => some (x, y)
  | _ => none

/-- A packet makes one input at most, which aims at the mouse or moves it. -/
theorem inputDispatcher_cases (host : Host) (mouse : UInt16 × UInt16) (packet : Packet) :
    ((inputDispatcher host).emit mouse packet = [] ∧
      (inputDispatcher host).next mouse packet = mouse) ∨
    ∃ output, (inputDispatcher host).emit mouse packet = [output] ∧
      (inputDispatcher host).next mouse packet = output.move?.getD mouse ∧
      ∀ aim, output.aim? = some aim → aim = mouse := by
  unfold inputDispatcher packetOutputs mouseAfter
  dsimp only
  cases PktType.ofCode? (pktTypeCode packet.1) with
  | none => exact .inl ⟨rfl, rfl⟩
  | some type =>
      cases type with
      | barr | qinf | ciak | crop | calv | cinn | cout | dsop | ebad => exact .inl ⟨rfl, rfl⟩
      | dmmv | dkdn | dkup | dkrp => exact .inr ⟨_, rfl, rfl, nofun⟩
      | dmdn | dmup => exact .inr ⟨_, rfl, rfl, fun _ same => (Option.some.inj same).symm⟩
      | dclp =>
          dsimp only
          split
          · exact .inr ⟨_, rfl, rfl, nofun⟩
          · exact .inl ⟨rfl, rfl⟩

/-- A click aims where the latest move before it went. -/
theorem aim_of_run {mouse : UInt16 × UInt16} {packets : List Packet}
    {before after : List Output} {output : Output}
    (split : (inputDispatcher host).run mouse packets = before ++ output :: after)
    {aim : UInt16 × UInt16} (aims : output.aim? = some aim) :
    aim = (Registers.last? Output.move? before).getD mouse := by
  induction packets generalizing mouse before with
  | nil => exact absurd split (by simp [Transducer.run])
  | cons packet packets ih =>
      rw [Transducer.run] at split
      rcases inputDispatcher_cases host mouse packet with ⟨none, still⟩ | ⟨first, one, moved, aimed⟩
      · rw [none, still, List.nil_append] at split
        exact ih split
      · rw [one, List.singleton_append] at split
        cases before with
        | nil =>
            obtain ⟨rfl, _⟩ := List.cons.inj split
            exact aimed aim aims
        | cons first' before =>
            obtain ⟨rfl, rest⟩ := List.cons.inj split
            rw [ih rest, moved, Registers.last?_cons]
            cases Registers.last? Output.move? before <;> rfl

/-- In every run, with any bytes from the server, a button goes down and up where the
pointer is, or at (0, 0) as long as the server has not moved it. -/
theorem Met.click_at_pointer (windows : platform ≠ .unix)
    (met : Met platform host (minputMainSetup serverAddr clientName serverPort) s)
    (left : Nat → UInt8) {before after : List Output} {output : Output}
    (split : s.inputs = before ++ output :: after) {x y : UInt16}
    (aims : output.aim? = some (x, y)) :
    (desktop platform host left before).pointer = some (platform.intOf x, platform.intOf y) ∨
      (desktop platform host left before).pointer = none ∧ (x, y) = (0, 0) := by
  obtain ⟨packets, handles⟩ := met.works.handles
  have made := handles.inputs_eq
  rw [split] at made
  have aim := aim_of_run made.symm aims
  rw [pointer_desktop windows]
  cases moved : Registers.last? Output.move? before with
  | none =>
      rw [moved] at aim
      exact .inr ⟨rfl, aim⟩
  | some target =>
      rw [moved] at aim
      obtain rfl : (x, y) = target := aim
      exact .inl rfl

/-- The button goes down behind the move. -/
theorem Met.click_at_pointer_desk : ∃ s before after, Met .win32 win32Host defaultSetup s ∧
    s.inputs = before ++ .mouseDown 3 4 1 :: after ∧
    ((desktop .win32 win32Host (fun _ => 0) before).pointer = some (3, 4) ∨
      (desktop .win32 win32Host (fun _ => 0) before).pointer = none ∧
        ((3, 4) : UInt16 × UInt16) = (0, 0)) := by
  obtain ⟨s, met, frames⟩ := met_desk
  have split : s.inputs = [.mouseMove 3 4] ++ .mouseDown 3 4 1 ::
      (inputReading (shortClipboard.bytes :: deskFrames)).drop 2 := by
    rw [met.read (frames ▸ readable_desk), frames]
    decide +kernel
  exact ⟨s, _, _, met, split, met.click_at_pointer (by decide) _ split rfl⟩

/-- A clipboard that a packet sets is shorter than what the size of a packet and a
`size_t` can say. -/
theorem length_of_setClipboard {mouse : UInt16 × UInt16} {packet : Packet} {buffer : List UInt8}
    (member : .setClipboard buffer ∈ (inputDispatcher host).emit mouse packet) :
    buffer.length < 2 ^ host.sizeTBits ∧ buffer.length + 1 < 2 ^ 32 := by
  have below := packet.2.toNat_lt
  unfold inputDispatcher packetOutputs at member
  dsimp only at member
  cases kind : PktType.ofCode? (pktTypeCode packet.1) with
  | none => simp [kind] at member
  | some type =>
      cases type with
      | dclp =>
          simp only [kind] at member
          split at member
          · next ours =>
              have same : buffer = window packet.1 dclpBufStart
                  ((packet.2.toNat - dclpBufStart) % 2 ^ host.sizeTBits) := by
                simpa using (List.mem_filter.mp member).1
              have wrapped := Nat.mod_lt (packet.2.toNat - dclpBufStart)
                (Nat.two_pow_pos host.sizeTBits)
              have shrunk := Nat.mod_le (packet.2.toNat - dclpBufStart) (2 ^ host.sizeTBits)
              rw [same, length_window]
              exact ⟨wrapped, by rw [dclpBufStart] at shrunk ⊢; omega⟩
          · simp at member
      | _ => simp [kind, Output.isInput] at member

/-- In every run, with any bytes from the server, `osio_set_clipboard` stays within its
allocation just if `GlobalAlloc()` made one and the size did not wrap around, which a
`size_t` of 32 bits or more rules out. -/
theorem Met.clipboard_inside (met : Met platform host (minputMainSetup serverAddr clientName serverPort) s)
    {buffer : List UInt8} (member : .setClipboard buffer ∈ s.inputs) (allocated : Bool) :
    ((∀ store ∈ clipStores buffer, store.1 < clipBlockSz host allocated buffer.length) ↔
        allocated = true ∧ buffer.length + 1 ≠ 2 ^ host.sizeTBits) ∧
      (32 ≤ host.sizeTBits →
        ((∀ store ∈ clipStores buffer, store.1 < clipBlockSz host allocated buffer.length) ↔
          allocated = true)) := by
  obtain ⟨packets, handles⟩ := met.works.handles
  have made := handles.inputs_eq
  rw [show (minputMainSetup serverAddr clientName serverPort).inputs = [] from rfl,
    List.nil_append] at made
  obtain ⟨mouse, packet, _, written⟩ := Transducer.mem_run (made ▸ member)
  obtain ⟨fits, small⟩ := length_of_setClipboard written
  refine ⟨clipStores_inside_iff fits, fun wide => ?_⟩
  have most := Nat.pow_le_pow_right (n := 2) (by decide) wide
  rw [clipStores_inside_iff fits]
  exact and_iff_left (by omega)

theorem Met.clipboard_inside_desk : ∃ s, Met .win32 win32Host defaultSetup s ∧
    ∀ allocated,
      ((∀ store ∈ clipStores (ascii "hi"),
          store.1 < clipBlockSz win32Host allocated (ascii "hi").length) ↔
        allocated = true ∧ (ascii "hi").length + 1 ≠ 2 ^ win32Host.sizeTBits) ∧
      (32 ≤ win32Host.sizeTBits →
        ((∀ store ∈ clipStores (ascii "hi"),
            store.1 < clipBlockSz win32Host allocated (ascii "hi").length) ↔ allocated = true)) := by
  obtain ⟨s, met, frames⟩ := met_desk
  refine ⟨s, met, fun allocated => met.clipboard_inside ?_ allocated⟩
  rw [met.read (frames ▸ readable_desk), frames]
  decide +kernel

theorem cString_concat_nul (text : List UInt8) : cString (text ++ [0]) = cString text := by
  induction text with
  | nil => rfl
  | cons byte rest ih =>
      unfold cString at ih ⊢
      rw [List.cons_append, List.takeWhile_cons, List.takeWhile_cons, ih]

/-- The clipboard holds the text of the latest frame that sets it, whatever was in the
memory that it is copied to. -/
theorem clipboard_iff (windows : platform ≠ .unix) {gRunning : Bool} {loop : MessageLoop}
    (reach : MessageLoop.Reach platform host allocates
      (.start (minputMainSetup serverAddr clientName serverPort) gRunning) loop)
    (fits : ∀ frame ∈ loop.thread.sys.frames, frame.length < 2 ^ host.sizeTBits)
    (left : Nat → UInt8) (text : List UInt8) :
    (desktop platform host left loop.thread.sys.inputs).clipboard = some text ↔
      ∃ before frame after buffer, loop.thread.sys.frames = before ++ frame :: after ∧
        clipOf? frame = some buffer ∧ text = cString buffer ∧
        ∀ later ∈ after, clipOf? later = none := by
  have met : Met platform host (minputMainSetup serverAddr clientName serverPort) loop.thread.sys :=
    .loop (reach.mono fun _ _ _ => trivial)
  have copied : ∀ frame ∈ loop.thread.sys.frames, ∀ buffer, clipOf? frame = some buffer →
      cString (clipMem host left buffer) = cString buffer := by
    intro frame member buffer clips
    have short := fits frame member
    unfold clipOf? at clips
    split at clips
    · obtain ⟨⟨_, _, header⟩, same⟩ := Option.ite_none_right_eq_some.mp clips
      obtain rfl := Option.some.inj same
      rw [clipMem_eq (by rw [List.length_drop]; omega), cString_concat_nul]
    · cases clips
  have parts : loop.thread.sys.inputs.filterMap Output.clip? =
      loop.thread.sys.frames.filterMap clipOf? := by
    refine met.part fun mouse packet member => clips_packet ?_
    have narrow := fits _ member
    rwa [length_window] at narrow
  rw [clipboard_desktop windows, Registers.last?, parts, ← Registers.last?, Option.map_eq_some_iff]
  simp only [Registers.last?_eq_some_iff]
  constructor
  · rintro ⟨buffer, ⟨before, frame, after, split, clips, still⟩, rfl⟩
    exact ⟨before, frame, after, buffer, split, clips,
      copied frame (by rw [split]; simp) buffer clips, still⟩
  · rintro ⟨before, frame, after, buffer, split, clips, rfl, still⟩
    exact ⟨buffer, ⟨before, frame, after, split, clips, still⟩,
      copied frame (by rw [split]; simp) buffer clips⟩

theorem clipboard_iff_desk : ∃ loop, MessageLoop.Reach .win32 win32Host allocates
      (.start defaultSetup true) loop ∧
    ((desktop .win32 win32Host (fun _ => 0) loop.thread.sys.inputs).clipboard = some (ascii "hi") ↔
      ∃ before frame after buffer, loop.thread.sys.frames = before ++ frame :: after ∧
        clipOf? frame = some buffer ∧ ascii "hi" = cString buffer ∧
        ∀ later ∈ after, clipOf? later = none) := by
  obtain ⟨loop, reach, frames⟩ := reach_desk
  refine ⟨loop, reach, clipboard_iff (by decide) reach (fun frame member => ?_) _ _⟩
  exact (readable_desk frame (frames ▸ member)).2

end Runs

end MinputHop
