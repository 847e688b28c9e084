import Mathlib.Data.List.Nodup
import MinputHop.Program.Arguments
import MinputHop.Program.Reply

/-!
# Input events on Windows

The functions of `osio_win.c` that pass an input event or a clipboard to Windows.
32-bit Windows has `mouse_event()` and `keybd_event()`; on 16-bit Windows the
functions of that name load registers and call into `USER`.
-/

namespace MinputHop

/-! ## Calls into Windows -/

/-- A call that the rest of the desktop notices. -/
inductive DesktopCall where
  | setCursorPos (x y : Int)
  | mouseEvent (flags dx dy data extraInfo : UInt32)
  | keybdEvent (vk scan : UInt8) (flags extraInfo : UInt32)
  /-- `call dword ptr [g_mouse_event_proc]` -/
  | mouseEventProc (ax bx cx dx si di : UInt16)
  /-- `call dword ptr [g_keybd_event_proc]` -/
  | keybdEventProc (ax bx si di : UInt16)
  /-- `SetClipboardData( CF_TEXT, clip_mem_h )`, with the bytes of the allocation. -/
  | setClipboardData (mem : List UInt8)
  deriving DecidableEq

def mouseeventfLeftdown : UInt32 := 0x00000002
def mouseeventfLeftup : UInt32 := 0x00000004
def mouseeventfRightdown : UInt32 := 0x00000008
def mouseeventfRightup : UInt32 := 0x00000010
def keyeventfKeyup : UInt32 := 0x00000002

def osioMouseLeft : UInt16 := 0x01

def hiword (n : UInt32) : UInt16 := (n >>> 16).toUInt16
def loword (n : UInt32) : UInt16 := n.toUInt16

/-- A register from its two halves. -/
def reg16 (hi lo : UInt8) : UInt16 := hi.toUInt16 <<< 8 ||| lo.toUInt16

theorem toNat_reg16 (hi lo : UInt8) : (reg16 hi lo).toNat = hi.toNat * 256 + lo.toNat := by
  have below := hi.toNat_lt
  have small : hi.toNat <<< 8 % 2 ^ 16 = hi.toNat <<< 8 := by
    rw [Nat.shiftLeft_eq]
    omega
  have apart := Nat.shiftLeft_add_eq_or_of_lt (i := 8) lo.toNat_lt hi.toNat
  unfold reg16
  rw [UInt16.toNat_or, UInt16.toNat_shiftLeft, UInt8.toNat_toUInt16, UInt8.toNat_toUInt16]
  change hi.toNat <<< 8 % 2 ^ 16 ||| lo.toNat = _
  rw [small, ← apart, Nat.shiftLeft_eq]

/-- The low half is the virtual key. -/
@[simp] theorem toUInt8_reg16 (hi lo : UInt8) : (reg16 hi lo).toUInt8 = lo := by
  have below := lo.toNat_lt
  apply UInt8.toNat_inj.mp
  rw [UInt16.toNat_toUInt8, toNat_reg16]
  omega

/-- The highest bit is that of the high half. -/
@[simp] theorem reg16_lt_iff (hi lo : UInt8) : reg16 hi lo < 0x8000 ↔ hi < 0x80 := by
  have below := lo.toNat_lt
  rw [UInt16.lt_iff_toNat_lt, UInt8.lt_iff_toNat_lt, toNat_reg16]
  change hi.toNat * 256 + lo.toNat < 32768 ↔ hi.toNat < 128
  omega

/-- `mouse_event()` of 16-bit Windows; the flags are passed as a `WORD`. -/
def mouseEvent16 (flags dx dy data : UInt16) (extraInfo : UInt32) : DesktopCall :=
  .mouseEventProc flags dx dy data (hiword extraInfo) (loword extraInfo)

/-- `keybd_event()` of 16-bit Windows. -/
def keybdEvent16 (vk scan : UInt8) (flags extraInfo : UInt32) : DesktopCall :=
  let flagsHi : UInt8 := if keyeventfKeyup = keyeventfKeyup &&& flags then 0x80 else 0
  .keybdEventProc (reg16 flagsHi vk) (reg16 flagsHi scan) (hiword extraInfo) (loword extraInfo)

def mouseEvent (platform : Platform) (flags : UInt32) (dx dy : UInt16) (data extraInfo : UInt32) :
    DesktopCall :=
  if platform = .win16 then mouseEvent16 flags.toUInt16 dx dy data.toUInt16 extraInfo
  else .mouseEvent flags dx.toUInt32 dy.toUInt32 data extraInfo

def keybdEvent (platform : Platform) (vk scan : UInt8) (flags extraInfo : UInt32) : DesktopCall :=
  if platform = .win16 then keybdEvent16 vk scan flags extraInfo
  else .keybdEvent vk scan flags extraInfo

/-! ## The mouse and the keyboard -/

/-- A `uint16_t` as an argument of type `int`. -/
def Platform.intOf (platform : Platform) (n : UInt16) : Int :=
  if platform = .win16 then n.toInt16.toInt else n.toNat

def osioMouseMove (platform : Platform) (mouseX mouseY : UInt16) : DesktopCall :=
  .setCursorPos (platform.intOf mouseX) (platform.intOf mouseY)

def osioMouseDown (platform : Platform) (mouseX mouseY mouseBtn : UInt16) : DesktopCall :=
  mouseEvent platform
    (if osioMouseLeft = mouseBtn then mouseeventfLeftdown else mouseeventfRightdown)
    mouseX mouseY 0 0

def osioMouseUp (platform : Platform) (mouseX mouseY mouseBtn : UInt16) : DesktopCall :=
  mouseEvent platform
    (if osioMouseLeft = mouseBtn then mouseeventfLeftup else mouseeventfRightup)
    mouseX mouseY 0 0

/-- The `switch` of `osio_win_key`, case by case: the characters, `VK_BACK` to `VK_MENU`,
`VK_PAUSE` to `VK_HOME`, `VK_LEFT` to `VK_DELETE`, the number pad, `VK_F1` to `VK_NUMLOCK`. -/
def keyCases : List (UInt16 × UInt16) :=
  [(0x60, 0xc0), (0x7e, 0xc0), (0x31, 0x31), (0x21, 0x31), (0x32, 0x32), (0x40, 0x32),
    (0x23, 0x33), (0x33, 0x33), (0x24, 0x34), (0x34, 0x34), (0x25, 0x35), (0x35, 0x35),
    (0x36, 0x36), (0x5e, 0x36), (0x26, 0x37), (0x37, 0x37), (0x2a, 0x38), (0x38, 0x38),
    (0x28, 0x39), (0x39, 0x39), (0x29, 0x30), (0x30, 0x30), (0x2d, 0xbd), (0x5f, 0xbd),
    (0x2b, 0xbb), (0x3d, 0xbb), (0x2c, 0xbc), (0x3c, 0xbc), (0x2e, 0xbe), (0x3e, 0xbe),
    (0x2f, 0xbf), (0x3f, 0xbf), (0x3a, 0xba), (0x3b, 0xba), (0x22, 0xde), (0x27, 0xde),
    (0x5b, 0xdb), (0x7b, 0xdb), (0x5d, 0xdd), (0x7d, 0xdd), (0x5c, 0xdc), (0x7c, 0xdc),
    (0xef08, 0x08), (0xef09, 0x09), (0xef0d, 0x0d),
    (0xefe1, 0x10), (0xefe2, 0x10), (0xefe3, 0x11), (0xefe4, 0x11), (0xefe9, 0x12),
    (0xef13, 0x13), (0xef1b, 0x1b), (0x0020, 0x20), (0xef55, 0x21), (0xef56, 0x22),
    (0xef57, 0x23), (0xef50, 0x24),
    (0xef51, 0x25), (0xef52, 0x26), (0xef53, 0x27), (0xef54, 0x28), (0xef61, 0x2c),
    (0xef63, 0x2d), (0xefff, 0x2e),
    (0xefb0, 0x60), (0xefb1, 0x61), (0xefb2, 0x62), (0xefb3, 0x63), (0xefb4, 0x64),
    (0xefb5, 0x65), (0xefb6, 0x66), (0xefb7, 0x67), (0xefb8, 0x68), (0xefb9, 0x69),
    (0xefaa, 0x6a), (0xefab, 0x6b), (0xefad, 0x6d), (0xefae, 0x6e), (0xefaf, 0x6f),
    (0xefbe, 0x70), (0xefbf, 0x71), (0xefc0, 0x72), (0xefc1, 0x73), (0xefc2, 0x74),
    (0xefc3, 0x75), (0xefc4, 0x76), (0xefc5, 0x77), (0xefc6, 0x78), (0xefc7, 0x79),
    (0xefc8, 0x7a), (0xefc9, 0x7b), (0xef7f, 0x90)]

/-- `osio_win_key`: the new `*key_id` and `*key_btn`.  What is in no case stays as it is. -/
def osioWinKey (keyId _keyMod keyBtn : UInt16) : UInt16 × UInt16 :=
  let keyBtn := keyBtn - 8
  if keyId ≥ 0x61 ∧ keyId ≤ 0x7a then
    (keyId - 32, keyBtn)
  else
    ((keyCases.lookup keyId).getD keyId, keyBtn)

/-- Both arguments are passed as a `BYTE`. -/
def osioKeyDown (platform : Platform) (keyId keyMod keyBtn : UInt16) : DesktopCall :=
  let (keyId, keyBtn) := osioWinKey keyId keyMod keyBtn
  keybdEvent platform keyId.toUInt8 keyBtn.toUInt8 0 0

def osioKeyUp (platform : Platform) (keyId keyMod keyBtn : UInt16) : DesktopCall :=
  let (keyId, keyBtn) := osioWinKey keyId keyMod keyBtn
  keybdEvent platform keyId.toUInt8 keyBtn.toUInt8 keyeventfKeyup 0

/-! ## The clipboard -/

/-- The argument of `GlobalAlloc()`, computed as a `size_t`. -/
def clipAllocSz (host : Host) (bufferSz : Nat) : Nat := (bufferSz + 1) % 2 ^ host.sizeTBits

/-- The bytes behind the pointer of `GlobalLock()`, which is null where `GlobalAlloc()`
failed: the copy is made all the same. -/
def clipBlockSz (host : Host) (allocated : Bool) (bufferSz : Nat) : Nat :=
  if allocated then clipAllocSz host bufferSz else 0

/-- The stores to the allocation: the copy, and the NUL behind it. -/
def clipStores (buffer : List UInt8) : List (Nat × UInt8) :=
  stringStores 0 buffer ++ [(buffer.length, 0)]

/-- What `SetClipboardData()` finds in the allocation, `left` before it is written. -/
def clipMem (host : Host) (left : Nat → UInt8) (buffer : List UInt8) : List UInt8 :=
  FlatMemory.window (applyStores 0 left (clipStores buffer)) 0 (clipAllocSz host buffer.length)

/-- `osio_set_clipboard` when `GlobalAlloc()` gives memory. -/
def osioSetClipboard (host : Host) (left : Nat → UInt8) (buffer : List UInt8) : DesktopCall :=
  .setClipboardData (clipMem host left buffer)

theorem mem_stringStores {buffer : List UInt8} {outPos : Nat} {store : Nat × UInt8}
    (member : store ∈ stringStores outPos buffer) :
    outPos ≤ store.1 ∧ store.1 < outPos + buffer.length := by
  induction buffer generalizing outPos with
  | nil => simp [stringStores] at member
  | cons byte rest ih =>
      rw [List.length_cons]
      rcases List.mem_cons.mp member with rfl | member
      · dsimp only
        omega
      · have later := ih member
        omega

/-- All stores are within the allocation, if there is one and its size does not wrap
around to 0. -/
theorem clipStores_inside_iff {host : Host} {allocated : Bool} {buffer : List UInt8}
    (fits : buffer.length < 2 ^ host.sizeTBits) :
    (∀ store ∈ clipStores buffer, store.1 < clipBlockSz host allocated buffer.length) ↔
      allocated = true ∧ buffer.length + 1 ≠ 2 ^ host.sizeTBits := by
  unfold clipStores clipBlockSz clipAllocSz
  constructor
  · intro inside
    have nul := inside (buffer.length, 0) (List.mem_append_right _ (List.mem_singleton_self _))
    cases allocated with
    | false => exact absurd nul (Nat.not_lt_zero _)
    | true =>
        refine ⟨rfl, fun wraps => ?_⟩
        rw [if_pos rfl, wraps, Nat.mod_self] at nul
        exact Nat.not_lt_zero _ nul
  · rintro ⟨rfl, apart⟩ store member
    rw [if_pos rfl, Nat.mod_eq_of_lt (by omega)]
    rcases List.mem_append.mp member with copied | nul
    · have inside := (mem_stringStores copied).2
      omega
    · rw [List.mem_singleton.mp nul]
      exact Nat.lt_succ_self _

/-- Then Windows gets the buffer with a NUL behind it, whatever was there before. -/
theorem clipMem_eq {host : Host} {buffer : List UInt8}
    (fits : buffer.length + 1 < 2 ^ host.sizeTBits) (left : Nat → UInt8) :
    clipMem host left buffer = buffer ++ [0] := by
  have written : applyStores 0 left (clipStores buffer) = FlatMemory.blit left 0 (buffer ++ [0]) := by
    rw [clipStores, applyStores_append, applyStores_stringStores, ← FlatMemory.update_blit]
    rfl
  have whole := FlatMemory.window_blit left 0 (buffer ++ [0])
  rw [List.length_append, List.length_singleton, ← written] at whole
  rw [clipMem, clipAllocSz, Nat.mod_eq_of_lt fits]
  exact whole

/-- What Windows is called for.  On Unix the functions only log, and key repeats are
dropped. -/
def osioCall? (platform : Platform) (host : Host) (left : Nat → UInt8) :
    Output → Option DesktopCall
  | .reply _ | .keyRpt _ _ _ => none
  | .mouseMove x y => if platform = .unix then none else some (osioMouseMove platform x y)
  | .mouseDown x y btn => if platform = .unix then none else some (osioMouseDown platform x y btn)
  | .mouseUp x y btn => if platform = .unix then none else some (osioMouseUp platform x y btn)
  | .keyDown id mod btn => if platform = .unix then none else some (osioKeyDown platform id mod btn)
  | .keyUp id mod btn => if platform = .unix then none else some (osioKeyUp platform id mod btn)
  | .setClipboard buffer =>
      if platform = .unix then none else some (osioSetClipboard host left buffer)

/-! ## Which key it is -/

/-- The virtual key that Windows gets for the key of a packet. -/
def virtualKey (keyId : UInt16) : UInt8 := (osioWinKey keyId 0 0).1.toUInt8

theorem osioWinKey_eq (keyId keyMod keyBtn : UInt16) :
    osioWinKey keyId keyMod keyBtn = ((osioWinKey keyId 0 0).1, keyBtn - 8) := by
  unfold osioWinKey
  split_ifs <;> rfl

theorem osioKeyDown_eq (platform : Platform) (keyId keyMod keyBtn : UInt16) :
    osioKeyDown platform keyId keyMod keyBtn =
      keybdEvent platform (virtualKey keyId) (keyBtn - 8).toUInt8 0 0 := by
  unfold osioKeyDown virtualKey
  rw [osioWinKey_eq]

theorem osioKeyUp_eq (platform : Platform) (keyId keyMod keyBtn : UInt16) :
    osioKeyUp platform keyId keyMod keyBtn =
      keybdEvent platform (virtualKey keyId) (keyBtn - 8).toUInt8 keyeventfKeyup 0 := by
  unfold osioKeyUp virtualKey
  rw [osioWinKey_eq]

/-- The keys of a US keyboard that the table knows, each with the ids it can have:
without Shift and with it, or left and right. -/
def keyboard : List (List UInt16) :=
  ((List.range 26).map fun i => [0x61 + UInt16.ofNat i, 0x41 + UInt16.ofNat i]) ++
  [[0x60, 0x7e], [0x31, 0x21], [0x32, 0x40], [0x33, 0x23], [0x34, 0x24], [0x35, 0x25],
    [0x36, 0x5e], [0x37, 0x26], [0x38, 0x2a], [0x39, 0x28], [0x30, 0x29], [0x2d, 0x5f],
    [0x3d, 0x2b], [0x5b, 0x7b], [0x5d, 0x7d], [0x5c, 0x7c], [0x3b, 0x3a], [0x27, 0x22],
    [0x2c, 0x3c], [0x2e, 0x3e], [0x2f, 0x3f], [0x20], [0xefe1, 0xefe2], [0xefe3, 0xefe4]] ++
  [0xef08, 0xef09, 0xef0d, 0xefe9, 0xef13, 0xef1b, 0xef55, 0xef56, 0xef57, 0xef50, 0xef51,
    0xef52, 0xef53, 0xef54, 0xef61, 0xef63, 0xefff, 0xefb0, 0xefb1, 0xefb2, 0xefb3, 0xefb4,
    0xefb5, 0xefb6, 0xefb7, 0xefb8, 0xefb9, 0xefaa, 0xefab, 0xefad, 0xefae, 0xefaf, 0xefbe,
    0xefbf, 0xefc0, 0xefc1, 0xefc2, 0xefc3, 0xefc4, 0xefc5, 0xefc6, 0xefc7, 0xefc8, 0xefc9,
    0xef7f].map fun id => [id]

/-- The virtual key of a key of the keyboard. -/
def keyCode (key : List UInt16) : UInt8 := virtualKey (key.headD 0)

/-- All ids of a key are sent as one virtual key. -/
theorem virtualKey_of_mem {key : List UInt16} (onKeyboard : key ∈ keyboard) {id : UInt16}
    (member : id ∈ key) : virtualKey id = keyCode key := by
  have all : (keyboard.all fun key => key.all fun id => virtualKey id == keyCode key) = true := by
    decide +kernel
  have each := List.all_eq_true.mp all key onKeyboard
  exact eq_of_beq (List.all_eq_true.mp each id member)

/-- No two keys are sent as the same one. -/
theorem nodup_keyCodes : (keyboard.map fun key => (keyCode key).toNat).Nodup := by
  have listed : (keyboard.map fun key => (keyCode key).toNat) =
      (List.range 26).map (65 + ·) ++ [192] ++ (List.range 9).map (49 + ·) ++
        [48, 189, 187, 219, 221, 220, 186, 222, 188, 190, 191, 32, 16, 17, 8, 9, 13, 18, 19, 27,
          33, 34, 35, 36, 37, 38, 39, 40, 44, 45, 46] ++ (List.range 10).map (96 + ·) ++
        [106, 107, 109, 110, 111] ++ (List.range 12).map (112 + ·) ++ [144] := by
    decide +kernel
  rw [listed]
  decide +kernel

/-- An id of some key is sent as the virtual key of the keys that it is an id of. -/
theorem virtualKey_eq_keyCode_iff {key key' : List UInt16} (first : key ∈ keyboard)
    (second : key' ∈ keyboard) {id : UInt16} (member : id ∈ key') :
    virtualKey id = keyCode key ↔ id ∈ key := by
  constructor
  · intro same
    rw [virtualKey_of_mem second member] at same
    obtain rfl := List.inj_on_of_nodup_map nodup_keyCodes second first
      (congrArg UInt8.toNat same)
    exact member
  · exact virtualKey_of_mem first

end MinputHop
