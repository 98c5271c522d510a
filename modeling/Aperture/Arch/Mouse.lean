import Aperture.Machine.Signed

/-!
# Mouse packets

The mouse sends packets of three bytes, and the interrupt handler puts them together byte by byte. A
packet has two movements of nine bits, whose sign bits are in its first byte. The handler takes the
other two bytes as signed numbers of eight bits instead, so a fast movement goes the other way.
-/

namespace Aperture.Arch

open Machine

/-- `Ord::clamp`. -/
def clamp (value low high : Int) : Int :=
  if value < low then low else if value > high then high else value

/-- The state of the PS/2 mouse. -/
structure Mouse where
  /-- `MOUSE_X`. -/
  x : Int
  /-- `MOUSE_Y`. -/
  y : Int
  /-- `MOUSE_BTN`. -/
  btn : UInt8
  /-- `MOUSE_CYCLE`. -/
  cycle : Nat
  /-- `MOUSE_PACKET`, of three bytes. -/
  packet : Nat → Int8

namespace Mouse

/-- The statics as the kernel starts. -/
def initial : Mouse := ⟨100, 100, 0, 0, fun _ => 0⟩

/-- `mouse_interrupt_handler`, on the byte read from the port. -/
def interruptHandler (mouse : Mouse) (port : UInt8) : Except Panic Mouse := do
  let byte := port.toInt8
  if mouse.cycle = 0 ∧ byte &&& 0x08 = 0 then return mouse
  if mouse.cycle < 3 then
    let packet := Function.update mouse.packet mouse.cycle byte
    let cycle := (mouse.cycle + 1) % 3
    if cycle = 0 then
      let dx := (packet 1).toInt
      let dy := (packet 2).toInt
      let x ← addI32 mouse.x dx
      let y ← subI32 mouse.y dy
      return {
        x := clamp x 0 1279
        y := clamp y 0 1023
        btn := (packet 0).toUInt8 &&& 0x07
        cycle
        packet
      }
    else return { mouse with cycle, packet }
  else throw .outOfRange

/-- Interrupts one after the other. -/
def deliver (mouse : Mouse) (bytes : List UInt8) : Except Panic Mouse :=
  bytes.foldlM interruptHandler mouse

/-- `mouse_position`. -/
def position (mouse : Mouse) : Int × Int := (mouse.x, mouse.y)

/-- `mouse_buttons`. -/
def buttons (mouse : Mouse) : UInt8 := mouse.btn

end Mouse

/-! ## What the mouse sends -/

/-- A number of nine bits with the given sign bit and lower byte. -/
def nineBits (sign : Bool) (low : UInt8) : Int := if sign then (low.toNat : Int) - 256 else low.toNat

/-- A well-formed PS/2 packet. -/
structure MousePacket where
  /-- Buttons, sign bits and overflow bits. -/
  flags : UInt8
  /-- Lower byte of the horizontal movement. -/
  moveX : UInt8
  /-- Lower byte of the vertical movement. -/
  moveY : UInt8
  /-- The start bit is set. -/
  start : flags &&& 0x08 ≠ 0 := by decide
  /-- No movement is too large for nine bits. -/
  noOverflow : flags &&& 0xC0 = 0 := by decide
  deriving DecidableEq, Repr

namespace MousePacket

/-- The horizontal movement. -/
def dx (packet : MousePacket) : Int := nineBits (packet.flags &&& 0x10 != 0) packet.moveX

/-- The vertical movement. -/
def dy (packet : MousePacket) : Int := nineBits (packet.flags &&& 0x20 != 0) packet.moveY

/-- The buttons that are down. -/
def buttons (packet : MousePacket) : UInt8 := packet.flags &&& 0x07

/-- The packet on the wire. -/
def bytes (packet : MousePacket) : List UInt8 := [packet.flags, packet.moveX, packet.moveY]

end MousePacket

/-- Where the pointer is and which buttons are down. -/
structure Pointer where
  /-- Column of the pointer. -/
  x : Int
  /-- Row of the pointer. -/
  y : Int
  /-- The buttons. -/
  buttons : UInt8
  deriving DecidableEq, Repr

namespace Pointer

/-- The pointer before the first packet. -/
def initial : Pointer := ⟨100, 100, 0⟩

/-- The pointer after a movement and with the buttons of a packet. -/
def moved (pointer : Pointer) (dx dy : Int) (buttons : UInt8) : Pointer where
  x := clamp (pointer.x + dx) 0 1279
  y := clamp (pointer.y - dy) 0 1023
  buttons

/-- What a packet does to the pointer. -/
def follow (pointer : Pointer) (packet : MousePacket) : Pointer :=
  pointer.moved packet.dx packet.dy packet.buttons

/-- The pointer is on the screen. -/
structure OnScreen (pointer : Pointer) : Prop where
  /-- Not left of it. -/
  x_nonneg : 0 ≤ pointer.x
  /-- Not right of it. -/
  x_le : pointer.x ≤ 1279
  /-- Not above it. -/
  y_nonneg : 0 ≤ pointer.y
  /-- Not below it. -/
  y_le : pointer.y ≤ 1023

end Pointer

/-- The pointer that the kernel reports. -/
def Mouse.pointer (mouse : Mouse) : Pointer where
  x := mouse.position.1
  y := mouse.position.2
  buttons := mouse.buttons

/-- Behind these bytes and packets the kernel reports the pointer that the packets lead to. -/
def Reports (noise : List UInt8) (packets : List MousePacket) : Prop :=
  ∃ mouse, Mouse.initial.deliver (noise ++ packets.flatMap MousePacket.bytes) = .ok mouse ∧
    mouse.pointer = packets.foldl Pointer.follow .initial

/-! ## Bytes as signed numbers -/

/-- What a packet does to the pointer the way the handler reads it. -/
def Pointer.followBytes (pointer : Pointer) (packet : MousePacket) : Pointer :=
  pointer.moved packet.moveX.toInt8.toInt packet.moveY.toInt8.toInt packet.buttons

/-- A byte as a signed number. -/
theorem toInt_toInt8 (byte : UInt8) :
    byte.toInt8.toInt = if byte.toNat < 128 then (byte.toNat : Int) else byte.toNat - 256 := by
  have value : byte.toInt8.toInt = byte.toBitVec.toInt := rfl
  have number : byte.toBitVec.toNat = byte.toNat := rfl
  rw [value, BitVec.toInt_eq_toNat_cond, number]
  split_ifs <;> omega

/-- The start bit is the same in both readings. -/
theorem start_iff (byte : UInt8) : byte.toInt8 &&& 0x08 = 0 ↔ byte &&& 0x08 = 0 := by
  rw [← Int8.toBitVec_inj, ← UInt8.toBitVec_inj]
  exact Iff.rfl

/-- A movement of nine bits is a multiple of 256 away from its lower byte. -/
theorem nineBits_cases (sign : Bool) (low : UInt8) :
    -256 ≤ nineBits sign low ∧ nineBits sign low ≤ 255 ∧
      (low.toInt8.toInt = nineBits sign low ∧ -128 ≤ nineBits sign low ∧ nineBits sign low < 128 ∨
        low.toInt8.toInt = nineBits sign low - 256 ∧ 128 ≤ nineBits sign low ∨
        low.toInt8.toInt = nineBits sign low + 256 ∧ nineBits sign low < -128) := by
  have small := low.toNat_lt
  rw [toInt_toInt8]
  unfold nineBits
  cases sign with
  | true =>
    simp only [↓reduceIte]
    split_ifs <;> omega
  | false =>
    simp only [Bool.false_eq_true, ↓reduceIte]
    split_ifs <;> omega

/-- Going back from a place is going forward from its mirror image. -/
theorem clamp_sub {value move limit : Int} (nonneg : 0 ≤ limit) :
    clamp (value - move) 0 limit = limit - clamp (limit - value + move) 0 limit := by
  unfold clamp
  split_ifs <;> omega

/-- From a place between zero and a limit, a movement ends where its lower byte as a signed number
does, exactly when they are the same or both end at zero. -/
theorem clamp_read_iff (sign : Bool) (low : UInt8) {value limit : Int} (nonneg : 0 ≤ value)
    (inside : value ≤ limit) (room : 0 < limit) :
    clamp (value + low.toInt8.toInt) 0 limit = clamp (value + nineBits sign low) 0 limit ↔
      -128 ≤ nineBits sign low ∧ nineBits sign low ≤ 127 ∨ nineBits sign low = -256 ∧ value = 0 := by
  obtain ⟨lowest, highest, read⟩ := nineBits_cases sign low
  unfold clamp
  split_ifs <;> omega

/-! ## Packets -/

/-- Both movements of a packet are read as they are, or what they are read as ends at the same edge
of the screen. -/
structure MousePacket.Readable (pointer : Pointer) (packet : MousePacket) : Prop where
  /-- The horizontal one. -/
  horizontal : -128 ≤ packet.dx ∧ packet.dx ≤ 127 ∨ packet.dx = -256 ∧ pointer.x = 0
  /-- The vertical one. -/
  vertical : -128 ≤ packet.dy ∧ packet.dy ≤ 127 ∨ packet.dy = -256 ∧ pointer.y = 1023

namespace Pointer

variable {pointer : Pointer} {packet : MousePacket} {packets : List MousePacket}

/-- A packet leaves the pointer on the screen. -/
theorem onScreen_moved (pointer : Pointer) (dx dy : Int) (buttons : UInt8) :
    (pointer.moved dx dy buttons).OnScreen := by
  constructor <;> (simp only [moved, clamp]; split_ifs <;> omega)

/-- The handler moves the pointer right or left as far as the mouse exactly when it reads the
movement as it is, or when the pointer stays at the left edge. -/
theorem OnScreen.column_iff (onScreen : pointer.OnScreen) :
    clamp (pointer.x + packet.moveX.toInt8.toInt) 0 1279 = clamp (pointer.x + packet.dx) 0 1279 ↔
      -128 ≤ packet.dx ∧ packet.dx ≤ 127 ∨ packet.dx = -256 ∧ pointer.x = 0 :=
  clamp_read_iff _ _ onScreen.x_nonneg onScreen.x_le (by decide)

/-- It moves it up or down as far exactly when it reads the movement as it is, or when the pointer
stays at the lower edge. -/
theorem OnScreen.row_iff (onScreen : pointer.OnScreen) :
    clamp (pointer.y - packet.moveY.toInt8.toInt) 0 1023 = clamp (pointer.y - packet.dy) 0 1023 ↔
      -128 ≤ packet.dy ∧ packet.dy ≤ 127 ∨ packet.dy = -256 ∧ pointer.y = 1023 := by
  have upper := onScreen.y_nonneg
  have lower := onScreen.y_le
  have mirrored : clamp (1023 - pointer.y + packet.moveY.toInt8.toInt) 0 1023 =
      clamp (1023 - pointer.y + packet.dy) 0 1023 ↔
        -128 ≤ packet.dy ∧ packet.dy ≤ 127 ∨ packet.dy = -256 ∧ 1023 - pointer.y = 0 :=
    clamp_read_iff _ _ (by omega) (by omega) (by decide)
  have edge : 1023 - pointer.y = 0 ↔ pointer.y = 1023 := by omega
  rw [clamp_sub (by decide), clamp_sub (by decide), sub_right_inj, mirrored, edge]

/-- So the handler follows exactly the readable packets. -/
theorem OnScreen.followBytes_iff (onScreen : pointer.OnScreen) :
    pointer.followBytes packet = pointer.follow packet ↔ packet.Readable pointer := by
  rw [followBytes, follow, moved, moved, Pointer.mk.injEq, onScreen.column_iff, onScreen.row_iff]
  constructor
  · rintro ⟨horizontal, vertical, _⟩
    exact ⟨horizontal, vertical⟩
  · rintro ⟨horizontal, vertical⟩
    exact ⟨horizontal, vertical, rfl⟩

/-- Every packet is readable where the packets before it lead to. -/
def AllReadable : Pointer → List MousePacket → Prop
  | _, [] => True
  | pointer, packet :: rest => packet.Readable pointer ∧ AllReadable (pointer.follow packet) rest

/-- The handler follows every part of a sequence of packets exactly when every packet is
readable. -/
theorem OnScreen.allReadable_iff (onScreen : pointer.OnScreen) :
    (∀ count, (packets.take count).foldl followBytes pointer =
      (packets.take count).foldl follow pointer) ↔ pointer.AllReadable packets := by
  induction packets generalizing pointer with
  | nil => simp [AllReadable]
  | cons packet rest ih =>
    have next : (pointer.follow packet).OnScreen := onScreen_moved _ _ _ _
    rw [AllReadable, ← onScreen.followBytes_iff, ← ih next]
    constructor
    · intro same
      have first : pointer.followBytes packet = pointer.follow packet := same 1
      refine ⟨first, fun count => ?_⟩
      have longer := same (count + 1)
      rw [List.take_succ_cons, List.foldl_cons, List.foldl_cons, first] at longer
      exact longer
    · rintro ⟨first, others⟩ count
      cases count with
      | zero => rfl
      | succ count =>
        rw [List.take_succ_cons, List.foldl_cons, List.foldl_cons, first]
        exact others count

end Pointer

/-! ## The handler -/

namespace Mouse

variable {mouse : Mouse} {packet : MousePacket}

/-- Between packets the handler skips bytes without the start bit. -/
theorem deliver_noise {noise : List UInt8} (clear : ∀ byte ∈ noise, byte &&& 0x08 = 0)
    (ready : mouse.cycle = 0) (rest : List UInt8) :
    mouse.deliver (noise ++ rest) = mouse.deliver rest := by
  induction noise with
  | nil => rfl
  | cons byte noise ih =>
    have skipped : mouse.interruptHandler byte = .ok mouse := by
      have unset := (start_iff byte).mpr (clear byte List.mem_cons_self)
      rw [interruptHandler, if_pos ⟨ready, unset⟩]
      rfl
    rw [deliver, List.cons_append, List.foldlM_cons, skipped, ok_bind]
    exact ih fun other member => clear other (List.mem_cons_of_mem _ member)

/-- The three bytes of a packet move the pointer. -/
theorem deliver_packet (ready : mouse.cycle = 0) (onScreen : mouse.pointer.OnScreen)
    (packet : MousePacket) :
    ∃ after, mouse.deliver packet.bytes = .ok after ∧ after.cycle = 0 ∧
      after.pointer = mouse.pointer.followBytes packet := by
  have started : ¬(mouse.cycle = 0 ∧ packet.flags.toInt8 &&& 0x08 = 0) := by
    rintro ⟨_, unset⟩
    exact packet.start ((start_iff _).mp unset)
  have first : mouse.interruptHandler packet.flags = .ok { mouse with
      packet := Function.update mouse.packet 0 packet.flags.toInt8
      cycle := 1 } := by
    rw [interruptHandler, if_neg started, ready]
    rfl
  have second (rest : Nat → Int8) : interruptHandler { mouse with packet := rest, cycle := 1 }
      packet.moveX = .ok { mouse with
        packet := Function.update rest 1 packet.moveX.toInt8
        cycle := 2 } := rfl
  have third (held : Nat → Int8) : interruptHandler { mouse with packet := held, cycle := 2 }
      packet.moveY = .ok {
        x := clamp (mouse.x + (held 1).toInt) 0 1279
        y := clamp (mouse.y - packet.moveY.toInt8.toInt) 0 1023
        btn := (held 0).toUInt8 &&& 0x07
        cycle := 0
        packet := Function.update held 2 packet.moveY.toInt8 } := by
    have column : addI32 mouse.x (held 1).toInt = .ok (mouse.x + (held 1).toInt) := by
      have left : 0 ≤ mouse.x := onScreen.x_nonneg
      have right : mouse.x ≤ 1279 := onScreen.x_le
      have low := (held 1).le_toInt
      have high := (held 1).toInt_lt
      exact checkedI32_ok ⟨by omega, by omega⟩
    have row : subI32 mouse.y packet.moveY.toInt8.toInt =
        .ok (mouse.y - packet.moveY.toInt8.toInt) := by
      have upper : 0 ≤ mouse.y := onScreen.y_nonneg
      have lower : mouse.y ≤ 1023 := onScreen.y_le
      have low := packet.moveY.toInt8.le_toInt
      have high := packet.moveY.toInt8.toInt_lt
      exact checkedI32_ok ⟨by omega, by omega⟩
    have two : Function.update held 2 packet.moveY.toInt8 2 = packet.moveY.toInt8 :=
      Function.update_self _ _ _
    have one : Function.update held 2 packet.moveY.toInt8 1 = held 1 :=
      Function.update_of_ne (by decide) _ _
    have zero : Function.update held 2 packet.moveY.toInt8 0 = held 0 :=
      Function.update_of_ne (by decide) _ _
    simp only [interruptHandler, OfNat.ofNat_ne_zero, false_and, ↓reduceIte, Nat.reduceLT,
      Nat.reduceAdd, Nat.reduceMod, one, two, zero, column, row, ok_bind]
    rfl
  have delivered : mouse.deliver packet.bytes = interruptHandler { mouse with
      packet := Function.update (Function.update mouse.packet 0 packet.flags.toInt8) 1
        packet.moveX.toInt8
      cycle := 2 } packet.moveY := by
    rw [deliver, MousePacket.bytes, List.foldlM_cons, first, ok_bind, List.foldlM_cons, second,
      ok_bind, List.foldlM_cons]
    simp only [List.foldlM_nil, bind_pure]
  exact ⟨_, delivered.trans (third _), rfl, rfl⟩

/-- Packets one after the other move the pointer the way the handler reads them. -/
theorem deliver_packets (ready : mouse.cycle = 0) (onScreen : mouse.pointer.OnScreen)
    (packets : List MousePacket) :
    ∃ after, mouse.deliver (packets.flatMap MousePacket.bytes) = .ok after ∧
      after.pointer = packets.foldl Pointer.followBytes mouse.pointer := by
  induction packets generalizing mouse with
  | nil => exact ⟨mouse, rfl, rfl⟩
  | cons packet rest ih =>
    obtain ⟨next, delivered, nextReady, moved⟩ := deliver_packet ready onScreen packet
    have nextOnScreen : next.pointer.OnScreen := by
      rw [moved]
      exact Pointer.onScreen_moved _ _ _ _
    obtain ⟨last, others, followed⟩ := ih nextReady nextOnScreen
    refine ⟨last, ?_, followed.trans (by rw [moved]; rfl)⟩
    rw [deliver, List.flatMap_cons, List.foldlM_append]
    exact bind_eq_ok.mpr ⟨next, delivered, others⟩

/-- Behind any bytes without the start bit the kernel reports the pointer after every part of a
sequence of packets exactly when every packet is readable. -/
theorem reports_iff (noise : List UInt8) (clear : ∀ byte ∈ noise, byte &&& 0x08 = 0)
    (packets : List MousePacket) :
    (∀ count, Reports noise (packets.take count)) ↔ Pointer.initial.AllReadable packets := by
  have onScreen : initial.pointer.OnScreen := ⟨by decide, by decide, by decide, by decide⟩
  have reports (seen : List MousePacket) : Reports noise seen ↔
      seen.foldl Pointer.followBytes .initial = seen.foldl Pointer.follow .initial := by
    obtain ⟨last, delivered, followed⟩ := deliver_packets rfl onScreen seen
    rw [Reports, deliver_noise clear rfl, delivered]
    constructor
    · rintro ⟨mouse, same, pointer⟩
      obtain rfl := Except.ok.inj same
      exact followed.symm.trans pointer
    · intro same
      exact ⟨last, rfl, followed.trans same⟩
  simp only [reports]
  exact Pointer.OnScreen.allReadable_iff onScreen

/-- A movement of 200 to the right moves the pointer 56 to the left. -/
theorem reports_counterexample :
    ¬∀ noise : List UInt8, (∀ byte ∈ noise, byte &&& 0x08 = 0) → ∀ packets, Reports noise packets := by
  intro claimed
  obtain ⟨mouse, delivered, pointer⟩ :=
    claimed [] (by simp) [⟨0x08, 0xC8, 0, by decide, by decide⟩]
  obtain rfl := Except.ok.inj delivered
  exact absurd (congrArg Pointer.x pointer) (by decide)

/-- The law at two slow packets behind a stray byte. -/
theorem reports_iff_slow :
    Reports [0x00]
      [⟨0x09, 0x05, 0x03, by decide, by decide⟩, ⟨0x18, 0xF0, 0x00, by decide, by decide⟩] :=
  (reports_iff [0x00] (by simp)
    [⟨0x09, 0x05, 0x03, by decide, by decide⟩, ⟨0x18, 0xF0, 0x00, by decide, by decide⟩]).mpr
      ⟨⟨.inl (by decide), .inl (by decide)⟩, ⟨.inl (by decide), .inl (by decide)⟩, trivial⟩ 2

end Mouse

end Aperture.Arch
