import Aperture.Arch.Characters
import Aperture.Arch.MouseStream
import Aperture.Gui.Frames
import Aperture.Machine.Run

/-!
# Main loop

Once `win32::self_test` has returned the kernel sets up the desktop and then goes round a loop: it
types the characters that are in the keyboard buffer, looks at the mouse, draws a frame and sleeps
until an interrupt. Interrupts come between any two accesses to what they share with the loop, the
ring of scancodes and the position and the buttons of the mouse. In every interleaving nothing
panics, the terminal is the one of the session that the loop has seen, and every frame shows it.
-/

namespace Aperture

open Machine Arch Gui

/-! ## The loop -/

/-- Where `kernel_main` is. -/
inductive LoopPoint where
  /-- Before `init_compositor`. -/
  | start (buffer : List UInt8) (info : FrameBufferInfo)
  /-- At `render`, in the loop or before it. -/
  | compose (inLoop : Bool)
  /-- In `render`, before it reads the column of the mouse. -/
  | cursorColumn (inLoop : Bool)
  /-- In `render`, behind that. -/
  | cursorRow (inLoop : Bool) (x : Int)
  /-- At `halt_once`. -/
  | halt
  /-- In its `hlt`. -/
  | asleep
  /-- In `read_char`. -/
  | read (reader : Reader)
  /-- In `handle_mouse`, before it reads the column of the mouse. -/
  | mouseColumn
  /-- In `handle_mouse`, before it reads the row. -/
  | mouseRow (x : Int)
  /-- In `handle_mouse`, before it reads the buttons. -/
  | mouseButtons (x y : Int)

/-- Where the main loop is behind an interrupt, which ends `hlt`. -/
def LoopPoint.woken : LoopPoint → LoopPoint
  | .asleep => .read .idle
  | point => point

/-- What interrupts and the main loop work on. -/
structure Kernel where
  /-- The keyboard buffer. -/
  keyboard : Keyboard
  /-- The mouse. -/
  mouse : Mouse
  /-- The desktop. -/
  desktop : Desktop
  /-- Where the main loop is. -/
  point : LoopPoint

/-- What interrupts the main loop. -/
inductive Interrupt where
  /-- The timer, whose interrupt is only acknowledged while the kernel runs. -/
  | timer
  /-- The keyboard. -/
  | key (scancode : UInt8)
  /-- The mouse. -/
  | mouse (byte : UInt8)
  deriving DecidableEq, Repr

/-- What happens. -/
inductive Deed where
  /-- An interrupt. -/
  | interrupt (cause : Interrupt)
  /-- The main loop has read the mouse for `handle_mouse`. -/
  | pointed (x y : Int) (buttons : UInt8)
  /-- The main loop has drawn a frame, with the cursor at a place. -/
  | framed (x y : Int)
  /-- The main loop sleeps on. -/
  | sleep
  /-- The main loop does anything else. -/
  | goOn
  deriving DecidableEq, Repr

/-- What happens, with the scancode that `read_scancode` returns and the one that the interrupt
accepts. -/
abbrev KernelEvent : Type := Deed × Exchange UInt8

namespace Kernel

/-- The kernel in front of `init_compositor`, with this heap left. `win32::self_test` has returned
there, which it does only when it cannot start its program. -/
def initial (heap : Mm.BumpAllocator) (buffer : List UInt8) (info : FrameBufferInfo) : Kernel :=
  ⟨.initial, .initial, .initial ⟨none, heap⟩, .start buffer info⟩

/-- The main loop goes on to its next access to what interrupts change. In `hlt` it sleeps. -/
def advance (k : Kernel) : Except Panic (KernelEvent × Kernel) :=
  match k.point with
  | .start buffer info => do
    let desktop ← k.desktop.boot buffer info
    return ((.goOn, ⟨none, none⟩), { k with desktop, point := .compose false })
  | .compose inLoop => do
    let gui ← k.desktop.gui.compose
    return ((.goOn, ⟨none, none⟩),
      { k with desktop := { k.desktop with gui }, point := .cursorColumn inLoop })
  | .cursorColumn inLoop =>
    return ((.goOn, ⟨none, none⟩), { k with point := .cursorRow inLoop k.mouse.position.1 })
  | .cursorRow inLoop x => do
    let y := k.mouse.position.2
    let gui ← k.desktop.gui.overlay x y
    return ((.framed x y, ⟨none, none⟩),
      { k with
        desktop := { k.desktop with gui }
        point := if inLoop then .halt else .read .idle })
  | .halt => return ((.goOn, ⟨none, none⟩), { k with point := .asleep })
  | .asleep => return ((.sleep, ⟨none, none⟩), k)
  | .read .idle =>
    return ((.goOn, ⟨none, none⟩),
      { k with point := if k.keyboard.isEmpty then .mouseColumn else .read .tested })
  | .read .tested => do
    let scancode ← k.keyboard.first
    return ((.goOn, ⟨none, none⟩), { k with point := .read (.fetched scancode) })
  | .read (.fetched scancode) => do
    let keyboard ← k.keyboard.release
    match charOf scancode with
    | some ch => do
      let desktop ← k.desktop.typeChar ch
      return ((.goOn, ⟨some scancode, none⟩), { k with keyboard, desktop, point := .read .idle })
    | none => return ((.goOn, ⟨some scancode, none⟩), { k with keyboard, point := .mouseColumn })
  | .mouseColumn =>
    return ((.goOn, ⟨none, none⟩), { k with point := .mouseRow k.mouse.position.1 })
  | .mouseRow x =>
    return ((.goOn, ⟨none, none⟩), { k with point := .mouseButtons x k.mouse.position.2 })
  | .mouseButtons x y => do
    let buttons := k.mouse.buttons
    let (_clicked, desktop) ← k.desktop.handleMouse x y buttons
    return ((.pointed x y buttons, ⟨none, none⟩), { k with desktop, point := .compose true })

/-- An interrupt is handled, and a sleeping main loop wakes. The keyboard's handler puts its scancode
into the buffer when that has room. -/
def interrupt (k : Kernel) (cause : Interrupt) : Except Panic (KernelEvent × Kernel) :=
  let woken := { k with point := k.point.woken }
  match cause with
  | .timer => return ((.interrupt cause, ⟨none, none⟩), woken)
  | .key scancode => do
    let keyboard ← k.keyboard.interruptHandler scancode
    let accepted := if k.keyboard.hasRoom then some scancode else none
    return ((.interrupt cause, ⟨none, accepted⟩), { woken with keyboard })
  | .mouse byte => do
    let mouse ← k.mouse.interruptHandler byte
    return ((.interrupt cause, ⟨none, none⟩), { woken with mouse })

/-- An interrupt, or the main loop goes on. The timer's handler spoils a register, so its interrupts
come only where none is in use, in `hlt`. -/
inductive Step : Kernel → KernelEvent → Kernel → Prop
  /-- There is an interrupt. -/
  | interrupt {k after : Kernel} {event : KernelEvent} {cause : Interrupt}
      (allowed : cause = .timer → k.point = .asleep)
      (handled : k.interrupt cause = .ok (event, after)) : Step k event after
  /-- The main loop goes on. -/
  | main {k after : Kernel} {event : KernelEvent} (advanced : k.advance = .ok (event, after)) :
      Step k event after

/-- The main loop goes on without interrupts. -/
def MainStep (k : Kernel) (event : KernelEvent) (after : Kernel) : Prop :=
  k.advance = .ok (event, after)

/-- Without interrupts the steps that read are `read_char`, with `type_char` of its character. -/
theorem run_of_readChar {k : Kernel} {keyboard : Keyboard} {result : Option Char} {desktop : Desktop}
    (here : k.point = .read .idle) (returned : k.keyboard.readChar = .ok (result, keyboard))
    (typed : result.elim (.ok k.desktop) k.desktop.typeChar = .ok desktop) :
    ∃ events, Run MainStep k events { k with
      keyboard, desktop, point := if result.isSome then .read .idle else .mouseColumn } := by
  obtain ⟨⟨scancode, next⟩, read, returned⟩ := bind_eq_ok.mp returned
  unfold Keyboard.readScancode at read
  cases isEmpty : k.keyboard.isEmpty with
  | true =>
    rw [isEmpty, if_pos rfl] at read
    obtain ⟨rfl, rfl⟩ := Prod.mk.inj (Except.ok.inj read)
    obtain ⟨rfl, rfl⟩ := Prod.mk.inj (Except.ok.inj returned)
    obtain rfl := Except.ok.inj typed
    have tested : k.MainStep (.goOn, ⟨none, none⟩) { k with point := .mouseColumn } := by
      rw [MainStep, advance, here, isEmpty]
      rfl
    exact ⟨_, .cons tested (.nil _)⟩
  | false =>
    rw [isEmpty, if_neg Bool.false_ne_true] at read
    obtain ⟨code, first, read⟩ := bind_eq_ok.mp read
    obtain ⟨later, released, read⟩ := bind_eq_ok.mp read
    obtain ⟨rfl, rfl⟩ := Prod.mk.inj (pure_eq_ok.mp read)
    obtain ⟨rfl, rfl⟩ := Prod.mk.inj (pure_eq_ok.mp returned)
    have tested : k.MainStep (.goOn, ⟨none, none⟩) { k with point := .read .tested } := by
      rw [MainStep, advance, here, isEmpty]
      rfl
    have fetched : MainStep { k with point := .read .tested } (.goOn, ⟨none, none⟩)
        { k with point := .read (.fetched code) } := by
      rw [MainStep, advance]
      dsimp only
      rw [first]
      rfl
    have accepted : MainStep { k with point := .read (.fetched code) }
        (.goOn, ⟨some code, none⟩) { k with
          keyboard := later
          desktop
          point := if (charOf code).isSome then .read .idle else .mouseColumn } := by
      rw [MainStep, advance]
      dsimp only
      rw [released, ok_bind]
      cases isChar : charOf code with
      | none =>
        rw [isChar] at typed
        obtain rfl := Except.ok.inj typed
        rfl
      | some ch =>
        rw [isChar] at typed
        have typing : k.desktop.typeChar ch = .ok desktop := typed
        dsimp only
        rw [typing]
        rfl
    exact ⟨_, .cons tested (.cons fetched (.cons accepted (.nil _)))⟩

end Kernel

/-! ## What the loop has seen -/

/-- The session behind what happens: a scancode that is read types its character, and reading the
mouse may be a click. -/
def Gui.Session.follow (session : Session) (event : KernelEvent) : Session :=
  match event.1 with
  | .pointed x y buttons => session.pointed x y buttons
  | _ =>
    match event.2.taken.bind charOf with
    | some ch => session.typed ch
    | none => session

/-- The session that the main loop has seen. -/
def sessionOf (events : List KernelEvent) : Session := events.foldl Session.follow .initial

/-! ## One step -/

namespace Kernel

/-- What the main loop has read of the mouse is on the screen that the handler keeps the pointer
on. -/
def Within (x y : Int) : Prop := 0 ≤ x ∧ x ≤ 1279 ∧ 0 ≤ y ∧ y ≤ 1023

/-- What the main loop has done serves the session, and what it has learnt is true. -/
def Serves (info : FrameBufferInfo) (size : Nat) (session : Session) (k : Kernel) : Prop :=
  match k.point with
  | .start buffer format => format = info ∧ buffer.length = size ∧ session = .initial ∧
      ∃ heap, Bootable info size heap ∧ k.desktop = .initial ⟨none, heap⟩
  | .cursorColumn _ => k.desktop.Serves info size session ∧
      k.desktop.gui.Displays info (sessionColor info session)
  | .cursorRow _ x => k.desktop.Serves info size session ∧
      k.desktop.gui.Displays info (sessionColor info session) ∧ 0 ≤ x ∧ x ≤ 1279
  | .read reader => k.desktop.Serves info size session ∧ reader.Knows k.keyboard.contents
  | .mouseRow x => k.desktop.Serves info size session ∧ 0 ≤ x ∧ x ≤ 1279
  | .mouseButtons x y => k.desktop.Serves info size session ∧ Within x y
  | _ => k.desktop.Serves info size session

/-- Between any two steps the buffer and the mouse are in order, and the main loop serves the
session. -/
structure Consistent (info : FrameBufferInfo) (size : Nat) (session : Session) (k : Kernel) :
    Prop where
  /-- The indices of the buffer are in range. -/
  inside : k.keyboard.Inside
  /-- The mouse is on the screen. -/
  mouse : k.mouse.Consistent
  /-- The session is served. -/
  serves : k.Serves info size session

/-- What an event tells is true: a frame shows the session, and the mouse is read where it can be. -/
def Truthful (info : FrameBufferInfo) (session : Session) (event : KernelEvent) (after : Kernel) :
    Prop :=
  match event.1 with
  | .framed x y => Within x y ∧ after.desktop.gui.Displays info (frameColor info session x y)
  | .pointed x y _ => Within x y
  | _ => True

variable {info : FrameBufferInfo} {size : Nat} {heap : Mm.BumpAllocator} {session : Session}
  {k after : Kernel} {event : KernelEvent}

/-- An exchange of nothing leaves a queue as it is. -/
theorem fifo_nothing {α : Type} (queue : List α) : Fifo queue ⟨none, none⟩ queue :=
  ⟨queue, rfl, (List.append_nil queue).symm⟩

/-- Scancodes that arrive do not disturb the main loop. -/
theorem Serves.arrive (serves : k.Serves info size session) {keyboard : Keyboard}
    {scancode : UInt8} (queued : keyboard.contents = k.keyboard.contents ∨
      keyboard.contents = k.keyboard.contents ++ [scancode]) :
    ({ k with keyboard } : Kernel).Serves info size session := by
  obtain ⟨before, mouse, desktop, point⟩ := k
  cases point with
  | read reader =>
    obtain ⟨served, knows⟩ := serves
    refine ⟨served, ?_⟩
    rcases queued with same | more
    · rw [same]
      exact knows
    · rw [more]
      exact knows.append scancode
  | start buffer format => exact serves
  | compose inLoop => exact serves
  | cursorColumn inLoop => exact serves
  | cursorRow inLoop x => exact serves
  | halt => exact serves
  | asleep => exact serves
  | mouseColumn => exact serves
  | mouseRow x => exact serves
  | mouseButtons x y => exact serves

/-- Nor does being woken. -/
theorem Serves.woken (serves : k.Serves info size session) :
    ({ k with point := k.point.woken } : Kernel).Serves info size session := by
  obtain ⟨keyboard, mouse, desktop, point⟩ := k
  cases point with
  | asleep => exact ⟨serves, trivial⟩
  | start buffer format => exact serves
  | compose inLoop => exact serves
  | cursorColumn inLoop => exact serves
  | cursorRow inLoop x => exact serves
  | halt => exact serves
  | read reader => exact serves
  | mouseColumn => exact serves
  | mouseRow x => exact serves
  | mouseButtons x y => exact serves

/-- In `read_char` the main loop never panics: it takes scancodes from the front of the buffer only,
and serves the session that follows. -/
theorem Consistent.advance_read {keyboard : Keyboard} {mouse : Mouse} {desktop : Desktop}
    {reader : Reader}
    (consistent : Consistent info size session ⟨keyboard, mouse, desktop, .read reader⟩) :
    ∃ event after, advance ⟨keyboard, mouse, desktop, .read reader⟩ = .ok (event, after) ∧
      after.Consistent info size (session.follow event) ∧
      Fifo keyboard.contents event.2 after.keyboard.contents ∧
      Truthful info (session.follow event) event after := by
  obtain ⟨inside, mouseConsistent, serves⟩ := consistent
  obtain ⟨served, knows⟩ := serves
  cases reader with
  | idle =>
    have advanced : advance ⟨keyboard, mouse, desktop, .read .idle⟩ =
        .ok ((.goOn, ⟨none, none⟩), ⟨keyboard, mouse, desktop,
          if keyboard.isEmpty then .mouseColumn else .read .tested⟩) := rfl
    refine ⟨_, _, advanced, ⟨inside, mouseConsistent, ?_⟩, fifo_nothing _, trivial⟩
    cases isEmpty : keyboard.isEmpty with
    | true => exact served
    | false =>
      refine ⟨served, fun empty => ?_⟩
      rw [(Keyboard.isEmpty_iff inside).mpr empty] at isEmpty
      cases isEmpty
  | tested =>
    obtain ⟨scancode, rest, queued⟩ := List.exists_cons_of_ne_nil knows
    have advanced : advance ⟨keyboard, mouse, desktop, .read .tested⟩ =
        .ok ((.goOn, ⟨none, none⟩),
          ⟨keyboard, mouse, desktop, .read (.fetched scancode)⟩) := by
      rw [Kernel.advance]
      dsimp only
      rw [Keyboard.first_eq inside queued]
      rfl
    exact ⟨_, _, advanced, ⟨inside, mouseConsistent, served,
      List.head?_eq_some_iff.mpr ⟨rest, queued⟩⟩, fifo_nothing _, trivial⟩
  | fetched scancode =>
    obtain ⟨rest, queued⟩ := List.head?_eq_some_iff.mp knows
    obtain ⟨next, released, nextInside, left⟩ := Keyboard.release_ok inside queued
    have taken : Fifo keyboard.contents ⟨some scancode, none⟩ next.contents :=
      ⟨rest, queued, left.trans (List.append_nil _).symm⟩
    cases found : charOf scancode with
    | none =>
      have same : session.follow (.goOn, ⟨some scancode, none⟩) = session := by
        simp only [Session.follow, Option.bind_some, found]
      have advanced : advance ⟨keyboard, mouse, desktop, .read (.fetched scancode)⟩ =
          .ok ((.goOn, ⟨some scancode, none⟩), ⟨next, mouse, desktop, .mouseColumn⟩) := by
        rw [Kernel.advance]
        dsimp only
        rw [released, ok_bind, found]
        rfl
      refine ⟨_, _, advanced, ⟨nextInside, mouseConsistent, ?_⟩, taken, trivial⟩
      rw [same]
      exact served
    | some ch =>
      have goesOn : session.follow (.goOn, ⟨some scancode, none⟩) = session.typed ch := by
        simp only [Session.follow, Option.bind_some, found]
      obtain ⟨typed, returned, typedServed⟩ := served.typeChar ch
      have advanced : advance ⟨keyboard, mouse, desktop, .read (.fetched scancode)⟩ =
          .ok ((.goOn, ⟨some scancode, none⟩), ⟨next, mouse, typed, .read .idle⟩) := by
        rw [Kernel.advance]
        dsimp only
        rw [released, ok_bind, found]
        dsimp only
        rw [returned]
        rfl
      refine ⟨_, _, advanced, ⟨nextInside, mouseConsistent, ?_⟩, taken, trivial⟩
      rw [goesOn]
      exact ⟨typedServed, trivial⟩

/-- The main loop never panics: it goes on, takes scancodes from the front of the buffer only, and
serves the session that follows. -/
theorem Consistent.advance (bootable : Bootable info size heap)
    (consistent : k.Consistent info size session) :
    ∃ event after, k.advance = .ok (event, after) ∧
      after.Consistent info size (session.follow event) ∧
      Fifo k.keyboard.contents event.2 after.keyboard.contents ∧
      Truthful info (session.follow event) event after := by
  obtain ⟨keyboard, mouse, desktop, point⟩ := k
  obtain ⟨inside, mouseConsistent, serves⟩ := consistent
  have left : 0 ≤ mouse.position.1 := mouseConsistent.onScreen.x_nonneg
  have right : mouse.position.1 ≤ 1279 := mouseConsistent.onScreen.x_le
  have upper : 0 ≤ mouse.position.2 := mouseConsistent.onScreen.y_nonneg
  have lower : mouse.position.2 ≤ 1023 := mouseConsistent.onScreen.y_le
  cases point with
  | start buffer format =>
    obtain ⟨rfl, length, rfl, heap, bootable, rfl⟩ := serves
    obtain ⟨next, booted, served⟩ := bootable.boot length
    have advanced : advance ⟨keyboard, mouse, .initial ⟨none, heap⟩, .start buffer format⟩ =
        .ok ((.goOn, ⟨none, none⟩), ⟨keyboard, mouse, next, .compose false⟩) := by
      rw [Kernel.advance]
      dsimp only
      rw [booted]
      rfl
    exact ⟨_, _, advanced, ⟨inside, mouseConsistent, served⟩, fifo_nothing _, trivial⟩
  | compose inLoop =>
    obtain ⟨gui, composed, served, displays⟩ := Desktop.Serves.compose serves bootable
    have advanced : advance ⟨keyboard, mouse, desktop, .compose inLoop⟩ =
        .ok ((.goOn, ⟨none, none⟩),
          ⟨keyboard, mouse, { desktop with gui }, .cursorColumn inLoop⟩) := by
      rw [Kernel.advance]
      dsimp only
      rw [composed]
      rfl
    exact ⟨_, _, advanced, ⟨inside, mouseConsistent, served, displays⟩, fifo_nothing _, trivial⟩
  | cursorColumn inLoop =>
    obtain ⟨served, displays⟩ := serves
    exact ⟨_, _, rfl, ⟨inside, mouseConsistent, served, displays, left, right⟩, fifo_nothing _,
      trivial⟩
  | cursorRow inLoop x =>
    obtain ⟨served, displays, low, high⟩ := serves
    obtain ⟨gui, overlaid, kept, shows⟩ := served.overlay bootable displays low high upper lower
    have advanced : advance ⟨keyboard, mouse, desktop, .cursorRow inLoop x⟩ =
        .ok ((.framed x mouse.position.2, ⟨none, none⟩),
          ⟨keyboard, mouse, { desktop with gui }, if inLoop then .halt else .read .idle⟩) := by
      rw [Kernel.advance]
      dsimp only
      rw [overlaid]
      rfl
    refine ⟨_, _, advanced, ⟨inside, mouseConsistent, ?_⟩, fifo_nothing _,
      ⟨low, high, upper, lower⟩, shows⟩
    cases inLoop with
    | true => exact kept
    | false => exact ⟨kept, trivial⟩
  | halt => exact ⟨_, _, rfl, ⟨inside, mouseConsistent, serves⟩, fifo_nothing _, trivial⟩
  | asleep => exact ⟨_, _, rfl, ⟨inside, mouseConsistent, serves⟩, fifo_nothing _, trivial⟩
  | read reader => exact Consistent.advance_read ⟨inside, mouseConsistent, serves⟩
  | mouseColumn =>
    exact ⟨_, _, rfl, ⟨inside, mouseConsistent, serves, left, right⟩, fifo_nothing _, trivial⟩
  | mouseRow x =>
    obtain ⟨served, low, high⟩ := serves
    exact ⟨_, _, rfl, ⟨inside, mouseConsistent, served, low, high, upper, lower⟩, fifo_nothing _,
      trivial⟩
  | mouseButtons x y =>
    obtain ⟨served, within⟩ := serves
    obtain ⟨next, returned, pointed⟩ := served.handleMouse x y mouse.buttons
    have advanced : advance ⟨keyboard, mouse, desktop, .mouseButtons x y⟩ =
        .ok ((.pointed x y mouse.buttons, ⟨none, none⟩),
          ⟨keyboard, mouse, next, .compose true⟩) := by
      rw [Kernel.advance]
      dsimp only
      rw [returned]
      rfl
    exact ⟨_, _, advanced, ⟨inside, mouseConsistent, pointed⟩, fifo_nothing _, within⟩

/-- Interrupts never panic either. They add at most their scancode to the buffer, and disturb no
session. -/
theorem Consistent.interrupt (consistent : k.Consistent info size session) (cause : Interrupt) :
    ∃ event after, k.interrupt cause = .ok (event, after) ∧
      after.Consistent info size (session.follow event) ∧
      Fifo k.keyboard.contents event.2 after.keyboard.contents ∧
      Truthful info (session.follow event) event after ∧ after.point = k.point.woken := by
  cases cause with
  | timer =>
    exact ⟨_, _, rfl, ⟨consistent.inside, consistent.mouse, consistent.serves.woken⟩,
      fifo_nothing _, trivial, rfl⟩
  | key scancode =>
    cases room : k.keyboard.hasRoom with
    | true =>
      obtain ⟨next, returned, nextInside, queued⟩ :=
        Keyboard.interruptHandler_accepts consistent.inside room scancode
      have handled : k.interrupt (.key scancode) = .ok ((.interrupt (.key scancode),
          ⟨none, some scancode⟩), { k with keyboard := next, point := k.point.woken }) := by
        rw [Kernel.interrupt]
        dsimp only
        rw [returned, ok_bind, room]
        rfl
      exact ⟨_, _, handled,
        ⟨nextInside, consistent.mouse, (consistent.serves.arrive (.inr queued)).woken⟩,
        ⟨_, rfl, queued⟩, trivial, rfl⟩
    | false =>
      have returned := Keyboard.interruptHandler_drops consistent.inside room scancode
      have handled : k.interrupt (.key scancode) = .ok ((.interrupt (.key scancode),
          ⟨none, none⟩), { k with point := k.point.woken }) := by
        rw [Kernel.interrupt]
        dsimp only
        rw [returned, ok_bind, room]
        rfl
      exact ⟨_, _, handled, ⟨consistent.inside, consistent.mouse, consistent.serves.woken⟩,
        fifo_nothing _, trivial, rfl⟩
  | mouse byte =>
    obtain ⟨next, returned, nextConsistent, _⟩ := consistent.mouse.interrupt byte
    have handled : k.interrupt (.mouse byte) = .ok ((.interrupt (.mouse byte), ⟨none, none⟩),
        { k with mouse := next, point := k.point.woken }) := by
      rw [Kernel.interrupt]
      dsimp only
      rw [returned]
      rfl
    exact ⟨_, _, handled, ⟨consistent.inside, nextConsistent, consistent.serves.woken⟩,
      fifo_nothing _, trivial, rfl⟩

/-- Interrupts and the main loop keep the kernel consistent, treat the buffer as a queue, and tell
the truth. -/
theorem Consistent.step (bootable : Bootable info size heap)
    (consistent : k.Consistent info size session) (step : Step k event after) :
    after.Consistent info size (session.follow event) ∧
      Fifo k.keyboard.contents event.2 after.keyboard.contents ∧
      Truthful info (session.follow event) event after := by
  cases step with
  | @interrupt _ _ cause _ handled =>
    obtain ⟨same, next, returned, kept, queue, truth, _⟩ := consistent.interrupt cause
    obtain ⟨rfl, rfl⟩ := Prod.mk.inj (Except.ok.inj (returned.symm.trans handled))
    exact ⟨kept, queue, truth⟩
  | main advanced =>
    obtain ⟨same, next, returned, kept⟩ := consistent.advance bootable
    obtain ⟨rfl, rfl⟩ := Prod.mk.inj (Except.ok.inj (returned.symm.trans advanced))
    exact kept

/-- The kernel starts consistent. -/
theorem consistent_initial {buffer : List UInt8} (bootable : Bootable info buffer.length heap) :
    (initial heap buffer info).Consistent info buffer.length .initial :=
  ⟨KeyboardState.consistent_initial.inside, Mouse.consistent_initial, rfl, rfl, rfl, heap, bootable,
    rfl⟩

/-! ## Where the main loop goes -/

/-- What the main loop does at a point, and where it goes. The desktop has no part in it. -/
def next (keyboard : Keyboard) (mouse : Mouse) : LoopPoint → KernelEvent × LoopPoint
  | .start _ _ => ((.goOn, ⟨none, none⟩), .compose false)
  | .compose inLoop => ((.goOn, ⟨none, none⟩), .cursorColumn inLoop)
  | .cursorColumn inLoop => ((.goOn, ⟨none, none⟩), .cursorRow inLoop mouse.position.1)
  | .cursorRow inLoop x =>
    ((.framed x mouse.position.2, ⟨none, none⟩), if inLoop then .halt else .read .idle)
  | .halt => ((.goOn, ⟨none, none⟩), .asleep)
  | .asleep => ((.sleep, ⟨none, none⟩), .asleep)
  | .read .idle =>
    ((.goOn, ⟨none, none⟩), if keyboard.isEmpty then .mouseColumn else .read .tested)
  | .read .tested => ((.goOn, ⟨none, none⟩), .read (.fetched (keyboard.buf keyboard.head)))
  | .read (.fetched scancode) => ((.goOn, ⟨some scancode, none⟩),
      if (charOf scancode).isSome then .read .idle else .mouseColumn)
  | .mouseColumn => ((.goOn, ⟨none, none⟩), .mouseRow mouse.position.1)
  | .mouseRow x => ((.goOn, ⟨none, none⟩), .mouseButtons x mouse.position.2)
  | .mouseButtons x y => ((.pointed x y mouse.buttons, ⟨none, none⟩), .compose true)

/-- It does that, and leaves the mouse alone, and the buffer when it takes nothing from it. -/
theorem advance_next (advanced : k.advance = .ok (event, after)) :
    event = (next k.keyboard k.mouse k.point).1 ∧
      after.point = (next k.keyboard k.mouse k.point).2 ∧ after.mouse = k.mouse ∧
      (event.2.taken = none → after.keyboard = k.keyboard) := by
  obtain ⟨keyboard, mouse, desktop, point⟩ := k
  cases point with
  | start buffer format =>
    obtain ⟨next, _, returned⟩ := bind_eq_ok.mp advanced
    obtain ⟨rfl, rfl⟩ := Prod.mk.inj (pure_eq_ok.mp returned)
    exact ⟨rfl, rfl, rfl, fun _ => rfl⟩
  | compose inLoop =>
    obtain ⟨next, _, returned⟩ := bind_eq_ok.mp advanced
    obtain ⟨rfl, rfl⟩ := Prod.mk.inj (pure_eq_ok.mp returned)
    exact ⟨rfl, rfl, rfl, fun _ => rfl⟩
  | cursorRow inLoop x =>
    obtain ⟨next, _, returned⟩ := bind_eq_ok.mp advanced
    obtain ⟨rfl, rfl⟩ := Prod.mk.inj (pure_eq_ok.mp returned)
    exact ⟨rfl, rfl, rfl, fun _ => rfl⟩
  | mouseButtons x y =>
    obtain ⟨next, _, returned⟩ := bind_eq_ok.mp advanced
    obtain ⟨rfl, rfl⟩ := Prod.mk.inj (pure_eq_ok.mp returned)
    exact ⟨rfl, rfl, rfl, fun _ => rfl⟩
  | read reader =>
    cases reader with
    | idle =>
      obtain ⟨rfl, rfl⟩ := Prod.mk.inj (pure_eq_ok.mp advanced)
      exact ⟨rfl, rfl, rfl, fun _ => rfl⟩
    | tested =>
      obtain ⟨scancode, first, returned⟩ := bind_eq_ok.mp advanced
      obtain ⟨rfl, rfl⟩ := Prod.mk.inj (pure_eq_ok.mp returned)
      have cell : keyboard.buf keyboard.head = scancode := by
        unfold Keyboard.first at first
        split at first
        · exact Except.ok.inj first
        · cases first
      rw [next, cell]
      exact ⟨rfl, rfl, rfl, fun _ => rfl⟩
    | fetched scancode =>
      obtain ⟨released, _, returned⟩ := bind_eq_ok.mp advanced
      rw [next]
      cases found : charOf scancode with
      | none =>
        rw [found] at returned
        obtain ⟨rfl, rfl⟩ := Prod.mk.inj (pure_eq_ok.mp returned)
        exact ⟨rfl, rfl, rfl, fun untaken => by cases untaken⟩
      | some ch =>
        rw [found] at returned
        obtain ⟨typed, _, returned⟩ := bind_eq_ok.mp returned
        obtain ⟨rfl, rfl⟩ := Prod.mk.inj (pure_eq_ok.mp returned)
        exact ⟨rfl, rfl, rfl, fun untaken => by cases untaken⟩
  | cursorColumn inLoop =>
    obtain ⟨rfl, rfl⟩ := Prod.mk.inj (pure_eq_ok.mp advanced)
    exact ⟨rfl, rfl, rfl, fun _ => rfl⟩
  | halt =>
    obtain ⟨rfl, rfl⟩ := Prod.mk.inj (pure_eq_ok.mp advanced)
    exact ⟨rfl, rfl, rfl, fun _ => rfl⟩
  | asleep =>
    obtain ⟨rfl, rfl⟩ := Prod.mk.inj (pure_eq_ok.mp advanced)
    exact ⟨rfl, rfl, rfl, fun _ => rfl⟩
  | mouseColumn =>
    obtain ⟨rfl, rfl⟩ := Prod.mk.inj (pure_eq_ok.mp advanced)
    exact ⟨rfl, rfl, rfl, fun _ => rfl⟩
  | mouseRow x =>
    obtain ⟨rfl, rfl⟩ := Prod.mk.inj (pure_eq_ok.mp advanced)
    exact ⟨rfl, rfl, rfl, fun _ => rfl⟩

/-! ## Catching up -/

/-- The main loop is left alone, but for an interrupt whenever it sleeps. -/
def WokenStep (wake : Kernel → Interrupt) (k : Kernel) (event : KernelEvent) (after : Kernel) :
    Prop :=
  match k.point with
  | .asleep => k.interrupt (wake k) = .ok (event, after)
  | _ => k.MainStep event after

/-- How far a point is at most from a frame, with so many scancodes in the buffer. -/
def toFrame (queued : Nat) : LoopPoint → Nat
  | .cursorRow _ _ => 1
  | .cursorColumn _ => 2
  | .compose _ => 3
  | .start _ _ => 4
  | .mouseButtons _ _ => 4
  | .mouseRow _ => 5
  | .mouseColumn => 6
  | .read (.fetched _) => 3 * queued + 5
  | .read .tested => 3 * queued + 6
  | .read .idle => 3 * queued + 7
  | .asleep => 3 * queued + 11
  | .halt => 3 * queued + 12

/-- How far it is at most from taking a scancode, when there are any. -/
def toTake : LoopPoint → Nat
  | .read (.fetched _) => 1
  | .read .tested => 2
  | .read .idle => 3
  | .asleep => 4
  | .halt => 5
  | .cursorRow _ _ => 6
  | .cursorColumn _ => 7
  | .compose _ => 8
  | .start _ _ => 9
  | .mouseButtons _ _ => 9
  | .mouseRow _ => 10
  | .mouseColumn => 11

/-- A step brings the main loop closer to a frame, unless it is one, and to taking a scancode when
there are any, unless it does. -/
def Nears (k : Kernel) (event : KernelEvent) (after : Kernel) : Prop :=
  ((∃ x y exchange, event = (.framed x y, exchange)) ∨
    toFrame after.keyboard.contents.length after.point <
      toFrame k.keyboard.contents.length k.point) ∧
  (k.keyboard.contents ≠ [] → event.2.taken = none →
    after.keyboard.contents ≠ [] ∧ toTake after.point < toTake k.point)

/-- So do the steps of the main loop. -/
theorem Consistent.nears (consistent : k.Consistent info size session)
    (awake : k.point ≠ .asleep) (advanced : k.advance = .ok (event, after))
    (queue : Fifo k.keyboard.contents event.2 after.keyboard.contents) : Nears k event after := by
  obtain ⟨isEvent, there, _, kept⟩ := advance_next advanced
  have goes : (event, after.point) = next k.keyboard k.mouse k.point := Prod.ext isEvent there
  obtain ⟨keyboard, mouse, desktop, point⟩ := k
  obtain ⟨inside, _, serves⟩ := consistent
  have same (nothing : event.2.taken = none) : after.keyboard = keyboard := kept nothing
  cases point with
  | start buffer format =>
    obtain ⟨rfl, there⟩ := Prod.mk.inj goes
    rw [Nears, there, same rfl]
    exact ⟨.inr (Nat.lt_succ_self 3), fun some _ => ⟨some, Nat.lt_succ_self 8⟩⟩
  | compose inLoop =>
    obtain ⟨rfl, there⟩ := Prod.mk.inj goes
    rw [Nears, there, same rfl]
    exact ⟨.inr (Nat.lt_succ_self 2), fun some _ => ⟨some, Nat.lt_succ_self 7⟩⟩
  | cursorColumn inLoop =>
    obtain ⟨rfl, there⟩ := Prod.mk.inj goes
    rw [Nears, there, same rfl]
    exact ⟨.inr (Nat.lt_succ_self 1), fun some _ => ⟨some, Nat.lt_succ_self 6⟩⟩
  | cursorRow inLoop x =>
    obtain ⟨rfl, there⟩ := Prod.mk.inj goes
    rw [Nears, there, same rfl]
    refine ⟨.inl ⟨_, _, _, rfl⟩, fun some _ => ⟨some, ?_⟩⟩
    cases inLoop with
    | true => exact Nat.lt_succ_self 5
    | false => exact (by decide : 3 < 6)
  | halt =>
    obtain ⟨rfl, there⟩ := Prod.mk.inj goes
    rw [Nears, there, same rfl]
    exact ⟨.inr (Nat.lt_succ_self _), fun some _ => ⟨some, Nat.lt_succ_self 4⟩⟩
  | asleep => exact absurd rfl awake
  | read reader =>
    cases reader with
    | idle =>
      obtain ⟨rfl, there⟩ := Prod.mk.inj goes
      have test := Keyboard.isEmpty_iff inside
      rw [Nears, there, same rfl]
      cases isEmpty : keyboard.isEmpty with
      | true =>
        refine ⟨.inr ?_, fun some _ => absurd (test.mp isEmpty) some⟩
        simp only [↓reduceIte, toFrame]
        omega
      | false => exact ⟨.inr (Nat.lt_succ_self _), fun some _ => ⟨some, Nat.lt_succ_self 2⟩⟩
    | tested =>
      obtain ⟨rfl, there⟩ := Prod.mk.inj goes
      rw [Nears, there, same rfl]
      exact ⟨.inr (Nat.lt_succ_self _), fun some _ => ⟨some, Nat.lt_succ_self 1⟩⟩
    | fetched scancode =>
      obtain ⟨rfl, there⟩ := Prod.mk.inj goes
      obtain ⟨rest, queued, left⟩ := queue
      have shorter : keyboard.contents.length = after.keyboard.contents.length + 1 := by
        rw [left, queued]
        simp
      refine ⟨.inr ?_, fun _ untaken => by cases untaken⟩
      rw [there]
      dsimp only
      rw [shorter]
      cases (charOf scancode).isSome with
      | true => simp only [↓reduceIte, toFrame]; omega
      | false => simp only [Bool.false_eq_true, ↓reduceIte, toFrame]; omega
  | mouseColumn =>
    obtain ⟨rfl, there⟩ := Prod.mk.inj goes
    rw [Nears, there, same rfl]
    exact ⟨.inr (Nat.lt_succ_self 5), fun some _ => ⟨some, Nat.lt_succ_self 10⟩⟩
  | mouseRow x =>
    obtain ⟨rfl, there⟩ := Prod.mk.inj goes
    rw [Nears, there, same rfl]
    exact ⟨.inr (Nat.lt_succ_self 4), fun some _ => ⟨some, Nat.lt_succ_self 9⟩⟩
  | mouseButtons x y =>
    obtain ⟨rfl, there⟩ := Prod.mk.inj goes
    rw [Nears, there, same rfl]
    exact ⟨.inr (Nat.lt_succ_self 3), fun some _ => ⟨some, Nat.lt_succ_self 8⟩⟩

/-- There is always such a step, asleep or awake. -/
theorem Consistent.woken (bootable : Bootable info size heap)
    (consistent : k.Consistent info size session) (wake : Kernel → Interrupt) :
    ∃ event after, WokenStep wake k event after ∧
      after.Consistent info size (session.follow event) ∧ Nears k event after := by
  by_cases asleep : k.point = .asleep
  · obtain ⟨event, after, handled, kept, ⟨rest, queued, left⟩, _, there⟩ :=
      consistent.interrupt (wake k)
    rw [asleep] at there
    have untaken : event.2.taken = none := by
      cases cause : wake k with
      | timer =>
        rw [cause] at handled
        obtain ⟨rfl, _⟩ := Prod.mk.inj (pure_eq_ok.mp handled)
        rfl
      | key scancode =>
        rw [cause] at handled
        obtain ⟨_, _, returned⟩ := bind_eq_ok.mp handled
        obtain ⟨rfl, _⟩ := Prod.mk.inj (pure_eq_ok.mp returned)
        rfl
      | mouse byte =>
        rw [cause] at handled
        obtain ⟨_, _, returned⟩ := bind_eq_ok.mp handled
        obtain ⟨rfl, _⟩ := Prod.mk.inj (pure_eq_ok.mp returned)
        rfl
    rw [untaken] at queued
    obtain rfl : k.keyboard.contents = rest := queued
    refine ⟨event, after, ?_, kept, .inr ?_, fun some _ => ⟨?_, ?_⟩⟩
    · rw [WokenStep, asleep]
      exact handled
    · have few : event.2.added.toList.length ≤ 1 := by
        cases event.2.added <;> simp
      rw [there, asleep, left, List.length_append]
      simp only [LoopPoint.woken, toFrame]
      omega
    · rw [left]
      exact List.append_ne_nil_of_left_ne_nil some _
    · rw [there, asleep]
      decide
  · obtain ⟨event, after, advanced, kept, queue, _⟩ := consistent.advance bootable
    refine ⟨event, after, ?_, kept, consistent.nears asleep advanced queue⟩
    unfold WokenStep
    split
    · exact absurd ‹_› asleep
    · exact advanced

/-- The steps of a loop that is woken are steps of the kernel. -/
theorem run_of_woken {last : Kernel} {events : List KernelEvent} {wake : Kernel → Interrupt}
    (run : Run (WokenStep wake) k events last) : Run Step k events last := by
  induction run with
  | nil k => exact .nil k
  | @cons first middle last event events head _ ih =>
    refine .cons ?_ ih
    unfold WokenStep at head
    split at head
    · rename_i asleep
      exact .interrupt (fun _ => asleep) head
    · exact .main head

/-- The main loop draws a frame. -/
theorem Consistent.frames (bootable : Bootable info size heap)
    (consistent : k.Consistent info size session) (wake : Kernel → Interrupt) :
    ∃ more done, Run (WokenStep wake) k more done ∧
      ∃ x y exchange, more.getLast? = some (.framed x y, exchange) := by
  generalize distant : toFrame k.keyboard.contents.length k.point = bound
  induction bound using Nat.strong_induction_on generalizing k session with
  | h bound ih =>
    obtain ⟨event, next, step, kept, ⟨x, y, exchange, rfl⟩ | closer, _⟩ :=
      consistent.woken bootable wake
    · exact ⟨[_], next, .cons step (.nil next), x, y, exchange, rfl⟩
    · obtain ⟨more, done, run, x, y, exchange, isFrame⟩ := ih _ (distant ▸ closer) kept rfl
      refine ⟨event :: more, done, .cons step run, x, y, exchange, ?_⟩
      rw [List.getLast?_cons, isFrame]
      rfl

/-- From a buffer that is not empty it takes a scancode. -/
theorem Consistent.takes (bootable : Bootable info size heap)
    (consistent : k.Consistent info size session) (wake : Kernel → Interrupt)
    (queued : k.keyboard.contents ≠ []) :
    ∃ more done, Run (WokenStep wake) k more done ∧ takenBy more ≠ [] := by
  generalize distant : toTake k.point = bound
  induction bound using Nat.strong_induction_on generalizing k session with
  | h bound ih =>
    obtain ⟨event, next, step, kept, _, approach⟩ := consistent.woken bootable wake
    cases taken : event.2.taken with
    | some scancode =>
      refine ⟨[event], next, .cons step (.nil next), ?_⟩
      rw [takenBy_cons, taken]
      exact List.cons_ne_nil _ _
    | none =>
      obtain ⟨still, closer⟩ := approach queued taken
      obtain ⟨more, done, run, some⟩ := ih _ (distant ▸ closer) kept still rfl
      refine ⟨event :: more, done, .cons step run, ?_⟩
      rw [takenBy_cons, taken]
      exact some

/-! ## Runs -/

variable {last : Kernel} {events : List KernelEvent}

/-- A run keeps the kernel consistent with the session that follows, treats the buffer as a queue,
and its last event is true. -/
theorem Consistent.run (bootable : Bootable info size heap)
    (consistent : k.Consistent info size session) (run : Run Step k events last) :
    last.Consistent info size (events.foldl Session.follow session) ∧
      Run (fun before (event : KernelEvent) after => Fifo before event.2 after)
        k.keyboard.contents events last.keyboard.contents ∧
      ∀ event, events.getLast? = some event →
        Truthful info (events.foldl Session.follow session) event last := by
  induction run generalizing session with
  | nil k => exact ⟨consistent, .nil _, fun event none => by cases none⟩
  | @cons first middle last event events head tail ih =>
    obtain ⟨next, queue, truth⟩ := consistent.step bootable head
    obtain ⟨kept, queues, truths⟩ := ih next
    refine ⟨kept, .cons queue queues, fun final isLast => ?_⟩
    cases tail with
    | nil =>
      obtain rfl := Option.some.inj isLast
      exact truth
    | cons second rest =>
      rw [List.getLast?_cons_cons] at isLast
      exact truths final isLast

/-- The main loop takes so many of the scancodes that are in the buffer, and draws a frame. -/
theorem Consistent.drains (bootable : Bootable info size heap)
    (consistent : k.Consistent info size session) (wake : Kernel → Interrupt) {count : Nat}
    (queued : count ≤ k.keyboard.contents.length) :
    ∃ more done, Run (WokenStep wake) k more done ∧ count ≤ (takenBy more).length ∧
      ∃ x y exchange, more.getLast? = some (.framed x y, exchange) := by
  induction count using Nat.strong_induction_on generalizing k session with
  | h count ih =>
    cases count with
    | zero =>
      obtain ⟨more, done, run, isFrame⟩ := consistent.frames bootable wake
      exact ⟨more, done, run, Nat.zero_le _, isFrame⟩
    | succ count =>
      have isSome : k.keyboard.contents ≠ [] := by
        intro isEmpty
        rw [isEmpty, List.length_nil] at queued
        omega
      obtain ⟨early, middle, first, taken⟩ := consistent.takes bootable wake isSome
      obtain ⟨kept, queue, _⟩ := consistent.run bootable (run_of_woken first)
      have lengths := congrArg List.length (fifo_run queue)
      rw [List.length_append, List.length_append] at lengths
      have progress := List.length_pos_of_ne_nil taken
      obtain ⟨later, done, second, more, x, y, exchange, isFrame⟩ :=
        ih (count + 1 - (takenBy early).length) (by omega) kept (by omega)
      have whole : (takenBy (early ++ later)).length =
          (takenBy early).length + (takenBy later).length := by
        rw [takenBy, List.filterMap_append, List.length_append]
        rfl
      refine ⟨early ++ later, done, first.append second, by omega, x, y, exchange, ?_⟩
      rw [List.getLast?_append, isFrame]
      rfl

/-- Whatever the main loop is at, the statics of the desktop are those of the session. -/
theorem Serves.statics (serves : k.Serves info size session) :
    k.desktop.terminalWindow.isSome = session.isOpen ∧ k.desktop.Holds session.line ∧
      session.Fits := by
  have served (desktop : Desktop) (serves : desktop.Serves info size session) :
      desktop.terminalWindow.isSome = session.isOpen ∧ desktop.Holds session.line ∧
        session.Fits := by
    refine ⟨?_, serves.holds, serves.fits⟩
    rw [serves.terminalWindow]
    cases session.isOpen <;> rfl
  obtain ⟨keyboard, mouse, desktop, point⟩ := k
  cases point with
  | start buffer format =>
    obtain ⟨_, _, rfl, heap, _, rfl⟩ := serves
    exact ⟨rfl, ⟨List.length_replicate, rfl, rfl⟩, Nat.zero_le _,
      fun ch member => absurd member List.not_mem_nil⟩
  | compose inLoop => exact served desktop serves
  | cursorColumn inLoop => exact served desktop serves.1
  | cursorRow inLoop x => exact served desktop serves.1
  | halt => exact served desktop serves
  | asleep => exact served desktop serves
  | read reader => exact served desktop serves.1
  | mouseColumn => exact served desktop serves
  | mouseRow x => exact served desktop serves.1
  | mouseButtons x y => exact served desktop serves.1

/-- What the terminal is behind a run: it is open when the mouse has clicked on the button, and its
line is what the scancodes taken from the buffer have typed since. These are the first ones that the
interrupt accepted, in their order, and the others are still in the buffer. -/
structure Follows (events : List KernelEvent) (k : Kernel) : Prop where
  /-- No scancode is lost, doubled or out of order. -/
  order : addedBy events = takenBy events ++ k.keyboard.contents
  /-- The terminal is open or closed. -/
  terminal : k.desktop.terminalWindow.isSome = (sessionOf events).isOpen
  /-- The bytes in use are the characters of its line. -/
  line : k.desktop.terminalText.take k.desktop.terminalTextLen =
    (sessionOf events).line.map byteOf
  /-- They are read back as these characters. -/
  text : fromUtf8 (k.desktop.terminalText.take k.desktop.terminalTextLen) =
    some (sessionOf events).line
  /-- There are at most 256. -/
  short : k.desktop.terminalTextLen ≤ 256

/-- In every interleaving of interrupts with the main loop the terminal follows the session that the
loop has seen. -/
theorem run_follows {buffer : List UInt8} (bootable : Bootable info buffer.length heap)
    (run : Run Step (initial heap buffer info) events last) : last.Follows events := by
  obtain ⟨consistent, queue, _⟩ := (consistent_initial bootable).run bootable run
  obtain ⟨terminal, holds, fits⟩ := consistent.serves.statics
  refine ⟨fifo_run queue, terminal, holds.bytes, ?_, ?_⟩
  · rw [holds.bytes]
    exact fromUtf8_ascii fits.ascii
  · rw [holds.count]
    exact fits.short

/-- A screen of 640 by 480 pixels. -/
def vga : FrameBufferInfo := ⟨640, 480, 640, 4, .rgb⟩

/-- With a heap of 15 MiB the desktop starts on it. -/
theorem bootable_vga :
    Bootable vga (List.replicate 1228800 (0 : UInt8)).length ⟨0x100000, 0x100000, 0x1000000⟩ := by
  rw [List.length_replicate]
  exact {
    supported := ⟨.inl rfl, .inr rfl, by decide, by decide, by decide⟩
    wide := by decide
    high := by decide
    pixels := by decide
    room := by decide
    word := by decide }

/-- Interrupts of the mouse come one after the other, while the main loop is awake. -/
theorem run_of_deliver {bytes : List UInt8} {mouse : Mouse} (awake : k.point.woken = k.point)
    (delivered : k.mouse.deliver bytes = .ok mouse) :
    Run Step k (bytes.map fun byte => (.interrupt (.mouse byte), ⟨none, none⟩))
      { k with mouse } := by
  induction bytes generalizing k with
  | nil =>
    obtain rfl := Except.ok.inj delivered
    exact .nil k
  | cons byte bytes ih =>
    rw [Mouse.deliver, List.foldlM_cons] at delivered
    obtain ⟨middle, handled, rest⟩ := bind_eq_ok.mp delivered
    have step : k.interrupt (.mouse byte) =
        .ok ((.interrupt (.mouse byte), ⟨none, none⟩), { k with mouse := middle }) := by
      rw [interrupt]
      dsimp only
      rw [handled, awake]
      rfl
    exact .cons (.interrupt (fun timer => by cases timer) step)
      (@ih { k with mouse := middle } awake rest)

/-- So many steps of the main loop, as long as it takes nothing from the buffer. -/
def route (keyboard : Keyboard) (mouse : Mouse) : Nat → LoopPoint → List KernelEvent × LoopPoint
  | 0, point => ([], point)
  | steps + 1, point =>
    let behind := route keyboard mouse steps (next keyboard mouse point).2
    ((next keyboard mouse point).1 :: behind.1, behind.2)

/-- It goes this way. -/
theorem Consistent.route (bootable : Bootable info size heap)
    (consistent : k.Consistent info size session) (steps : Nat)
    (untaken : takenBy (route k.keyboard k.mouse steps k.point).1 = []) :
    ∃ desktop, Run Step k (route k.keyboard k.mouse steps k.point).1
      { k with desktop, point := (route k.keyboard k.mouse steps k.point).2 } := by
  induction steps generalizing k session with
  | zero => exact ⟨k.desktop, .nil k⟩
  | succ steps ih =>
    obtain ⟨event, after, advanced, kept, _⟩ := consistent.advance bootable
    obtain ⟨isEvent, there, sameMouse, sameKeyboard⟩ := advance_next advanced
    obtain ⟨keyboard, mouse, desktop, point⟩ := after
    obtain rfl : point = (next k.keyboard k.mouse k.point).2 := there
    rw [Kernel.route, takenBy_cons, ← isEvent, List.append_eq_nil_iff] at untaken
    obtain rfl : keyboard = k.keyboard := sameKeyboard (Option.toList_eq_nil_iff.mp untaken.1)
    obtain rfl : mouse = k.mouse := sameMouse
    obtain ⟨last, run⟩ := ih kept untaken.2
    rw [Kernel.route, ← isEvent]
    exact ⟨last, .cons (.main advanced) run⟩

/-- A mouse that has moved to the button of the taskbar and holds its left button down. -/
def clicking : Mouse where
  x := 50
  y := 10
  btn := 1
  cycle := 0
  packet := Function.update (Function.update (Function.update (fun _ => 0) 0 9) 1 (-50)) 2 90

/-- A buffer with the scancode of `a`. -/
def holdingA : Keyboard := ⟨Function.update (fun _ => 0) 0 0x1E, 0, 1⟩

/-- The mouse clicks on the button as the kernel starts, and a key is pressed as the main loop is
about to sleep. -/
def clickEvents : List KernelEvent :=
  ([0x09, 0xCE, 0x5A].map fun byte => (.interrupt (.mouse byte), ⟨none, none⟩)) ++
    ((route .initial clicking 11 (.start [] vga)).1 ++
      [(.interrupt (.key 0x1E), ⟨none, some 0x1E⟩), (.goOn, ⟨none, none⟩)])

/-- That is a run, and the main loop sleeps with the scancode in the buffer. -/
theorem run_click : ∃ desktop, Run Step
    (initial ⟨0x100000, 0x100000, 0x1000000⟩ (List.replicate 1228800 0) vga) clickEvents
    ⟨holdingA, clicking, desktop, .asleep⟩ := by
  have moved := @run_of_deliver
    (initial ⟨0x100000, 0x100000, 0x1000000⟩ (List.replicate 1228800 0) vga) [0x09, 0xCE, 0x5A]
    clicking rfl rfl
  obtain ⟨consistent, _⟩ := (consistent_initial bootable_vga).run bootable_vga moved
  obtain ⟨desktop, started⟩ := consistent.route bootable_vga 11 rfl
  have key : interrupt ⟨.initial, clicking, desktop, .halt⟩ (.key 0x1E) =
      .ok ((.interrupt (.key 0x1E), ⟨none, some 0x1E⟩), ⟨holdingA, clicking, desktop, .halt⟩) := rfl
  have halted : advance ⟨holdingA, clicking, desktop, .halt⟩ =
      .ok ((.goOn, ⟨none, none⟩), ⟨holdingA, clicking, desktop, .asleep⟩) := rfl
  exact ⟨desktop, moved.append (started.append
    (.cons (.interrupt (fun timer => by cases timer) key) (.cons (.main halted) (.nil _))))⟩

/-- The law at that run, once the timer has woken the main loop: the terminal is open and shows the
character. -/
theorem run_follows_typed : ∃ events last,
    Run Step (initial ⟨0x100000, 0x100000, 0x1000000⟩ (List.replicate 1228800 0) vga) events last ∧
      last.Follows events ∧ last.desktop.terminalWindow.isSome = true ∧
      fromUtf8 (last.desktop.terminalText.take last.desktop.terminalTextLen) = some ['a'] := by
  obtain ⟨desktop, clicked⟩ := run_click
  have woken : interrupt ⟨holdingA, clicking, desktop, .asleep⟩ .timer =
      .ok ((.interrupt .timer, ⟨none, none⟩), ⟨holdingA, clicking, desktop, .read .idle⟩) := rfl
  have awake := clicked.append (.cons (.interrupt (fun _ => rfl) woken) (.nil _))
  obtain ⟨consistent, _⟩ := (consistent_initial bootable_vga).run bootable_vga awake
  obtain ⟨later, reading⟩ := consistent.route bootable_vga 2 rfl
  have fetched := awake.append reading
  obtain ⟨consistent, _⟩ := (consistent_initial bootable_vga).run bootable_vga fetched
  obtain ⟨event, last, typing, _⟩ := consistent.advance bootable_vga
  obtain ⟨rfl, _⟩ := advance_next typing
  have run := fetched.append (.cons (.main typing) (.nil last))
  have follows := run_follows bootable_vga run
  refine ⟨_, last, run, follows, ?_, ?_⟩
  · rw [follows.terminal]
    rfl
  · rw [follows.text]
    rfl

/-- Behind a run nothing panics, neither the main loop nor an interrupt. A frame that has just been
drawn shows the session, with the cursor at a place where the mouse can be. -/
structure Alive (info : FrameBufferInfo) (events : List KernelEvent) (k : Kernel) : Prop where
  /-- The main loop does not panic. -/
  goesOn : ∃ event after, k.advance = .ok (event, after)
  /-- Nor does an interrupt. -/
  interrupted : ∀ cause, ∃ event after, k.interrupt cause = .ok (event, after)
  /-- What the screen shows. -/
  frame : ∀ x y exchange, events.getLast? = some (.framed x y, exchange) →
    Within x y ∧ k.desktop.gui.Displays info (frameColor info (sessionOf events) x y)

/-- In every interleaving of interrupts with the main loop nothing panics, and every frame shows the
desktop, the terminal with its line when it is open, and the cursor over both. -/
theorem run_alive {buffer : List UInt8} (bootable : Bootable info buffer.length heap)
    (run : Run Step (initial heap buffer info) events last) : last.Alive info events := by
  obtain ⟨consistent, _, truths⟩ := (consistent_initial bootable).run bootable run
  refine ⟨?_, fun cause => ?_, fun x y exchange isLast => truths _ isLast⟩
  · obtain ⟨event, after, advanced, _⟩ := consistent.advance bootable
    exact ⟨event, after, advanced⟩
  · obtain ⟨event, after, handled, _⟩ := consistent.interrupt cause
    exact ⟨event, after, handled⟩

/-- The law at a run that draws a frame. -/
theorem run_alive_framed :
    ∃ events last x y, Run Step (initial ⟨0x100000, 0x100000, 0x1000000⟩
        (List.replicate 1228800 0) vga) events last ∧
      last.desktop.gui.Displays vga (frameColor vga (sessionOf events) x y) := by
  obtain ⟨more, done, woken, x, y, exchange, isFrame⟩ :=
    (consistent_initial bootable_vga).frames bootable_vga fun _ => .timer
  have alive := run_alive bootable_vga (run_of_woken woken)
  exact ⟨more, done, x, y, run_of_woken woken, (alive.frame x y exchange isFrame).2⟩

/-- From every state that a run reaches, the main loop catches up with any interrupts that come
whenever it sleeps, and no others: it takes every scancode that has been accepted, and draws a frame
that shows the session with all of them typed. -/
theorem run_catchesUp {buffer : List UInt8} (bootable : Bootable info buffer.length heap)
    (run : Run Step (initial heap buffer info) events last) (wake : Kernel → Interrupt) :
    ∃ more done, Run (WokenStep wake) last more done ∧
      addedBy events <+: takenBy (events ++ more) ∧
      ∃ x y, done.desktop.gui.Displays info (frameColor info (sessionOf (events ++ more)) x y) := by
  obtain ⟨consistent, queue, _⟩ := (consistent_initial bootable).run bootable run
  obtain ⟨more, done, woken, enough, x, y, exchange, isFrame⟩ :=
    consistent.drains bootable wake (Nat.le_refl last.keyboard.contents.length)
  obtain ⟨_, rest, truths⟩ := consistent.run bootable (run_of_woken woken)
  have order : addedBy events = takenBy events ++ last.keyboard.contents := fifo_run queue
  have first : last.keyboard.contents <+: takenBy more :=
    List.prefix_of_prefix_length_le (fifo_run rest ▸ List.prefix_append _ _)
      (List.prefix_append _ _) enough
  refine ⟨more, done, woken, ?_, x, y, ?_⟩
  · have taken : takenBy (events ++ more) = takenBy events ++ takenBy more :=
      List.filterMap_append
    rw [order, taken]
    exact (List.prefix_append_right_inj _).mpr first
  · rw [sessionOf, List.foldl_append]
    exact (truths _ isFrame).2

/-- The law at the main loop that sleeps with a scancode in the buffer: when the timer wakes it, it
takes the scancode and draws the session. -/
theorem run_catchesUp_asleep : ∃ (more : List KernelEvent) (done : Kernel) (x y : Int),
    [0x1E] <+: takenBy (clickEvents ++ more) ∧
      done.desktop.gui.Displays vga (frameColor vga (sessionOf (clickEvents ++ more)) x y) := by
  obtain ⟨desktop, clicked⟩ := run_click
  obtain ⟨more, done, _, taken, x, y, displays⟩ :=
    run_catchesUp bootable_vga clicked fun _ => .timer
  exact ⟨more, done, x, y, taken, displays⟩

end Kernel

end Aperture
