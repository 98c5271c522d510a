import Aperture.Machine.Fifo
import Aperture.Machine.Ring

/-!
# Keyboard buffer

The keyboard interrupt puts scancodes into a ring of 32 bytes that `read_scancode` takes them from.
The reader holds no lock, so the interrupt can come between any two of its accesses to the ring. It
moves the head only after it has read the byte there, and the interrupt never fills the cell before
the head, so the byte stays where it is until it has been read.
-/

namespace Aperture.Arch

open Machine

/-- `KEYBOARD_BUF_SIZE`. -/
def keyboardBufSize : Nat := 32

/-- The ring buffer. -/
structure Keyboard where
  /-- `KEYBOARD_BUF`. -/
  buf : Nat → UInt8
  /-- `KEYBOARD_HEAD`. -/
  head : Nat
  /-- `KEYBOARD_TAIL`. -/
  tail : Nat

namespace Keyboard

/-- The statics as the kernel starts. -/
def initial : Keyboard := ⟨fun _ => 0, 0, 0⟩

/-- The emptiness test of `read_scancode`. -/
def isEmpty (keyboard : Keyboard) : Bool := keyboard.head == keyboard.tail

/-- The buffer read of `read_scancode`. -/
def first (keyboard : Keyboard) : Except Panic UInt8 :=
  if keyboard.head < keyboardBufSize then .ok (keyboard.buf keyboard.head) else .error .outOfRange

/-- The head update of `read_scancode`. -/
def release (keyboard : Keyboard) : Except Panic Keyboard := do
  let next ← add64 keyboard.head 1
  return { keyboard with head := next % keyboardBufSize }

/-- `read_scancode`. -/
def readScancode (keyboard : Keyboard) : Except Panic (Option UInt8 × Keyboard) := do
  if keyboard.isEmpty then return (none, keyboard)
  let scancode ← keyboard.first
  let released ← keyboard.release
  return (some scancode, released)

/-- The free cell check of `keyboard_interrupt_handler`. -/
def hasRoom (keyboard : Keyboard) : Bool := (keyboard.tail + 1) % keyboardBufSize != keyboard.head

/-- `keyboard_interrupt_handler`, on the scancode read from the port. -/
def interruptHandler (keyboard : Keyboard) (scancode : UInt8) : Except Panic Keyboard := do
  let next ← add64 keyboard.tail 1
  if keyboard.hasRoom then
    if keyboard.tail < keyboardBufSize then
      return { keyboard with
        buf := Function.update keyboard.buf keyboard.tail scancode
        tail := next % keyboardBufSize }
    else throw .outOfRange
  else return keyboard

/-- The buffer as a ring. -/
def ring (keyboard : Keyboard) : RingBuffer UInt8 := ⟨keyboard.buf, keyboard.head, keyboard.tail⟩

/-- The scancodes that are in the buffer. -/
def contents (keyboard : Keyboard) : List UInt8 := keyboard.ring.contents keyboardBufSize

/-- Both indices are indices of the buffer. -/
def Inside (keyboard : Keyboard) : Prop := keyboard.ring.Inside keyboardBufSize

end Keyboard

/-! ## Interleavings -/

/-- Where `read_scancode` is. -/
inductive Reader where
  /-- Before its emptiness test. -/
  | idle
  /-- Behind the test, which found a scancode. -/
  | tested
  /-- Behind the read of the buffer. -/
  | fetched (scancode : UInt8)
  deriving DecidableEq, Repr

/-- The buffer and its reader. -/
structure KeyboardState where
  /-- The buffer. -/
  keyboard : Keyboard
  /-- The reader. -/
  reader : Reader

/-- Nothing has arrived and nothing is being read. -/
def KeyboardState.initial : KeyboardState := ⟨.initial, .idle⟩

/-- What happens next. -/
inductive KeyboardOp where
  /-- A keyboard interrupt. -/
  | interrupt (scancode : UInt8)
  /-- The reader tests for emptiness. -/
  | test
  /-- The reader reads the buffer. -/
  | fetch
  /-- The reader updates the head and returns. -/
  | release
  deriving DecidableEq, Repr

/-- One operation, with the scancode `read_scancode` returns and the one the interrupt accepts. -/
inductive KeyboardStep : KeyboardState → KeyboardOp × Exchange UInt8 → KeyboardState → Prop
  /-- The interrupt puts its scancode into the buffer. -/
  | accept {keyboard after : Keyboard} {reader : Reader} {scancode : UInt8}
      (room : keyboard.hasRoom = true) (handled : keyboard.interruptHandler scancode = .ok after) :
      KeyboardStep ⟨keyboard, reader⟩ (.interrupt scancode, ⟨none, some scancode⟩) ⟨after, reader⟩
  /-- The interrupt drops its scancode. -/
  | drop {keyboard after : Keyboard} {reader : Reader} {scancode : UInt8}
      (full : keyboard.hasRoom = false) (handled : keyboard.interruptHandler scancode = .ok after) :
      KeyboardStep ⟨keyboard, reader⟩ (.interrupt scancode, ⟨none, none⟩) ⟨after, reader⟩
  /-- The reader finds the buffer empty and returns nothing. -/
  | empty {keyboard : Keyboard} (isEmpty : keyboard.isEmpty = true) :
      KeyboardStep ⟨keyboard, .idle⟩ (.test, ⟨none, none⟩) ⟨keyboard, .idle⟩
  /-- The reader finds a scancode. -/
  | found {keyboard : Keyboard} (filled : keyboard.isEmpty = false) :
      KeyboardStep ⟨keyboard, .idle⟩ (.test, ⟨none, none⟩) ⟨keyboard, .tested⟩
  /-- The reader reads it. -/
  | fetch {keyboard : Keyboard} {scancode : UInt8} (read : keyboard.first = .ok scancode) :
      KeyboardStep ⟨keyboard, .tested⟩ (.fetch, ⟨none, none⟩) ⟨keyboard, .fetched scancode⟩
  /-- The reader releases the cell and returns the scancode. -/
  | release {keyboard after : Keyboard} {scancode : UInt8} (released : keyboard.release = .ok after) :
      KeyboardStep ⟨keyboard, .fetched scancode⟩ (.release, ⟨some scancode, none⟩) ⟨after, .idle⟩

/-! ## One operation -/

namespace Keyboard

variable {keyboard after : Keyboard}

/-- Indices of the buffer do not overflow when they are advanced. -/
theorem advance_ok {i : Nat} (inside : i < keyboardBufSize) : add64 i 1 = .ok (i + 1) :=
  add64_eq_ok.mpr ⟨by unfold keyboardBufSize at inside; unfold wordSize; omega, rfl⟩

/-- The emptiness test finds out whether there are scancodes. -/
theorem isEmpty_iff (inside : keyboard.Inside) : keyboard.isEmpty = true ↔ keyboard.contents = [] := by
  rw [contents, RingBuffer.Inside.contents_eq_nil inside, isEmpty, beq_iff_eq]
  rfl

/-- There is room unless 31 scancodes are in the buffer. -/
theorem hasRoom_iff (inside : keyboard.Inside) :
    keyboard.hasRoom = false ↔ keyboard.contents.length = 31 := by
  have full := RingBuffer.Inside.count_full inside
  rw [contents, RingBuffer.length_contents, hasRoom, bne_eq_false_iff_eq]
  unfold keyboardBufSize at full ⊢
  exact ⟨fun same => Nat.succ_injective (full.mpr same), fun same => full.mp (congrArg _ same)⟩

/-- With room the interrupt adds its scancode behind the others. -/
theorem interruptHandler_accepts (inside : keyboard.Inside) (room : keyboard.hasRoom = true)
    (scancode : UInt8) :
    ∃ after, keyboard.interruptHandler scancode = .ok after ∧ after.Inside ∧
      after.contents = keyboard.contents ++ [scancode] := by
  have next := advance_ok inside.tail_lt
  have free : (keyboard.ring.tail + 1) % keyboardBufSize ≠ keyboard.ring.head := by
    rw [hasRoom, bne_iff_ne] at room
    exact room
  refine ⟨{ keyboard with
      buf := Function.update keyboard.buf keyboard.tail scancode
      tail := (keyboard.tail + 1) % keyboardBufSize }, ?_,
    RingBuffer.Inside.push inside scancode, RingBuffer.Inside.contents_push inside free scancode⟩
  have tailInside : keyboard.tail < keyboardBufSize := inside.tail_lt
  change (add64 keyboard.tail 1 >>= _) = _
  rw [show add64 keyboard.tail 1 = .ok (keyboard.tail + 1) from next, ok_bind, if_pos room,
    if_pos tailInside]
  rfl

/-- Without room it changes nothing. -/
theorem interruptHandler_drops (inside : keyboard.Inside) (full : keyboard.hasRoom = false)
    (scancode : UInt8) : keyboard.interruptHandler scancode = .ok keyboard := by
  have next := advance_ok inside.tail_lt
  change (add64 keyboard.tail 1 >>= _) = _
  rw [show add64 keyboard.tail 1 = .ok (keyboard.tail + 1) from next, ok_bind, if_neg (by simp [full])]
  rfl

/-- The scancode that arrived first is in the cell at the head, and the others are in the ring behind
that cell. -/
theorem contents_eq_cons (inside : keyboard.Inside) {scancode : UInt8} {rest : List UInt8}
    (queued : keyboard.contents = scancode :: rest) :
    keyboard.buf keyboard.head = scancode ∧
      (keyboard.ring.pop keyboardBufSize).contents keyboardBufSize = rest := by
  have filled : keyboard.ring.head ≠ keyboard.ring.tail := by
    intro same
    rw [contents, (RingBuffer.Inside.contents_eq_nil inside).mpr same] at queued
    cases queued
  rw [contents, RingBuffer.Inside.contents_pop inside filled] at queued
  exact List.cons.inj queued

/-- The reader reads the scancode that arrived first. -/
theorem first_eq (inside : keyboard.Inside) {scancode : UInt8} {rest : List UInt8}
    (queued : keyboard.contents = scancode :: rest) : keyboard.first = .ok scancode := by
  obtain ⟨rfl, _⟩ := contents_eq_cons inside queued
  exact if_pos inside.head_lt

/-- Its head update leaves the others in the buffer. -/
theorem release_ok (inside : keyboard.Inside) {scancode : UInt8} {rest : List UInt8}
    (queued : keyboard.contents = scancode :: rest) :
    ∃ after, keyboard.release = .ok after ∧ after.Inside ∧ after.contents = rest := by
  have next := advance_ok inside.head_lt
  obtain ⟨_, rfl⟩ := contents_eq_cons inside queued
  refine ⟨{ keyboard with head := (keyboard.head + 1) % keyboardBufSize }, ?_,
    RingBuffer.Inside.pop inside, rfl⟩
  change (add64 keyboard.head 1 >>= _) = _
  rw [show add64 keyboard.head 1 = .ok (keyboard.head + 1) from next]
  rfl

end Keyboard

/-! ## Runs -/

/-- What the reader has learnt about the scancodes in the buffer. -/
def Reader.Knows : Reader → List UInt8 → Prop
  | .idle, _ => True
  | .tested, contents => contents ≠ []
  | .fetched scancode, contents => contents.head? = some scancode

/-- The operations of the reader. -/
def KeyboardOp.reads : KeyboardOp → Bool
  | .interrupt _ => false
  | .test => true
  | .fetch => true
  | .release => true

/-- The operations that are left of a read that returns a scancode. -/
def Reader.remaining (scancode : UInt8) : Reader → List (KeyboardOp × Exchange UInt8)
  | .idle => [(.test, ⟨none, none⟩), (.fetch, ⟨none, none⟩), (.release, ⟨some scancode, none⟩)]
  | .tested => [(.fetch, ⟨none, none⟩), (.release, ⟨some scancode, none⟩)]
  | .fetched _ => [(.release, ⟨some scancode, none⟩)]

/-- They are operations of the reader. -/
theorem Reader.remaining_reads (reader : Reader) (scancode : UInt8) :
    ∀ event ∈ reader.remaining scancode, event.1.reads = true := by
  cases reader with
  | idle => simp [remaining, KeyboardOp.reads]
  | tested => simp [remaining, KeyboardOp.reads]
  | fetched held => simp [remaining, KeyboardOp.reads]

/-- Scancodes that arrive do not change what the reader knows. -/
theorem Reader.Knows.append {reader : Reader} {contents : List UInt8}
    (knows : reader.Knows contents) (scancode : UInt8) : reader.Knows (contents ++ [scancode]) := by
  cases reader with
  | idle => trivial
  | tested => simp [Reader.Knows]
  | fetched held =>
    obtain ⟨rest, rfl⟩ := List.head?_eq_some_iff.mp knows
    rfl

/-- `read_scancode` that nothing interrupts is these operations. -/
theorem Keyboard.readScancode_run {keyboard after : Keyboard} {scancode : UInt8}
    (returned : keyboard.readScancode = .ok (some scancode, after)) :
    Run KeyboardStep ⟨keyboard, .idle⟩ (Reader.idle.remaining scancode) ⟨after, .idle⟩ := by
  unfold readScancode at returned
  cases isEmpty : keyboard.isEmpty with
  | true =>
    rw [isEmpty, if_pos rfl] at returned
    cases returned
  | false =>
    rw [isEmpty, if_neg Bool.false_ne_true] at returned
    obtain ⟨read, first, returned⟩ := bind_eq_ok.mp returned
    obtain ⟨next, released, returned⟩ := bind_eq_ok.mp returned
    obtain ⟨same, rfl⟩ := Prod.mk.inj (pure_eq_ok.mp returned)
    obtain rfl := Option.some.inj same
    exact .cons (.found isEmpty) (.cons (.fetch first) (.cons (.release released) (.nil _)))

namespace KeyboardState

/-- The indices are indices of the buffer, and what the reader has learnt is true. -/
structure Consistent (s : KeyboardState) : Prop where
  /-- The indices are. -/
  inside : s.keyboard.Inside
  /-- The reader's knowledge is. -/
  knows : s.reader.Knows s.keyboard.contents

variable {s after last : KeyboardState} {event : KeyboardOp × Exchange UInt8}
  {events : List (KeyboardOp × Exchange UInt8)}

/-- So it is at the start. -/
theorem consistent_initial : initial.Consistent :=
  ⟨⟨by decide, by decide⟩, trivial⟩

/-- One operation keeps that, and treats the buffer as a queue. -/
theorem Consistent.step (consistent : s.Consistent) (step : KeyboardStep s event after) :
    after.Consistent ∧ Fifo s.keyboard.contents event.2 after.keyboard.contents := by
  have inside := consistent.inside
  cases step with
  | accept room handled =>
    obtain ⟨next, returned, nextInside, queued⟩ :=
      Keyboard.interruptHandler_accepts inside room _
    obtain rfl := Except.ok.inj (returned.symm.trans handled)
    refine ⟨⟨nextInside, ?_⟩, _, rfl, queued⟩
    rw [queued]
    exact consistent.knows.append _
  | drop full handled =>
    obtain rfl := Except.ok.inj ((Keyboard.interruptHandler_drops inside full _).symm.trans handled)
    exact ⟨consistent, _, rfl, (List.append_nil _).symm⟩
  | empty isEmpty => exact ⟨consistent, _, rfl, (List.append_nil _).symm⟩
  | found filled =>
    refine ⟨⟨inside, fun empty => ?_⟩, _, rfl, (List.append_nil _).symm⟩
    rw [(Keyboard.isEmpty_iff inside).mpr empty] at filled
    cases filled
  | fetch read =>
    obtain ⟨scancode, rest, queued⟩ := List.exists_cons_of_ne_nil consistent.knows
    obtain rfl := Except.ok.inj ((Keyboard.first_eq inside queued).symm.trans read)
    refine ⟨⟨inside, ?_⟩, _, rfl, (List.append_nil _).symm⟩
    exact List.head?_eq_some_iff.mpr ⟨rest, queued⟩
  | release released =>
    obtain ⟨rest, queued⟩ := List.head?_eq_some_iff.mp consistent.knows
    obtain ⟨next, returned, nextInside, left⟩ := Keyboard.release_ok inside queued
    obtain rfl := Except.ok.inj (returned.symm.trans released)
    exact ⟨⟨nextInside, trivial⟩, rest, queued, left.trans (List.append_nil _).symm⟩

/-- An interrupt is always handled. -/
theorem Consistent.interrupt (consistent : s.Consistent) (scancode : UInt8) :
    ∃ accepted after, KeyboardStep s (.interrupt scancode, ⟨none, accepted⟩) after := by
  cases room : s.keyboard.hasRoom with
  | true =>
    obtain ⟨next, returned, _, _⟩ :=
      Keyboard.interruptHandler_accepts consistent.inside room scancode
    exact ⟨some scancode, ⟨next, s.reader⟩, .accept room returned⟩
  | false =>
    have returned := Keyboard.interruptHandler_drops consistent.inside room scancode
    exact ⟨none, s, .drop room returned⟩

/-- The reader can always go on. -/
theorem Consistent.read (consistent : s.Consistent) :
    ∃ event after, event.1.reads = true ∧ KeyboardStep s event after := by
  obtain ⟨keyboard, reader⟩ := s
  have inside := consistent.inside
  cases reader with
  | idle =>
    cases isEmpty : keyboard.isEmpty with
    | true => exact ⟨_, _, rfl, .empty isEmpty⟩
    | false => exact ⟨_, _, rfl, .found isEmpty⟩
  | tested =>
    obtain ⟨scancode, rest, queued⟩ := List.exists_cons_of_ne_nil consistent.knows
    exact ⟨_, _, rfl, .fetch (Keyboard.first_eq inside queued)⟩
  | fetched scancode =>
    obtain ⟨rest, queued⟩ := List.head?_eq_some_iff.mp consistent.knows
    obtain ⟨after, released, _, _⟩ := Keyboard.release_ok inside queued
    exact ⟨_, _, rfl, .release released⟩

/-- Without interrupts it returns the first scancode in the buffer. -/
theorem Consistent.finish (consistent : s.Consistent) {scancode : UInt8} {rest : List UInt8}
    (queued : s.keyboard.contents = scancode :: rest) :
    ∃ after, Run KeyboardStep s (s.reader.remaining scancode) ⟨after, .idle⟩ ∧ after.Inside ∧
      after.contents = rest := by
  obtain ⟨keyboard, reader⟩ := s
  have inside := consistent.inside
  obtain ⟨after, released, afterInside, left⟩ := Keyboard.release_ok inside queued
  have fetch : KeyboardStep ⟨keyboard, .tested⟩ (.fetch, ⟨none, none⟩)
      ⟨keyboard, .fetched scancode⟩ := .fetch (Keyboard.first_eq inside queued)
  have release : Run KeyboardStep ⟨keyboard, .fetched scancode⟩
      [(.release, ⟨some scancode, none⟩)] ⟨after, .idle⟩ := .cons (.release released) (.nil _)
  refine ⟨after, ?_, afterInside, left⟩
  cases reader with
  | idle =>
    have filled : keyboard.isEmpty = false := by
      rw [Bool.eq_false_iff]
      intro isEmpty
      rw [(Keyboard.isEmpty_iff inside).mp isEmpty] at queued
      cases queued
    exact .cons (.found filled) (.cons fetch release)
  | tested => exact .cons fetch release
  | fetched held =>
    obtain ⟨_, other⟩ := List.head?_eq_some_iff.mp consistent.knows
    obtain ⟨rfl, _⟩ := List.cons.inj (queued.symm.trans other)
    exact release

/-- So it empties the buffer. -/
theorem Consistent.drains (consistent : s.Consistent) :
    ∃ more done, Run KeyboardStep s more done ∧ (∀ event ∈ more, event.1.reads = true) ∧
      done.keyboard.contents = [] := by
  generalize queued : s.keyboard.contents = contents
  induction contents generalizing s with
  | nil => exact ⟨[], s, .nil s, by simp, queued⟩
  | cons scancode rest ih =>
    obtain ⟨after, finished, inside, left⟩ := consistent.finish queued
    have idle : Consistent ⟨after, .idle⟩ := ⟨inside, trivial⟩
    obtain ⟨more, done, run, onlyReads, emptied⟩ := ih idle left
    refine ⟨s.reader.remaining scancode ++ more, done, finished.append run, ?_, emptied⟩
    intro event member
    rcases List.mem_append.mp member with now | later
    · exact s.reader.remaining_reads scancode event now
    · exact onlyReads event later

/-- Operations of the reader add nothing. -/
theorem added_of_reads (step : KeyboardStep s event after) (reads : event.1.reads = true) :
    event.2.added = none := by
  cases step with
  | accept room handled => cases reads
  | drop full handled => rfl
  | empty isEmpty => rfl
  | found filled => rfl
  | fetch read => rfl
  | release released => rfl

/-- One operation is a step of a queue. -/
theorem Consistent.simulated (before : KeyboardState) (event : KeyboardOp × Exchange UInt8)
    (after : KeyboardState) (contents : List UInt8)
    (related : before.Consistent ∧ contents = before.keyboard.contents)
    (step : KeyboardStep before event after) :
    ∃ next, (after.Consistent ∧ next = after.keyboard.contents) ∧ Fifo contents event.2 next := by
  obtain ⟨consistent, rfl⟩ := related
  obtain ⟨kept, exchanged⟩ := consistent.step step
  exact ⟨_, ⟨kept, rfl⟩, exchanged⟩

/-- So a run is a run of a queue. -/
theorem Consistent.run (consistent : s.Consistent) (run : Run KeyboardStep s events last) :
    last.Consistent ∧
      s.keyboard.contents ++ addedBy events = takenBy events ++ last.keyboard.contents := by
  obtain ⟨_, ⟨lastConsistent, rfl⟩, queue⟩ := run.simulates _ Consistent.simulated ⟨consistent, rfl⟩
  exact ⟨lastConsistent, fifo_run queue⟩

/-- What holds after every run: the scancodes returned are the first of those accepted, the others
are in the buffer and reads return them, and only a full buffer makes the interrupt drop one. -/
structure Lossless (events : List (KeyboardOp × Exchange UInt8)) (s : KeyboardState) : Prop where
  /-- Scancodes are returned in the order of their arrival. -/
  order : addedBy events = takenBy events ++ s.keyboard.contents
  /-- The head is an index of the buffer. -/
  head_lt : s.keyboard.head < 32
  /-- So is the tail. -/
  tail_lt : s.keyboard.tail < 32
  /-- The interrupt is handled. -/
  handled : ∀ scancode, ∃ accepted after,
    KeyboardStep s (.interrupt scancode, ⟨none, accepted⟩) after
  /-- It drops a scancode only when 31 accepted ones have not been released. -/
  drops : ∀ scancode after, KeyboardStep s (.interrupt scancode, ⟨none, none⟩) after →
    (addedBy events).length = (takenBy events).length + 31
  /-- The reader can go on. -/
  reads : ∃ event after, event.1.reads = true ∧ KeyboardStep s event after
  /-- It returns nothing only when it has returned every scancode accepted. -/
  nothing : ∀ after, KeyboardStep s (.test, ⟨none, none⟩) after → after.reader = .idle →
    takenBy events = addedBy events
  /-- It returns every scancode accepted. -/
  returned : ∃ more done, Run KeyboardStep s more done ∧
    (∀ event ∈ more, event.1.reads = true) ∧ takenBy (events ++ more) = addedBy events

/-- The operations of the reader add nothing. -/
theorem addedBy_of_reads (run : Run KeyboardStep s events last)
    (reads : ∀ event ∈ events, event.1.reads = true) : addedBy events = [] := by
  induction run with
  | nil => rfl
  | cons head tail ih =>
    rw [addedBy_cons, added_of_reads head (reads _ List.mem_cons_self),
      ih fun event member => reads event (List.mem_cons_of_mem _ member)]
    rfl

/-- The keyboard buffer is a lossless bounded queue in every interleaving. -/
theorem readScancode_lossless (run : Run KeyboardStep .initial events last) :
    Lossless events last := by
  obtain ⟨consistent, queue⟩ := consistent_initial.run run
  have order : addedBy events = takenBy events ++ last.keyboard.contents := queue
  have lengths := congrArg List.length order
  rw [List.length_append] at lengths
  refine ⟨order, consistent.inside.head_lt, consistent.inside.tail_lt, consistent.interrupt, ?_,
    consistent.read, ?_, ?_⟩
  · intro scancode after step
    cases step with
    | drop full handled =>
      have count := (Keyboard.hasRoom_iff consistent.inside).mp full
      omega
  · intro after step idle
    cases step with
    | empty isEmpty =>
      have empty := (Keyboard.isEmpty_iff consistent.inside).mp isEmpty
      exact (order.trans (by rw [empty, List.append_nil])).symm
    | found filled => cases idle
  · obtain ⟨more, done, reading, onlyReads, emptied⟩ := consistent.drains
    obtain ⟨_, conserved⟩ := consistent.run reading
    rw [addedBy_of_reads reading onlyReads, List.append_nil, emptied, List.append_nil] at conserved
    refine ⟨more, done, reading, onlyReads, ?_⟩
    rw [takenBy, List.filterMap_append]
    exact (order.trans (congrArg (takenBy events ++ ·) conserved)).symm

/-- The law at a run in which a second scancode arrives while the first is being read. -/
theorem readScancode_lossless_interrupted :
    ∃ last, Lossless
      [(.interrupt 0x1E, ⟨none, some 0x1E⟩), (.test, ⟨none, none⟩), (.fetch, ⟨none, none⟩),
        (.interrupt 0x30, ⟨none, some 0x30⟩), (.release, ⟨some 0x1E, none⟩)] last :=
  ⟨_, readScancode_lossless
    (.cons (.accept rfl rfl) (.cons (.found rfl) (.cons (.fetch rfl)
      (.cons (.accept rfl rfl) (.cons (.release rfl) (.nil _))))))⟩

end KeyboardState

end Aperture.Arch
