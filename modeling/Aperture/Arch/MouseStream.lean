import Aperture.Arch.Mouse

/-!
# Any bytes from the mouse

The handler looks at the start bit of the first byte of a packet only, so it cuts whatever the mouse
sends into groups of three bytes and moves the pointer by each of them. A byte that is lost shifts the
groups. Two bytes without the start bit put them right again: wherever the handler is, it expects the
first byte of a packet after those.
-/

namespace Aperture.Arch

open Machine

/-- The three bytes that the handler takes for a packet. -/
structure MouseGroup where
  /-- Buttons. -/
  flags : UInt8
  /-- Horizontal movement. -/
  moveX : UInt8
  /-- Vertical movement. -/
  moveY : UInt8
  deriving DecidableEq, Repr

/-- The groups of a sequence of bytes: one begins at each byte with the start bit that is not in a
group before. -/
def groupsOf : List UInt8 → List MouseGroup
  | flags :: moveX :: moveY :: rest =>
    if flags &&& 0x08 = 0 then groupsOf (moveX :: moveY :: rest)
    else ⟨flags, moveX, moveY⟩ :: groupsOf rest
  | _ => []

/-- What the handler makes of a group. -/
def Pointer.followGroup (pointer : Pointer) (group : MouseGroup) : Pointer :=
  pointer.moved group.moveX.toInt8.toInt group.moveY.toInt8.toInt (group.flags &&& 0x07)

namespace Mouse

/-- The pointer is on the screen, and the index into the packet is in range. -/
structure Consistent (mouse : Mouse) : Prop where
  /-- The pointer is. -/
  onScreen : mouse.pointer.OnScreen
  /-- The index is. -/
  cycle_lt : mouse.cycle < 3

variable {mouse : Mouse}

/-- So it is at the start. -/
theorem consistent_initial : initial.Consistent :=
  ⟨⟨by decide, by decide, by decide, by decide⟩, by decide⟩

/-- What the handler does with a byte: it skips one without the start bit where a packet begins,
keeps one that does not end a packet, and moves the pointer at the end of one. -/
theorem Consistent.interrupt (consistent : mouse.Consistent) (byte : UInt8) :
    ∃ after, mouse.interruptHandler byte = .ok after ∧ after.Consistent ∧
      (mouse.cycle = 0 ∧ byte &&& 0x08 = 0 ∧ after = mouse ∨
        mouse.cycle < 2 ∧ (mouse.cycle = 0 → byte &&& 0x08 ≠ 0) ∧
          after = { mouse with
            packet := Function.update mouse.packet mouse.cycle byte.toInt8
            cycle := mouse.cycle + 1 } ∨
        mouse.cycle = 2 ∧ after.cycle = 0 ∧ after.pointer =
          mouse.pointer.moved (mouse.packet 1).toInt byte.toInt8.toInt
            ((mouse.packet 0).toUInt8 &&& 0x07)) := by
  have bound := consistent.cycle_lt
  unfold interruptHandler
  by_cases skipped : mouse.cycle = 0 ∧ byte.toInt8 &&& 0x08 = 0
  · refine ⟨mouse, if_pos skipped, consistent, .inl ⟨skipped.1, ?_, rfl⟩⟩
    exact (start_iff byte).mp skipped.2
  · have started (first : mouse.cycle = 0) : byte &&& 0x08 ≠ 0 := fun unset =>
      skipped ⟨first, (start_iff byte).mpr unset⟩
    simp only [if_neg skipped, if_pos bound]
    by_cases last : mouse.cycle = 2
    · have wraps : (mouse.cycle + 1) % 3 = 0 := by omega
      have two : Function.update mouse.packet mouse.cycle byte.toInt8 2 = byte.toInt8 := by
        rw [last]
        exact Function.update_self _ _ _
      have one : Function.update mouse.packet mouse.cycle byte.toInt8 1 = mouse.packet 1 := by
        rw [last]
        exact Function.update_of_ne (by decide) _ _
      have zero : Function.update mouse.packet mouse.cycle byte.toInt8 0 = mouse.packet 0 := by
        rw [last]
        exact Function.update_of_ne (by decide) _ _
      have column : addI32 mouse.x (mouse.packet 1).toInt =
          .ok (mouse.x + (mouse.packet 1).toInt) := by
        have left : 0 ≤ mouse.x := consistent.onScreen.x_nonneg
        have right : mouse.x ≤ 1279 := consistent.onScreen.x_le
        have low := (mouse.packet 1).le_toInt
        have high := (mouse.packet 1).toInt_lt
        exact checkedI32_ok ⟨by omega, by omega⟩
      have row : subI32 mouse.y byte.toInt8.toInt = .ok (mouse.y - byte.toInt8.toInt) := by
        have upper : 0 ≤ mouse.y := consistent.onScreen.y_nonneg
        have lower : mouse.y ≤ 1023 := consistent.onScreen.y_le
        have low := byte.toInt8.le_toInt
        have high := byte.toInt8.toInt_lt
        exact checkedI32_ok ⟨by omega, by omega⟩
      simp only [wraps, ↓reduceIte, one, two, zero, column, row, ok_bind]
      have onScreen := Pointer.onScreen_moved mouse.pointer (mouse.packet 1).toInt byte.toInt8.toInt
        ((mouse.packet 0).toUInt8 &&& 0x07)
      exact ⟨_, rfl, ⟨onScreen, Nat.succ_pos 2⟩, .inr (.inr ⟨last, rfl, rfl⟩)⟩
    · have next : (mouse.cycle + 1) % 3 = mouse.cycle + 1 := Nat.mod_eq_of_lt (by omega)
      simp only [next, Nat.succ_ne_zero, ↓reduceIte]
      refine ⟨_, rfl, ⟨consistent.onScreen, ?_⟩, .inr (.inl ⟨by omega, started, rfl⟩)⟩
      dsimp only
      omega

/-- No bytes make the handler panic or move the pointer off the screen. -/
theorem Consistent.deliver (consistent : mouse.Consistent) (bytes : List UInt8) :
    ∃ after, mouse.deliver bytes = .ok after ∧ after.Consistent := by
  induction bytes generalizing mouse with
  | nil => exact ⟨mouse, rfl, consistent⟩
  | cons byte rest ih =>
    obtain ⟨next, handled, nextConsistent, _⟩ := consistent.interrupt byte
    obtain ⟨after, delivered, afterConsistent⟩ := ih nextConsistent
    refine ⟨after, ?_, afterConsistent⟩
    rw [Mouse.deliver, List.foldlM_cons, handled, ok_bind]
    exact delivered

/-- A byte that does not end a packet leaves the pointer where it is. -/
theorem Consistent.early (consistent : mouse.Consistent) (early : mouse.cycle < 2) (byte : UInt8) :
    ∃ after, mouse.interruptHandler byte = .ok after ∧ after.Consistent ∧
      after.pointer = mouse.pointer ∧ after.cycle ≤ mouse.cycle + 1 := by
  obtain ⟨after, handled, afterConsistent, cases⟩ := consistent.interrupt byte
  refine ⟨after, handled, afterConsistent, ?_⟩
  rcases cases with ⟨_, _, rfl⟩ | ⟨_, _, rfl⟩ | ⟨last, _⟩
  · exact ⟨rfl, Nat.le_succ _⟩
  · exact ⟨rfl, Nat.le_refl _⟩
  · omega

/-- Two bytes without the start bit leave the handler where a packet begins. -/
theorem Consistent.settle (consistent : mouse.Consistent) {first second : UInt8}
    (firstClear : first &&& 0x08 = 0) (secondClear : second &&& 0x08 = 0) :
    ∃ after, mouse.deliver [first, second] = .ok after ∧ after.Consistent ∧ after.cycle = 0 := by
  obtain ⟨middle, handled, middleConsistent, cases⟩ := consistent.interrupt first
  obtain ⟨after, handledAgain, afterConsistent, casesAgain⟩ := middleConsistent.interrupt second
  refine ⟨after, ?_, afterConsistent, ?_⟩
  · rw [Mouse.deliver, List.foldlM_cons, handled, ok_bind, List.foldlM_cons, handledAgain]
    rfl
  · have middleCycle : middle.cycle = 0 ∨ middle.cycle = 2 := by
      rcases cases with ⟨ready, _, rfl⟩ | ⟨early, started, rfl⟩ | ⟨_, ready, _⟩
      · exact .inl ready
      · have later : mouse.cycle ≠ 0 := fun ready => started ready firstClear
        refine .inr ?_
        dsimp only
        omega
      · exact .inl ready
    rcases casesAgain with ⟨ready, _, rfl⟩ | ⟨early, started, _⟩ | ⟨_, ready, _⟩
    · exact ready
    · exact absurd secondClear (started (by omega))
    · exact ready

/-- A group moves the pointer. -/
theorem Consistent.deliver_group (consistent : mouse.Consistent) (ready : mouse.cycle = 0)
    {flags : UInt8} (start : flags &&& 0x08 ≠ 0) (moveX moveY : UInt8) :
    ∃ after, mouse.deliver [flags, moveX, moveY] = .ok after ∧ after.Consistent ∧
      after.cycle = 0 ∧ after.pointer = mouse.pointer.followGroup ⟨flags, moveX, moveY⟩ := by
  obtain ⟨first, handled, firstConsistent, cases⟩ := consistent.interrupt flags
  rcases cases with ⟨_, unset, _⟩ | ⟨_, _, rfl⟩ | ⟨last, _⟩
  · exact absurd unset start
  · obtain ⟨second, handledSecond, secondConsistent, cases⟩ := firstConsistent.interrupt moveX
    rcases cases with ⟨none, _⟩ | ⟨_, _, rfl⟩ | ⟨last, _⟩
    · exact absurd none (Nat.succ_ne_zero _)
    · obtain ⟨after, handledThird, afterConsistent, cases⟩ := secondConsistent.interrupt moveY
      rcases cases with ⟨none, _⟩ | ⟨early, _⟩ | ⟨_, settled, moved⟩
      · exact absurd none (Nat.succ_ne_zero _)
      · dsimp only at early
        omega
      · refine ⟨after, ?_, afterConsistent, settled, moved.trans ?_⟩
        · rw [Mouse.deliver, List.foldlM_cons, handled, ok_bind, List.foldlM_cons, handledSecond,
            ok_bind, List.foldlM_cons, handledThird]
          rfl
        · simp only [ready, Nat.zero_add]
          rw [Function.update_self, Function.update_of_ne (by decide), Function.update_self]
          rfl
    · dsimp only at last
      omega
  · omega

/-- Where a packet begins, the handler follows the groups of all bytes that come. -/
theorem Consistent.deliver_groups (consistent : mouse.Consistent) (ready : mouse.cycle = 0)
    (bytes : List UInt8) :
    ∃ after, mouse.deliver bytes = .ok after ∧
      after.pointer = (groupsOf bytes).foldl Pointer.followGroup mouse.pointer := by
  induction bytes using groupsOf.induct generalizing mouse with
  | case1 flags moveX moveY rest clear ih =>
    obtain ⟨next, handled, nextConsistent, cases⟩ := consistent.interrupt flags
    rcases cases with ⟨_, _, rfl⟩ | ⟨_, started, _⟩ | ⟨last, _⟩
    · obtain ⟨after, delivered, followed⟩ := ih nextConsistent ready
      refine ⟨after, ?_, ?_⟩
      · rw [Mouse.deliver, List.foldlM_cons, handled, ok_bind]
        exact delivered
      · rw [groupsOf, if_pos clear]
        exact followed
    · exact absurd clear (started ready)
    · omega
  | case2 flags moveX moveY rest start ih =>
    obtain ⟨next, delivered, nextConsistent, nextReady, moved⟩ :=
      consistent.deliver_group ready start moveX moveY
    obtain ⟨after, others, followed⟩ := ih nextConsistent nextReady
    refine ⟨after, ?_, ?_⟩
    · have split : flags :: moveX :: moveY :: rest = [flags, moveX, moveY] ++ rest := rfl
      rw [split, Mouse.deliver, List.foldlM_append]
      exact bind_eq_ok.mpr ⟨next, delivered, others⟩
    · rw [groupsOf, if_neg start, List.foldl_cons, ← moved]
      exact followed
  | case3 bytes short =>
    have few : bytes.length < 3 := by
      rcases bytes with _ | ⟨a, _ | ⟨b, _ | ⟨c, rest⟩⟩⟩
      · exact Nat.succ_pos _
      · exact Nat.succ_lt_succ (Nat.succ_pos _)
      · exact Nat.lt_succ_self _
      · exact absurd rfl (short a b c rest)
    have none : groupsOf bytes = [] := by
      unfold groupsOf
      split
      · exact absurd rfl (short _ _ _ _)
      · rfl
    rw [none]
    rcases bytes with _ | ⟨a, _ | ⟨b, _ | ⟨c, rest⟩⟩⟩
    · exact ⟨mouse, rfl, rfl⟩
    · obtain ⟨after, handled, _, same, _⟩ := consistent.early (by omega) a
      exact ⟨after, by rw [Mouse.deliver, List.foldlM_cons, handled]; rfl, same⟩
    · obtain ⟨next, handled, nextConsistent, same, low⟩ := consistent.early (by omega) a
      obtain ⟨after, handledAgain, _, again, _⟩ := nextConsistent.early (by omega) b
      refine ⟨after, ?_, again.trans same⟩
      rw [Mouse.deliver, List.foldlM_cons, handled, ok_bind, List.foldlM_cons, handledAgain]
      rfl
    · simp only [List.length_cons] at few
      omega

/-- Whatever bytes the mouse sends, the handler returns, keeps the pointer on the screen and follows
the groups of the bytes. Two bytes without the start bit end whatever group they fall into: what
comes behind them moves the pointer by its own groups. -/
theorem deliver_resynchronizes (bytes : List UInt8) {first second : UInt8}
    (firstClear : first &&& 0x08 = 0) (secondClear : second &&& 0x08 = 0) (more : List UInt8) :
    ∃ mouse settled last, initial.deliver bytes = .ok mouse ∧
      mouse.pointer = (groupsOf bytes).foldl Pointer.followGroup .initial ∧
      initial.deliver (bytes ++ [first, second]) = .ok settled ∧
      initial.deliver (bytes ++ [first, second] ++ more) = .ok last ∧
      last.pointer = (groupsOf more).foldl Pointer.followGroup settled.pointer ∧
      mouse.pointer.OnScreen ∧ settled.pointer.OnScreen ∧ last.pointer.OnScreen := by
  obtain ⟨mouse, delivered, consistent⟩ := consistent_initial.deliver bytes
  obtain ⟨other, again, grouped⟩ := consistent_initial.deliver_groups rfl bytes
  obtain rfl := Except.ok.inj (delivered.symm.trans again)
  obtain ⟨settled, both, settledConsistent, ready⟩ := consistent.settle firstClear secondClear
  obtain ⟨last, others, followed⟩ := settledConsistent.deliver_groups ready more
  obtain ⟨same, delivers, lastConsistent⟩ := settledConsistent.deliver more
  obtain rfl := Except.ok.inj (others.symm.trans delivers)
  have before : initial.deliver (bytes ++ [first, second]) = .ok settled := by
    rw [Mouse.deliver, List.foldlM_append]
    exact bind_eq_ok.mpr ⟨mouse, delivered, both⟩
  refine ⟨mouse, settled, last, delivered, grouped, before, ?_, followed, consistent.onScreen,
    settledConsistent.onScreen, lastConsistent.onScreen⟩
  rw [Mouse.deliver, List.foldlM_append]
  exact bind_eq_ok.mpr ⟨settled, before, others⟩

/-- The law at a packet whose first byte is lost. -/
theorem deliver_resynchronizes_lost :
    ∃ last, initial.deliver ([0xFF, 0x00] ++ [0x00, 0x00] ++ [0x09, 0x05, 0x00]) = .ok last ∧
      last.pointer.buttons = 1 ∧ last.pointer.OnScreen := by
  obtain ⟨mouse, settled, last, _, _, _, delivered, followed, _, _, onScreen⟩ :=
    deliver_resynchronizes [0xFF, 0x00] (show (0x00 : UInt8) &&& 0x08 = 0 by decide)
      (show (0x00 : UInt8) &&& 0x08 = 0 by decide) [0x09, 0x05, 0x00]
  refine ⟨last, delivered, ?_, onScreen⟩
  rw [followed]
  rfl

end Mouse

end Aperture.Arch
