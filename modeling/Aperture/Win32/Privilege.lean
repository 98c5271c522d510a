import Aperture.Win32.Places

/-!
# Privilege of guest code

`switch` pops whatever frame lies at the next thread's kernel stack pointer. For a thread
that no `schedule` call has switched away from yet, that is still the frame of
`initial_stack`, and `thread_entry_stub` calls the entry point in ring 0, also for a native
thread whose code belongs in ring 3.
-/

namespace Aperture.Win32

open Machine Mm

namespace Scheduler

variable {s after : Scheduler} {slot : Nat}

/-- Queued and running slots have threads, and the frame of `initial_stack` holds the thread's
own entry point. -/
structure Sound (s : Scheduler) : Prop where
  /-- Queued slots have threads. -/
  queued_used : ∀ i slot, s.ready i = some slot → s.used slot = true
  /-- The running slot has a thread. -/
  current_used : ∀ slot, s.current = some slot → s.used slot = true
  /-- Initial frames are about the thread's own entry point. -/
  initial_entry : ∀ slot, s.used slot = true → ∀ entryPoint,
    (s.storage slot).context = .initial entryPoint → entryPoint = (s.storage slot).entryPoint

/-- A change of a thread that keeps its code, and keeps its frame or saves a new one. -/
def KeepsCode (change : Thread → Thread) : Prop :=
  ∀ thread, (change thread).entryPoint = thread.entryPoint ∧
    (change thread).processPageTableRoot = thread.processPageTableRoot ∧
    ((change thread).context = thread.context ∨ (change thread).context = .saved)

/-- Such a change keeps frames and entry points in agreement. -/
theorem Sound.modify (sound : s.Sound) {change : Thread → Thread} (keeps : KeepsCode change)
    (slot : Nat) : (s.modify slot change).Sound := by
  refine ⟨sound.queued_used, sound.current_used, fun other taken entryPoint initial => ?_⟩
  simp only [Scheduler.modify] at initial ⊢
  by_cases same : other = slot
  · subst same
    rw [Function.update_self] at initial ⊢
    obtain ⟨entry, _, frame⟩ := keeps (s.storage other)
    rw [entry]
    rcases frame with kept | saved
    · exact sound.initial_entry other taken entryPoint (kept ▸ initial)
    · rw [saved] at initial
      cases initial
  · rw [Function.update_of_ne same] at initial ⊢
    exact sound.initial_entry other taken entryPoint initial

/-- Only the threads, the queue and the running slot matter. -/
theorem Sound.congr (sound : s.Sound) (storage : after.storage = s.storage)
    (used : after.used = s.used) (ready : after.ready = s.ready)
    (current : ∀ slot, after.current = some slot → s.used slot = true) : after.Sound := by
  refine ⟨?_, ?_, ?_⟩
  · simpa only [ready, used] using sound.queued_used
  · simpa only [used] using current
  · simpa only [storage, used] using sound.initial_entry

/-- Queueing a slot that has a thread. -/
theorem Sound.enqueue (sound : s.Sound) (taken : s.used slot = true) :
    (s.enqueueThread slot).2.Sound := by
  unfold enqueueThread
  split
  · exact sound
  · rename_i index _
    refine ⟨fun i other queued => ?_, sound.current_used, sound.initial_entry⟩
    simp only at queued
    by_cases same : i = index
    · rw [same, Function.update_self] at queued
      rw [← Option.some.inj queued]
      exact taken
    · rw [Function.update_of_ne same] at queued
      exact sound.queued_used i other queued

/-- The same slots have threads, with the same code. -/
structure SameCode (s after : Scheduler) : Prop where
  /-- The same slots are taken. -/
  used : after.used = s.used
  /-- Every thread keeps its entry point. -/
  entry : ∀ slot, (after.storage slot).entryPoint = (s.storage slot).entryPoint
  /-- Every thread keeps its page table. -/
  root : ∀ slot,
    (after.storage slot).processPageTableRoot = (s.storage slot).processPageTableRoot

/-- Keeping code composes. -/
theorem SameCode.trans {middle : Scheduler} (first : SameCode s middle)
    (second : SameCode middle after) : SameCode s after :=
  ⟨second.used.trans first.used, fun slot => (second.entry slot).trans (first.entry slot),
    fun slot => (second.root slot).trans (first.root slot)⟩

/-- Unchanged threads keep their code. -/
theorem SameCode.of_eq (storage : after.storage = s.storage) (used : after.used = s.used) :
    SameCode s after :=
  ⟨used, fun _ => by rw [storage], fun _ => by rw [storage]⟩

/-- So does a changed thread, if the change does. -/
theorem SameCode.modify (s : Scheduler) {change : Thread → Thread} (keeps : KeepsCode change)
    (slot : Nat) : SameCode s (s.modify slot change) := by
  refine ⟨rfl, fun other => ?_, fun other => ?_⟩
  · simp only [Scheduler.modify]
    by_cases same : other = slot
    · rw [same, Function.update_self, (keeps _).1]
    · rw [Function.update_of_ne same]
  · simp only [Scheduler.modify]
    by_cases same : other = slot
    · rw [same, Function.update_self, (keeps _).2.1]
    · rw [Function.update_of_ne same]

/-- Queueing changes the queue alone. -/
theorem enqueueThread_only (s : Scheduler) (slot : Nat) :
    (s.enqueueThread slot).2.storage = s.storage ∧ (s.enqueueThread slot).2.used = s.used ∧
      (s.enqueueThread slot).2.current = s.current := by
  unfold enqueueThread
  split
  · exact ⟨rfl, rfl, rfl⟩
  · exact ⟨rfl, rfl, rfl⟩

/-- Taking from the queue: a slot with a thread comes out, and only the queue changes. -/
theorem Sound.dequeue (sound : s.Sound) {next : Option Nat}
    (taken : s.dequeueThread = (next, after)) :
    after.Sound ∧ after.storage = s.storage ∧ after.used = s.used ∧ after.current = s.current ∧
      ∀ slot, next = some slot → s.used slot = true := by
  unfold dequeueThread at taken
  split at taken
  · obtain ⟨rfl, rfl⟩ := Prod.mk.inj taken
    exact ⟨sound, rfl, rfl, rfl, by simp⟩
  · rename_i head _
    obtain ⟨rfl, rfl⟩ := Prod.mk.inj taken
    refine ⟨⟨fun i slot queued => ?_, sound.current_used, sound.initial_entry⟩, rfl, rfl, rfl,
      fun slot found => sound.queued_used head slot found⟩
    simp only at queued
    split at queued
    · exact sound.queued_used i slot queued
    · split at queued
      · exact sound.queued_used (i + 1) slot queued
      · cases queued

/-- Changing a running or interrupted thread's state keeps its code. -/
theorem keepsCode_state (state : ThreadState) : KeepsCode fun thread => { thread with state } :=
  fun _ => ⟨rfl, rfl, .inl rfl⟩

/-- A live thread changes state and goes back to the queue. -/
theorem Sound.requeue (sound : s.Sound) (taken : s.used slot = true) {change : Thread → Thread}
    (keeps : KeepsCode change) : ((s.modify slot change).enqueueThread slot).2.Sound ∧
      SameCode s ((s.modify slot change).enqueueThread slot).2 := by
  obtain ⟨storage, used, _⟩ := enqueueThread_only (s.modify slot change) slot
  exact ⟨(sound.modify keeps slot).enqueue taken,
    (SameCode.modify s keeps slot).trans (.of_eq storage used)⟩

/-- Saving the current context keeps code and frames in agreement. -/
theorem Sound.saveContext (sound : s.Sound) {rsp : Nat} (returned : s.saveContext rsp = .ok after) :
    after.Sound ∧ SameCode s after := by
  unfold Scheduler.saveContext at returned
  cases running : s.current with
  | none =>
    simp only [running, Except.ok.injEq] at returned
    subst returned
    exact ⟨sound.congr rfl rfl rfl (by simp), .of_eq rfl rfl⟩
  | some old =>
    have saves : KeepsCode fun cur => { cur with rsp, context := .saved } :=
      fun _ => ⟨rfl, rfl, .inr rfl⟩
    simp only [running] at returned
    split at returned
    · rw [Except.ok.injEq] at returned
      subst returned
      split
      · obtain ⟨queued, same⟩ :=
          sound.requeue (sound.current_used old running) (keepsCode_state .ready)
        exact ⟨queued.modify saves old, same.trans (.modify _ saves old)⟩
      · exact ⟨sound.modify saves old, .modify s saves old⟩
    · cases returned

/-- What `schedule` does: nothing, or pop the frame of a queued thread. -/
theorem Sound.schedule (sound : s.Sound) {rsp : Nat} {transfer : Option Transfer}
    (returned : s.schedule rsp = .ok (transfer, after)) :
    after.Sound ∧ SameCode s after ∧
      (transfer = none ∧ (∀ next, s.dequeueThread.1 = some next → maxThreads ≤ next) ∨
        ∃ next, s.dequeueThread.1 = some next ∧ next < maxThreads ∧ s.used next = true ∧
          transfer = resume next (s.storage next).context) := by
  unfold Scheduler.schedule at returned
  cases taking : s.dequeueThread with
  | mk next popped =>
    obtain ⟨poppedSound, storage, used, _, taken⟩ := sound.dequeue taking
    simp only [taking] at returned
    cases next with
    | none =>
      obtain ⟨rfl, rfl⟩ := Prod.mk.inj (Except.ok.inj returned)
      exact ⟨poppedSound, .of_eq storage used, .inl ⟨rfl, by simp⟩⟩
    | some next =>
      simp only at returned
      split at returned
      · rename_i inside
        simp only [bind_eq_ok, pure_eq_ok, Prod.mk.injEq] at returned
        obtain ⟨saved, saving, rfl, rfl⟩ := returned
        have started := poppedSound.modify (keepsCode_state .running) next
        obtain ⟨savedSound, savedSame⟩ := started.saveContext saving
        have nextUsed := taken next rfl
        have same : SameCode s saved :=
          (SameCode.of_eq storage used).trans ((SameCode.modify popped (keepsCode_state .running)
            next).trans savedSame)
        refine ⟨savedSound.congr rfl rfl rfl fun slot running => ?_, same.trans (.of_eq rfl rfl),
          .inr ⟨next, rfl, inside, nextUsed, by rw [storage]⟩⟩
        rw [same.used, ← Option.some.inj running]
        exact nextUsed
      · rename_i outside
        obtain ⟨rfl, rfl⟩ := Prod.mk.inj (Except.ok.inj returned)
        refine ⟨poppedSound, .of_eq storage used, .inl ⟨rfl, fun slot found => ?_⟩⟩
        rw [← Option.some.inj found]
        exact Nat.not_lt.mp outside

/-- Changing a running thread's state changes no frame, entry point or page table. -/
theorem Sound.enter (sound : s.Sound) (taken : s.used slot = true)
    (storage : after.storage =
      (s.modify slot fun thread => { thread with state := .running }).storage)
    (used : after.used = s.used) (ready : after.ready = s.ready)
    (current : after.current = some slot) : after.Sound := by
  have running := sound.modify (keepsCode_state .running) slot
  refine running.congr storage used ready fun other entered => ?_
  rw [current, Option.some.injEq] at entered
  rw [← entered]
  exact taken

/-- A new thread's frame holds its own entry point. -/
theorem Sound.created (sound : s.Sound) {entryPoint cr3 : Nat}
    (created : Created s entryPoint cr3 slot after) : (after.enqueueThread slot).2.Sound := by
  have grows (other : Nat) (taken : s.used other = true) : after.used other = true := by
    rw [created.used]
    by_cases same : other = slot
    · rw [same, Function.update_self]
    · rw [Function.update_of_ne same]
      exact taken
  have soundAfter : after.Sound := by
    refine ⟨fun i other queued => ?_, fun other running => ?_, fun other taken target initial => ?_⟩
    · rw [created.ready] at queued
      exact grows other (sound.queued_used i other queued)
    · rw [created.current] at running
      exact grows other (sound.current_used other running)
    · obtain ⟨thread, storage, _, context, entry, _, _⟩ := created.storage
      rw [storage] at initial ⊢
      by_cases same : other = slot
      · rw [same, Function.update_self] at initial ⊢
        rw [context, Context.initial.injEq] at initial
        rw [entry, initial]
      · rw [Function.update_of_ne same] at initial ⊢
        rw [created.used, Function.update_of_ne same] at taken
        exact sound.initial_entry other taken target initial
  refine soundAfter.enqueue ?_
  rw [created.used, Function.update_self]

/-- The timer interrupt keeps code and frames in agreement. -/
theorem Sound.preempt (sound : s.Sound) {interruptRsp resumed : Nat}
    (returned : s.preempt interruptRsp = .ok (resumed, after)) : after.Sound := by
  have saved : (s.saveInterrupted interruptRsp).Sound := by
    unfold saveInterrupted
    split
    · exact sound
    · rename_i slot running
      split
      · have interrupts : KeepsCode fun cur => { cur with interruptRsp, state := .ready } :=
          fun _ => ⟨rfl, rfl, .inl rfl⟩
        exact (sound.requeue (sound.current_used slot running) interrupts).1
      · exact sound
  unfold Scheduler.preempt resumeInterrupted at returned
  cases taking : (s.saveInterrupted interruptRsp).dequeueThread with
  | mk next popped =>
    obtain ⟨poppedSound, _, used, _, taken⟩ := saved.dequeue taking
    simp only [taking] at returned
    cases next with
    | none =>
      obtain ⟨_, rfl⟩ := Prod.mk.inj (Except.ok.inj returned)
      exact poppedSound
    | some next =>
      have nextUsed : popped.used next = true := by
        rw [used]
        exact taken next rfl
      simp only at returned
      split at returned
      · split at returned
        · obtain ⟨_, rfl⟩ := Prod.mk.inj (Except.ok.inj returned)
          exact poppedSound.enqueue nextUsed
        · simp only [bind_eq_ok, pure_eq_ok, Prod.mk.injEq] at returned
          obtain ⟨_, _, _, rfl⟩ := returned
          exact poppedSound.enter nextUsed rfl rfl rfl rfl
      · obtain ⟨_, rfl⟩ := Prod.mk.inj (Except.ok.inj returned)
        exact poppedSound

/-- The state of the running thread changes when it ends, its frame and code do not. -/
theorem Sound.markExited (sound : s.Sound) :
    s.markExited.Sound ∧ SameCode s s.markExited ∧ s.markExited.ready = s.ready ∧
      ∀ slot, (s.markExited.storage slot).context = (s.storage slot).context := by
  unfold Scheduler.markExited
  split
  · exact ⟨sound, .of_eq rfl rfl, rfl, fun _ => rfl⟩
  · rename_i old running
    split
    · refine ⟨sound.modify (keepsCode_state .exited) old, .modify s (keepsCode_state .exited) old,
        rfl, fun slot => ?_⟩
      simp only [Scheduler.modify]
      by_cases same : slot = old
      · rw [same, Function.update_self]
      · rw [Function.update_of_ne same]
    · exact ⟨sound, .of_eq rfl rfl, rfl, fun _ => rfl⟩

end Scheduler

/-- The scheduler, and where its latest call passed control in a thread's code. -/
structure Traced where
  /-- The scheduler. -/
  scheduler : Scheduler
  /-- Where the latest call passed control. -/
  transfer : Option Transfer

namespace Traced

open Scheduler

variable {before after : Traced} {op : SchedulerOp}

/-- A call on the scheduler, with its transfer of control. -/
def Step (before : Traced) (op : SchedulerOp) (after : Traced) : Prop :=
  before.scheduler.apply op = .ok (after.transfer, after.scheduler) ∧
    ∀ slot, op.enters = some slot → slot < maxThreads → before.scheduler.used slot = true

/-- The latest call did not pass control to a native thread's entry point in ring 0. -/
def Unprivileged (t : Traced) : Prop :=
  ∀ transfer, t.transfer = some transfer → transfer.ring = .kernel →
    (t.scheduler.storage transfer.slot).processPageTableRoot ≠ 0 →
    transfer.target ≠ (t.scheduler.storage transfer.slot).entryPoint

/-- If `schedule` would take a native thread from the queue, an earlier `schedule` call has
switched away from it. -/
def TakesSwitched (s : Scheduler) : Prop :=
  ∀ next, s.dequeueThread.1 = some next → next < maxThreads →
    (s.storage next).processPageTableRoot ≠ 0 → (s.storage next).context = .saved

/-- The condition on a call: if it schedules, it takes no native thread that was never switched
away from. -/
def Switched (before : Traced) : SchedulerOp → Prop
  | .schedule _ => TakesSwitched before.scheduler
  | .threadExit _ => TakesSwitched before.scheduler
  | .createThread _ _ _ => True
  | .enterUserMode _ => True
  | .enterInterpreter _ => True
  | .preempt _ => True

/-- A call that passes control to no kernel-mode code is harmless. -/
theorem unprivileged_of_ring (elsewhere : ∀ transfer, after.transfer = some transfer →
    transfer.ring ≠ .kernel) : after.Unprivileged :=
  fun transfer found kernel => absurd kernel (elsewhere transfer found)

/-- `schedule` stays out of native entry points exactly when it takes no native thread that was
never switched away from. -/
theorem unprivileged_iff_takesSwitched {s : Scheduler} (sound : s.Sound) {rsp : Nat}
    (returned : s.schedule rsp = .ok (after.transfer, after.scheduler)) :
    after.scheduler.Sound ∧ (after.Unprivileged ↔ TakesSwitched s) := by
  obtain ⟨soundAfter, same, outcome⟩ := sound.schedule returned
  refine ⟨soundAfter, ?_⟩
  rcases outcome with ⟨nothing, outside⟩ | ⟨next, taken, inside, nextUsed, popped⟩
  · refine iff_of_true (unprivileged_of_ring (by simp [nothing])) fun next found inside => ?_
    exact absurd inside (Nat.not_lt.mpr (outside next found))
  · cases frame : (s.storage next).context with
    | saved =>
      rw [frame] at popped
      refine iff_of_true (unprivileged_of_ring (by simp [popped, resume])) fun other found _ _ => ?_
      rw [taken, Option.some.injEq] at found
      rw [← found, frame]
    | initial entryPoint =>
      have own := sound.initial_entry next nextUsed entryPoint frame
      rw [frame] at popped
      constructor
      · intro unprivileged other found _ native
        rw [taken, Option.some.injEq] at found
        rw [← found] at native
        refine absurd ?_ (unprivileged _ popped rfl (by rw [same.root]; exact native))
        rw [same.entry]
        exact own
      · intro switched transfer found _ native
        rw [popped, resume, Option.some.injEq] at found
        rw [← found, same.root] at native
        have saved := switched next taken inside native
        rw [frame] at saved
        cases saved

/-- One call: agreement is kept, and native entry points stay out of ring 0 exactly when the
condition holds. -/
theorem unprivileged_iff_switched_of_step (sound : before.scheduler.Sound)
    (step : before.Step op after) :
    after.scheduler.Sound ∧ (after.Unprivileged ↔ before.Switched op) := by
  obtain ⟨returned, entered⟩ := step
  cases op with
  | createThread pid entryPoint cr3 =>
    simp only [apply, bind_eq_ok, pure_eq_ok, Prod.mk.injEq] at returned
    obtain ⟨⟨result, made⟩, creating, nothing, rfl⟩ := returned
    refine ⟨?_, iff_of_true (unprivileged_of_ring (by simp [← nothing])) trivial⟩
    rcases createThread_cases creating with ⟨storage, used, ready, current⟩ |
      ⟨slot, created, isCreated, eq⟩
    · refine sound.congr storage used ready fun slot running => ?_
      rw [current] at running
      exact sound.current_used slot running
    · rw [eq]
      exact sound.created isCreated
  | enterUserMode slot =>
    simp only [apply, enterUserMode] at returned
    split at returned
    · rename_i inside
      simp only [bind_eq_ok, pure_eq_ok, Prod.mk.injEq] at returned
      obtain ⟨kstackTop, _, passed, entering⟩ := returned
      refine ⟨?_, iff_of_true (unprivileged_of_ring (by simp [← passed])) trivial⟩
      rw [← entering]
      exact sound.enter (entered slot rfl inside) rfl rfl rfl rfl
    · obtain ⟨nothing, same⟩ := Prod.mk.inj (Except.ok.inj returned)
      rw [← same]
      exact ⟨sound, iff_of_true (unprivileged_of_ring (by simp [← nothing])) trivial⟩
  | enterInterpreter slot =>
    obtain ⟨nothing, entering⟩ := Prod.mk.inj (Except.ok.inj returned)
    refine ⟨?_, iff_of_true (unprivileged_of_ring (by simp [← nothing])) trivial⟩
    rw [← entering, enterInterpreter]
    split
    · rename_i inside
      exact sound.enter (entered slot rfl inside) rfl rfl rfl rfl
    · exact sound
  | preempt interruptRsp =>
    simp only [apply, bind_eq_ok, pure_eq_ok, Prod.mk.injEq] at returned
    obtain ⟨⟨resumed, last⟩, preempting, nothing, rfl⟩ := returned
    exact ⟨sound.preempt preempting,
      iff_of_true (unprivileged_of_ring (by simp [← nothing])) trivial⟩
  | schedule rsp => exact unprivileged_iff_takesSwitched sound returned
  | threadExit rsp =>
    obtain ⟨exited, same, ready, frames⟩ := sound.markExited
    obtain ⟨soundAfter, decides⟩ := unprivileged_iff_takesSwitched exited returned
    refine ⟨soundAfter, decides.trans ?_⟩
    have head : before.scheduler.markExited.dequeueThread.1 = before.scheduler.dequeueThread.1 := by
      unfold dequeueThread
      rw [ready]
      split
      · rfl
      · rfl
    simp only [Switched, TakesSwitched, head, same.root, frames]

/-- Every call keeps code and frames in agreement. -/
theorem sound_step {s after : Scheduler} (sound : s.Sound)
    (step : s.Step op after) : after.Sound := by
  obtain ⟨⟨transfer, returned⟩, entered⟩ := step
  have traced : Traced.Step ⟨s, none⟩ op ⟨after, transfer⟩ := ⟨returned, entered⟩
  exact (unprivileged_iff_switched_of_step sound traced).1

/-- For every machine at boot and every run, every call meets the condition if and only if no
call passes control to a native thread's entry point in ring 0. -/
theorem unprivileged_iff_switched (storage : Nat → Thread) (heap : BumpAllocator)
    (frames : FrameAllocator) (memory : PhysMem) (ops : List SchedulerOp) (last : Traced) :
    Run (Guarded Switched Step) ⟨boot storage heap frames memory, none⟩ ops last ↔
      Run (Reaching Unprivileged Step) ⟨boot storage heap frames memory, none⟩ ops last := by
  refine Run.guarded_iff_reaching (fun t => t.scheduler.Sound ∧ t.Unprivileged) ?_ ?_ ?_
    ⟨⟨by simp [boot], by simp [boot], by simp [boot]⟩, unprivileged_of_ring (by simp)⟩
  · intro before op after inv switched step
    obtain ⟨sound, decides⟩ := unprivileged_iff_switched_of_step inv.1 step
    exact ⟨sound, decides.mpr switched⟩
  · exact fun _ inv => inv.2
  · intro before op after inv step unprivileged
    exact (unprivileged_iff_switched_of_step inv.1 step).2.mp unprivileged

/-- The second thread created on the machine goes to slot 1. -/
theorem mebibyteBoot_creates_second {made : Scheduler} {firstEntry firstRoot : Nat}
    (first : Created mebibyteBoot firstEntry firstRoot 0 made)
    (heap : made.heap = ⟨0x100000, 0x120000, 0x200000⟩) (pid entryPoint cr3 : Nat) :
    ∃ second, Created (enqueueThread made 0).2 entryPoint cr3 1 second ∧
      (enqueueThread made 0).2.apply (.createThread pid entryPoint cr3) =
        .ok (none, (enqueueThread second 1).2) := by
  have places := mebibyteBoot_places.created first
  have taken : (enqueueThread made 0).2.used = Function.update mebibyteBoot.used 0 true := by
    rw [(enqueueThread_only made 0).2.1, first.used]
  have free : (enqueueThread made 0).2.allocThreadSlot = some 1 := by
    refine position_eq_some.mpr ⟨by decide, ?_, fun other below => ?_⟩
    · rw [taken]
      rfl
    · rw [taken, Nat.lt_one_iff.mp below]
      rfl
  have queuedHeap : (enqueueThread made 0).2.heap = ⟨0x100000, 0x120000, 0x200000⟩ := by
    unfold enqueueThread
    split
    · exact heap
    · exact heap
  obtain ⟨result, second, returned, created, _⟩ :=
    createThread_returns pid entryPoint cr3 free (by rw [queuedHeap]; decide)
      (by rw [queuedHeap]; decide)
  refine ⟨second, created, ?_⟩
  rw [apply, returned]
  rfl

/-- A yield with a fresh thread at the head of the queue calls its entry point in ring 0. -/
theorem schedule_calls_initial {s : Scheduler} {head entryPoint : Nat} {queue : List Nat}
    (holds : s.Holds (head :: queue)) (fits : queue.length < maxReady) (inside : head < maxThreads)
    (current_lt : ∀ old, s.current = some old → old < maxThreads)
    (fresh : (s.storage head).context = .initial entryPoint) (rsp : Nat) :
    ∃ after, s.schedule rsp = .ok (some ⟨head, .kernel, entryPoint⟩, after) := by
  rw [schedule, dequeueThread_cons holds fits]
  simp only [inside, ↓reduceIte, fresh, resume]
  generalize eq : Scheduler.modify _ head _ = running
  obtain ⟨saved, saving⟩ := saveContext_returns (s := running) (by rw [← eq]; exact current_lt) rsp
  rw [saving]
  exact ⟨_, rfl⟩

/-- Entering user mode changes the entered slot's thread alone. -/
theorem enterUserMode_returns (s : Scheduler) (slot : Nat) (inside : slot < maxThreads)
    (stackFits : (s.storage slot).stackBase + stackSize < wordSize) :
    ∃ entered, s.enterUserMode slot = .ok (some ⟨slot, .user, (s.storage slot).userRip⟩, entered) ∧
      entered.ready = s.ready ∧ entered.current = some slot ∧
      (∀ other, other ≠ slot → entered.storage other = s.storage other) ∧
      ((s.storage slot).processPageTableRoot ≠ 0 →
        entered.cr3 = (s.storage slot).processPageTableRoot) := by
  have top := add64_eq_ok.mpr ⟨stackFits, rfl⟩
  simp only [enterUserMode, inside, ↓reduceIte, top, ok_bind]
  refine ⟨_, rfl, rfl, rfl, fun other different => Function.update_of_ne different _ _, fun native => ?_⟩
  simp [native]

/-- Two native threads are created and the second one is in user mode. -/
theorem mebibyteBoot_enters_second : ∃ made queued entered transfer,
    mebibyteBoot.Step (.createThread 1 0x140001000 0x60000) made ∧
    made.Step (.createThread 2 0x150001000 0x70000) queued ∧
    queued.Step (.enterUserMode 1) entered ∧
    mebibyteBoot.apply (.createThread 1 0x140001000 0x60000) = .ok (none, made) ∧
    made.apply (.createThread 2 0x150001000 0x70000) = .ok (none, queued) ∧
    queued.apply (.enterUserMode 1) = .ok (transfer, entered) ∧
    entered.Sound ∧ entered.Holds [0, 1] ∧ entered.current = some 1 ∧ entered.cr3 = 0x70000 ∧
    (entered.storage 0).context = .initial 0x140001000 ∧
    (entered.storage 0).entryPoint = 0x140001000 ∧
    (entered.storage 0).processPageTableRoot = 0x60000 := by
  obtain ⟨made, first, heap, firstReturned⟩ := mebibyteBoot_creates 1 0x140001000 0x60000
  obtain ⟨second, created, secondReturned⟩ :=
    mebibyteBoot_creates_second first heap 2 0x150001000 0x70000
  have places := (mebibyteBoot_places.created first).created created
  have start : mebibyteBoot.Sound := ⟨by simp [mebibyteBoot, boot], by simp [mebibyteBoot, boot],
    by simp [mebibyteBoot, boot]⟩
  have sound := (start.created first).created created
  obtain ⟨thread, firstStorage, _, context, entry, root, _⟩ := first.storage
  obtain ⟨other, secondStorage, _, _, _, otherRoot, stackFits⟩ := created.storage
  have storage : (second.enqueueThread 1).2.storage =
      Function.update (Function.update mebibyteBoot.storage 0 thread) 1 other := by
    rw [(enqueueThread_only second 1).1, secondStorage, (enqueueThread_only made 0).1, firstStorage]
  generalize (second.enqueueThread 1).2 = queued at places sound storage secondReturned
  obtain ⟨entered, enterReturned, ready, current, others, cr3⟩ :=
    enterUserMode_returns queued 1 (by decide)
      (by rw [storage, Function.update_self]; exact stackFits)
  have firstThread : entered.storage 0 = thread := by
    rw [others 0 (by decide), storage, Function.update_of_ne (by decide), Function.update_self]
  have secondRoot : (queued.storage 1).processPageTableRoot = 0x70000 := by
    rw [storage, Function.update_self, otherRoot]
  rw [secondRoot] at cr3
  have enters : queued.Step (.enterUserMode 1) entered := by
    refine ⟨⟨_, enterReturned⟩, fun slot same _ => ?_⟩
    rw [← Option.some.inj same]
    exact (places.live_of_mem 1 (by simp)).2.1
  refine ⟨(made.enqueueThread 0).2, queued, entered, _, ⟨⟨none, firstReturned⟩, ?_⟩,
    ⟨⟨none, secondReturned⟩, ?_⟩, enters, firstReturned, secondReturned, enterReturned,
    sound_step sound enters, ready.trans places.holds, current, cr3 (by decide), ?_, ?_, ?_⟩
  · simp [SchedulerOp.enters]
  · simp [SchedulerOp.enters]
  · rw [firstThread, context]
  · rw [firstThread, entry]
  · rw [firstThread, root]

/-- With two native threads created and the second one in user mode, a yield calls the first
one's entry point in ring 0. -/
theorem unprivileged_counterexample : ∃ last,
    Run Step ⟨mebibyteBoot, none⟩ [.createThread 1 0x140001000 0x60000,
      .createThread 2 0x150001000 0x70000, .enterUserMode 1, .schedule 0x12ff00] last ∧
    last.transfer = some ⟨0, .kernel, 0x140001000⟩ ∧
    (last.scheduler.storage 0).processPageTableRoot = 0x60000 ∧ ¬last.Unprivileged := by
  obtain ⟨made, queued, entered, transfer, creates, createsSecond, enters, firstReturned,
    secondReturned, enterReturned, sound, holds, current, _, context, entry, root⟩ :=
    mebibyteBoot_enters_second
  obtain ⟨last, scheduled⟩ := schedule_calls_initial holds (by decide) (by decide)
    (by simp [current, maxThreads]) context 0x12ff00
  have same := (sound.schedule scheduled).2.1
  have native : (last.storage 0).processPageTableRoot = 0x60000 := by
    rw [same.root, root]
  have first : Step ⟨mebibyteBoot, none⟩ (.createThread 1 0x140001000 0x60000) ⟨made, none⟩ :=
    ⟨firstReturned, creates.2⟩
  have second : Step ⟨made, none⟩ (.createThread 2 0x150001000 0x70000) ⟨queued, none⟩ :=
    ⟨secondReturned, createsSecond.2⟩
  have third : Step ⟨queued, none⟩ (.enterUserMode 1) ⟨entered, transfer⟩ :=
    ⟨enterReturned, enters.2⟩
  have yields : Step ⟨entered, transfer⟩ (.schedule 0x12ff00)
      ⟨last, some ⟨0, .kernel, 0x140001000⟩⟩ := ⟨scheduled, by simp [SchedulerOp.enters]⟩
  refine ⟨_, .cons first (.cons second (.cons third (.cons yields (.nil _)))), rfl, native,
    fun unprivileged => unprivileged _ rfl rfl ?_ ?_⟩
  · rw [native]
    decide
  · rw [same.entry, entry]

end Traced

end Aperture.Win32
