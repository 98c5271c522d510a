import Aperture.Win32.Privilege

/-!
# Switching threads

What a call does to the thread it leaves, the thread it selects, the queue and the
processor. `enter_user_mode` loads everything a native thread needs; `preempt` loads the
interrupt stack alone and `schedule` nothing. No call takes an exited thread's slot out of
the queue, so a slot still queued when its thread ends is selected again.
-/

namespace Aperture.Win32

open Machine Mm

namespace Scheduler

variable {s after : Scheduler} {slot : Nat}

/-! ## One call -/

/-- The slot is in the ready queue. -/
def Queued (s : Scheduler) (slot : Nat) : Prop := ∃ i < maxReady, s.ready i = some slot

/-- The state after a change of the queue alone. -/
def withReady (s : Scheduler) (ready : Nat → Option Nat) : Scheduler := { s with ready }

/-- Queueing adds at most the slot. -/
theorem enqueueThread_adds (s : Scheduler) (slot : Nat) :
    ∃ ready, (s.enqueueThread slot).2 = s.withReady ready ∧
      ∀ other, (s.withReady ready).Queued other → other = slot ∨ s.Queued other := by
  unfold enqueueThread
  split
  · exact ⟨s.ready, rfl, fun other queued => .inr queued⟩
  · rename_i index _
    refine ⟨_, rfl, ?_⟩
    rintro other ⟨i, inside, cell⟩
    simp only [withReady] at cell
    by_cases same : i = index
    · rw [same, Function.update_self, Option.some.injEq] at cell
      exact .inl cell.symm
    · rw [Function.update_of_ne same] at cell
      exact .inr ⟨i, inside, cell⟩

/-- Taking from the queue adds nothing, and returns a queued slot. -/
theorem dequeueThread_takes (s : Scheduler) :
    ∃ ready, s.dequeueThread.2 = s.withReady ready ∧
      (∀ other, (s.withReady ready).Queued other → s.Queued other) ∧
      ∀ next, s.dequeueThread.1 = some next → s.Queued next := by
  unfold dequeueThread
  split
  · exact ⟨s.ready, rfl, fun _ queued => queued, by simp⟩
  · rename_i head found
    have headInside := (position_eq_some.mp found).1
    refine ⟨_, rfl, ?_, fun next taken => ⟨head, headInside, taken⟩⟩
    rintro other ⟨i, inside, cell⟩
    simp only [withReady] at cell
    split at cell
    · exact ⟨i, inside, cell⟩
    · split at cell
      · exact ⟨i + 1, by omega, cell⟩
      · cases cell

/-- What the first half of `preempt` does: nothing, or save the frame of a live thread. -/
theorem saveInterrupted_spec (s : Scheduler) (interruptRsp : Nat) :
    (s.saveInterrupted interruptRsp = s ∧ ∀ slot, s.current = some slot → slot < maxThreads →
      (s.storage slot).state = .exited) ∨
    ∃ slot ready, s.current = some slot ∧ slot < maxThreads ∧ (s.storage slot).state ≠ .exited ∧
      s.saveInterrupted interruptRsp =
        (s.modify slot fun cur => { cur with interruptRsp, state := .ready }).withReady ready ∧
      ∀ other, (s.saveInterrupted interruptRsp).Queued other → other = slot ∨ s.Queued other := by
  unfold saveInterrupted
  cases running : s.current with
  | none => exact .inl ⟨rfl, by simp⟩
  | some slot =>
    dsimp only
    by_cases live : slot < maxThreads ∧ (s.storage slot).state ≠ ThreadState.exited
    · obtain ⟨ready, added, queue⟩ := enqueueThread_adds
        (s.modify slot fun cur => { cur with interruptRsp, state := .ready }) slot
      rw [if_pos live, added]
      exact .inr ⟨slot, ready, rfl, live.1, live.2, rfl, queue⟩
    · rw [if_neg live]
      refine .inl ⟨rfl, fun other same inside => ?_⟩
      rw [← Option.some.inj same] at inside ⊢
      by_contra alive
      exact live ⟨inside, alive⟩

/-- The slot a call sets as `CURRENT_THREAD`. -/
def selects (s : Scheduler) : SchedulerOp → Option Nat
  | .createThread _ _ _ => none
  | .enterUserMode slot => if slot < maxThreads then some slot else none
  | .enterInterpreter slot => if slot < maxThreads then some slot else none
  | .preempt interruptRsp =>
    let saved := s.saveInterrupted interruptRsp
    saved.dequeueThread.1.filter fun next =>
      decide (next < maxThreads ∧ (saved.storage next).interruptRsp ≠ 0)
  | .schedule _ => s.dequeueThread.1.filter fun next => decide (next < maxThreads)
  | .threadExit _ => s.markExited.dequeueThread.1.filter fun next => decide (next < maxThreads)

/-- What `preempt` does after the first half: return to the interrupted frame, or resume a
queued thread from its own. -/
theorem preempt_spec {interruptRsp resumed : Nat}
    (returned : s.preempt interruptRsp = .ok (resumed, after)) :
    ∃ saved ready, saved = s.saveInterrupted interruptRsp ∧
      (∀ other, (saved.withReady ready).Queued other → saved.Queued other) ∧
      (s.selects (.preempt interruptRsp) = none ∧ resumed = interruptRsp ∧
          after = saved.withReady ready ∨
        ∃ next, s.selects (.preempt interruptRsp) = some next ∧ next < maxThreads ∧
          saved.Queued next ∧ resumed = (saved.storage next).interruptRsp ∧
          after = { (saved.modify next fun thread =>
            { thread with state := .running }).withReady ready with
              current := some next, rsp0 := (saved.storage next).stackBase + stackSize }) := by
  unfold preempt at returned
  simp only [selects]
  generalize s.saveInterrupted interruptRsp = saved at returned
  obtain ⟨ready, popped, shrinks, queued⟩ := saved.dequeueThread_takes
  unfold resumeInterrupted at returned
  cases taking : saved.dequeueThread with
  | mk next rest =>
    rw [taking] at popped queued returned
    dsimp only at popped queued returned ⊢
    subst popped
    cases next with
    | none =>
      obtain ⟨rfl, rfl⟩ := Prod.mk.inj (Except.ok.inj returned)
      exact ⟨saved, ready, rfl, shrinks, .inl ⟨rfl, rfl, rfl⟩⟩
    | some next =>
      have nextQueued := queued next rfl
      dsimp only at returned
      by_cases inside : next < maxThreads
      · rw [if_pos inside] at returned
        by_cases frame : (saved.storage next).interruptRsp = 0
        · rw [if_pos (by exact frame)] at returned
          obtain ⟨rfl, rfl⟩ := Prod.mk.inj (Except.ok.inj returned)
          obtain ⟨again, added, queue⟩ := enqueueThread_adds (saved.withReady ready) next
          refine ⟨saved, again, rfl, ?_, .inl ⟨by simp [frame], rfl, added⟩⟩
          intro other back
          rcases queue other back with same | before
          · rw [same]
            exact nextQueued
          · exact shrinks other before
        · rw [if_neg (by exact frame)] at returned
          simp only [bind_eq_ok, pure_eq_ok, Prod.mk.injEq] at returned
          obtain ⟨kstackTop, top, rfl, rfl⟩ := returned
          obtain ⟨_, rfl⟩ := add64_eq_ok.mp top
          exact ⟨saved, ready, rfl, shrinks, .inr ⟨next, by simp [inside, frame], inside, nextQueued,
            rfl, rfl⟩⟩
      · rw [if_neg inside] at returned
        obtain ⟨rfl, rfl⟩ := Prod.mk.inj (Except.ok.inj returned)
        exact ⟨saved, ready, rfl, shrinks, .inl ⟨by simp [inside], rfl, rfl⟩⟩

/-- What `switch` saves: the idle context, or the running thread's, which is queued while it
lives. -/
theorem saveContext_spec {rsp : Nat} (returned : s.saveContext rsp = .ok after) :
    (s.current = none ∧ after = { s with idleRsp := rsp }) ∨
    ∃ old ready state, s.current = some old ∧ old < maxThreads ∧
      ((s.storage old).state = .exited ∧ state = .exited ∨
        (s.storage old).state ≠ .exited ∧ state = .ready) ∧
      after = (s.modify old fun cur =>
        { cur with state, rsp, context := .saved }).withReady ready ∧
      ∀ other, after.Queued other →
        other = old ∧ (s.storage old).state ≠ .exited ∨ s.Queued other := by
  unfold saveContext at returned
  cases running : s.current with
  | none =>
    simp only [running, Except.ok.injEq] at returned
    exact .inl ⟨rfl, returned.symm⟩
  | some old =>
    simp only [running] at returned
    by_cases inside : old < maxThreads
    · rw [if_pos inside, Except.ok.injEq] at returned
      by_cases ended : (s.storage old).state = .exited
      · refine .inr ⟨old, s.ready, .exited, rfl, inside, .inl ⟨ended, rfl⟩, ?_, ?_⟩
        · rw [← returned]
          simp only [ended, ne_eq, not_true_eq_false, ↓reduceIte, modify, withReady]
        · rw [← returned]
          simp only [ended, ne_eq, not_true_eq_false, ↓reduceIte]
          exact fun other queued => .inr queued
      · obtain ⟨ready, added, queue⟩ :=
          enqueueThread_adds (s.modify old fun cur => { cur with state := .ready }) old
        refine .inr ⟨old, ready, .ready, rfl, inside, .inr ⟨ended, rfl⟩, ?_, ?_⟩
        · rw [← returned]
          rw [if_pos ended, added]
          simp only [modify, withReady, Function.update_self, Function.update_idem]
        · rw [← returned]
          simp only [ended, ne_eq, not_false_eq_true, ↓reduceIte, added]
          intro other queued
          rcases queue other queued with same | before
          · exact .inl ⟨same, trivial⟩
          · exact .inr before
    · rw [if_neg inside] at returned
      cases returned

/-- What `schedule` does: nothing, or run a queued thread and save the context it leaves. -/
theorem schedule_spec {rsp : Nat} {transfer : Option Transfer}
    (returned : s.schedule rsp = .ok (transfer, after)) :
    ∃ ready, (∀ other, (s.withReady ready).Queued other → s.Queued other) ∧
      (s.selects (.schedule rsp) = none ∧ after = s.withReady ready ∨
        ∃ next saved, s.selects (.schedule rsp) = some next ∧ next < maxThreads ∧ s.Queued next ∧
          ((s.withReady ready).modify next fun thread =>
            { thread with state := .running }).saveContext rsp = .ok saved ∧
          after = { saved with current := some next }) := by
  obtain ⟨ready, popped, shrinks, queued⟩ := s.dequeueThread_takes
  unfold schedule at returned
  refine ⟨ready, shrinks, ?_⟩
  simp only [selects]
  cases taking : s.dequeueThread with
  | mk next rest =>
    rw [taking] at popped queued returned
    dsimp only at popped queued returned ⊢
    subst popped
    cases next with
    | none =>
      obtain ⟨_, rfl⟩ := Prod.mk.inj (Except.ok.inj returned)
      exact .inl ⟨rfl, rfl⟩
    | some next =>
      dsimp only at returned
      by_cases inside : next < maxThreads
      · rw [if_pos inside] at returned
        simp only [bind_eq_ok, pure_eq_ok, Prod.mk.injEq] at returned
        obtain ⟨saved, saving, _, rfl⟩ := returned
        exact .inr ⟨next, saved, by simp [inside], inside, queued next rfl, saving, rfl⟩
      · rw [if_neg inside] at returned
        obtain ⟨_, rfl⟩ := Prod.mk.inj (Except.ok.inj returned)
        exact .inl ⟨by simpa using inside, rfl⟩

/-- What `thread_exit` marks: the running thread, if it is in the table. -/
theorem markExited_spec (s : Scheduler) :
    (s.markExited = s ∧ ∀ slot, s.current = some slot → maxThreads ≤ slot) ∨
    ∃ slot, s.current = some slot ∧ slot < maxThreads ∧
      s.markExited = s.modify slot fun cur => { cur with state := .exited } := by
  unfold markExited
  cases running : s.current with
  | none => exact .inl ⟨rfl, by simp⟩
  | some slot =>
    dsimp only
    by_cases inside : slot < maxThreads
    · exact .inr ⟨slot, rfl, inside, by rw [if_pos inside]⟩
    · refine .inl ⟨by rw [if_neg inside], fun other same => ?_⟩
      rw [← Option.some.inj same]
      exact Nat.not_lt.mp inside

/-- A thread's kernel stack and page table, which no call changes. -/
def home (storage : Nat → Thread) (slot : Nat) : Nat × Nat :=
  ((storage slot).stackBase, (storage slot).processPageTableRoot)

/-- Changes of threads that keep their homes. -/
theorem home_update (storage : Nat → Thread) (slot : Nat) {thread : Thread}
    (stack : thread.stackBase = (storage slot).stackBase)
    (root : thread.processPageTableRoot = (storage slot).processPageTableRoot) :
    home (Function.update storage slot thread) = home storage := by
  funext other
  simp only [home]
  by_cases same : other = slot
  · rw [same, Function.update_self, stack, root]
  · rw [Function.update_of_ne same]

/-- Saving an interrupted thread keeps homes and the processor. -/
theorem saveInterrupted_home (s : Scheduler) (interruptRsp : Nat) :
    home (s.saveInterrupted interruptRsp).storage = home s.storage ∧
      (s.saveInterrupted interruptRsp).cr3 = s.cr3 ∧
      (s.saveInterrupted interruptRsp).syscallRsp = s.syscallRsp := by
  rcases s.saveInterrupted_spec interruptRsp with ⟨same, _⟩ | ⟨slot, ready, _, _, _, saved, _⟩
  · rw [same]
    exact ⟨rfl, rfl, rfl⟩
  · rw [saved]
    simp only [withReady, modify, and_self, and_true]
    exact home_update _ _ rfl rfl

/-- So does ending the running thread. -/
theorem markExited_home (s : Scheduler) :
    home s.markExited.storage = home s.storage ∧ s.markExited.cr3 = s.cr3 ∧
      s.markExited.rsp0 = s.rsp0 ∧ s.markExited.syscallRsp = s.syscallRsp := by
  rcases s.markExited_spec with ⟨same, _⟩ | ⟨slot, _, _, marked⟩
  · rw [same]
    exact ⟨rfl, rfl, rfl, rfl⟩
  · rw [marked]
    simp only [modify, and_self, and_true]
    exact home_update _ _ rfl rfl

/-- So does a cooperative switch. -/
theorem schedule_home {rsp : Nat} {transfer : Option Transfer}
    (returned : s.schedule rsp = .ok (transfer, after)) :
    home after.storage = home s.storage ∧ after.cr3 = s.cr3 ∧ after.rsp0 = s.rsp0 ∧
      after.syscallRsp = s.syscallRsp := by
  obtain ⟨ready, _, ⟨_, rfl⟩ | ⟨next, saved, _, _, _, saving, rfl⟩⟩ := schedule_spec returned
  · exact ⟨rfl, rfl, rfl, rfl⟩
  · have started : home (Function.update s.storage next { s.storage next with state := .running }) =
        home s.storage := home_update _ _ rfl rfl
    rcases saveContext_spec saving with ⟨_, rfl⟩ | ⟨old, queue, state, _, _, _, rfl, _⟩
    · exact ⟨started, rfl, rfl, rfl⟩
    · simp only [withReady, modify, and_self, and_true]
      refine Eq.trans (home_update _ old ?_ ?_) started
      · rfl
      · rfl

end Scheduler

/-! ## Runs -/

/-- The scheduler, the slot its latest call set as `CURRENT_THREAD`, and the slots whose threads
`thread_exit` has ended. -/
structure Observed where
  /-- The scheduler. -/
  scheduler : Scheduler
  /-- The slot the latest call selected. -/
  selected : Option Nat
  /-- Slots marked by `thread_exit`. -/
  ended : List Nat

namespace Observed

open Scheduler

variable {before after : Observed} {op : SchedulerOp}

/-- The slot a call marks as exited. -/
def marks (s : Scheduler) : SchedulerOp → List Nat
  | .threadExit _ => (s.current.filter fun slot => decide (slot < maxThreads)).toList
  | .createThread _ _ _ => []
  | .enterUserMode _ => []
  | .enterInterpreter _ => []
  | .preempt _ => []
  | .schedule _ => []

/-- A call on the scheduler, observed. -/
def Step (before : Observed) (op : SchedulerOp) (after : Observed) : Prop :=
  before.scheduler.Step op after.scheduler ∧ after.selected = before.scheduler.selects op ∧
    after.ended = marks before.scheduler op ++ before.ended

/-! ## The processor's state -/

/-- The page table, the interrupt stack and the system call stack are a native thread's own. -/
structure Loaded (s : Scheduler) (slot : Nat) : Prop where
  /-- Its page table is active. -/
  cr3 : s.cr3 = (s.storage slot).processPageTableRoot
  /-- Interrupts from user mode use its kernel stack. -/
  rsp0 : s.rsp0 = (s.storage slot).stackBase + stackSize
  /-- System calls use its kernel stack. -/
  syscallRsp : s.syscallRsp = (s.storage slot).stackBase + stackSize

/-- A native thread just set as `CURRENT_THREAD` finds the processor loaded. -/
def FollowsCurrent (o : Observed) : Prop :=
  ∀ slot, o.selected = some slot → (o.scheduler.storage slot).processPageTableRoot ≠ 0 →
    Loaded o.scheduler slot

/-- The condition on a call: what it does not load for a native thread it selects is the
thread's already. -/
def Preloaded (o : Observed) (op : SchedulerOp) : Prop :=
  ∀ slot, o.scheduler.selects op = some slot →
    (o.scheduler.storage slot).processPageTableRoot ≠ 0 →
    match op with
    | .createThread _ _ _ => True
    | .enterUserMode _ => True
    | .preempt _ => o.scheduler.cr3 = (o.scheduler.storage slot).processPageTableRoot ∧
        o.scheduler.syscallRsp = (o.scheduler.storage slot).stackBase + stackSize
    | .enterInterpreter _ => Loaded o.scheduler slot
    | .schedule _ => Loaded o.scheduler slot
    | .threadExit _ => Loaded o.scheduler slot

/-- With homes and processor unchanged, a thread is loaded after when it was before. -/
theorem loaded_congr {s last : Scheduler} (same : home last.storage = home s.storage)
    (cr3 : last.cr3 = s.cr3) (rsp0 : last.rsp0 = s.rsp0) (syscallRsp : last.syscallRsp = s.syscallRsp)
    (slot : Nat) :
    ((last.storage slot).processPageTableRoot ≠ 0 → Loaded last slot) ↔
      ((s.storage slot).processPageTableRoot ≠ 0 → Loaded s slot) := by
  obtain ⟨stack, root⟩ := Prod.mk.inj (congrFun same slot)
  have loaded : Loaded last slot ↔ Loaded s slot :=
    ⟨fun before => ⟨by rw [← cr3, before.cr3, root], by rw [← rsp0, before.rsp0, stack],
        by rw [← syscallRsp, before.syscallRsp, stack]⟩,
      fun before => ⟨by rw [cr3, before.cr3, root], by rw [rsp0, before.rsp0, stack],
        by rw [syscallRsp, before.syscallRsp, stack]⟩⟩
  rw [root, loaded]

/-- One call leaves the processor loaded for the thread it selects exactly when the condition
holds. -/
theorem followsCurrent_iff_of_step (step : before.Step op after) :
    after.FollowsCurrent ↔ before.Preloaded op := by
  obtain ⟨⟨⟨transfer, returned⟩, _⟩, selected, _⟩ := step
  unfold FollowsCurrent Preloaded
  rw [selected]
  generalize before.scheduler = s at returned selected ⊢
  generalize after.scheduler = last at returned ⊢
  refine forall_congr' fun slot => imp_congr_right fun chosen => ?_
  cases op with
  | createThread => cases chosen
  | enterUserMode target =>
    simp only [selects] at chosen
    split at chosen
    · rename_i inside
      obtain rfl := Option.some.inj chosen
      simp only [apply, enterUserMode, inside, ↓reduceIte, bind_eq_ok, pure_eq_ok,
        Prod.mk.injEq] at returned
      obtain ⟨kstackTop, top, _, rfl⟩ := returned
      obtain ⟨_, rfl⟩ := add64_eq_ok.mp top
      simp only [Scheduler.modify, Function.update_self, imp_true_iff, iff_true]
      intro native
      exact ⟨by simp [native], by simp, by simp⟩
    · cases chosen
  | enterInterpreter target =>
    simp only [selects] at chosen
    split at chosen
    · rename_i inside
      obtain rfl := Option.some.inj chosen
      simp only [apply, enterInterpreter, inside, ↓reduceIte, Except.ok.injEq,
        Prod.mk.injEq] at returned
      have same : home (Function.update s.storage target
          { s.storage target with state := .running }) = home s.storage := home_update _ _ rfl rfl
      have kept : home last.storage = home s.storage := by
        rw [← returned.2]
        exact same
      exact loaded_congr kept (by rw [← returned.2]; rfl) (by rw [← returned.2]; rfl)
        (by rw [← returned.2]; rfl) target
    · cases chosen
  | preempt interruptRsp =>
    simp only [apply, bind_eq_ok, pure_eq_ok, Prod.mk.injEq] at returned
    obtain ⟨⟨resumed, final⟩, preempting, _, rfl⟩ := returned
    obtain ⟨home, cr3, syscallRsp⟩ := s.saveInterrupted_home interruptRsp
    obtain ⟨saved, ready, rfl, _, ⟨none, _⟩ | ⟨next, chosenNext, _, _, _, rfl⟩⟩ :=
      preempt_spec preempting
    · rw [none] at chosen
      cases chosen
    · obtain rfl := Option.some.inj (chosenNext.symm.trans chosen)
      obtain ⟨stack, root⟩ := Prod.mk.inj (congrFun home next)
      have loads : Loaded { ((s.saveInterrupted interruptRsp).modify next fun thread =>
            { thread with state := .running }).withReady ready with
              current := some next,
              rsp0 := ((s.saveInterrupted interruptRsp).storage next).stackBase + stackSize } next ↔
          s.cr3 = (s.storage next).processPageTableRoot ∧
            s.syscallRsp = (s.storage next).stackBase + stackSize := by
        rw [← cr3, ← syscallRsp, ← root, ← stack]
        constructor
        · intro loaded
          simpa [withReady, Scheduler.modify] using And.intro loaded.cr3 loaded.syscallRsp
        · intro before
          exact ⟨by simpa [withReady, Scheduler.modify] using before.1, by simp [withReady, Scheduler.modify],
            by simpa [withReady, Scheduler.modify] using before.2⟩
      rw [loads]
      simp only [withReady, Scheduler.modify, Function.update_self]
      rw [root]
  | schedule rsp =>
    obtain ⟨home, cr3, rsp0, syscallRsp⟩ := schedule_home returned
    exact loaded_congr home cr3 rsp0 syscallRsp slot
  | threadExit rsp =>
    obtain ⟨home, cr3, rsp0, syscallRsp⟩ := schedule_home returned
    obtain ⟨marked, markedCr3, markedRsp0, markedSyscallRsp⟩ := s.markExited_home
    exact (loaded_congr home cr3 rsp0 syscallRsp slot).trans
      (loaded_congr marked markedCr3 markedRsp0 markedSyscallRsp slot)

/-- For every state of the machine and every run from it, every call meets the condition if and
only if every call that sets a native thread as `CURRENT_THREAD` leaves its page table active and
its kernel stack in place for interrupts and system calls. -/
theorem followsCurrent_iff_preloaded (first : Scheduler) (ops : List SchedulerOp)
    (last : Observed) :
    Run (Guarded Preloaded Step) ⟨first, none, []⟩ ops last ↔
      Run (Reaching FollowsCurrent Step) ⟨first, none, []⟩ ops last := by
  refine Run.guarded_iff_reaching FollowsCurrent ?_ (fun _ follows => follows) ?_
    (by simp [FollowsCurrent])
  · exact fun _ _ _ _ preloaded step => (followsCurrent_iff_of_step step).mpr preloaded
  · exact fun _ _ _ _ step follows => (followsCurrent_iff_of_step step).mp follows

/-- With two native threads created and the second one in user mode, a yield selects the first
one and leaves the second one's page table active. -/
theorem followsCurrent_counterexample : ∃ last,
    Run Step ⟨mebibyteBoot, none, []⟩ [.createThread 1 0x140001000 0x60000,
      .createThread 2 0x150001000 0x70000, .enterUserMode 1, .schedule 0x12ff00] last ∧
    last.selected = some 0 ∧ (last.scheduler.storage 0).processPageTableRoot = 0x60000 ∧
    last.scheduler.cr3 = 0x70000 ∧ ¬last.FollowsCurrent := by
  obtain ⟨made, queued, entered, _, creates, createsSecond, enters, _, _, _, _, holds, current, cr3,
    context, _, root⟩ := Traced.mebibyteBoot_enters_second
  obtain ⟨last, scheduled⟩ := Traced.schedule_calls_initial holds (by decide) (by decide)
    (by simp [current, maxThreads]) context 0x12ff00
  obtain ⟨home, cr3Same, _, _⟩ := schedule_home scheduled
  have native : (last.storage 0).processPageTableRoot = 0x60000 :=
    (congrArg Prod.snd (congrFun home 0)).trans root
  have active : last.cr3 = 0x70000 := cr3Same.trans cr3
  have chosen : entered.selects (.schedule 0x12ff00) = some 0 := by
    rw [selects, dequeueThread_cons holds (by decide)]
    rfl
  have first : Step ⟨mebibyteBoot, none, []⟩ (.createThread 1 0x140001000 0x60000)
      ⟨made, none, []⟩ := ⟨creates, rfl, rfl⟩
  have second : Step ⟨made, none, []⟩ (.createThread 2 0x150001000 0x70000) ⟨queued, none, []⟩ :=
    ⟨createsSecond, rfl, rfl⟩
  have third : Step ⟨queued, none, []⟩ (.enterUserMode 1) ⟨entered, some 1, []⟩ :=
    ⟨enters, rfl, rfl⟩
  have yields : Step ⟨entered, some 1, []⟩ (.schedule 0x12ff00) ⟨last, some 0, []⟩ :=
    ⟨⟨⟨_, scheduled⟩, by simp [SchedulerOp.enters]⟩, chosen.symm, rfl⟩
  refine ⟨_, .cons first (.cons second (.cons third (.cons yields (.nil _)))), rfl, native, active,
    fun follows => ?_⟩
  have loaded := (follows 0 rfl (by rw [native]; decide)).cr3
  simp only [active, native] at loaded
  cases loaded

/-! ## Exited threads -/

/-- No ended thread has been set running, or selected, again. -/
def Rests (o : Observed) : Prop :=
  ∀ slot ∈ o.ended, (o.scheduler.storage slot).state = .exited ∧ o.selected ≠ some slot

/-- The condition on a call: a thread that ends has no entry left in the ready queue, and a
thread that is entered has not ended. -/
def Detached (o : Observed) : SchedulerOp → Prop
  | .threadExit _ => ∀ slot, o.scheduler.current = some slot → ¬o.scheduler.Queued slot
  | .enterUserMode slot => (o.scheduler.storage slot).state ≠ .exited
  | .enterInterpreter slot => (o.scheduler.storage slot).state ≠ .exited
  | .createThread _ _ _ => True
  | .preempt _ => True
  | .schedule _ => True

/-- The slot of an ended thread stays out of the queue, in a scheduler whose other threads may
go on. -/
structure AtRest (s : Scheduler) (slot : Nat) : Prop where
  /-- The slot stays taken. -/
  used : s.used slot = true
  /-- Its thread stays ended. -/
  state : (s.storage slot).state = .exited
  /-- It is not queued. -/
  unqueued : ¬s.Queued slot

/-- Changing another slot's thread, while the queue grows by other slots alone. -/
theorem AtRest.congr {s last : Scheduler} {slot : Nat} (rest : AtRest s slot)
    (used : last.used slot = true) (thread : (last.storage slot).state = (s.storage slot).state)
    (queue : last.Queued slot → s.Queued slot) : AtRest last slot :=
  ⟨used, thread.trans rest.state, fun queued => rest.unqueued (queue queued)⟩

/-- Changing another slot's thread keeps a state. -/
theorem state_update (storage : Nat → Thread) {slot other : Nat} (different : slot ≠ other)
    (thread : Thread) : (Function.update storage other thread slot).state = (storage slot).state := by
  rw [Function.update_of_ne different]

/-- A cooperative switch leaves ended threads at rest and selects none of them. -/
theorem AtRest.schedule {s last : Scheduler} {slot rsp : Nat} {transfer : Option Transfer}
    (rest : AtRest s slot) (returned : s.schedule rsp = .ok (transfer, last)) :
    AtRest last slot ∧ s.selects (.schedule rsp) ≠ some slot := by
  obtain ⟨ready, shrinks, ⟨none, rfl⟩ | ⟨next, saved, chosen, _, queued, saving, rfl⟩⟩ :=
    schedule_spec returned
  · exact ⟨rest.congr rest.used rfl (shrinks slot), by simp [none]⟩
  · have different : slot ≠ next := by
      rintro rfl
      exact rest.unqueued queued
    refine ⟨?_, by rw [chosen, ne_eq, Option.some.injEq]; exact fun same => different same.symm⟩
    have started : (Function.update s.storage next { s.storage next with state := .running }
        slot).state = (s.storage slot).state := state_update _ different _
    rcases saveContext_spec saving with ⟨_, rfl⟩ | ⟨old, queue, state, _, _, stateEq, rfl, grows⟩
    · exact rest.congr rest.used started (shrinks slot)
    · simp only [withReady, Scheduler.modify] at stateEq grows ⊢
      have stays : (Function.update (Function.update s.storage next
          { s.storage next with state := .running }) old { Function.update s.storage next
            { s.storage next with state := .running } old with state, rsp, context := .saved }
              slot).state = (s.storage slot).state := by
        by_cases same : slot = old
        · subst same
          rw [Function.update_self, rest.state]
          rcases stateEq with ⟨_, same⟩ | ⟨alive, _⟩
          · exact same
          · exact absurd (started.trans rest.state) alive
        · rw [state_update _ same, started]
      refine rest.congr rest.used stays fun back => ?_
      rcases grows slot back with ⟨same, alive⟩ | before
      · rw [← same, started] at alive
        exact absurd rest.state alive
      · exact shrinks slot before

/-- A timer interrupt leaves ended threads at rest and selects none of them. -/
theorem AtRest.preempt {s last : Scheduler} {slot interruptRsp resumed : Nat} (rest : AtRest s slot)
    (returned : s.preempt interruptRsp = .ok (resumed, last)) :
    AtRest last slot ∧ s.selects (.preempt interruptRsp) ≠ some slot := by
  have saved : AtRest (s.saveInterrupted interruptRsp) slot := by
    rcases s.saveInterrupted_spec interruptRsp with ⟨same, _⟩ | ⟨old, ready, _, _, alive, shape, grows⟩
    · rw [same]
      exact rest
    · have different : slot ≠ old := by
        rintro rfl
        exact alive rest.state
      refine rest.congr ?_ ?_ fun back => (grows slot back).resolve_left different
      · rw [shape]
        exact rest.used
      · rw [shape]
        exact state_update _ different _
  obtain ⟨_, ready, rfl, shrinks, ⟨none, _, rfl⟩ | ⟨next, chosen, _, queued, _, rfl⟩⟩ :=
    preempt_spec returned
  · exact ⟨saved.congr saved.used rfl (shrinks slot), by simp [none]⟩
  · have different : slot ≠ next := by
      rintro rfl
      exact saved.unqueued queued
    refine ⟨saved.congr saved.used (state_update _ different _) (shrinks slot), ?_⟩
    rw [chosen, ne_eq, Option.some.injEq]
    exact fun same => different same.symm

/-- Entering another thread leaves ended threads at rest. -/
theorem AtRest.enter {s last : Scheduler} {slot target : Nat} (rest : AtRest s slot)
    (alive : (s.storage target).state ≠ .exited)
    (storage : last.storage = Function.update s.storage target
      { s.storage target with state := .running })
    (used : last.used = s.used) (ready : last.ready = s.ready) :
    AtRest last slot ∧ some target ≠ some slot := by
  have different : slot ≠ target := by
    rintro rfl
    exact alive rest.state
  refine ⟨rest.congr ?_ ?_ ?_, fun same => different (Option.some.inj same).symm⟩
  · rw [used]
    exact rest.used
  · rw [storage]
    exact state_update _ different _
  · rintro ⟨i, inside, cell⟩
    rw [ready] at cell
    exact ⟨i, inside, cell⟩

/-- A new thread takes another slot. -/
theorem AtRest.created {s last : Scheduler} {slot pid entryPoint cr3 : Nat} {result : Option Nat}
    (rest : AtRest s slot) (returned : s.createThread pid entryPoint cr3 = .ok (result, last)) :
    AtRest last slot := by
  rcases createThread_cases returned with ⟨storage, used, ready, _⟩ | ⟨taken, made, created, rfl⟩
  · refine rest.congr (by rw [used]; exact rest.used) (by rw [storage]) ?_
    rintro ⟨i, inside, cell⟩
    rw [ready] at cell
    exact ⟨i, inside, cell⟩
  · have free := (position_eq_some.mp created.free).2.1
    have different : slot ≠ taken := by
      rintro rfl
      rw [rest.used] at free
      cases free
    obtain ⟨queue, added, grows⟩ := enqueueThread_adds made taken
    obtain ⟨thread, storage, _⟩ := created.storage
    rw [added]
    refine rest.congr ?_ ?_ fun back => ?_
    · show made.used slot = true
      rw [created.used, Function.update_of_ne different]
      exact rest.used
    · show (made.storage slot).state = _
      rw [storage]
      exact state_update _ different _
    · rcases grows slot back with same | ⟨i, inside, cell⟩
      · exact absurd same different
      · rw [created.ready] at cell
        exact ⟨i, inside, cell⟩

/-- A thread marked while it is not queued is at rest. -/
theorem atRest_of_marked {s : Scheduler} (sound : s.Sound) {slot : Nat}
    (detached : ∀ slot, s.current = some slot → ¬s.Queued slot)
    (marked : slot ∈ marks s (.threadExit 0)) : AtRest s.markExited slot := by
  simp only [marks, Option.mem_toList, Option.filter_eq_some_iff, decide_eq_true_eq] at marked
  obtain ⟨running, inside⟩ := marked
  rcases s.markExited_spec with ⟨_, outside⟩ | ⟨old, runningOld, _, shape⟩
  · exact absurd inside (Nat.not_lt.mpr (outside slot running))
  · obtain rfl := Option.some.inj (running.symm.trans runningOld)
    rw [shape]
    exact ⟨sound.current_used slot running, by simp [Scheduler.modify], detached slot running⟩

/-- Marking the running thread leaves ended threads at rest. -/
theorem AtRest.markExited {s : Scheduler} {slot : Nat} (rest : AtRest s slot) :
    AtRest s.markExited slot := by
  rcases s.markExited_spec with ⟨same, _⟩ | ⟨old, _, _, shape⟩
  · rw [same]
    exact rest
  · rw [shape]
    refine ⟨rest.used, ?_, rest.unqueued⟩
    simp only [Scheduler.modify]
    by_cases same : slot = old
    · rw [same, Function.update_self]
    · rw [state_update _ same]
      exact rest.state

/-- One call under the condition leaves every ended thread at rest. -/
theorem atRest_of_step (sound : before.scheduler.Sound)
    (rests : ∀ slot ∈ before.ended, AtRest before.scheduler slot) (detached : before.Detached op)
    (step : before.Step op after) :
    ∀ slot ∈ after.ended, AtRest after.scheduler slot ∧ after.selected ≠ some slot := by
  obtain ⟨⟨⟨transfer, returned⟩, _⟩, selected, ended⟩ := step
  rw [selected, ended]
  intro slot member
  cases op with
  | createThread pid entryPoint cr3 =>
    simp only [apply, bind_eq_ok, pure_eq_ok, Prod.mk.injEq] at returned
    obtain ⟨⟨result, made⟩, creating, _, rfl⟩ := returned
    exact ⟨(rests slot member).created creating, by simp [selects]⟩
  | enterUserMode target =>
    have rest := rests slot member
    simp only [apply, enterUserMode, selects] at returned ⊢
    split at returned
    · simp only [bind_eq_ok, pure_eq_ok, Prod.mk.injEq] at returned
      obtain ⟨kstackTop, _, _, entered⟩ := returned
      rw [if_pos (by assumption), ← entered]
      exact rest.enter detached rfl rfl rfl
    · rw [if_neg (by assumption), ← (Prod.mk.inj (Except.ok.inj returned)).2]
      exact ⟨rest, by simp⟩
  | enterInterpreter target =>
    have rest := rests slot member
    simp only [apply, enterInterpreter, selects, Except.ok.injEq, Prod.mk.injEq] at returned ⊢
    split at returned
    · rw [if_pos (by assumption), ← returned.2]
      exact rest.enter detached rfl rfl rfl
    · rw [if_neg (by assumption), ← returned.2]
      exact ⟨rest, by simp⟩
  | preempt interruptRsp =>
    simp only [apply, bind_eq_ok, pure_eq_ok, Prod.mk.injEq] at returned
    obtain ⟨⟨resumed, last⟩, preempting, _, rfl⟩ := returned
    exact (rests slot member).preempt preempting
  | schedule rsp => exact (rests slot member).schedule returned
  | threadExit rsp =>
    have rest : AtRest before.scheduler.markExited slot := by
      rcases List.mem_append.mp member with marked | earlier
      · exact atRest_of_marked sound detached marked
      · exact (rests slot earlier).markExited
    exact rest.schedule returned

/-- For every machine at boot and every run whose calls all meet the condition, no call sets an
ended thread running again or selects it. -/
theorem rests_of_detached (storage : Nat → Thread) (heap : BumpAllocator)
    (frames : FrameAllocator) (memory : PhysMem) (ops : List SchedulerOp) (last : Observed)
    (run : Run (Guarded Detached Step) ⟨boot storage heap frames memory, none, []⟩ ops last) :
    Run (Reaching Rests Step) ⟨boot storage heap frames memory, none, []⟩ ops last := by
  refine Run.reaching (fun o : Observed => o.scheduler.Sound ∧
    ∀ slot ∈ o.ended, AtRest o.scheduler slot ∧ o.selected ≠ some slot) ?_ ?_
    ⟨⟨by simp [boot], by simp [boot], by simp [boot]⟩, by simp⟩ run
  · intro before op after inv detached step
    exact ⟨Traced.sound_step inv.1 step.1, atRest_of_step inv.1 (fun slot member => (inv.2 slot member).1)
      detached step⟩
  · intro state inv slot member
    exact ⟨(inv.2 slot member).1.state, (inv.2 slot member).2⟩

/-- `schedule` returns while the running slot is inside the table. -/
theorem schedule_returns {s : Scheduler} (current_lt : ∀ old, s.current = some old → old < maxThreads)
    (rsp : Nat) : ∃ transfer last, s.schedule rsp = .ok (transfer, last) := by
  obtain ⟨ready, popped, _⟩ := s.dequeueThread_takes
  unfold Scheduler.schedule
  cases taking : s.dequeueThread with
  | mk next rest =>
    rw [taking] at popped
    subst popped
    cases next with
    | none => exact ⟨_, _, rfl⟩
    | some next =>
      by_cases inside : next < maxThreads
      · obtain ⟨saved, saving⟩ := Scheduler.saveContext_returns
          (s := (s.withReady ready).modify next fun thread => { thread with state := .running })
          current_lt rsp
        simp only [inside, ↓reduceIte, saving, ok_bind]
        exact ⟨_, _, rfl⟩
      · simp only [inside, ↓reduceIte]
        exact ⟨_, _, rfl⟩

/-- Threads in one place: the running one is not queued. -/
theorem not_queued_of_places {s : Scheduler} {queue : List Nat} (places : s.Places queue) (slot : Nat)
    (running : s.current = some slot) : ¬s.Queued slot := by
  rintro ⟨i, _, cell⟩
  rw [places.holds] at cell
  exact places.not_current slot (List.mem_of_getElem? cell) running

/-- A thread created, switched to and ended stays ended. -/
theorem rests_of_detached_switched : ∃ last,
    Run (Reaching Rests Step) ⟨mebibyteBoot, none, []⟩
      [.createThread 1 0x401000 0, .schedule 0x1ff00, .threadExit 0x10ff00] last ∧
    last.ended = [0] := by
  obtain ⟨made, created, _, returned⟩ := mebibyteBoot_creates 1 0x401000 0
  have places := mebibyteBoot_places.created created
  have idle : (made.enqueueThread 0).2.current = none := by
    rw [(enqueueThread_only made 0).2.2, created.current]
    rfl
  generalize (made.enqueueThread 0).2 = queued at places returned idle
  obtain ⟨transfer, running, scheduled⟩ :=
    schedule_returns (s := queued) (by simp [idle]) 0x1ff00
  obtain ⟨rest, runningPlaces⟩ := places.schedule scheduled
  have chosen : queued.selects (.schedule 0x1ff00) = some 0 := by
    rw [selects, dequeueThread_cons places.holds (by decide)]
    rfl
  have current : running.current = some 0 := by
    obtain ⟨_, _, ⟨none, _⟩ | ⟨next, _, chosenNext, _, _, _, rfl⟩⟩ := schedule_spec scheduled
    · rw [none] at chosen
      cases chosen
    · exact chosenNext.symm.trans chosen
  obtain ⟨exitTransfer, last, exited⟩ := schedule_returns (s := running.markExited)
    (fun old same => (runningPlaces.markExited.current_used old same).1) 0x10ff00
  have creates : Step ⟨mebibyteBoot, none, []⟩ (.createThread 1 0x401000 0) ⟨queued, none, []⟩ :=
    ⟨⟨⟨_, returned⟩, by simp [SchedulerOp.enters]⟩, rfl, rfl⟩
  have switches : Step ⟨queued, none, []⟩ (.schedule 0x1ff00) ⟨running, some 0, []⟩ :=
    ⟨⟨⟨_, scheduled⟩, by simp [SchedulerOp.enters]⟩, chosen.symm, rfl⟩
  have exits : Step ⟨running, some 0, []⟩ (.threadExit 0x10ff00)
      ⟨last, running.selects (.threadExit 0x10ff00), [0]⟩ :=
    ⟨⟨⟨_, exited⟩, by simp [SchedulerOp.enters]⟩, rfl, by rw [marks, current]; rfl⟩
  refine ⟨_, rests_of_detached _ _ _ _ _ _ (.cons ⟨trivial, creates⟩ (.cons ⟨trivial, switches⟩
    (.cons ⟨?_, exits⟩ (.nil _)))), rfl⟩
  exact not_queued_of_places runningPlaces

/-- A thread started and ended is selected again: starting it left it queued. -/
theorem rests_counterexample : ∃ last,
    Run Step ⟨mebibyteBoot, none, []⟩
      [.createThread 1 0x401000 0, .enterInterpreter 0, .threadExit 0x10ff00] last ∧
    last.ended = [0] ∧ last.selected = some 0 ∧ ¬last.Rests := by
  obtain ⟨made, created, _, returned⟩ := mebibyteBoot_creates 1 0x401000 0
  have places := mebibyteBoot_places.created created
  have alive := places.live_of_mem 0 (by simp)
  generalize (made.enqueueThread 0).2 = queued at places returned alive
  have started : queued.enterInterpreter 0 = { queued.modify 0 fun thread =>
      { thread with state := .running } with current := some 0 } := by
    rw [enterInterpreter, if_pos (by decide)]
  generalize runningEq : queued.enterInterpreter 0 = running at started
  have current : running.current = some 0 := by rw [started]
  have holds : running.markExited.Holds [0] := by
    rcases running.markExited_spec with ⟨same, _⟩ | ⟨slot, _, _, same⟩
    · rw [same, started]
      exact places.holds
    · rw [same, started]
      exact places.holds
  have exitCurrent : running.markExited.current = some 0 := by
    rcases running.markExited_spec with ⟨same, _⟩ | ⟨slot, _, _, same⟩
    · rw [same, current]
    · rw [same]
      exact current
  obtain ⟨transfer, last, exited⟩ := schedule_returns (s := running.markExited)
    (by simp [exitCurrent, maxThreads]) 0x10ff00
  have chosen : running.selects (.threadExit 0x10ff00) = some 0 := by
    rw [selects, dequeueThread_cons holds (by decide)]
    rfl
  have creates : Step ⟨mebibyteBoot, none, []⟩ (.createThread 1 0x401000 0) ⟨queued, none, []⟩ :=
    ⟨⟨⟨_, returned⟩, by simp [SchedulerOp.enters]⟩, rfl, rfl⟩
  have enters : Step ⟨queued, none, []⟩ (.enterInterpreter 0) ⟨running, some 0, []⟩ := by
    refine ⟨⟨⟨none, by rw [apply, runningEq]⟩, fun slot same _ => ?_⟩, rfl, rfl⟩
    rw [← Option.some.inj same]
    exact alive.2.1
  have exits : Step ⟨running, some 0, []⟩ (.threadExit 0x10ff00) ⟨last, some 0, [0]⟩ :=
    ⟨⟨⟨_, exited⟩, by simp [SchedulerOp.enters]⟩, chosen.symm, by rw [marks, current]; rfl⟩
  refine ⟨_, .cons creates (.cons enters (.cons exits (.nil _))), rfl, rfl, fun rests => ?_⟩
  exact (rests 0 (by simp)).2 rfl

end Observed

end Aperture.Win32
