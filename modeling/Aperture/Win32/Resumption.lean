import Aperture.Win32.Switches

/-!
# Where threads resume

A thread has two saved stack pointers: `rsp`, which `schedule` saves and resumes from, and
`interrupt_rsp`, which `preempt` saves and resumes from. Neither is cleared when the thread
runs, so each operation resumes from its own latest save even when the other operation has
saved the thread since.
-/

namespace Aperture.Win32

open Machine Mm

/-- What was saved most recently for a slot's thread. -/
inductive Latest where
  /-- The thread has not run: its context is the one of `initial_stack`. -/
  | initial (rsp : Nat)
  /-- `schedule` switched away from it. -/
  | cooperative (rsp : Nat)
  /-- `preempt` interrupted it. -/
  | interrupted (rsp : Nat)
  /-- There is no thread, or it has run and nothing has been saved for it. -/
  | unsaved
  deriving DecidableEq, Repr

/-- The stack pointer a thread has to resume from. -/
def Latest.pointer : Latest → Option Nat
  | .initial rsp => some rsp
  | .cooperative rsp => some rsp
  | .interrupted rsp => some rsp
  | .unsaved => none

/-- Whether `schedule` saved the thread last, or the thread has not run. -/
def Latest.bySchedule : Latest → Bool
  | .initial _ => true
  | .cooperative _ => true
  | .interrupted _ => false
  | .unsaved => false

/-- Whether `preempt` saved the thread last. -/
def Latest.byPreempt : Latest → Bool
  | .initial _ => false
  | .cooperative _ => false
  | .interrupted _ => true
  | .unsaved => false

/-- Running a thread for the first time uses up its initial context. -/
def Latest.run : Latest → Latest
  | .initial _ => .unsaved
  | .cooperative rsp => .cooperative rsp
  | .interrupted rsp => .interrupted rsp
  | .unsaved => .unsaved

/-- `schedule` or `preempt` has resumed a thread. -/
structure Resumed where
  /-- Slot of the thread. -/
  slot : Nat
  /-- Stack pointer it resumes from. -/
  pointer : Nat
  /-- What had been saved for it most recently. -/
  latest : Latest
  deriving DecidableEq, Repr

/-- The scheduler with the history of its saves. -/
structure History where
  /-- The scheduler. -/
  scheduler : Scheduler
  /-- What was saved most recently for each slot. -/
  latest : Nat → Latest
  /-- The thread resumed by the latest call. -/
  resumed : Option Resumed

namespace History

open Scheduler

variable {before after : History} {op : SchedulerOp}

/-- At boot nothing is saved. -/
def boot (scheduler : Scheduler) : History := ⟨scheduler, fun _ => .unsaved, none⟩

/-- What `switch` saves when a thread is selected: the context of the running thread. -/
def switches (latest : Nat → Latest) (rsp : Nat) : Option Nat → Option Nat → Nat → Latest
  | some _, some slot => Function.update latest slot (.cooperative rsp)
  | some _, none => latest
  | none, _ => latest

/-- What is saved for each slot once a call has saved the context it leaves. -/
def saves (h : History) : SchedulerOp → Nat → Latest
  | .preempt interruptRsp =>
    match h.scheduler.current with
    | some slot =>
      if slot < maxThreads ∧ (h.scheduler.storage slot).state ≠ .exited then
        Function.update h.latest slot (.interrupted interruptRsp)
      else h.latest
    | none => h.latest
  | .schedule rsp =>
    switches h.latest rsp (h.scheduler.selects (.schedule rsp)) h.scheduler.current
  | .threadExit rsp =>
    switches h.latest rsp (h.scheduler.selects (.threadExit rsp)) h.scheduler.current
  | .createThread _ _ _ => h.latest
  | .enterUserMode _ => h.latest
  | .enterInterpreter _ => h.latest

/-- What is saved after the call: a created thread has its initial context, and a selected
thread has run. -/
def next (h : History) (op : SchedulerOp) (after : Scheduler) : Nat → Latest :=
  match op, h.scheduler.allocThreadSlot with
  | .createThread _ _ _, some slot =>
    if after.used slot = true then
      Function.update h.latest slot (.initial (after.storage slot).rsp)
    else h.latest
  | op, _ =>
    match h.scheduler.selects op with
    | some slot => Function.update (h.saves op) slot (h.saves op slot).run
    | none => h.saves op

/-- The thread a call of `schedule` or `preempt` resumes, and the stack pointer it passes to
`switch` or returns. -/
def resumes (s : Scheduler) : SchedulerOp → Option (Nat × Nat)
  | .preempt interruptRsp =>
    match s.selects (.preempt interruptRsp), s.preempt interruptRsp with
    | some slot, .ok (pointer, _) => some (slot, pointer)
    | some _, .error _ => none
    | none, _ => none
  | .schedule rsp => (s.selects (.schedule rsp)).map fun slot => (slot, (s.storage slot).rsp)
  | .threadExit rsp => (s.selects (.threadExit rsp)).map fun slot => (slot, (s.storage slot).rsp)
  | .createThread _ _ _ => none
  | .enterUserMode _ => none
  | .enterInterpreter _ => none

/-- A call on the scheduler, recorded. -/
def apply (h : History) (op : SchedulerOp) : Except Panic History := do
  let (_, scheduler) ← h.scheduler.apply op
  return ⟨scheduler, h.next op scheduler,
    (resumes h.scheduler op).map fun (slot, pointer) => ⟨slot, pointer, h.saves op slot⟩⟩

/-- A call that returns; only created threads are entered. -/
def Step (before : History) (op : SchedulerOp) (after : History) : Prop :=
  before.apply op = .ok after ∧
    ∀ slot, op.enters = some slot → slot < maxThreads → before.scheduler.used slot = true

/-- A thread resumed by the latest call resumes from the context saved for it most recently. -/
def Continues (h : History) : Prop :=
  ∀ resumed, h.resumed = some resumed → resumed.latest.pointer = some resumed.pointer

/-- The condition on a call: a thread that `preempt` resumes was last saved by `preempt`; a
thread that `schedule` resumes is not the one it leaves, and was last saved by `schedule` or
has not run. -/
def SavedAlike (h : History) : SchedulerOp → Prop
  | .preempt interruptRsp => ∀ slot ∈ h.scheduler.selects (.preempt interruptRsp),
    (h.saves (.preempt interruptRsp) slot).byPreempt = true
  | .schedule rsp => ∀ slot ∈ h.scheduler.selects (.schedule rsp),
    h.scheduler.current ≠ some slot ∧ (h.latest slot).bySchedule = true
  | .threadExit rsp => ∀ slot ∈ h.scheduler.selects (.threadExit rsp),
    h.scheduler.current ≠ some slot ∧ (h.latest slot).bySchedule = true
  | .createThread _ _ _ => True
  | .enterUserMode _ => True
  | .enterInterpreter _ => True

instance (h : History) : (op : SchedulerOp) → Decidable (h.SavedAlike op)
  | .preempt interruptRsp => inferInstanceAs
    (Decidable (∀ slot ∈ h.scheduler.selects (.preempt interruptRsp), _))
  | .schedule rsp => inferInstanceAs
    (Decidable (∀ slot ∈ h.scheduler.selects (.schedule rsp), _))
  | .threadExit rsp => inferInstanceAs
    (Decidable (∀ slot ∈ h.scheduler.selects (.threadExit rsp), _))
  | .createThread _ _ _ => instDecidableTrue
  | .enterUserMode _ => instDecidableTrue
  | .enterInterpreter _ => instDecidableTrue

/-- The save slot of the operation that saved a thread last holds what it saved. -/
def Holds (thread : Thread) : Latest → Prop
  | .initial rsp => thread.rsp = rsp
  | .cooperative rsp => thread.rsp = rsp
  | .interrupted rsp => thread.interruptRsp = rsp
  | .unsaved => True

/-- Every save slot holds the latest save made through it. -/
def Recorded (storage : Nat → Thread) (latest : Nat → Latest) : Prop :=
  ∀ slot, Holds (storage slot) (latest slot)

variable {storage : Nat → Thread} {latest : Nat → Latest} {slot : Nat}

/-- Saving a thread's context in its slot. -/
theorem Recorded.save (recorded : Recorded storage latest) {thread : Thread} {saved : Latest}
    (holds : Holds thread saved) :
    Recorded (Function.update storage slot thread) (Function.update latest slot saved) := by
  intro other
  by_cases same : other = slot
  · rw [same, Function.update_self, Function.update_self]
    exact holds
  · rw [Function.update_of_ne same, Function.update_of_ne same]
    exact recorded other

/-- Changing a thread without touching its save slots. -/
theorem Recorded.keep (recorded : Recorded storage latest) {thread : Thread}
    (rsp : thread.rsp = (storage slot).rsp)
    (interruptRsp : thread.interruptRsp = (storage slot).interruptRsp) :
    Recorded (Function.update storage slot thread) latest := by
  intro other
  by_cases same : other = slot
  · rw [same, Function.update_self]
    have before := recorded slot
    cases saved : latest slot with
    | initial pointer => exact rsp.trans (by rw [saved] at before; exact before)
    | cooperative pointer => exact rsp.trans (by rw [saved] at before; exact before)
    | interrupted pointer => exact interruptRsp.trans (by rw [saved] at before; exact before)
    | unsaved => trivial
  · rw [Function.update_of_ne same]
    exact recorded other

/-- Running a thread. -/
theorem Recorded.run (recorded : Recorded storage latest) (slot : Nat) :
    Recorded storage (Function.update latest slot (latest slot).run) := by
  intro other
  by_cases same : other = slot
  · rw [same, Function.update_self]
    have before := recorded slot
    cases saved : latest slot with
    | initial pointer => trivial
    | cooperative pointer => exact (by rw [saved] at before; exact before)
    | interrupted pointer => exact (by rw [saved] at before; exact before)
    | unsaved => trivial
  · rw [Function.update_of_ne same]
    exact recorded other

/-- The first half of `preempt` records the frame it saves. -/
theorem Recorded.saveInterrupted {h : History} (recorded : Recorded h.scheduler.storage h.latest)
    (interruptRsp : Nat) : Recorded (h.scheduler.saveInterrupted interruptRsp).storage
      (h.saves (.preempt interruptRsp)) := by
  simp only [saves]
  rcases h.scheduler.saveInterrupted_spec interruptRsp with ⟨same, ended⟩ |
    ⟨slot, ready, running, inside, alive, shape, _⟩
  · rw [same]
    cases running : h.scheduler.current with
    | none => exact recorded
    | some slot =>
      have idle : ¬(slot < maxThreads ∧ (h.scheduler.storage slot).state ≠ .exited) :=
        fun live => live.2 (ended slot running live.1)
      simp only [if_neg idle]
      exact recorded
  · rw [shape, running]
    simp only [if_pos (And.intro inside alive)]
    exact recorded.save rfl

/-- A cooperative switch records the context it saves. -/
theorem Recorded.schedule {s last : Scheduler} {rsp : Nat} {transfer : Option Transfer}
    (recorded : Recorded s.storage latest) (returned : s.schedule rsp = .ok (transfer, last)) :
    Recorded last.storage (switches latest rsp (s.selects (.schedule rsp)) s.current) := by
  obtain ⟨ready, _, ⟨none, rfl⟩ | ⟨next, saved, chosen, _, _, saving, rfl⟩⟩ := schedule_spec returned
  · rw [none]
    exact recorded
  · have started : Recorded (Function.update s.storage next
        { s.storage next with state := .running }) latest := recorded.keep rfl rfl
    rw [chosen]
    rcases saveContext_spec saving with ⟨idle, rfl⟩ | ⟨old, queue, state, running, _, _, rfl, _⟩
    · rw [show s.current = none from idle]
      exact started
    · rw [show s.current = some old from running]
      exact started.save rfl

/-- Ending the running thread saves nothing. -/
theorem Recorded.markExited {s : Scheduler} (recorded : Recorded s.storage latest) :
    Recorded s.markExited.storage latest := by
  rcases s.markExited_spec with ⟨same, _⟩ | ⟨slot, _, _, marked⟩
  · rw [same]
    exact recorded
  · rw [marked]
    exact recorded.keep rfl rfl

/-- A new thread's initial context is recorded. -/
theorem Recorded.created {h : History} {last : Scheduler} {pid entryPoint cr3 : Nat}
    {result : Option Nat} (recorded : Recorded h.scheduler.storage h.latest)
    (returned : h.scheduler.createThread pid entryPoint cr3 = .ok (result, last)) :
    Recorded last.storage (h.next (.createThread pid entryPoint cr3) last) := by
  rcases createThread_cases returned with ⟨storage, used, _, _⟩ | ⟨slot, made, created, rfl⟩
  · rw [storage]
    cases free : h.scheduler.allocThreadSlot with
    | none =>
      simp only [next, free]
      exact recorded
    | some slot =>
      have unused := (position_eq_some.mp free).2.1
      rw [Bool.not_eq_true', ← used] at unused
      simp only [next, free, unused, Bool.false_eq_true, ↓reduceIte]
      exact recorded
  · obtain ⟨thread, storage, _⟩ := created.storage
    obtain ⟨queuedStorage, queuedUsed, _⟩ := enqueueThread_only made slot
    have taken : (made.enqueueThread slot).2.used slot = true := by
      rw [queuedUsed, created.used, Function.update_self]
    simp only [next, created.free, taken, ↓reduceIte]
    rw [queuedStorage, storage]
    refine recorded.save ?_
    simp only [Function.update_self]
    rfl

/-- What a call leaves recorded, it leaves recorded once the thread it selects has run. -/
theorem Recorded.selected (h : History) (op : SchedulerOp) (last : Scheduler)
    (notCreate : ∀ pid entryPoint cr3, op ≠ .createThread pid entryPoint cr3)
    (recorded : Recorded storage (h.saves op)) :
    Recorded storage (h.next op last) := by
  have ran : Recorded storage (match h.scheduler.selects op with
      | some slot => Function.update (h.saves op) slot (h.saves op slot).run
      | none => h.saves op) := by
    cases h.scheduler.selects op with
    | none => exact recorded
    | some slot => exact recorded.run slot
  cases op with
  | createThread pid entryPoint cr3 => exact absurd rfl (notCreate pid entryPoint cr3)
  | enterUserMode => exact ran
  | enterInterpreter => exact ran
  | preempt => exact ran
  | schedule => exact ran
  | threadExit => exact ran

/-- Every call records what it saves. -/
theorem Recorded.step (recorded : Recorded before.scheduler.storage before.latest)
    (step : before.Step op after) : Recorded after.scheduler.storage after.latest := by
  obtain ⟨returned, _⟩ := step
  simp only [apply, bind_eq_ok, pure_eq_ok] at returned
  obtain ⟨⟨transfer, last⟩, returned, rfl⟩ := returned
  cases op with
  | createThread pid entryPoint cr3 =>
    simp only [Scheduler.apply, bind_eq_ok, pure_eq_ok, Prod.mk.injEq] at returned
    obtain ⟨⟨result, made⟩, creating, _, rfl⟩ := returned
    exact recorded.created creating
  | enterUserMode slot =>
    refine Recorded.selected before (.enterUserMode slot) last (by simp) ?_
    simp only [Scheduler.apply, enterUserMode] at returned
    split at returned
    · simp only [bind_eq_ok, pure_eq_ok, Prod.mk.injEq] at returned
      obtain ⟨_, _, _, rfl⟩ := returned
      exact recorded.keep rfl rfl
    · obtain ⟨_, rfl⟩ := Prod.mk.inj (Except.ok.inj returned)
      exact recorded
  | enterInterpreter slot =>
    refine Recorded.selected before (.enterInterpreter slot) last (by simp) ?_
    obtain ⟨_, rfl⟩ := Prod.mk.inj (Except.ok.inj returned)
    unfold enterInterpreter
    split
    · exact recorded.keep rfl rfl
    · exact recorded
  | preempt interruptRsp =>
    refine Recorded.selected before (.preempt interruptRsp) last (by simp) ?_
    simp only [Scheduler.apply, bind_eq_ok, pure_eq_ok, Prod.mk.injEq] at returned
    obtain ⟨⟨resumed, final⟩, preempting, _, rfl⟩ := returned
    have saved := recorded.saveInterrupted interruptRsp
    obtain ⟨_, ready, rfl, _, ⟨_, _, rfl⟩ | ⟨slot, _, _, _, _, rfl⟩⟩ := preempt_spec preempting
    · exact saved
    · exact saved.keep rfl rfl
  | schedule rsp =>
    exact Recorded.selected before (.schedule rsp) last (by simp) (recorded.schedule returned)
  | threadExit rsp =>
    refine Recorded.selected before (.threadExit rsp) last (by simp) ?_
    have same : before.scheduler.markExited.current = before.scheduler.current := by
      rcases before.scheduler.markExited_spec with ⟨same, _⟩ | ⟨slot, _, _, marked⟩
      · rw [same]
      · rw [marked]
        rfl
    have scheduled := recorded.markExited.schedule returned
    rw [same] at scheduled
    exact scheduled

/-- A thread other than the running one keeps its latest save when `schedule` leaves. -/
theorem switches_other (latest : Nat → Latest) (rsp : Nat) (selected : Option Nat)
    {current : Option Nat} (other : current ≠ some slot) :
    switches latest rsp selected current slot = latest slot := by
  cases selected with
  | none => rfl
  | some next =>
    cases current with
    | none => rfl
    | some old => exact Function.update_of_ne (fun same => other (by rw [same])) _ _

/-- The save slot of `schedule` holds the context of a thread it saved last. -/
theorem pointer_of_cooperative (recorded : Recorded storage latest)
    (alike : (latest slot).bySchedule = true) :
    (latest slot).pointer = some (storage slot).rsp := by
  have holds := recorded slot
  cases saved : latest slot with
  | initial rsp => exact congrArg some (by rw [saved] at holds; exact holds.symm)
  | cooperative rsp => exact congrArg some (by rw [saved] at holds; exact holds.symm)
  | interrupted rsp => simp [saved, Latest.bySchedule] at alike
  | unsaved => simp [saved, Latest.bySchedule] at alike

/-- The save slot of `preempt` holds the frame of a thread it saved last. -/
theorem pointer_of_interrupted (recorded : Recorded storage latest)
    (alike : (latest slot).byPreempt = true) :
    (latest slot).pointer = some (storage slot).interruptRsp := by
  have holds := recorded slot
  cases saved : latest slot with
  | initial rsp => simp [saved, Latest.byPreempt] at alike
  | cooperative rsp => simp [saved, Latest.byPreempt] at alike
  | interrupted rsp => exact congrArg some (by rw [saved] at holds; exact holds.symm)
  | unsaved => simp [saved, Latest.byPreempt] at alike

/-- A call under the condition resumes a thread from its latest save. -/
theorem continues_of_step (recorded : Recorded before.scheduler.storage before.latest)
    (alike : before.SavedAlike op) (step : before.Step op after) : after.Continues := by
  obtain ⟨returned, _⟩ := step
  simp only [apply, bind_eq_ok, pure_eq_ok] at returned
  obtain ⟨⟨transfer, last⟩, returned, rfl⟩ := returned
  intro resumed found
  simp only [Option.map_eq_some_iff, Prod.exists] at found
  obtain ⟨slot, pointer, found, rfl⟩ := found
  dsimp only
  cases op with
  | createThread => cases found
  | enterUserMode => cases found
  | enterInterpreter => cases found
  | preempt interruptRsp =>
    simp only [Scheduler.apply, bind_eq_ok, pure_eq_ok, Prod.mk.injEq] at returned
    obtain ⟨⟨frame, final⟩, preempting, _, rfl⟩ := returned
    have saved := recorded.saveInterrupted interruptRsp
    simp only [resumes, preempting] at found
    obtain ⟨_, ready, rfl, _, ⟨none, _, _⟩ | ⟨next, chosen, _, _, from_, _⟩⟩ :=
      preempt_spec preempting
    · rw [none] at found
      cases found
    · rw [chosen] at found
      obtain ⟨rfl, rfl⟩ := Prod.mk.inj (Option.some.inj found)
      rw [from_]
      exact pointer_of_interrupted saved (alike next chosen)
  | schedule rsp =>
    simp only [resumes, Option.map_eq_some_iff, Prod.mk.injEq] at found
    obtain ⟨next, chosen, rfl, rfl⟩ := found
    obtain ⟨other, saved⟩ := alike next chosen
    rw [saves, switches_other _ _ _ other]
    exact pointer_of_cooperative recorded saved
  | threadExit rsp =>
    simp only [resumes, Option.map_eq_some_iff, Prod.mk.injEq] at found
    obtain ⟨next, chosen, rfl, rfl⟩ := found
    obtain ⟨other, saved⟩ := alike next chosen
    rw [saves, switches_other _ _ _ other]
    exact pointer_of_cooperative recorded saved

/-- For every machine at boot and every run whose calls all meet the condition, every thread that
`schedule` or `preempt` resumes continues from the context saved for it most recently. -/
theorem continues_of_savedAlike (storage : Nat → Thread) (heap : BumpAllocator)
    (frames : FrameAllocator) (memory : PhysMem) (ops : List SchedulerOp) (last : History)
    (run : Run (Guarded SavedAlike Step) (boot (.boot storage heap frames memory)) ops last) :
    Run (Reaching Continues Step) (boot (.boot storage heap frames memory)) ops last := by
  refine Run.reaching (fun h : History => Recorded h.scheduler.storage h.latest ∧ h.Continues)
    ?_ (fun _ inv => inv.2) ⟨fun _ => trivial, by simp [Continues, boot]⟩ run
  intro before op after inv alike step
  exact ⟨inv.1.step step, continues_of_step inv.1 alike step⟩

/-- Calls that enter no slot make a run when they return. -/
theorem step_of_apply (enters : op.enters = none) (returned : before.apply op = .ok after) :
    before.Step op after :=
  ⟨returned, fun slot entered => by rw [enters] at entered; cases entered⟩

/-- A thread switched to for the first time, and interrupted after that, continues where it
stopped. -/
theorem continues_of_savedAlike_interrupted : ∃ last,
    Run (Reaching Continues Step) (boot mebibyteBoot)
      [.createThread 1 0x401000 0, .schedule 0x1ff00, .preempt 0x10fd00] last ∧
    last.resumed = some ⟨0, 0x10fd00, .interrupted 0x10fd00⟩ := by
  have evaluated : (Run.evaluate (fun h op => decide (op.enters = none ∧ h.SavedAlike op)) apply
      (boot mebibyteBoot) [.createThread 1 0x401000 0, .schedule 0x1ff00, .preempt 0x10fd00]).map
        (fun h => h.resumed) = some (some ⟨0, 0x10fd00, .interrupted 0x10fd00⟩) := by
    decide +kernel
  obtain ⟨last, evaluated, resumed⟩ := Option.map_eq_some_iff.mp evaluated
  refine ⟨last, continues_of_savedAlike _ _ _ _ _ _ (.of_evaluate ?_ evaluated), resumed⟩
  intro before op after allowed returned
  obtain ⟨enters, alike⟩ := of_decide_eq_true allowed
  exact ⟨alike, step_of_apply enters returned⟩

/-- The second thread, interrupted and later switched away from, is resumed by a timer interrupt
from its old frame. -/
theorem continues_counterexample : ∃ last,
    Run Step (boot mebibyteBoot) [.createThread 1 0x401000 0, .createThread 2 0x402000 0,
      .schedule 0x1ff00, .schedule 0x10fe00, .preempt 0x12fd00, .preempt 0x12fc00,
      .schedule 0x12fb00, .preempt 0x10fa00] last ∧
    last.resumed = some ⟨1, 0x12fc00, .cooperative 0x12fb00⟩ ∧ ¬last.Continues := by
  have evaluated : (Run.evaluate (fun _ op => decide (op.enters = none)) apply (boot mebibyteBoot)
      [.createThread 1 0x401000 0, .createThread 2 0x402000 0, .schedule 0x1ff00,
        .schedule 0x10fe00, .preempt 0x12fd00, .preempt 0x12fc00, .schedule 0x12fb00,
        .preempt 0x10fa00]).map (fun h => h.resumed) =
        some (some ⟨1, 0x12fc00, .cooperative 0x12fb00⟩) := by
    decide +kernel
  obtain ⟨last, evaluated, resumed⟩ := Option.map_eq_some_iff.mp evaluated
  refine ⟨last, .of_evaluate ?_ evaluated, resumed, fun continues => ?_⟩
  · intro before op after allowed returned
    exact step_of_apply (of_decide_eq_true allowed) returned
  · have same := continues _ resumed
    simp only [Latest.pointer, Option.some.injEq] at same
    omega

end History

end Aperture.Win32
