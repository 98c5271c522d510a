import Aperture.Win32.Places

/-!
# Failed calls of `create_thread`

`create_thread` marks its slot used before it queues it, and returns early when the ready queue is
full. While every thread is in one place the queue always has room, but a timer interrupt that finds
no frame to resume queues a running thread again, and enough of them fill the queue.
-/

namespace Aperture.Win32.Scheduler

open Machine Mm

variable {s after : Scheduler}

/-- A `create_thread` that returns nothing leaves the used slots and the ready queue alone. -/
def FailsCleanly (s : Scheduler) (op : SchedulerOp) (after : Scheduler) : Prop :=
  ∀ pid entryPoint cr3, op = .createThread pid entryPoint cr3 →
    s.createThread pid entryPoint cr3 = .ok (none, after) →
      after.used = s.used ∧ after.ready = s.ready

/-- Every cell of the ready queue is taken. -/
def QueueFull (s : Scheduler) : Prop := ∀ i < maxReady, s.ready i ≠ none

/-- When `create_thread` finds a slot and both stacks, the ready queue has room. -/
def Roomy (s : Scheduler) : SchedulerOp → Prop
  | .createThread _ _ _ => s.allocThreadSlot ≠ none → stackBases s.heap ≠ none → ¬s.QueueFull
  | .enterUserMode _ => True
  | .enterInterpreter _ => True
  | .preempt _ => True
  | .schedule _ => True
  | .threadExit _ => True

/-- Queueing fails exactly on a full queue, and then changes nothing. -/
theorem enqueueThread_fails_iff (s : Scheduler) (slot : Nat) :
    ((s.enqueueThread slot).1 = false ↔ s.QueueFull) ∧
      (s.QueueFull → (s.enqueueThread slot).2 = s) := by
  unfold enqueueThread
  cases found : position maxReady fun i => (s.ready i).isNone with
  | none =>
    have full : s.QueueFull := by
      intro i inside missing
      have taken := position_eq_none.mp found i inside
      rw [missing] at taken
      cases taken
    exact ⟨⟨fun _ => full, fun _ => rfl⟩, fun _ => rfl⟩
  | some index =>
    obtain ⟨inside, empty, _⟩ := position_eq_some.mp found
    have notFull : ¬s.QueueFull := fun full => full index inside (by simpa using empty)
    exact ⟨⟨nofun, fun full => absurd full notFull⟩, fun full => absurd full notFull⟩

/-- A created thread's queue is full exactly when the queue was before. -/
theorem Created.queueFull_iff {made : Scheduler} {entryPoint cr3 slot : Nat}
    (created : Created s entryPoint cr3 slot made) : made.QueueFull ↔ s.QueueFull := by
  unfold QueueFull
  rw [created.ready]

/-- A created thread's slot is marked now and was not before. -/
theorem Created.used_ne {made : Scheduler} {entryPoint cr3 slot : Nat}
    (created : Created s entryPoint cr3 slot made) : made.used ≠ s.used := by
  intro same
  have free := (position_eq_some.mp created.free).2.1
  have marked := congrFun same slot
  rw [created.used, Function.update_self] at marked
  rw [← marked] at free
  cases free

/-- One call: it fails cleanly exactly when it meets the condition. -/
theorem failsCleanly_iff {op : SchedulerOp} (step : s.Step op after) :
    s.FailsCleanly op after ↔ s.Roomy op := by
  cases op with
  | createThread pid entryPoint cr3 =>
    obtain ⟨⟨transfer, returned⟩, _⟩ := step
    simp only [apply, bind_eq_ok, pure_eq_ok, Prod.mk.injEq] at returned
    obtain ⟨⟨result, made⟩, creating, _, rfl⟩ := returned
    rcases createThread_inversion creating with ⟨rfl, missing, next, _, rfl⟩ |
      ⟨slot, kernelBase, userBase, created, on, rfl, rfl⟩
    · constructor
      · intro _ hasSlot hasStacks
        rcases missing with noSlot | noStacks
        · exact absurd noSlot hasSlot
        · exact absurd noStacks hasStacks
      · rintro _ _ _ _ _ _
        exact ⟨rfl, rfl⟩
    · obtain ⟨fails, unchanged⟩ := created.enqueueThread_fails_iff slot
      rw [on.toCreated.queueFull_iff] at fails unchanged
      constructor
      · intro clean _ _ full
        have kept := unchanged full
        rw [if_neg (by rw [fails.mpr full]; exact Bool.false_ne_true)] at creating
        have same := (clean pid entryPoint cr3 rfl creating).1
        rw [kept] at same
        exact on.toCreated.used_ne same
      · intro roomy pid' entryPoint' cr3' same failed
        obtain ⟨rfl, rfl, rfl⟩ := SchedulerOp.createThread.inj same
        have notFull : ¬s.QueueFull :=
          roomy (by rw [on.free]; exact Option.some_ne_none _)
            (by rw [on.bases]; exact Option.some_ne_none _)
        have queued : (created.enqueueThread slot).1 = true := by
          rw [← Bool.not_eq_false, fails]
          exact notFull
        rw [if_pos queued] at creating
        rw [creating] at failed
        cases failed
  | enterUserMode => exact ⟨fun _ => trivial, fun _ _ _ _ same => by cases same⟩
  | enterInterpreter => exact ⟨fun _ => trivial, fun _ _ _ _ same => by cases same⟩
  | preempt => exact ⟨fun _ => trivial, fun _ _ _ _ same => by cases same⟩
  | schedule => exact ⟨fun _ => trivial, fun _ _ _ _ same => by cases same⟩
  | threadExit => exact ⟨fun _ => trivial, fun _ _ _ _ same => by cases same⟩

/-- While every thread is in one place, a free slot has room in the queue. -/
theorem Places.roomy {queue : List Nat} (places : s.Places queue) (op : SchedulerOp) : s.Roomy op := by
  cases op with
  | createThread pid entryPoint cr3 =>
    intro hasSlot _ full
    obtain ⟨slot, found⟩ := Option.ne_none_iff_exists'.mp hasSlot
    obtain ⟨inside, free, _⟩ := position_eq_some.mp found
    have absent : slot ∉ queue := by
      intro member
      rw [(places.live_of_mem slot member).2.1] at free
      cases free
    refine full queue.length (places.room inside absent) ?_
    rw [places.holds]
    exact List.getElem?_eq_none (Nat.le_refl _)
  | enterUserMode => trivial
  | enterInterpreter => trivial
  | preempt => trivial
  | schedule => trivial
  | threadExit => trivial

/-- A call that fails cleanly when it fails. -/
def Cleanly (s : Scheduler) (op : SchedulerOp) (after : Scheduler) : Prop :=
  s.Step op after ∧ s.FailsCleanly op after

/-- The calls that meet the condition are those that fail cleanly. -/
theorem guarded_roomy_eq : Guarded Roomy Step = Cleanly := by
  funext s op after
  exact propext ⟨fun ⟨roomy, step⟩ => ⟨step, (failsCleanly_iff step).mpr roomy⟩,
    fun ⟨step, clean⟩ => ⟨(failsCleanly_iff step).mp clean, step⟩⟩

/-- For every machine at boot and every run of the scheduler: each `create_thread` of the run that
returns nothing leaves the used slots and the ready queue as they were exactly when each finds room
in the queue once it has a slot and both stacks. So it is in every run that keeps each thread in one
place. -/
theorem failsCleanly_iff_roomy (storage : Nat → Thread) (heap : BumpAllocator)
    (frames : FrameAllocator) (memory : PhysMem) (ops : List SchedulerOp) (last : Scheduler) :
    (Run (Guarded Roomy Step) (boot storage heap frames memory) ops last ↔
      Run Cleanly (boot storage heap frames memory) ops last) ∧
    (Run (Guarded Enterable Step) (boot storage heap frames memory) ops last →
      Run Cleanly (boot storage heap frames memory) ops last) := by
  rw [guarded_roomy_eq]
  refine ⟨Iff.rfl, fun run => ?_⟩
  rw [← guarded_roomy_eq]
  have matched (before : Scheduler) (op : SchedulerOp) (next same : Scheduler)
      (related : same = before ∧ ∃ queue, before.Places queue)
      (step : Guarded Enterable Step before op next) :
      ∃ sameNext, (sameNext = next ∧ ∃ queue, next.Places queue) ∧
        Guarded Roomy Step same op sameNext := by
    obtain ⟨rfl, queue, places⟩ := related
    exact ⟨next, ⟨rfl, places.step step.1 step.2⟩, places.roomy op, step.2⟩
  obtain ⟨final, ⟨rfl, _⟩, roomy⟩ := run.simulates
    (fun state same => same = state ∧ ∃ queue, state.Places queue) matched
    ⟨rfl, [], boot_places storage heap frames memory⟩
  exact roomy

/-- The scheduler at boot with three empty mebibytes of heap. -/
def wideBoot : Scheduler :=
  boot (fun _ => Thread.new 0 0 0) (.initHeap 0x100000 0x400000) ⟨0x10000, 64, 0x10000, 1⟩
    ⟨fun _ => 0, []⟩

/-- Fifteen interpreted threads are created, the second is entered, and a timer interrupt finds no
frame to resume. -/
def fillsQueue : List SchedulerOp :=
  List.replicate 15 (.createThread 1 0x401000 0) ++ [.enterUserMode 1, .preempt 0x10ff00]

/-- One call that returns, its effect alone. -/
def perform (s : Scheduler) (op : SchedulerOp) : Except Panic Scheduler :=
  (s.apply op).map Prod.snd

/-- Only created threads are entered. -/
def mayEnter (s : Scheduler) (op : SchedulerOp) : Bool :=
  match op.enters with
  | none => true
  | some slot => s.used slot

/-- A call that is allowed and returns is a step. -/
theorem step_of_perform {op : SchedulerOp} (allowed : s.mayEnter op = true)
    (performed : s.perform op = .ok after) : s.Step op after := by
  refine ⟨?_, fun slot entered _ => ?_⟩
  · unfold perform at performed
    cases applied : s.apply op with
    | error reason =>
      rw [applied] at performed
      cases performed
    | ok outcome =>
      rw [applied] at performed
      obtain rfl := Except.ok.inj performed
      exact ⟨outcome.1, rfl⟩
  · unfold mayEnter at allowed
    rw [entered] at allowed
    exact allowed

/-- Sixteen entries fill the queue with fifteen threads; the sixteenth slot is then marked used by a
`create_thread` that returns nothing. -/
theorem failsCleanly_counterexample : ∃ state after,
    Run Step wideBoot fillsQueue state ∧ state.used 15 = false ∧
      state.createThread 1 0x401000 0 = .ok (none, after) ∧ after.used 15 = true ∧
      ¬state.FailsCleanly (.createThread 1 0x401000 0) after := by
  have reached : (Run.evaluate mayEnter perform wideBoot fillsQueue).map (fun state =>
      (state.used 15, (state.createThread 1 0x401000 0).toOption.map fun outcome =>
        (outcome.1, outcome.2.used 15))) = some (false, some (none, true)) := by decide +kernel
  obtain ⟨state, evaluated, observed⟩ := Option.map_eq_some_iff.mp reached
  obtain ⟨unused, created⟩ := Prod.mk.inj observed
  have allows (before : Scheduler) (op : SchedulerOp) (next : Scheduler)
      (allowed : before.mayEnter op = true) (performed : before.perform op = .ok next) :
      before.Step op next := step_of_perform allowed performed
  have run := Run.of_evaluate allows evaluated
  cases returned : state.createThread 1 0x401000 0 with
  | error reason =>
    rw [returned] at created
    cases created
  | ok outcome =>
    rw [returned] at created
    obtain ⟨failed, marked⟩ := Prod.mk.inj (Option.some.inj created)
    obtain ⟨result, after⟩ := outcome
    obtain rfl : result = none := failed
    refine ⟨state, after, run, unused, returned, marked, fun clean => ?_⟩
    have same := congrFun (clean 1 0x401000 0 rfl returned).1 15
    rw [marked, unused] at same
    cases same

end Aperture.Win32.Scheduler
