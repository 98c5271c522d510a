import Aperture.Machine.Fifo
import Aperture.Win32.Privilege

/-!
# Round robin

In runs of `create_thread`, `schedule` and `thread_exit` alone the ready queue is a first-in
first-out queue of the slots passed to `enqueue_thread`. A thread that gives up the processor goes
behind everything queued at that moment, so every thread queued when it was dispatched has its turn
before it runs again.
-/

namespace Aperture.Win32

open Machine Mm

/-- The calls of cooperative scheduling. -/
def SchedulerOp.cooperative : SchedulerOp → Bool
  | .createThread _ _ _ => true
  | .schedule _ => true
  | .threadExit _ => true
  | .enterUserMode _ => false
  | .enterInterpreter _ => false
  | .preempt _ => false

namespace Scheduler

/-- The slot `schedule` passes to `enqueue_thread`: the running one, once the next has been taken
from the queue, unless its thread has exited. -/
def requeued (s : Scheduler) : Option Nat :=
  match s.dequeueThread with
  | (none, _) => none
  | (some next, s) =>
    let started := s.modify next fun thread => { thread with state := .running }
    started.current.filter fun slot => (started.storage slot).state ≠ .exited

/-- What a call takes from the ready queue and passes to `enqueue_thread`. -/
def exchange (s : Scheduler) : SchedulerOp → Exchange Nat
  | .createThread _ _ _ => ⟨none, (stackBases s.heap).bind fun _ => s.allocThreadSlot⟩
  | .schedule _ => ⟨s.dequeueThread.1, s.requeued⟩
  | .threadExit _ => ⟨s.markExited.dequeueThread.1, s.markExited.requeued⟩
  | .enterUserMode _ => ⟨none, none⟩
  | .enterInterpreter _ => ⟨none, none⟩
  | .preempt _ => ⟨none, none⟩

/-- A cooperative call, with what it exchanges with the queue. A thread taken is dispatched. -/
def Cooperates (s : Scheduler) (event : SchedulerOp × Exchange Nat) (after : Scheduler) : Prop :=
  event.1.cooperative = true ∧ s.Step event.1 after ∧ event.2 = s.exchange event.1

variable {s after first last : Scheduler} {queue : List Nat} {slot : Nat}

/-! ## One call -/

/-- What a cooperative call does to the queue, the running slot and the slots in use. -/
inductive Moves (s : Scheduler) : List Nat → Exchange Nat → Scheduler → List Nat → Prop
  /-- Nothing moves. -/
  | idle {after : Scheduler} {queue : List Nat} (used : after.used = s.used)
      (current : after.current = s.current) : Moves s queue ⟨none, none⟩ after queue
  /-- A new thread is queued in a free slot. -/
  | created {after : Scheduler} {queue : List Nat} {slot : Nat} (free : s.used slot = false)
      (used : ∀ other, s.used other = true → after.used other = true)
      (current : after.current = s.current) :
      Moves s queue ⟨none, some slot⟩ after (queue ++ [slot])
  /-- The head of the queue is dispatched, and the running slot, if it is queued, goes behind. -/
  | dispatched {after : Scheduler} {head : Nat} {rest : List Nat} {old : Option Nat}
      (used : after.used = s.used) (current : after.current = some head)
      (running : old = none ∨ old = s.current) :
      Moves s (head :: rest) ⟨some head, old⟩ after (rest ++ old.toList)

/-- The running slot goes back to the queue while its thread has not exited. -/
theorem Places.requeued_cons {head : Nat} (places : s.Places (head :: queue)) :
    s.requeued = s.current.filter fun slot => (s.storage slot).state ≠ .exited := by
  have fits := places.fits
  rw [List.length_cons] at fits
  simp only [requeued, dequeueThread_cons places.holds fits, modify]
  cases running : s.current with
  | none => rfl
  | some old =>
    have other : old ≠ head := by
      rintro rfl
      exact places.not_current old List.mem_cons_self running
    simp only [Option.filter, Function.update_of_ne other]

/-- `schedule` moves the head of the queue to the processor. -/
theorem Places.schedule_moves (places : s.Places queue) {rsp : Nat} {transfer : Option Transfer}
    (returned : s.schedule rsp = .ok (transfer, after)) :
    ∃ rest, after.Places rest ∧ Moves s queue ⟨s.dequeueThread.1, s.requeued⟩ after rest := by
  cases queue with
  | nil =>
    rw [schedule_nil places.holds, Except.ok.injEq, Prod.mk.injEq] at returned
    obtain ⟨_, rfl⟩ := returned
    refine ⟨[], places, ?_⟩
    rw [requeued, dequeueThread_nil places.holds]
    exact .idle rfl rfl
  | cons head queue =>
    have fits := places.fits
    rw [List.length_cons] at fits
    obtain ⟨used, current, _, rest, kept, shape⟩ := places.schedule_cons returned
    have behind : rest = queue ++ s.requeued.toList := by
      rw [places.requeued_cons]
      rcases shape with ⟨old, running, alive, rfl⟩ | ⟨ended, rfl⟩
      · rw [running, Option.filter_some, if_pos (by simpa using alive.2.2)]
        rfl
      · cases running : s.current with
        | none => exact (List.append_nil rest).symm
        | some old =>
          obtain ⟨inside, taken⟩ := places.current_used old running
          have exited : (s.storage old).state = .exited := by
            by_contra alive
            exact ended old running ⟨inside, taken, alive⟩
          rw [Option.filter_some, if_neg (by simp [exited])]
          exact (List.append_nil rest).symm
    refine ⟨rest, kept, ?_⟩
    rw [dequeueThread_cons places.holds fits, behind]
    refine .dispatched used current ?_
    rw [places.requeued_cons]
    cases s.current with
    | none => exact .inl rfl
    | some old =>
      rw [Option.filter_some]
      split
      · exact .inr rfl
      · exact .inl rfl

/-- Ending the running thread changes neither the slots in use nor the running slot. -/
theorem markExited_only (s : Scheduler) :
    s.markExited.used = s.used ∧ s.markExited.current = s.current := by
  unfold markExited
  split
  · exact ⟨rfl, rfl⟩
  · split
    · exact ⟨rfl, rfl⟩
    · exact ⟨rfl, rfl⟩

/-- What `create_thread` does: it fails without a slot or a stack, or queues the slot. -/
theorem Places.createThread_moves (places : s.Places queue) {pid entryPoint cr3 : Nat}
    {result : Option Nat} (returned : s.createThread pid entryPoint cr3 = .ok (result, after)) :
    (∃ rest, after.Places rest ∧ Moves s queue ⟨none, result⟩ after rest) ∧
      result = (stackBases s.heap).bind fun _ => s.allocThreadSlot := by
  rcases createThread_inversion returned with ⟨rfl, missing, _, _, rfl⟩ |
    ⟨slot, kstackBase, ustackBase, made, on, rfl, rfl⟩
  · refine ⟨⟨queue, places.congr rfl rfl rfl rfl, .idle rfl rfl⟩, ?_⟩
    rcases missing with full | large
    · rw [full]
      cases stackBases s.heap <;> rfl
    · rw [large]
      rfl
  · obtain ⟨inside, free, _⟩ := position_eq_some.mp on.free
    rw [Bool.not_eq_true'] at free
    have absent : slot ∉ queue := by
      intro member
      rw [(places.live_of_mem slot member).2.1] at free
      cases free
    have pushed := enqueueThread_eq (on.ready.trans places.holds) (places.room inside absent) slot
    rw [if_pos (by rw [pushed]), on.bases, Option.bind_some, on.free]
    refine ⟨⟨queue ++ [slot], places.created on.toCreated, ?_⟩, rfl⟩
    rw [pushed]
    refine .created free (fun other taken => ?_) on.current
    show made.used other = true
    rw [on.used]
    by_cases same : other = slot
    · rw [same, Function.update_self]
    · rw [Function.update_of_ne same, taken]

/-- Every cooperative call moves threads in one of these ways. -/
theorem Places.cooperates (places : s.Places queue) {event : SchedulerOp × Exchange Nat}
    (step : Cooperates s event after) :
    ∃ rest, after.Places rest ∧ Moves s queue event.2 after rest := by
  obtain ⟨op, exchanged⟩ := event
  obtain ⟨cooperative, ⟨⟨transfer, returned⟩, _⟩, exchange_eq⟩ := step
  dsimp only at cooperative returned exchange_eq
  subst exchange_eq
  cases op with
  | createThread pid entryPoint cr3 =>
    simp only [apply, bind_eq_ok, pure_eq_ok, Prod.mk.injEq] at returned
    obtain ⟨⟨result, made⟩, creating, _, rfl⟩ := returned
    obtain ⟨moved, result_eq⟩ := places.createThread_moves creating
    rw [result_eq] at moved
    exact moved
  | schedule rsp => exact places.schedule_moves returned
  | threadExit rsp =>
    obtain ⟨used, current⟩ := markExited_only s
    obtain ⟨rest, kept, moves⟩ := places.markExited.schedule_moves returned
    refine ⟨rest, kept, ?_⟩
    dsimp only [exchange]
    generalize Exchange.mk _ _ = exchanged at moves
    cases moves with
    | idle stays runs => exact .idle (stays.trans used) (runs.trans current)
    | created free stays runs =>
      rw [used] at free stays
      exact .created free stays (runs.trans current)
    | dispatched stays runs running =>
      rw [current] at running
      exact .dispatched (stays.trans used) runs running
  | enterUserMode slot => cases cooperative
  | enterInterpreter slot => cases cooperative
  | preempt interruptRsp => cases cooperative

/-- A move takes the head of the queue, if anything, and adds at the tail. -/
theorem Moves.fifo {exchanged : Exchange Nat} {rest : List Nat}
    (moves : Moves s queue exchanged after rest) : Fifo queue exchanged rest := by
  cases moves with
  | idle => exact ⟨queue, rfl, (List.append_nil queue).symm⟩
  | created => exact ⟨queue, rfl, rfl⟩
  | dispatched => exact ⟨_, rfl, rfl⟩

/-! ## Runs -/

/-- A cooperative run is a run of the queue. -/
theorem fifo_of_run {events : List (SchedulerOp × Exchange Nat)} (run : Run Cooperates first events last)
    (places : first.Places queue) : ∃ rest, last.Places rest ∧
      Run (fun before event after => Fifo before event.2 after) queue events rest := by
  refine run.simulates Places (fun before event next held places step => ?_) places
  obtain ⟨rest, kept, moves⟩ := places.cooperates step
  exact ⟨rest, kept, moves.fifo⟩

/-- A slot in use that is neither queued nor running stays so. -/
theorem absent_of_run {events : List (SchedulerOp × Exchange Nat)}
    (run : Run Cooperates first events last) (places : first.Places queue)
    (taken : first.used slot = true) (absent : slot ∉ queue) (notRunning : first.current ≠ some slot) :
    ∃ rest, last.Places rest ∧ slot ∉ rest := by
  induction run generalizing queue with
  | nil state => exact ⟨queue, places, absent⟩
  | cons head _ ih =>
    obtain ⟨rest, kept, moves⟩ := places.cooperates head
    generalize Prod.snd _ = exchanged at moves
    cases moves with
    | idle used current =>
      exact ih kept (by rw [used, taken]) absent (by rw [current]; exact notRunning)
    | @created _ _ fresh free used current =>
      refine ih kept (used slot taken) ?_ (by rw [current]; exact notRunning)
      rw [List.mem_append, List.mem_singleton, not_or]
      refine ⟨absent, ?_⟩
      rintro rfl
      rw [taken] at free
      cases free
    | @dispatched _ next behind old used current running =>
      rw [List.mem_cons, not_or] at absent
      refine ih kept (by rw [used, taken]) ?_ (by rw [current]; simpa using fun same => absent.1 same.symm)
      rw [List.mem_append, not_or, Option.mem_toList]
      refine ⟨absent.2, fun isOld => ?_⟩
      rcases running with rfl | rfl
      · cases isOld
      · exact notRunning isOld

/-- Until the running thread is dispatched again, the queued slots are dispatched in order, then
some that were not queued. -/
theorem takenBy_until_current {events : List (SchedulerOp × Exchange Nat)}
    (run : Run Cooperates first events last) (places : first.Places queue)
    (running : first.current = some slot) {event : SchedulerOp × Exchange Nat}
    (next : Cooperates last event after) (again : event.2.taken = some slot)
    (once : slot ∉ takenBy events) :
    ∃ later, takenBy events = queue ++ later ∧ (queue ++ later).Nodup := by
  induction run generalizing queue with
  | nil state =>
    obtain ⟨rest, _, moves⟩ := places.cooperates next
    obtain ⟨behind, rfl, _⟩ := moves.fifo
    rw [again] at places
    exact absurd running (places.not_current slot List.mem_cons_self)
  | @cons first middle last labelled events head tail ih =>
    obtain ⟨rest, kept, moves⟩ := places.cooperates head
    rw [takenBy_cons] at once ⊢
    rw [List.mem_append, not_or] at once
    generalize labelled.2 = exchanged at moves once
    cases moves with
    | idle used current => exact ih kept (current.trans running) next once.2
    | @created _ _ fresh free used current =>
      obtain ⟨later, taken, nodup⟩ := ih kept (current.trans running) next once.2
      rw [List.append_assoc] at taken nodup
      exact ⟨fresh :: later, taken, nodup⟩
    | @dispatched _ head behind old used current isRunning =>
      have differ : head ≠ slot := fun same => places.not_current slot (by simp [same]) running
      have absent : slot ∉ behind := fun member =>
        places.not_current slot (List.mem_cons_of_mem _ member) running
      rcases isRunning with rfl | rfl
      · rw [Option.toList_none, List.append_nil] at kept
        obtain ⟨rest, lastPlaces, missing⟩ := absent_of_run tail kept
          (by rw [used]; exact (places.current_used slot running).2) absent
          (by rw [current]; simpa using differ)
        obtain ⟨_, _, moves⟩ := lastPlaces.cooperates next
        obtain ⟨left, rfl, _⟩ := moves.fifo
        rw [again] at missing
        exact absurd List.mem_cons_self missing
      · obtain ⟨rest, lastPlaces, order⟩ := fifo_of_run tail kept
        obtain ⟨_, _, moves⟩ := lastPlaces.cooperates next
        obtain ⟨left, rfl, _⟩ := moves.fifo
        rw [running, again] at order
        have taken := takenBy_until order absent once.2
        refine ⟨[], ?_, ?_⟩
        · rw [taken, List.append_nil]
          rfl
        · rw [List.append_nil]
          exact places.nodup

/-- From boot the ready queue is a first-in first-out queue: the entries come before the empty
cells, a step takes the head and adds at the tail what is passed to `enqueue_thread`, and a thread
that `create_thread` makes is always queued. When a thread is dispatched again, every other one
queued when it was dispatched before has been dispatched once in between. -/
theorem cooperative_round_robin (storage : Nat → Thread) (heap : BumpAllocator)
    (frames : FrameAllocator) (memory : PhysMem) {events : List (SchedulerOp × Exchange Nat)}
    (run : Run Cooperates (boot storage heap frames memory) events last) :
    (∃ queue, last.Holds queue ∧ queue.length ≤ maxReady ∧
      addedBy events = takenBy events ++ queue ∧
      ∀ event after, Cooperates last event after →
        ∃ rest, queue = event.2.taken.toList ++ rest ∧
          after.Holds (rest ++ event.2.added.toList)) ∧
    (∀ pid entryPoint cr3 result after, last.createThread pid entryPoint cr3 = .ok (result, after) →
      result = (last.exchange (.createThread pid entryPoint cr3)).added) ∧
    ∀ slot event dispatched between before again after, Cooperates last event dispatched →
      event.2.taken = some slot → Run Cooperates dispatched between before →
      Cooperates before again after → again.2.taken = some slot → slot ∉ takenBy between →
      dispatched.current = some slot ∧
        ∀ other ≠ slot, (∃ i < maxReady, last.ready i = some other ∨
          dispatched.ready i = some other) → (takenBy between).count other = 1 := by
  obtain ⟨queue, places, order⟩ := fifo_of_run run (boot_places storage heap frames memory)
  refine ⟨⟨queue, places.holds, places.fits, ?_, fun event after step => ?_⟩,
    fun pid entryPoint cr3 result after returned => (places.createThread_moves returned).2, ?_⟩
  · exact fifo_run order
  · obtain ⟨_, kept, moves⟩ := places.cooperates step
    obtain ⟨rest, taken, rfl⟩ := moves.fifo
    exact ⟨rest, taken, kept.holds⟩
  · intro slot event dispatched between before again after dispatch taken running next repeated once
    obtain ⟨rest, kept, moves⟩ := places.cooperates dispatch
    generalize event.2 = exchanged at moves taken
    cases moves with
    | idle => cases taken
    | created => cases taken
    | @dispatched _ head behind old used current isRunning =>
      obtain rfl := Option.some.inj taken
      refine ⟨current, fun other differs queued => ?_⟩
      obtain ⟨later, order, nodup⟩ := takenBy_until_current running kept current next repeated once
      have member : other ∈ behind ++ old.toList := by
        obtain ⟨i, _, inLast | inDispatched⟩ := queued
        · rw [places.holds] at inLast
          rcases List.mem_cons.mp (List.mem_of_getElem? inLast) with same | inBehind
          · exact absurd same differs
          · exact List.mem_append_left _ inBehind
        · rw [kept.holds] at inDispatched
          exact List.mem_of_getElem? inDispatched
      rw [order]
      exact List.count_eq_one_of_mem nodup (List.mem_append_left _ member)

/-- A queued thread can be dispatched. -/
theorem Places.dispatches {head : Nat} (places : s.Places (head :: queue)) (rsp : Nat) :
    ∃ after, Cooperates s (.schedule rsp, ⟨some head, s.requeued⟩) after ∧
      after.current = some head ∧ (∀ other, after.Live other ↔ s.Live other) ∧
      after.Places (queue ++ s.requeued.toList) := by
  have fits := places.fits
  rw [List.length_cons] at fits
  have inside := (places.live_of_mem head List.mem_cons_self).1
  have taken := dequeueThread_cons places.holds fits
  have returns : ∃ transfer after, s.schedule rsp = .ok (transfer, after) := by
    obtain ⟨saved, saving⟩ := saveContext_returns
      (s := { s with ready := fun i => queue[i]? }.modify head fun thread =>
        { thread with state := .running })
      (fun old running => (places.current_used old running).1) rsp
    simp only [Scheduler.schedule, taken, inside, ↓reduceIte, saving, ok_bind]
    exact ⟨_, _, rfl⟩
  obtain ⟨transfer, after, returned⟩ := returns
  obtain ⟨_, current, live, _⟩ := places.schedule_cons returned
  have cooperates : Cooperates s (.schedule rsp, ⟨some head, s.requeued⟩) after := by
    refine ⟨rfl, ⟨⟨transfer, returned⟩, by simp [SchedulerOp.enters]⟩, ?_⟩
    simp only [exchange, taken]
  obtain ⟨_, kept, moves⟩ := places.cooperates cooperates
  obtain ⟨rest, shape, rfl⟩ := moves.fifo
  obtain rfl : queue = rest := List.cons.inj shape |>.2
  exact ⟨after, cooperates, current, live, kept⟩

/-- Creating a thread is a cooperative call. -/
theorem creates_cooperates {pid entryPoint cr3 : Nat} {transfer : Option Transfer}
    (returned : s.apply (.createThread pid entryPoint cr3) = .ok (transfer, after)) :
    Cooperates s (.createThread pid entryPoint cr3,
      s.exchange (.createThread pid entryPoint cr3)) after :=
  ⟨rfl, ⟨⟨transfer, returned⟩, by simp [SchedulerOp.enters]⟩, rfl⟩

/-- Two threads take turns: the second is dispatched once between two dispatches of the first. -/
theorem cooperative_round_robin_two : ∃ events last event dispatched between before again after,
    Run Cooperates mebibyteBoot events last ∧ Cooperates last event dispatched ∧
      event.2.taken = some 0 ∧ Run Cooperates dispatched between before ∧
      Cooperates before again after ∧ again.2.taken = some 0 ∧ takenBy between = [1] ∧
      (takenBy between).count 1 = 1 := by
  obtain ⟨made, first, heap, firstReturned⟩ := mebibyteBoot_creates 1 0x140001000 0
  obtain ⟨second, created, secondReturned⟩ :=
    Traced.mebibyteBoot_creates_second first heap 2 0x150001000 0
  have places : ((second.enqueueThread 1).2).Places ([0] ++ [1]) :=
    (mebibyteBoot_places.created first).created created
  have run : Run Cooperates mebibyteBoot _ (second.enqueueThread 1).2 :=
    .cons (creates_cooperates firstReturned) (.cons (creates_cooperates secondReturned) (.nil _))
  have idle : (second.enqueueThread 1).2.current = none := by
    rw [(enqueueThread_only second 1).2.2, created.current, (enqueueThread_only made 0).2.2,
      first.current]
    rfl
  generalize (second.enqueueThread 1).2 = last at places run idle
  obtain ⟨dispatched, dispatch, current, live, queued⟩ := places.dispatches 0x11ff00
  have firstLive : dispatched.Live 0 := (live 0).mpr (places.live_of_mem 0 (by simp))
  have nothing : last.requeued = none := by
    rw [places.requeued_cons, idle]
    rfl
  rw [nothing] at queued
  obtain ⟨before, turn, _, _, waiting⟩ := queued.dispatches 0x11fe00
  have behind : dispatched.requeued = some 0 := by
    rw [queued.requeued_cons, current, Option.filter_some, if_pos (by simpa using firstLive.2.2)]
  rw [behind] at waiting
  obtain ⟨after, next, _⟩ := waiting.dispatches 0x11fd00
  have between : Run Cooperates dispatched [_] before := .cons turn (.nil before)
  have robin := (cooperative_round_robin _ _ _ _ run).2.2 0 _ dispatched _ before _ after dispatch rfl
    between next rfl (by rw [takenBy_cons]; simp [takenBy])
  refine ⟨_, last, _, dispatched, _, before, _, after, run, dispatch, rfl, between, next, rfl, rfl,
    robin.2 1 (by decide) ⟨1, by decide, .inl ?_⟩⟩
  rw [places.holds]
  rfl

end Scheduler

end Aperture.Win32
