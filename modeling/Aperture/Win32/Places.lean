import Aperture.Machine.Run
import Aperture.Win32.Scheduler

/-!
# Where threads are

Every live thread should be in one place: running, or once in the ready queue. The queue's
array is the list of its entries followed by empty cells, which makes `enqueue_thread` and
`dequeue_thread` operations on lists. `create_thread`, `schedule` and `thread_exit` always
keep threads in one place; entering a queued thread leaves it in two, and a timer
interrupt that finds no frame to resume leaves the running thread in two.
-/

namespace Aperture.Win32.Scheduler

open Machine Mm

variable {s after : Scheduler} {queue : List Nat} {slot : Nat}

/-! ## The ready queue as a list -/

/-- The queue's entries in order, then empty cells. -/
def Holds (s : Scheduler) (queue : List Nat) : Prop := s.ready = fun i => queue[i]?

/-- A queue with room takes a slot at its tail. -/
theorem enqueueThread_eq (holds : s.Holds queue) (room : queue.length < maxReady) (slot : Nat) :
    s.enqueueThread slot = (true, { s with ready := fun i => (queue ++ [slot])[i]? }) := by
  have found : (position maxReady fun i => (s.ready i).isNone) = some queue.length := by
    rw [position_eq_some, holds]
    refine ⟨room, by simp, fun other below => ?_⟩
    simp [List.getElem?_eq_getElem below]
  have cells : Function.update s.ready queue.length (some slot) =
      fun i => (queue ++ [slot])[i]? := by
    funext i
    rw [holds]
    by_cases last : i = queue.length
    · simp [last]
    · rw [Function.update_of_ne last]
      by_cases inside : i < queue.length
      · rw [List.getElem?_append_left inside]
      · rw [List.getElem?_eq_none (by omega), List.getElem?_eq_none (by simp; omega)]
  simp only [enqueueThread, found, cells]

/-- An empty queue returns nothing. -/
theorem dequeueThread_nil (holds : s.Holds []) : s.dequeueThread = (none, s) := by
  have absent : (position maxReady fun i => (s.ready i).isSome) = none := by
    rw [position_eq_none, holds]
    simp
  simp only [dequeueThread, absent]

/-- A queue returns its head and keeps the rest. -/
theorem dequeueThread_cons {head : Nat} (holds : s.Holds (head :: queue))
    (fits : queue.length < maxReady) :
    s.dequeueThread = (some head, { s with ready := fun i => queue[i]? }) := by
  have found : (position maxReady fun i => (s.ready i).isSome) = some 0 := by
    rw [position_eq_some, holds]
    exact ⟨by decide, by simp, by simp⟩
  have cells : (fun i => if i < 0 then s.ready i else
      if i < maxReady - 1 then s.ready (i + 1) else none) = fun i => queue[i]? := by
    funext i
    rw [holds, if_neg (Nat.not_lt_zero i)]
    by_cases inside : i < maxReady - 1
    · rw [if_pos inside]
      rfl
    · rw [if_neg inside, List.getElem?_eq_none (by omega)]
  have first : s.ready 0 = some head := by
    rw [holds]
    rfl
  simp only [dequeueThread, found, first, cells]

/-! ## Places -/

/-- The slot has a created thread that has not exited. -/
def Live (s : Scheduler) (slot : Nat) : Prop :=
  slot < maxThreads ∧ s.used slot = true ∧ (s.storage slot).state ≠ .exited

/-- Every live thread is in one place. -/
structure Places (s : Scheduler) (queue : List Nat) : Prop where
  /-- The queue's entries. -/
  holds : s.Holds queue
  /-- No slot is queued twice. -/
  nodup : queue.Nodup
  /-- Queued slots are live. -/
  live_of_mem : ∀ slot ∈ queue, s.Live slot
  /-- A queued slot is not running. -/
  not_current : ∀ slot ∈ queue, s.current ≠ some slot
  /-- A live slot is queued or running. -/
  placed : ∀ slot, s.Live slot → slot ∈ queue ∨ s.current = some slot
  /-- The running slot exists. -/
  current_used : ∀ slot, s.current = some slot → slot < maxThreads ∧ s.used slot = true

/-- Distinct slots other than one leave room in the queue. -/
theorem length_lt (nodup : queue.Nodup) (below : ∀ other ∈ queue, other < maxThreads)
    (inside : slot < maxThreads) (absent : slot ∉ queue) : queue.length < maxReady := by
  have distinct : (slot :: queue).Nodup := List.nodup_cons.mpr ⟨absent, nodup⟩
  have subset : slot :: queue ⊆ List.range maxThreads := by
    intro other member
    rcases List.mem_cons.mp member with rfl | queued
    · exact List.mem_range.mpr inside
    · exact List.mem_range.mpr (below other queued)
  have bounded := (distinct.subperm subset).length_le
  rw [List.length_range] at bounded
  exact bounded

/-- A slot that is not queued leaves room. -/
theorem Places.room (places : s.Places queue) (inside : slot < maxThreads) (absent : slot ∉ queue) :
    queue.length < maxReady :=
  length_lt places.nodup (fun other member => (places.live_of_mem other member).1) inside absent

/-- A queue of live slots fits its array. -/
theorem Places.fits (places : s.Places queue) : queue.length ≤ maxReady := by
  have distinct := places.nodup.subperm fun other member =>
    List.mem_range.mpr (places.live_of_mem other member).1
  simpa [maxReady] using distinct.length_le

/-- Only the threads, the queue and the running slot matter. -/
theorem Places.congr (places : s.Places queue) (storage : after.storage = s.storage)
    (used : after.used = s.used) (ready : after.ready = s.ready)
    (current : after.current = s.current) : after.Places queue := by
  obtain ⟨holds, nodup, live, notCurrent, placed, currentUsed⟩ := places
  refine ⟨?_, nodup, ?_, ?_, ?_, ?_⟩
  · exact ready.trans holds
  · simpa only [Live, storage, used] using live
  · simpa only [current] using notCurrent
  · simpa only [Live, storage, used, current] using placed
  · simpa only [used, current] using currentUsed

/-- Changing a live thread without ending it leaves the same threads live. -/
theorem live_modify (alive : s.Live slot) (change : Thread → Thread)
    (stays : (change (s.storage slot)).state ≠ .exited) (other : Nat) :
    (s.modify slot change).Live other ↔ s.Live other := by
  by_cases same : other = slot
  · subst same
    simp only [Live, modify, Function.update_self]
    exact ⟨fun _ => alive, fun _ => ⟨alive.1, alive.2.1, stays⟩⟩
  · simp only [Live, modify, Function.update_of_ne same]

/-- Running the head of the queue, with the thread that ran before queued if it is live. -/
theorem Places.run {head : Nat} {rest : List Nat} (places : s.Places (head :: queue))
    (live : ∀ other, after.Live other ↔ s.Live other) (used : after.used = s.used)
    (current : after.current = some head) (holds : after.Holds rest)
    (shape : (∃ old, s.current = some old ∧ s.Live old ∧ rest = queue ++ [old]) ∨
      (∀ old, s.current = some old → ¬s.Live old) ∧ rest = queue) : after.Places rest := by
  obtain ⟨headAbsent, restNodup⟩ := List.nodup_cons.mp places.nodup
  have headLive := places.live_of_mem head List.mem_cons_self
  have currentUsed (slot : Nat) (running : after.current = some slot) :
      slot < maxThreads ∧ after.used slot = true := by
    rw [current] at running
    obtain rfl := Option.some.inj running
    rw [used]
    exact ⟨headLive.1, headLive.2.1⟩
  rcases shape with ⟨old, running, oldLive, rfl⟩ | ⟨idle, rfl⟩
  · have oldAbsent : old ∉ head :: queue := fun member => places.not_current old member running
    rw [List.mem_cons, not_or] at oldAbsent
    refine ⟨holds, ?_, ?_, ?_, ?_, currentUsed⟩
    · exact (List.perm_append_singleton old queue).nodup_iff.mpr
        (List.nodup_cons.mpr ⟨oldAbsent.2, restNodup⟩)
    · intro slot member
      rw [live]
      rcases List.mem_append.mp member with queued | last
      · exact places.live_of_mem slot (List.mem_cons_of_mem _ queued)
      · rw [List.mem_singleton.mp last]
        exact oldLive
    · intro slot member
      rw [current, ne_eq, Option.some.injEq]
      rintro rfl
      rcases List.mem_append.mp member with queued | last
      · exact headAbsent queued
      · exact oldAbsent.1 (List.mem_singleton.mp last).symm
    · intro slot alive
      rw [live] at alive
      rcases places.placed slot alive with queued | wasRunning
      · rcases List.mem_cons.mp queued with rfl | behind
        · exact .inr current
        · exact .inl (List.mem_append_left _ behind)
      · rw [running] at wasRunning
        obtain rfl := Option.some.inj wasRunning
        exact .inl (List.mem_append_right _ (List.mem_singleton.mpr rfl))
  · refine ⟨holds, restNodup, ?_, ?_, ?_, currentUsed⟩
    · intro slot member
      rw [live]
      exact places.live_of_mem slot (List.mem_cons_of_mem _ member)
    · intro slot member
      rw [current, ne_eq, Option.some.injEq]
      rintro rfl
      exact headAbsent member
    · intro slot alive
      rw [live] at alive
      rcases places.placed slot alive with queued | wasRunning
      · rcases List.mem_cons.mp queued with rfl | behind
        · exact .inr current
        · exact .inl behind
      · exact absurd alive (idle slot wasRunning)

/-- Moving the head of the queue to its tail. -/
theorem Places.rotate {head : Nat} (places : s.Places (head :: queue)) :
    Places { s with ready := fun i => (queue ++ [head])[i]? } (queue ++ [head]) := by
  have same (slot : Nat) : slot ∈ queue ++ [head] ↔ slot ∈ head :: queue := by
    rw [List.mem_append, List.mem_singleton, List.mem_cons, or_comm]
  refine ⟨rfl, ?_, ?_, ?_, ?_, places.current_used⟩
  · exact (List.perm_append_singleton head queue).nodup_iff.mpr places.nodup
  · intro slot member
    exact places.live_of_mem slot ((same slot).mp member)
  · intro slot member
    exact places.not_current slot ((same slot).mp member)
  · intro slot alive
    rw [same slot]
    exact places.placed slot alive

/-- How often a slot occurs in the ready queue. -/
def occurrences (s : Scheduler) (slot : Nat) : Nat :=
  (List.range maxReady).countP fun i => s.ready i == some slot

/-- Every created thread that has not exited is running and not queued, or queued once and not
running. -/
def EachOnce (s : Scheduler) : Prop :=
  ∀ slot, s.Live slot → s.current = some slot ∧ s.occurrences slot = 0 ∨
    s.current ≠ some slot ∧ s.occurrences slot = 1

/-- The cells that hold a slot are its occurrences in the list. -/
theorem occurrences_eq (holds : s.Holds queue) (fits : queue.length ≤ maxReady) (slot : Nat) :
    s.occurrences slot = queue.count slot := by
  have cells : (List.range maxReady).map s.ready =
      queue.map some ++ List.replicate (maxReady - queue.length) none := by
    apply List.ext_getElem?
    intro i
    rw [holds]
    by_cases inside : i < queue.length
    · rw [List.getElem?_append_left (by simpa using inside)]
      simp [List.getElem?_eq_getElem inside, Nat.lt_of_lt_of_le inside fits]
    · rw [List.getElem?_append_right (by simpa using inside)]
      rw [List.getElem?_map, List.getElem?_replicate, List.length_map]
      by_cases short : i < maxReady
      · rw [List.getElem?_range short, if_pos (by omega)]
        simp [List.getElem?_eq_none (Nat.not_lt.mp inside)]
      · rw [List.getElem?_eq_none (by simpa using short), if_neg (by omega)]
        rfl
  have counted : s.occurrences slot = ((List.range maxReady).map s.ready).count (some slot) := by
    rw [occurrences, List.count, List.countP_map]
    rfl
  rw [counted, cells, List.count_append, List.count_replicate]
  simp [List.count_map_of_injective _ some (Option.some_injective _)]

/-- Threads in one place are there once. -/
theorem Places.eachOnce (places : s.Places queue) : s.EachOnce := by
  intro slot live
  rw [occurrences_eq places.holds places.fits]
  rcases places.placed slot live with member | running
  · exact .inr ⟨places.not_current slot member, List.count_eq_one_of_mem places.nodup member⟩
  · refine .inl ⟨running, List.count_eq_zero.mpr fun member => ?_⟩
    exact places.not_current slot member running

/-- At boot no thread is there. -/
theorem boot_places (storage : Nat → Thread) (heap : BumpAllocator) (frames : FrameAllocator)
    (memory : PhysMem) : (boot storage heap frames memory).Places [] := by
  refine ⟨rfl, List.nodup_nil, by simp, by simp, fun slot alive => ?_, by simp [boot]⟩
  exact absurd alive.2.1 (by simp [boot])

/-! ## One call -/

/-- `create_thread` queues the new thread. -/
theorem Places.created (places : s.Places queue) {entryPoint cr3 : Nat} {made : Scheduler}
    (created : Created s entryPoint cr3 slot made) :
    ((made.enqueueThread slot).2).Places (queue ++ [slot]) := by
  obtain ⟨inside, free, _⟩ := position_eq_some.mp created.free
  rw [Bool.not_eq_true'] at free
  obtain ⟨thread, storage, ready, _⟩ := created.storage
  have absent : slot ∉ queue := by
    intro member
    rw [(places.live_of_mem slot member).2.1] at free
    cases free
  have idle : s.current ≠ some slot := by
    intro running
    rw [(places.current_used slot running).2] at free
    cases free
  have live (other : Nat) : Live { made with ready := fun i => (queue ++ [slot])[i]? } other ↔
      other = slot ∨ s.Live other := by
    simp only [Live, storage, created.used]
    by_cases same : other = slot
    · subst same
      simp [inside, ready]
    · simp [same]
  have room := places.room inside absent
  rw [enqueueThread_eq (created.ready.trans places.holds) room]
  refine ⟨rfl, ?_, ?_, ?_, ?_, ?_⟩
  · exact (List.perm_append_singleton slot queue).nodup_iff.mpr
      (List.nodup_cons.mpr ⟨absent, places.nodup⟩)
  · intro other member
    rw [live]
    rcases List.mem_append.mp member with queued | last
    · exact .inr (places.live_of_mem other queued)
    · exact .inl (List.mem_singleton.mp last)
  · intro other member
    rw [show Scheduler.current { made with ready := _ } = s.current from created.current]
    rcases List.mem_append.mp member with queued | last
    · exact places.not_current other queued
    · rw [List.mem_singleton.mp last]
      exact idle
  · intro other alive
    rw [live] at alive
    rw [show Scheduler.current { made with ready := _ } = s.current from created.current]
    rcases alive with rfl | old
    · exact .inl (List.mem_append_right _ (List.mem_singleton.mpr rfl))
    · rcases places.placed other old with queued | running
      · exact .inl (List.mem_append_left _ queued)
      · exact .inr running
  · intro other running
    rw [show Scheduler.current { made with ready := _ } = s.current from created.current] at running
    obtain ⟨below, taken⟩ := places.current_used other running
    refine ⟨below, ?_⟩
    show made.used other = true
    rw [created.used]
    by_cases same : other = slot
    · rw [same, Function.update_self]
    · rw [Function.update_of_ne same, taken]

/-- What `switch` saves: a live thread goes to the tail of the queue. -/
theorem saveContext_eq (holds : s.Holds queue) (current_lt : ∀ old, s.current = some old →
      old < maxThreads ∧ s.used old = true)
    (room : ∀ old, s.current = some old → s.Live old → queue.length < maxReady) {rsp : Nat}
    (returned : s.saveContext rsp = .ok after) :
    (∀ other, after.Live other ↔ s.Live other) ∧ after.used = s.used ∧
      after.current = s.current ∧ ∃ rest, after.Holds rest ∧
        ((∃ old, s.current = some old ∧ s.Live old ∧ rest = queue ++ [old]) ∨
          (∀ old, s.current = some old → ¬s.Live old) ∧ rest = queue) := by
  unfold saveContext at returned
  cases running : s.current with
  | none =>
    simp only [running, Except.ok.injEq] at returned
    subst returned
    exact ⟨fun _ => Iff.rfl, rfl, rfl, queue, holds, .inr ⟨by simp, rfl⟩⟩
  | some old =>
    obtain ⟨inside, taken⟩ := current_lt old running
    simp only [running, inside, ↓reduceIte, Except.ok.injEq] at returned
    subst returned
    by_cases ended : (s.storage old).state = .exited
    · have dead : ¬s.Live old := fun alive => alive.2.2 ended
      simp only [ended, ne_eq, not_true_eq_false, ↓reduceIte]
      refine ⟨?_, rfl, running, queue, holds, .inr ⟨?_, rfl⟩⟩
      · intro other
        by_cases same : other = old
        · subst same
          simp [Live, modify]
        · simp [Live, modify, same]
      · intro other same
        obtain rfl := Option.some.inj same
        exact dead
    · have alive : s.Live old := ⟨inside, taken, ended⟩
      have pushed := enqueueThread_eq
        (s := s.modify old fun cur => { cur with state := .ready }) holds (room old running alive) old
      simp only [ended, ne_eq, not_false_eq_true, ↓reduceIte, pushed]
      refine ⟨?_, rfl, running, queue ++ [old], rfl, .inl ⟨old, rfl, alive, rfl⟩⟩
      intro other
      by_cases same : other = old
      · subst same
        simp [Live, modify, inside, taken, ended]
      · simp [Live, modify, same]

/-- A context is saved while the running slot is inside the table. -/
theorem saveContext_returns {s : Scheduler}
    (current_lt : ∀ old, s.current = some old → old < maxThreads) (rsp : Nat) :
    ∃ after, s.saveContext rsp = .ok after := by
  unfold Scheduler.saveContext
  cases running : s.current with
  | none => exact ⟨_, rfl⟩
  | some old =>
    simp only [current_lt old running, ↓reduceIte]
    exact ⟨_, rfl⟩

/-- `schedule` runs the head of the queue and puts the running thread, while it is live, behind
the others. -/
theorem Places.schedule_cons {head : Nat} (places : s.Places (head :: queue)) {rsp : Nat}
    {transfer : Option Transfer} (returned : s.schedule rsp = .ok (transfer, after)) :
    after.used = s.used ∧ after.current = some head ∧ (∀ other, after.Live other ↔ s.Live other) ∧
      ∃ rest, after.Places rest ∧
        ((∃ old, s.current = some old ∧ s.Live old ∧ rest = queue ++ [old]) ∨
          (∀ old, s.current = some old → ¬s.Live old) ∧ rest = queue) := by
  unfold Scheduler.schedule at returned
  obtain ⟨headAbsent, _⟩ := List.nodup_cons.mp places.nodup
  have headLive := places.live_of_mem head List.mem_cons_self
  have behindLive (other : Nat) (member : other ∈ queue) : other < maxThreads :=
    (places.live_of_mem other (List.mem_cons_of_mem _ member)).1
  have room : queue.length < maxReady :=
    length_lt (List.nodup_cons.mp places.nodup).2 behindLive headLive.1 headAbsent
  simp only [dequeueThread_cons places.holds room, headLive.1, ↓reduceIte, bind_eq_ok,
    pure_eq_ok, Prod.mk.injEq] at returned
  obtain ⟨saved, saving, _, rfl⟩ := returned
  have popped : Live { s with ready := fun i => queue[i]? } head := headLive
  generalize startedEq : modify _ head _ = started at saving
  have stays (other : Nat) : started.Live other ↔ s.Live other := by
    rw [← startedEq]
    exact live_modify popped _ (by simp) other
  have startedHolds : started.Holds queue := by rw [← startedEq]; rfl
  have startedCurrent : started.current = s.current := by rw [← startedEq]; rfl
  have startedUsed : started.used = s.used := by rw [← startedEq]; rfl
  obtain ⟨live, used, _, rest, holds, shape⟩ := saveContext_eq startedHolds
    (by rw [startedCurrent, startedUsed]; exact places.current_used) (fun _ _ _ => room) saving
  rw [startedCurrent] at shape
  simp only [stays] at shape
  have liveSame (other : Nat) := (live other).trans (stays other)
  exact ⟨used.trans startedUsed, rfl, liveSame, rest,
    places.run liveSame (used.trans startedUsed) rfl holds shape, shape⟩

/-- `schedule` with an empty queue returns at once. -/
theorem schedule_nil (holds : s.Holds []) (rsp : Nat) : s.schedule rsp = .ok (none, s) := by
  simp only [Scheduler.schedule, dequeueThread_nil holds]

/-- `schedule` keeps every live thread in one place. -/
theorem Places.schedule (places : s.Places queue) {rsp : Nat} {transfer : Option Transfer}
    (returned : s.schedule rsp = .ok (transfer, after)) : ∃ rest, after.Places rest := by
  cases queue with
  | nil =>
    rw [schedule_nil places.holds, Except.ok.injEq, Prod.mk.injEq] at returned
    obtain ⟨_, rfl⟩ := returned
    exact ⟨[], places⟩
  | cons head queue =>
    obtain ⟨_, _, _, rest, kept, _⟩ := places.schedule_cons returned
    exact ⟨rest, kept⟩

/-- Ending the running thread takes it out of its place. -/
theorem Places.markExited (places : s.Places queue) : s.markExited.Places queue := by
  unfold Scheduler.markExited
  cases running : s.current with
  | none => exact places
  | some old =>
    simp only [(places.current_used old running).1, ↓reduceIte]
    have other (slot : Nat) (different : slot ≠ old) :
        (s.modify old fun cur => { cur with state := .exited }).Live slot ↔ s.Live slot := by
      simp only [Live, modify, Function.update_of_ne different]
    have queuedOther (slot : Nat) (member : slot ∈ queue) : slot ≠ old := by
      rintro rfl
      exact places.not_current slot member running
    refine ⟨places.holds, places.nodup, ?_, places.not_current, ?_, places.current_used⟩
    · intro slot member
      exact (other slot (queuedOther slot member)).mpr (places.live_of_mem slot member)
    · intro slot alive
      have different : slot ≠ old := by
        rintro rfl
        simp [Live, modify] at alive
      exact places.placed slot ((other slot different).mp alive)

/-- An interrupt with no live thread running saves nothing. -/
theorem saveInterrupted_idle (places : s.Places queue)
    (idle : ∀ old, s.current = some old → ¬s.Live old) (interruptRsp : Nat) :
    s.saveInterrupted interruptRsp = s := by
  unfold saveInterrupted
  cases running : s.current with
  | none => rfl
  | some old =>
    obtain ⟨inside, taken⟩ := places.current_used old running
    have ended : ¬(old < maxThreads ∧ (s.storage old).state ≠ .exited) :=
      fun alive => idle old running ⟨inside, taken, alive.2⟩
    simp only [ended, ↓reduceIte]

/-- An interrupt queues the live thread it found running. -/
theorem saveInterrupted_live (places : s.Places queue) {old : Nat}
    (running : s.current = some old) (alive : s.Live old) (interruptRsp : Nat) :
    s.saveInterrupted interruptRsp =
      { s.modify old fun cur => { cur with interruptRsp, state := .ready } with
        ready := fun i => (queue ++ [old])[i]? } := by
  have absent : old ∉ queue := fun member => places.not_current old member running
  have pushed := enqueueThread_eq
    (s := s.modify old fun cur => { cur with interruptRsp, state := .ready })
    places.holds (places.room alive.1 absent) old
  simp only [saveInterrupted, running, alive.1, alive.2.2, ne_eq, not_false_eq_true, and_self,
    ↓reduceIte, pushed]

/-- So it keeps who lives and who runs, and adds that thread to the queue. -/
theorem saveInterrupted_placed (places : s.Places queue) {old : Nat}
    (running : s.current = some old) (alive : s.Live old) (interruptRsp : Nat) :
    (∀ other, (s.saveInterrupted interruptRsp).Live other ↔ s.Live other) ∧
      (s.saveInterrupted interruptRsp).Holds (queue ++ [old]) ∧
      (s.saveInterrupted interruptRsp).used = s.used ∧
      (s.saveInterrupted interruptRsp).current = some old := by
  rw [saveInterrupted_live places running alive]
  exact ⟨live_modify alive (fun cur => { cur with interruptRsp, state := .ready }) (by simp), rfl,
    rfl, running⟩

/-- Without a frame the head of the queue goes to its tail. -/
theorem resumeInterrupted_rotates {head : Nat} (holds : s.Holds (head :: queue))
    (room : queue.length < maxReady) (inside : head < maxThreads)
    (frame : (s.storage head).interruptRsp = 0) (interruptRsp : Nat) :
    s.resumeInterrupted interruptRsp =
      .ok (interruptRsp, { s with ready := fun i => (queue ++ [head])[i]? }) := by
  have pushed := enqueueThread_eq (s := { s with ready := fun i => queue[i]? }) rfl room head
  simp only [resumeInterrupted, dequeueThread_cons holds room, inside, frame, ↓reduceIte, pushed]

/-- With a frame the head of the queue runs. -/
theorem resumeInterrupted_runs {head : Nat} (holds : s.Holds (head :: queue))
    (room : queue.length < maxReady) (alive : s.Live head)
    (frame : (s.storage head).interruptRsp ≠ 0) {interruptRsp resumed : Nat}
    (returned : s.resumeInterrupted interruptRsp = .ok (resumed, after)) :
    (∀ other, after.Live other ↔ s.Live other) ∧ after.used = s.used ∧
      after.current = some head ∧ after.Holds queue := by
  simp only [resumeInterrupted, dequeueThread_cons holds room, alive.1, frame, ↓reduceIte,
    bind_eq_ok, pure_eq_ok, Prod.mk.injEq] at returned
  obtain ⟨kstackTop, _, _, rfl⟩ := returned
  have popped : Live { s with ready := fun i => queue[i]? } head := alive
  refine ⟨fun other => ?_, rfl, rfl, rfl⟩
  exact live_modify popped (fun thread => { thread with state := .running }) (by simp) other

/-- The frame the next thread would resume from, the interrupted one's own if nothing is
queued. -/
def nextInterruptRsp (s : Scheduler) (interruptRsp : Nat) : Nat :=
  match s.dequeueThread.1 with
  | some next => (s.storage next).interruptRsp
  | none => interruptRsp

/-- The condition on a call: a thread entered is not queued, and no other live thread is
running; an interrupted live thread finds a thread with a frame to resume. -/
def Enterable (s : Scheduler) : SchedulerOp → Prop
  | .enterUserMode slot => slot < maxThreads →
    s.occurrences slot = 0 ∧ ∀ old, s.current = some old → s.Live old → old = slot
  | .enterInterpreter slot => slot < maxThreads →
    s.occurrences slot = 0 ∧ ∀ old, s.current = some old → s.Live old → old = slot
  | .preempt interruptRsp => ∀ old, s.current = some old → s.Live old →
    s.nextInterruptRsp interruptRsp ≠ 0
  | .createThread _ _ _ => True
  | .schedule _ => True
  | .threadExit _ => True

/-- `preempt` that meets the condition keeps every live thread in one place. -/
theorem Places.preempt (places : s.Places queue) {interruptRsp resumed : Nat}
    (enterable : s.Enterable (.preempt interruptRsp))
    (returned : s.preempt interruptRsp = .ok (resumed, after)) : ∃ rest, after.Places rest := by
  unfold Scheduler.preempt at returned
  by_cases busy : ∃ old, s.current = some old ∧ s.Live old
  · obtain ⟨old, running, alive⟩ := busy
    have frame := enterable old running alive
    have absent : old ∉ queue := fun member => places.not_current old member running
    have full := places.room alive.1 absent
    obtain ⟨stays, savedHolds, savedUsed, _⟩ := saveInterrupted_placed places running alive interruptRsp
    have savedEq := saveInterrupted_live places running alive interruptRsp
    generalize s.saveInterrupted interruptRsp = saved at returned stays savedHolds savedUsed savedEq
    cases queue with
    | nil =>
      have ownFrame : (saved.storage old).interruptRsp ≠ 0 := by
        rw [savedEq]
        simpa [modify, nextInterruptRsp, dequeueThread_nil places.holds] using frame
      obtain ⟨live, used, current, holds⟩ := resumeInterrupted_runs savedHolds (by decide)
        ((stays old).mpr alive) ownFrame returned
      refine ⟨[], holds, List.nodup_nil, by simp, by simp, ?_, ?_⟩
      · intro slot slotLive
        rcases places.placed slot ((stays slot).mp ((live slot).mp slotLive)) with queued | wasRunning
        · cases queued
        · exact .inr (current.trans (running.symm.trans wasRunning))
      · intro slot nowRunning
        obtain rfl := Option.some.inj (current.symm.trans nowRunning)
        rw [used, savedUsed]
        exact ⟨alive.1, alive.2.1⟩
    | cons head queue =>
      have headLive := places.live_of_mem head List.mem_cons_self
      have different : head ≠ old := by
        rintro rfl
        exact absent List.mem_cons_self
      have room : queue.length < maxReady := Nat.lt_of_succ_lt full
      have headFrame : (saved.storage head).interruptRsp ≠ 0 := by
        rw [savedEq]
        simpa [modify, Function.update_of_ne different, nextInterruptRsp,
          dequeueThread_cons places.holds room] using frame
      obtain ⟨live, used, current, holds⟩ := resumeInterrupted_runs savedHolds
        (by simpa using full) ((stays head).mpr headLive) headFrame returned
      exact ⟨queue ++ [old], places.run (fun other => (live other).trans (stays other))
        (used.trans savedUsed) current holds (.inl ⟨old, running, alive, rfl⟩)⟩
  · have idle (old : Nat) (running : s.current = some old) : ¬s.Live old :=
      fun alive => busy ⟨old, running, alive⟩
    rw [saveInterrupted_idle places idle] at returned
    cases queue with
    | nil =>
      simp only [resumeInterrupted, dequeueThread_nil places.holds, Except.ok.injEq,
        Prod.mk.injEq] at returned
      obtain ⟨_, rfl⟩ := returned
      exact ⟨[], places⟩
    | cons head queue =>
      have headLive := places.live_of_mem head List.mem_cons_self
      have room : queue.length < maxReady :=
        length_lt (List.nodup_cons.mp places.nodup).2 (fun other member =>
          (places.live_of_mem other (List.mem_cons_of_mem _ member)).1) headLive.1
          (List.nodup_cons.mp places.nodup).1
      by_cases frame : (s.storage head).interruptRsp = 0
      · rw [resumeInterrupted_rotates places.holds room headLive.1 frame, Except.ok.injEq,
          Prod.mk.injEq] at returned
        obtain ⟨_, rfl⟩ := returned
        exact ⟨queue ++ [head], places.rotate⟩
      · obtain ⟨live, used, current, holds⟩ :=
          resumeInterrupted_runs places.holds room headLive frame returned
        exact ⟨queue, places.run live used current holds (.inr ⟨idle, rfl⟩)⟩

/-- What entering a slot does to the places. -/
structure Entered (s : Scheduler) (slot : Nat) (after : Scheduler) : Prop where
  /-- The slot's thread is live now. -/
  live : ∀ other, after.Live other ↔ other = slot ∨ s.Live other
  /-- The slots are unchanged. -/
  used : after.used = s.used
  /-- The queue is unchanged. -/
  ready : after.ready = s.ready
  /-- The slot is running. -/
  current : after.current = some slot

/-- Both ways of entering a created thread do the same. -/
theorem entered_of_modify (inside : slot < maxThreads) (taken : s.used slot = true)
    (storage : after.storage = (s.modify slot fun thread => { thread with state := .running }).storage)
    (used : after.used = s.used) (ready : after.ready = s.ready)
    (current : after.current = some slot) : Entered s slot after := by
  refine ⟨fun other => ?_, used, ready, current⟩
  simp only [Live, storage, used, modify]
  by_cases same : other = slot
  · subst same
    simp [inside, taken]
  · simp [same]

/-- What entering does, on either route. -/
theorem entered_of_step {op : SchedulerOp} (step : s.Step op after)
    (enters : op.enters = some slot) : slot < maxThreads ∧ Entered s slot after ∨
      maxThreads ≤ slot ∧ after = s := by
  obtain ⟨⟨transfer, returned⟩, created⟩ := step
  by_cases inside : slot < maxThreads
  · have taken := created slot enters inside
    refine .inl ⟨inside, ?_⟩
    cases op with
    | enterUserMode entered =>
      obtain rfl := Option.some.inj enters
      simp only [apply, enterUserMode, inside, ↓reduceIte, bind_eq_ok, pure_eq_ok,
        Prod.mk.injEq] at returned
      obtain ⟨kstackTop, _, _, rfl⟩ := returned
      exact entered_of_modify inside taken rfl rfl rfl rfl
    | enterInterpreter entered =>
      obtain rfl := Option.some.inj enters
      simp only [apply, enterInterpreter, inside, ↓reduceIte, Except.ok.injEq,
        Prod.mk.injEq] at returned
      obtain ⟨_, rfl⟩ := returned
      exact entered_of_modify inside taken rfl rfl rfl rfl
    | createThread => cases enters
    | preempt => cases enters
    | schedule => cases enters
    | threadExit => cases enters
  · refine .inr ⟨Nat.not_lt.mp inside, ?_⟩
    cases op with
    | enterUserMode entered =>
      obtain rfl := Option.some.inj enters
      simp only [apply, enterUserMode, inside, ↓reduceIte, Except.ok.injEq,
        Prod.mk.injEq] at returned
      exact returned.2.symm
    | enterInterpreter entered =>
      obtain rfl := Option.some.inj enters
      simp only [apply, enterInterpreter, inside, ↓reduceIte, Except.ok.injEq,
        Prod.mk.injEq] at returned
      exact returned.2.symm
    | createThread => cases enters
    | preempt => cases enters
    | schedule => cases enters
    | threadExit => cases enters

/-- Entering a thread that is not queued while no other live thread runs. -/
theorem Places.enter (places : s.Places queue) (entered : Entered s slot after)
    (inside : slot < maxThreads) (taken : s.used slot = true) (unqueued : s.occurrences slot = 0)
    (alone : ∀ old, s.current = some old → s.Live old → old = slot) : after.Places queue := by
  have absent : slot ∉ queue := by
    rw [occurrences_eq places.holds places.fits] at unqueued
    exact List.count_eq_zero.mp unqueued
  refine ⟨entered.ready.trans places.holds, places.nodup, ?_, ?_, ?_, ?_⟩
  · intro other member
    exact (entered.live other).mpr (.inr (places.live_of_mem other member))
  · intro other member
    rw [entered.current, ne_eq, Option.some.injEq]
    rintro rfl
    exact absent member
  · intro other alive
    rcases (entered.live other).mp alive with rfl | wasLive
    · exact .inr entered.current
    · rcases places.placed other wasLive with queued | running
      · exact .inl queued
      · exact .inr (by rw [entered.current, alone other running wasLive])
  · intro other running
    obtain rfl := Option.some.inj (entered.current.symm.trans running)
    rw [entered.used]
    exact ⟨inside, taken⟩

/-- Every call that meets the condition keeps every live thread in one place. -/
theorem Places.step {op : SchedulerOp} (places : s.Places queue) (enterable : s.Enterable op)
    (step : s.Step op after) : ∃ rest, after.Places rest := by
  cases enters : op.enters with
  | some slot =>
    rcases entered_of_step step enters with ⟨inside, entered⟩ | ⟨_, rfl⟩
    · have taken := step.2 slot enters inside
      cases op with
      | enterUserMode target =>
        obtain rfl := Option.some.inj enters
        exact ⟨queue, places.enter entered inside taken (enterable inside).1 (enterable inside).2⟩
      | enterInterpreter target =>
        obtain rfl := Option.some.inj enters
        exact ⟨queue, places.enter entered inside taken (enterable inside).1 (enterable inside).2⟩
      | createThread => cases enters
      | preempt => cases enters
      | schedule => cases enters
      | threadExit => cases enters
    · exact ⟨queue, places⟩
  | none =>
    obtain ⟨⟨transfer, returned⟩, _⟩ := step
    cases op with
    | enterUserMode => cases enters
    | enterInterpreter => cases enters
    | createThread pid entryPoint cr3 =>
      simp only [apply, bind_eq_ok, pure_eq_ok, Prod.mk.injEq] at returned
      obtain ⟨⟨result, made⟩, creating, _, rfl⟩ := returned
      rcases createThread_cases creating with ⟨storage, used, ready, current⟩ |
        ⟨slot, created, isCreated, rfl⟩
      · exact ⟨queue, places.congr storage used ready current⟩
      · exact ⟨queue ++ [slot], places.created isCreated⟩
    | preempt interruptRsp =>
      simp only [apply, bind_eq_ok, pure_eq_ok, Prod.mk.injEq] at returned
      obtain ⟨⟨resumed, last⟩, preempting, _, rfl⟩ := returned
      exact places.preempt enterable preempting
    | schedule rsp => exact places.schedule returned
    | threadExit rsp => exact places.markExited.schedule returned

/-- Entering against the condition leaves a live thread in two places or in none. -/
theorem Places.enterable_of_entered (places : s.Places queue) (entered : Entered s slot after)
    (once : after.EachOnce) :
    s.occurrences slot = 0 ∧ ∀ old, s.current = some old → s.Live old → old = slot := by
  have sameCells (other : Nat) : after.occurrences other = s.occurrences other := by
    simp only [occurrences, entered.ready]
  constructor
  · rcases once slot ((entered.live slot).mpr (.inl rfl)) with ⟨_, unqueued⟩ | ⟨stopped, _⟩
    · rw [← sameCells]
      exact unqueued
    · exact absurd entered.current stopped
  · intro old running alive
    by_contra different
    rcases once old ((entered.live old).mpr (.inr alive)) with ⟨nowRunning, _⟩ | ⟨_, queuedOnce⟩
    · exact different (Option.some.inj (nowRunning.symm.trans entered.current))
    · rw [sameCells, occurrences_eq places.holds places.fits] at queuedOnce
      have member : old ∈ queue := List.count_pos_iff.mp (by omega)
      exact places.not_current old member running

/-- A timer interrupt that finds no frame leaves the running thread queued too. -/
theorem Places.enterable_of_preempt (places : s.Places queue) {interruptRsp resumed : Nat}
    (returned : s.preempt interruptRsp = .ok (resumed, after)) (once : after.EachOnce) :
    s.Enterable (.preempt interruptRsp) := by
  intro old running alive missing
  have absent : old ∉ queue := fun member => places.not_current old member running
  have full := places.room alive.1 absent
  unfold Scheduler.preempt at returned
  obtain ⟨stays, savedHolds, _, savedCurrent⟩ :=
    saveInterrupted_placed places running alive interruptRsp
  have savedEq := saveInterrupted_live places running alive interruptRsp
  generalize s.saveInterrupted interruptRsp = saved at returned stays savedHolds savedCurrent savedEq
  obtain ⟨head, rest, shape, headLive, headFrame⟩ : ∃ head rest, queue ++ [old] = head :: rest ∧
      s.Live head ∧ (saved.storage head).interruptRsp = 0 := by
    cases queue with
    | nil =>
      refine ⟨old, [], rfl, alive, ?_⟩
      rw [savedEq]
      simpa [modify, nextInterruptRsp, dequeueThread_nil places.holds] using missing
    | cons head queue =>
      have different : head ≠ old := by
        rintro rfl
        exact absent List.mem_cons_self
      refine ⟨head, queue ++ [old], rfl, places.live_of_mem head List.mem_cons_self, ?_⟩
      rw [savedEq]
      simpa [modify, Function.update_of_ne different, nextInterruptRsp,
        dequeueThread_cons places.holds (Nat.lt_of_succ_lt full)] using missing
  have length : rest.length = queue.length := by
    have counted := congrArg List.length shape
    simp only [List.length_append, List.length_cons, List.length_nil] at counted
    omega
  rw [shape] at savedHolds
  rw [resumeInterrupted_rotates savedHolds (by omega) headLive.1 headFrame, Except.ok.injEq,
    Prod.mk.injEq] at returned
  obtain ⟨_, rfl⟩ := returned
  have queued : old ∈ rest ++ [head] := by
    have member : old ∈ head :: rest := by
      rw [← shape]
      exact List.mem_append_right _ (List.mem_singleton.mpr rfl)
    rcases List.mem_cons.mp member with rfl | behind
    · exact List.mem_append_right _ (List.mem_singleton.mpr rfl)
    · exact List.mem_append_left _ behind
  have counted := occurrences_eq
    (s := { saved with ready := fun i => (rest ++ [head])[i]? }) rfl (by simp; omega) old
  rcases once old ((stays old).mpr alive) with ⟨_, unqueued⟩ | ⟨stopped, _⟩
  · rw [counted] at unqueued
    exact List.count_eq_zero.mp unqueued queued
  · exact stopped savedCurrent

/-- A call that leaves every live thread in one place met the condition. -/
theorem Places.enterable_of_step {op : SchedulerOp} (places : s.Places queue)
    (step : s.Step op after) (once : after.EachOnce) : s.Enterable op := by
  cases op with
  | enterUserMode slot =>
    intro inside
    have enters : (SchedulerOp.enterUserMode slot).enters = some slot := rfl
    rcases entered_of_step step enters with ⟨_, entered⟩ | ⟨outside, _⟩
    · exact places.enterable_of_entered entered once
    · omega
  | enterInterpreter slot =>
    intro inside
    have enters : (SchedulerOp.enterInterpreter slot).enters = some slot := rfl
    rcases entered_of_step step enters with ⟨_, entered⟩ | ⟨outside, _⟩
    · exact places.enterable_of_entered entered once
    · omega
  | preempt interruptRsp =>
    obtain ⟨⟨transfer, returned⟩, _⟩ := step
    simp only [apply, bind_eq_ok, pure_eq_ok, Prod.mk.injEq] at returned
    obtain ⟨⟨resumed, last⟩, preempting, _, rfl⟩ := returned
    exact places.enterable_of_preempt preempting once
  | createThread => trivial
  | schedule => trivial
  | threadExit => trivial

/-- For every machine at boot and every run, every call meets the condition if and only if in
every state reached each live thread is running and not queued, or queued once and not running. -/
theorem eachOnce_iff_enterable (storage : Nat → Thread) (heap : BumpAllocator)
    (frames : FrameAllocator) (memory : PhysMem) (ops : List SchedulerOp) (last : Scheduler) :
    Run (Guarded Enterable Step) (boot storage heap frames memory) ops last ↔
      Run (Reaching EachOnce Step) (boot storage heap frames memory) ops last := by
  refine Run.guarded_iff_reaching (fun s => ∃ queue, s.Places queue) ?_ ?_ ?_
    ⟨[], boot_places storage heap frames memory⟩
  · rintro before op next ⟨queue, places⟩ enterable step
    exact places.step enterable step
  · rintro state ⟨queue, places⟩
    exact places.eachOnce
  · rintro before op next ⟨queue, places⟩ step once
    exact places.enterable_of_step step once

/-- `create_thread` creates a thread in the first free slot while the heap has both stacks. -/
theorem createThread_returns (pid entryPoint cr3 : Nat) (free : s.allocThreadSlot = some slot)
    (kernelFits : s.heap.Fits stackSize 16)
    (userFits : { s.heap with next := s.heap.aligned 16 + stackSize }.Fits userStackSize 4096) :
    ∃ result made, s.createThread pid entryPoint cr3 =
      .ok (result, (enqueueThread made slot).2) ∧ Created s entryPoint cr3 slot made ∧
      made.heap = { s.heap with next :=
        { s.heap with next := s.heap.aligned 16 + stackSize }.aligned 4096 + userStackSize } := by
  have kstack := BumpAllocator.allocate_eq_some.mpr ⟨kernelFits, rfl, rfl⟩
  have ustack := BumpAllocator.allocate_eq_some.mpr ⟨userFits, rfl, rfl⟩
  have top := add64_eq_ok.mpr ⟨kernelFits.2.2.1, rfl⟩
  obtain ⟨userRsp, memory, mapped⟩ := s.userStack_returns cr3 userFits.2.2.1
  dsimp only at ustack mapped
  rw [createThread, free]
  dsimp only
  rw [kstack, ok_bind]
  dsimp only
  rw [top, ok_bind, ustack, ok_bind]
  dsimp only
  rw [mapped, ok_bind]
  split
  · rename_i queued enqueued
    refine ⟨some slot, _, congrArg (fun last => Except.ok (some slot, last))
      (congrArg Prod.snd enqueued).symm, ?_, rfl⟩
    exact ⟨free, ⟨_, rfl, rfl, rfl, rfl, rfl, kernelFits.2.2.1⟩, rfl, rfl, rfl⟩
  · rename_i full refused
    refine ⟨none, _, congrArg (fun last => Except.ok (none, last))
      (congrArg Prod.snd refused).symm, ?_, rfl⟩
    exact ⟨free, ⟨_, rfl, rfl, rfl, rfl, rfl, kernelFits.2.2.1⟩, rfl, rfl, rfl⟩

/-- The scheduler at boot with an empty mebibyte of heap, and 64 frames of low memory of which
the first holds the bitmap. -/
def mebibyteBoot : Scheduler :=
  boot (fun _ => Thread.new 0 0 0) (.initHeap 0x100000 0x200000) ⟨0x10000, 64, 0x10000, 1⟩
    ⟨fun address => if address = 0x10000 then 1 else 0, []⟩

/-- The first thread created there goes to slot 0. -/
theorem mebibyteBoot_creates (pid entryPoint cr3 : Nat) : ∃ made,
    Created mebibyteBoot entryPoint cr3 0 made ∧ made.heap = ⟨0x100000, 0x120000, 0x200000⟩ ∧
      mebibyteBoot.apply (.createThread pid entryPoint cr3) =
        .ok (none, (enqueueThread made 0).2) := by
  have free : mebibyteBoot.allocThreadSlot = some 0 :=
    position_eq_some.mpr ⟨by decide, rfl, by simp⟩
  obtain ⟨result, made, returned, created, heap⟩ :=
    createThread_returns pid entryPoint cr3 free (by decide) (by decide)
  refine ⟨made, created, heap.trans (by decide), ?_⟩
  rw [apply, returned]
  rfl

/-- No thread is there at boot. -/
theorem mebibyteBoot_places : mebibyteBoot.Places [] := boot_places _ _ _ _

/-- Starting the first thread leaves it running and queued. -/
theorem eachOnce_counterexample : ∃ last,
    Run Step mebibyteBoot [.createThread 1 0x401000 0, .enterInterpreter 0] last ∧
      last.Live 0 ∧ last.current = some 0 ∧ last.occurrences 0 = 1 ∧ ¬last.EachOnce := by
  obtain ⟨made, created, _, returned⟩ := mebibyteBoot_creates 1 0x401000 0
  have creates : mebibyteBoot.Step (.createThread 1 0x401000 0) (made.enqueueThread 0).2 :=
    ⟨⟨none, returned⟩, by simp [SchedulerOp.enters]⟩
  have places := mebibyteBoot_places.created created
  have alive := places.live_of_mem 0 (by simp)
  have enters : Step (made.enqueueThread 0).2 (.enterInterpreter 0)
      ((made.enqueueThread 0).2.enterInterpreter 0) :=
    ⟨⟨none, rfl⟩, fun slot same _ => Option.some.inj same ▸ alive.2.1⟩
  have entered : Entered (made.enqueueThread 0).2 0 ((made.enqueueThread 0).2.enterInterpreter 0) := by
    rcases entered_of_step enters (show (SchedulerOp.enterInterpreter 0).enters = some 0 from rfl)
      with ⟨_, entered⟩ | ⟨outside, _⟩
    · exact entered
    · exact absurd outside (by decide)
  have queued : occurrences (made.enqueueThread 0).2 0 = 1 := by
    rw [occurrences_eq places.holds places.fits]
    rfl
  refine ⟨_, .cons creates (.cons enters (.nil _)), (entered.live 0).mpr (.inl rfl), entered.current,
    ?_, fun once => ?_⟩
  · rw [← queued]
    simp only [occurrences, entered.ready]
  · have unqueued := (places.enterable_of_entered entered once).1
    rw [queued] at unqueued
    cases unqueued

end Aperture.Win32.Scheduler
