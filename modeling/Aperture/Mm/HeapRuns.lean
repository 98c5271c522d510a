import Aperture.Machine.Run
import Aperture.Mm.Heap

/-!
# Runs of the early heap

Any sequence of requests to the heap that `init_heap` left. The cursor stays between the start and
the end, so with room for one alignment behind the end the round-up never overflows, and what was
granted lies in the order of the calls without a common byte.
-/

namespace Aperture.Mm.BumpAllocator

open Machine

/-- One call of `allocate` and what it returned. -/
structure Call where
  /-- Number of bytes asked for. -/
  size : Nat
  /-- The alignment asked for. -/
  align : Nat
  /-- The address returned. -/
  result : Option Nat
  deriving DecidableEq, Repr

/-- A power of two up to the page size. -/
def ProperAlign (align : Nat) : Prop := ∃ shift ≤ 12, align = 2 ^ shift

/-- The range a call handed out. -/
def Call.granted (call : Call) : Option Span := call.result.map fun address => ⟨address, call.size⟩

/-- A call with a proper alignment returns and leaves a heap. -/
def Calls (before : BumpAllocator) (call : Call) (after : BumpAllocator) : Prop :=
  ProperAlign call.align ∧ before.allocate call.size call.align = .ok (call.result, after)

/-- The cursor of a heap between its two bounds. -/
structure Between (start stop : Nat) (heap : BumpAllocator) : Prop where
  /-- The limit is the end. -/
  limit : heap.limit = stop
  /-- The cursor has not gone below the start. -/
  above : start ≤ heap.next
  /-- The cursor has not gone past the end. -/
  below : heap.next ≤ stop

/-- `init_heap` puts the cursor at the start. -/
theorem between_initHeap {start stop : Nat} (ordered : start ≤ stop) :
    Between start stop (initHeap start stop) := ⟨rfl, Nat.le_refl _, ordered⟩

/-- A proper alignment is at most the page size. -/
theorem ProperAlign.bounds {align : Nat} (proper : ProperAlign align) : 0 < align ∧ align ≤ 4096 := by
  obtain ⟨shift, small, rfl⟩ := proper
  exact ⟨Nat.two_pow_pos shift, (Nat.pow_le_pow_right (by decide) small).trans (by decide)⟩

namespace Between

variable {start stop size align : Nat} {heap after : BumpAllocator} {call : Call}

/-- Rounding the cursor up to a proper alignment does not overflow. -/
theorem round_fits (between : Between start stop heap) (room : stop + 4096 ≤ wordSize)
    (proper : ProperAlign align) : heap.next + (align - 1) < wordSize := by
  have bounds := proper.bounds
  have below := between.below
  omega

/-- A proper request returns. -/
theorem allocate_returns (between : Between start stop heap) (room : stop + 4096 ≤ wordSize)
    (proper : ProperAlign align) :
    ∃ result after, heap.allocate size align = .ok (result, after) := by
  have fits := between.round_fits room proper
  have positive : 1 ≤ align := proper.bounds.1
  simp only [allocate, sub64, if_pos positive, ok_bind, add64, if_pos fits]
  split
  · split
    · exact ⟨_, _, rfl⟩
    · exact ⟨_, _, rfl⟩
  · exact ⟨_, _, rfl⟩

/-- What a call hands out: a multiple of the alignment from the cursor on, inside the bounds, with
the cursor behind it afterwards. -/
theorem calls_some {address : Nat} (between : Between start stop heap) (calls : heap.Calls call after)
    (granted : call.result = some address) :
    call.align ∣ address ∧ heap.next ≤ address ∧ address + call.size ≤ stop ∧
      after.next = address + call.size := by
  obtain ⟨⟨shift, small, power⟩, returned⟩ := calls
  rw [granted] at returned
  obtain ⟨⟨_, sumFits, _, inside⟩, rfl, rfl⟩ := allocate_eq_some.mp returned
  rw [power] at sumFits
  have wide : shift ≤ 64 := small.trans (by decide)
  refine ⟨?_, ?_, ?_, rfl⟩
  · rw [power]
    exact Nat.dvd_of_mod_eq_zero (heap.aligned_mod wide sumFits)
  · rw [power]
    exact heap.next_le_aligned wide sumFits
  · rw [← between.limit]
    exact inside

/-- A refused call leaves the heap as it was. -/
theorem calls_none (calls : heap.Calls call after) (refused : call.result = none) :
    after = heap := by
  have returned := calls.2
  rw [refused] at returned
  exact (allocate_eq_none returned).1

/-- A call leaves the cursor between the bounds and does not move it back. -/
theorem calls_between (between : Between start stop heap) (calls : heap.Calls call after) :
    Between start stop after ∧ heap.next ≤ after.next := by
  cases outcome : call.result with
  | none =>
    rw [calls_none calls outcome]
    exact ⟨between, Nat.le_refl _⟩
  | some address =>
    obtain ⟨_, above, below, moved⟩ := between.calls_some calls outcome
    have returned := calls.2
    rw [outcome] at returned
    have started := between.above
    refine ⟨⟨?_, by omega, by omega⟩, by omega⟩
    rw [(allocate_eq_some.mp returned).2.2]
    exact between.limit

end Between

/-- The ranges handed out by a list of calls, in the order of the calls. -/
def grants (calls : List Call) : List Span := calls.filterMap Call.granted

/-- A range handed out is the one of a call that returned an address. -/
theorem mem_grants {calls : List Call} {span : Span} :
    span ∈ grants calls ↔ ∃ call ∈ calls, ∃ address, call.result = some address ∧
      span = ⟨address, call.size⟩ := by
  simp [grants, Call.granted, eq_comm]

/-- From a heap between its bounds, every address handed out is a multiple of the alignment at or
behind the cursor, its range ends inside, and each range ends before the next one starts. -/
theorem grants_ordered {start stop : Nat} {heap last : BumpAllocator} {calls : List Call}
    (between : Between start stop heap) (run : Run Calls heap calls last) :
    Between start stop last ∧
      (∀ call ∈ calls, ∀ address, call.result = some address →
        call.align ∣ address ∧ heap.next ≤ address ∧ address + call.size ≤ stop) ∧
      (grants calls).Pairwise fun earlier later => earlier.start + earlier.size ≤ later.start := by
  induction run with
  | nil => exact ⟨between, nofun, .nil⟩
  | @cons heap middle last call calls head tail ih =>
    obtain ⟨kept, forward⟩ := between.calls_between head
    obtain ⟨lastBetween, inside, ordered⟩ := ih kept
    refine ⟨lastBetween, fun later member address granted => ?_, ?_⟩
    · rcases List.mem_cons.mp member with rfl | further
      · obtain ⟨aligned, above, below, _⟩ := between.calls_some head granted
        exact ⟨aligned, above, below⟩
      · obtain ⟨aligned, above, below⟩ := inside later further address granted
        exact ⟨aligned, forward.trans above, below⟩
    · cases outcome : call.result with
      | none =>
        have skipped : grants (call :: calls) = grants calls := by
          simp [grants, Call.granted, outcome]
        rw [skipped]
        exact ordered
      | some address =>
        have first : grants (call :: calls) = ⟨address, call.size⟩ :: grants calls := by
          simp [grants, Call.granted, outcome]
        rw [first]
        refine .cons (fun span member => ?_) ordered
        obtain ⟨later, further, next, granted, rfl⟩ := mem_grants.mp member
        rw [← (between.calls_some head outcome).2.2.2]
        exact (inside later further next granted).2.1

/-- For bounds with a page of room behind them, every sequence of calls with proper alignments
after `init_heap` returns each time. An address is a multiple of the alignment and its range lies
inside the bounds, the ranges handed out are disjoint and increase with the calls, the unchecked
sum never overflows, and a call that returns nothing leaves the heap as it was. -/
theorem allocate_bump_law {start stop : Nat} (ordered : start ≤ stop)
    (room : stop + 2 ^ 12 ≤ 2 ^ 64) {calls : List Call} {heap : BumpAllocator}
    (run : Run Calls (initHeap start stop) calls heap) :
    (∀ call ∈ calls, ∀ address, call.result = some address →
      call.align ∣ address ∧ start ≤ address ∧ address + call.size ≤ stop) ∧
    ((grants calls).Pairwise fun earlier later => earlier.start + earlier.size ≤ later.start) ∧
    ∀ size align, ProperAlign align → heap.next + (align - 1) < 2 ^ 64 ∧
      ∃ result after, heap.allocate size align = .ok (result, after) ∧
        (result = none → after = heap) := by
  obtain ⟨between, inside, increasing⟩ := grants_ordered (between_initHeap ordered) run
  refine ⟨inside, increasing, fun size align proper => ⟨between.round_fits room proper, ?_⟩⟩
  obtain ⟨result, after, returned⟩ : ∃ result after, heap.allocate size align = .ok (result, after) :=
    between.allocate_returns room proper
  refine ⟨result, after, returned, fun refused => ?_⟩
  rw [refused] at returned
  exact (allocate_eq_none returned).1

/-- Three calls on a heap of sixteen kilobytes, the second of them too large: the third is rounded
up to its page. -/
theorem allocate_bump_law_mixed :
    ∃ heap, Run Calls (initHeap 0x1000 0x5000)
      [⟨24, 8, some 0x1000⟩, ⟨0x8000, 16, none⟩, ⟨0x1001, 4096, some 0x2000⟩] heap ∧
      (grants [⟨24, 8, some 0x1000⟩, ⟨0x8000, 16, none⟩, ⟨0x1001, 4096, some 0x2000⟩]).Pairwise
        fun earlier later => earlier.start + earlier.size ≤ later.start := by
  have first : Calls (initHeap 0x1000 0x5000) ⟨24, 8, some 0x1000⟩ ⟨0x1000, 0x1018, 0x5000⟩ :=
    ⟨⟨3, by decide, rfl⟩, by decide⟩
  have second : Calls ⟨0x1000, 0x1018, 0x5000⟩ ⟨0x8000, 16, none⟩ ⟨0x1000, 0x1018, 0x5000⟩ :=
    ⟨⟨4, by decide, rfl⟩, by decide⟩
  have third : Calls ⟨0x1000, 0x1018, 0x5000⟩ ⟨0x1001, 4096, some 0x2000⟩
      ⟨0x1000, 0x3001, 0x5000⟩ := ⟨⟨12, by decide, rfl⟩, by decide⟩
  have run := Run.cons first (.cons second (.cons third (.nil _)))
  exact ⟨_, run, (allocate_bump_law (by decide) (by decide) run).2.1⟩

end Aperture.Mm.BumpAllocator
