import Aperture.Mm.MapExact
import Aperture.Win32.Nt

/-!
# Guest memory

`user_ptr_to_phys` translates the first byte of a guest buffer and the handlers go on from there
in physical memory. The bytes they reach are the guest's own exactly while neighbouring pages of
the buffer lie in neighbouring frames. The walk asks for present entries and for nothing else.
-/

namespace Aperture.Win32

open Machine Mm PageTable

/-- The pointer of an access translates to the address reached. -/
def Translated (root : Nat) (access : GuestAccess) : Prop :=
  translate access.memory root access.pointer = some access.phys

/-- Every byte of an access is where the guest's table puts it. -/
def ThroughMapping (root : Nat) (access : GuestAccess) : Prop :=
  ∀ i < access.count,
    translate access.memory root (access.pointer + i) = some (access.phys + i)

/-- Where an access runs from a page into the next one, the two pages are mapped to frames that
follow each other. -/
def FramesFollow (root : Nat) (access : GuestAccess) : Prop :=
  ∀ i, i + 1 < access.count → (access.pointer + i + 1) % 4096 = 0 →
    ∃ phys, translate access.memory root (access.pointer + i) = some phys ∧
      translate access.memory root (access.pointer + i + 1) = some (phys + 1)

/-- The four entries that a walk reads. -/
def walkEntries (memory : PhysMem) (root virt : Nat) : List Nat :=
  let pml4 := entry memory root (pml4Index virt)
  let pdpt := entry memory (entryAddr pml4) (pdptIndex virt)
  let pd := entry memory (entryAddr pdpt) (pdIndex virt)
  [pml4, pdpt, pd, entry memory (entryAddr pd) (ptIndex virt)]

/-! ## Translation -/

/-- The next byte of a page follows. -/
theorem translate_succ {memory : PhysMem} {root virt phys : Nat}
    (inside : (virt + 1) % 4096 ≠ 0) (found : translate memory root virt = some phys) :
    translate memory root (virt + 1) = some (phys + 1) := by
  have samePage : pageNumber (virt + 1) = pageNumber virt := by
    unfold pageNumber
    omega
  obtain ⟨samePath, sameLeaf⟩ := (pathOf_eq_iff (virt + 1) virt).mpr samePage
  rw [translate_eq] at found ⊢
  rw [samePath, sameLeaf]
  obtain ⟨table, tableFound, leaf⟩ := Option.bind_eq_some_iff.mp found
  have fits : entry memory table (ptIndex virt) < wordSize := memory.readU64_lt _
  rw [tableFound, Option.bind_some, leafAddr_offset fits]
  rw [leafAddr_offset fits] at leaf
  by_cases here : present (entry memory table (ptIndex virt)) = true
  · rw [if_pos here, Option.some.injEq] at leaf ⊢
    omega
  · rw [if_neg here] at leaf
    cases leaf

/-- An access whose pointer translates goes through the guest's mapping exactly when its frames
follow each other. -/
theorem throughMapping_iff {root : Nat} {access : GuestAccess}
    (translated : Translated root access) :
    ThroughMapping root access ↔ FramesFollow root access := by
  constructor
  · intro through i inside _
    exact ⟨access.phys + i, through i (by omega), through (i + 1) inside⟩
  · intro follow i
    induction i with
    | zero => exact fun _ => translated
    | succ i ih =>
      intro inside
      have before := ih (by omega)
      by_cases boundary : (access.pointer + i + 1) % 4096 = 0
      · obtain ⟨phys, first, second⟩ := follow i inside boundary
        rw [before, Option.some.injEq] at first
        rw [← first] at second
        exact second
      · exact translate_succ boundary before

/-- A walk that ends reads present entries. -/
theorem present_of_translate {memory : PhysMem} {root virt phys : Nat}
    (found : translate memory root virt = some phys) :
    ∀ value ∈ walkEntries memory root virt, present value = true := by
  unfold PageTable.translate at found
  obtain ⟨pdpt, pdptFound, found⟩ := Option.bind_eq_some_iff.mp found
  obtain ⟨pd, pdFound, found⟩ := Option.bind_eq_some_iff.mp found
  obtain ⟨pt, ptFound, found⟩ := Option.bind_eq_some_iff.mp found
  obtain ⟨first, rfl⟩ := presentTable_eq_some.mp pdptFound
  obtain ⟨second, rfl⟩ := presentTable_eq_some.mp pdFound
  obtain ⟨third, rfl⟩ := presentTable_eq_some.mp ptFound
  have fourth : present (entry memory (entryAddr (entry memory (entryAddr (entry memory
      (entryAddr (entry memory root (pml4Index virt))) (pdptIndex virt))) (pdIndex virt)))
      (ptIndex virt)) = true := by
    by_contra absent
    rw [leafAddr, if_neg absent] at found
    cases found
  simp only [walkEntries, List.mem_cons, List.not_mem_nil, or_false, forall_eq_or_imp, forall_eq]
  exact ⟨first, second, third, fourth⟩

/-! ## Handlers -/

namespace Nt

variable {nt : Nt} {args : SyscallArgs} {handled : Handled}

/-- A translated pointer of a native thread. -/
theorem translated_of_userPtrToPhys (native : nt.processPageTableRoot ≠ 0) {pointer phys : Nat}
    (found : nt.userPtrToPhys pointer = some phys) (count : Nat) :
    Translated nt.processPageTableRoot (nt.reaches pointer phys count) := by
  unfold userPtrToPhys at found
  by_cases null : pointer = 0
  · rw [if_pos null] at found
    cases found
  · rw [if_neg null, if_neg native] at found
    exact found

/-- All accesses of a handler go through translated pointers. -/
def Walks (nt : Nt) (result : Except Panic Handled) : Prop :=
  ∀ handled, result = .ok handled →
    ∀ access ∈ handled.accesses, Translated nt.processPageTableRoot access

/-- A reply with translated accesses. -/
theorem walks_replies {after : Nt} {status : NtStatus} {accesses : List GuestAccess}
    (translated : ∀ access ∈ accesses, Translated nt.processPageTableRoot access) :
    nt.Walks (after.replies status accesses) := by
  intro handled returned
  obtain rfl := Except.ok.inj returned
  exact translated

/-- A reply without accesses. -/
theorem walks_nothing {after : Nt} {status : NtStatus} : nt.Walks (after.replies status []) :=
  walks_replies (by simp)

/-- What comes before a reply. -/
theorem walks_bind {α : Type} {first : Except Panic α} {next : α → Except Panic Handled}
    (walks : ∀ value, nt.Walks (next value)) : nt.Walks (first >>= next) := by
  intro handled returned
  obtain ⟨value, _, returned⟩ := bind_eq_ok.mp returned
  exact walks value handled returned

/-- The length at the end of a query. -/
theorem walks_repliesLength (native : nt.processPageTableRoot ≠ 0) (after : Nt)
    (same : after.scheduler = nt.scheduler) {retLenPtr length : Nat} {accesses : List GuestAccess}
    (translated : ∀ access ∈ accesses, Translated nt.processPageTableRoot access) :
    nt.Walks (after.repliesLength retLenPtr length accesses) := by
  have root : after.processPageTableRoot = nt.processPageTableRoot := by
    rw [processPageTableRoot, same, processPageTableRoot]
  unfold repliesLength
  cases found : after.userPtrToPhys retLenPtr with
  | none => exact walks_replies translated
  | some phys =>
    refine walks_bind fun _ => walks_replies fun access member => ?_
    rcases List.mem_append.mp member with earlier | last
    · exact translated access earlier
    · rw [List.mem_singleton.mp last, ← root]
      exact translated_of_userPtrToPhys (by rw [root]; exact native) found 4

/-- A query. -/
theorem walks_fills (native : nt.processPageTableRoot ≠ 0) {bufPtr bufPhys retLenPtr : Nat}
    {information : List UInt8} (found : nt.userPtrToPhys bufPtr = some bufPhys) :
    nt.Walks (nt.fills bufPtr bufPhys retLenPtr information) := by
  have same : (nt.withMemory (nt.files.memory.copyIn bufPhys information)).scheduler =
      nt.scheduler := rfl
  refine walks_repliesLength native _ same fun access member => ?_
  rw [List.mem_singleton.mp member]
  exact translated_of_userPtrToPhys native found _

/-- A query whose buffer may be too small. -/
theorem walks_unless {condition : Prop} [Decidable condition] {status : NtStatus}
    {result : Except Panic Handled} (walks : nt.Walks result) :
    nt.Walks (if condition then nt.replies status [] else result) := by
  split
  · exact walks_nothing
  · exact walks

/-- Opening a file reads the path and writes the handle. -/
theorem walks_handleCreateFile (native : nt.processPageTableRoot ≠ 0) (args : SyscallArgs) :
    nt.Walks (nt.handleCreateFile args) := by
  unfold handleCreateFile
  dsimp only
  split
  · exact walks_nothing
  · cases pathFound : nt.userPtrToPhys (args 1).toNat with
    | none => exact walks_nothing
    | some pathPhys =>
      cases outFound : nt.userPtrToPhys (args 0).toNat with
      | none => exact walks_nothing
      | some outPhys =>
        have path := translated_of_userPtrToPhys native pathFound
        have out := translated_of_userPtrToPhys native outFound
        refine walks_bind fun path' => walks_bind fun created => ?_
        obtain ⟨result, after⟩ := created
        cases result with
        | error status =>
          refine walks_replies fun access member => ?_
          rw [List.mem_singleton.mp member]
          exact path _
        | ok handle =>
          refine walks_bind fun _ => walks_replies fun access member => ?_
          rcases List.mem_cons.mp member with first | second
          · rw [first]
            exact path _
          · rw [List.mem_singleton.mp second]
            exact out _

/-- Reading a file writes its buffer. -/
theorem walks_handleReadFile (native : nt.processPageTableRoot ≠ 0) (args : SyscallArgs) :
    nt.Walks (nt.handleReadFile args) := by
  unfold handleReadFile
  dsimp only
  split
  · exact walks_nothing
  · cases found : nt.userPtrToPhys (args 1).toNat with
    | none => exact walks_nothing
    | some bufPhys =>
      refine walks_bind fun _ => ?_
      cases nt.vfsFileFromObject (UInt32.ofNat (args 0).toNat) with
      | error status => exact walks_nothing
      | ok file =>
        refine walks_bind fun read => ?_
        obtain ⟨count, files⟩ := read
        cases count with
        | none => exact walks_nothing
        | some count =>
          refine walks_replies fun access member => ?_
          rw [List.mem_singleton.mp member]
          exact translated_of_userPtrToPhys native found _

/-- Writing a file reads its buffer. -/
theorem walks_handleWriteFile (native : nt.processPageTableRoot ≠ 0) (args : SyscallArgs) :
    nt.Walks (nt.handleWriteFile args) := by
  unfold handleWriteFile
  dsimp only
  split
  · exact walks_nothing
  · cases found : nt.userPtrToPhys (args 1).toNat with
    | none => exact walks_nothing
    | some bufPhys =>
      refine walks_bind fun _ => ?_
      cases nt.vfsFileFromObject (UInt32.ofNat (args 0).toNat) with
      | error status => exact walks_nothing
      | ok file =>
        refine walks_bind fun written => walks_replies fun access member => ?_
        rw [List.mem_singleton.mp member]
        exact translated_of_userPtrToPhys native found _

/-- The base of an allocation goes to a raw address, which is no translated pointer. -/
theorem walks_handleAllocateVirtualMemory (args : SyscallArgs) :
    nt.Walks (nt.handleAllocateVirtualMemory args) := by
  refine walks_bind fun allocated => ?_
  obtain ⟨base, after⟩ := allocated
  cases base with
  | none => exact walks_nothing
  | some base =>
    dsimp only
    split
    · exact walks_nothing
    · exact walks_bind fun _ => walks_nothing

/-- A query about the system. -/
theorem walks_handleQuerySystemInformation (native : nt.processPageTableRoot ≠ 0)
    (args : SyscallArgs) : nt.Walks (nt.handleQuerySystemInformation args) := by
  unfold handleQuerySystemInformation
  dsimp only
  split
  · exact walks_nothing
  · cases found : nt.userPtrToPhys (args 1).toNat with
    | none => exact walks_nothing
    | some bufPhys =>
      refine walks_bind fun _ => ?_
      split
      · exact walks_unless (walks_fills native found)
      · split
        · exact walks_unless (walks_fills native found)
        · exact walks_nothing

/-- A query about a process. -/
theorem walks_handleQueryInformationProcess (native : nt.processPageTableRoot ≠ 0)
    (args : SyscallArgs) : nt.Walks (nt.handleQueryInformationProcess args) := by
  unfold handleQueryInformationProcess
  dsimp only
  split
  · exact walks_nothing
  · cases found : nt.userPtrToPhys (args 2).toNat with
    | none => exact walks_nothing
    | some bufPhys =>
      dsimp only
      split
      · exact walks_unless (walks_bind fun _ => walks_fills native found)
      · exact walks_nothing

/-- A delay reads its interval. -/
theorem walks_handleDelayExecution (native : nt.processPageTableRoot ≠ 0) (args : SyscallArgs)
    (rsp : Nat) : nt.Walks (nt.handleDelayExecution args rsp) := by
  intro handled returned
  obtain ⟨accesses, interval, returned⟩ := bind_eq_ok.mp returned
  unfold readsInterval at interval
  cases found : nt.userPtrToPhys (args 1).toNat with
  | none =>
    rw [found] at interval
    obtain rfl := Except.ok.inj interval
    exact walks_bind (fun _ => walks_nothing) handled returned
  | some phys =>
    rw [found] at interval
    obtain ⟨_, _, interval⟩ := bind_eq_ok.mp interval
    obtain rfl := pure_eq_ok.mp interval
    refine walks_bind (fun switched => walks_replies fun access member => ?_) handled returned
    rw [List.mem_singleton.mp member]
    exact translated_of_userPtrToPhys native found _

/-- Every handler reaches guest memory through translated pointers. -/
theorem walks_call (native : nt.processPageTableRoot ≠ 0) (rsp : Nat) (args : SyscallArgs)
    (handler : SyscallHandler) : nt.Walks (nt.call rsp args handler) := by
  cases handler with
  | close => exact walks_bind fun _ => walks_nothing
  | createFile => exact walks_handleCreateFile native args
  | readFile => exact walks_handleReadFile native args
  | writeFile => exact walks_handleWriteFile native args
  | allocateVirtualMemory => exact walks_handleAllocateVirtualMemory args
  | freeVirtualMemory => exact walks_bind fun _ => walks_nothing
  | querySystemInformation => exact walks_handleQuerySystemInformation native args
  | queryInformationProcess => exact walks_handleQueryInformationProcess native args
  | delayExecution => exact walks_handleDelayExecution native args rsp

/-- So does every system call. -/
theorem walks_dispatch (native : nt.processPageTableRoot ≠ 0) (dispatcher : Dispatcher)
    (rsp number : Nat) (args : SyscallArgs) :
    nt.Walks (nt.dispatch dispatcher rsp number args) := by
  refine walks_bind fun selected => ?_
  cases selected with
  | calls handler args => exact walks_call native rsp args handler
  | returns status => exact walks_nothing

/-- For every native thread, every system call and every guest buffer the call reads or writes:
its bytes are those of the guest's mapping exactly when the frames of its pages follow each
other. -/
theorem guestBytes_through_mapping_iff (native : nt.processPageTableRoot ≠ 0)
    {dispatcher : Dispatcher} {rsp number : Nat}
    (returned : nt.dispatch dispatcher rsp number args = .ok handled) :
    ∀ access ∈ handled.accesses, ThroughMapping nt.processPageTableRoot access ↔
      FramesFollow nt.processPageTableRoot access :=
  fun access member => throughMapping_iff
    (walks_dispatch native dispatcher rsp number args handled returned access member)

/-- Every guest pointer that a system call of a native thread dereferences has present entries
at all four levels of the thread's table. -/
theorem guestPointers_present (native : nt.processPageTableRoot ≠ 0)
    {dispatcher : Dispatcher} {rsp number : Nat}
    (returned : nt.dispatch dispatcher rsp number args = .ok handled) :
    ∀ access ∈ handled.accesses,
      ∀ value ∈ walkEntries access.memory nt.processPageTableRoot access.pointer,
        present value = true :=
  fun access member => present_of_translate
    (walks_dispatch native dispatcher rsp number args handled returned access member)

/-- Tables at 0x1000 to 0x4000 that map the first two pages to the frames 0x10000 and 0x20000,
every entry with the given flags. -/
def twoPages (flags : UInt8) : PhysMem where
  byte
    | 0x1000 => flags
    | 0x1001 => 0x20
    | 0x2000 => flags
    | 0x2001 => 0x30
    | 0x3000 => flags
    | 0x3001 => 0x40
    | 0x4000 => flags
    | 0x4002 => 0x01
    | 0x4008 => flags
    | 0x400A => 0x02
    | _ => 0
  log := []

/-- A native thread with these tables runs. -/
def guest (flags : UInt8) : Nt where
  files := .init (twoPages flags)
  objects := .init
  frames := ⟨0, 0, 0, 0⟩
  scheduler :=
    { Scheduler.boot (fun _ => { Thread.new 1 1 0x140001000 with processPageTableRoot := 0x1000 })
        ⟨0, 0, 0⟩ ⟨0, 0, 0, 0⟩ (twoPages flags) with
      current := some 0 }

/-- The dispatcher after initialisation. -/
def ready : Dispatcher := Dispatcher.boot.init.initSyscallTable

/-- `NtQuerySystemInformation` for the basic information, 64 bytes at a guest pointer. -/
def queryArgs (pointer : BitVec 64) : SyscallArgs := ![0, pointer, 64, 0, 0, 0, 0, 0, 0, 0, 0, 0, 0,
  0, 0, 0]

/-- The call fills the buffer from the address of its first byte on. -/
theorem guest_query (flags : UInt8) {pointer phys : Nat} (fits : pointer < 2 ^ 64)
    (nonnull : pointer ≠ 0) (mapped : phys ≠ 0)
    (found : translate (twoPages flags) 0x1000 pointer = some phys) : ∃ handled,
      (guest flags).dispatch ready 0 0x36 (queryArgs (BitVec.ofNat 64 pointer)) = .ok handled ∧
      handled.status = .success ∧
      handled.accesses = [⟨pointer, phys, 64, twoPages flags⟩] := by
  have selected : ready.dispatch 0x36 (queryArgs (BitVec.ofNat 64 pointer)) =
      .ok (.calls .querySystemInformation (queryArgs (BitVec.ofNat 64 pointer))) := rfl
  have pointerEq : (queryArgs (BitVec.ofNat 64 pointer) 1).toNat = pointer := by
    show (BitVec.ofNat 64 pointer).toNat = pointer
    rw [BitVec.toNat_ofNat, Nat.mod_eq_of_lt fits]
  have physEq : (guest flags).userPtrToPhys pointer = some phys := by
    have root : (guest flags).processPageTableRoot = 0x1000 := rfl
    rw [userPtrToPhys, if_neg nonnull, root, if_neg (by decide)]
    exact found
  have zero : (queryArgs (BitVec.ofNat 64 pointer) 0).toNat % 2 ^ 32 = 0 := rfl
  have length : (queryArgs (BitVec.ofNat 64 pointer) 2).toNat = 64 := rfl
  have noLength : (queryArgs (BitVec.ofNat 64 pointer) 3).toNat = 0 := rfl
  rw [dispatch, selected, ok_bind]
  simp only [call, handleQuerySystemInformation, pointerEq, zero, length, noLength, nonnull,
    OfNat.ofNat_ne_zero, or_self, ↓reduceIte, physEq]
  rw [checkSlice_eq_ok.mpr ⟨mapped, by decide⟩]
  exact ⟨_, rfl, rfl, rfl⟩

/-- A buffer in the first page is reached through the mapping. -/
theorem guestBytes_through_mapping_iff_inside : ∃ handled,
    (guest 7).processPageTableRoot ≠ 0 ∧
    (guest 7).dispatch ready 0 0x36 (queryArgs 0x100) = .ok handled ∧
    handled.accesses = [⟨0x100, 0x10100, 64, twoPages 7⟩] ∧
    ∀ access ∈ handled.accesses, ThroughMapping 0x1000 access := by
  have native : (guest 7).processPageTableRoot ≠ 0 := by decide
  have found : translate (twoPages 7) 0x1000 0x100 = some 0x10100 := by decide +kernel
  obtain ⟨handled, returned, -, accesses⟩ := guest_query 7 (by decide) (by decide) (by decide) found
  refine ⟨handled, native, returned, accesses, fun access member => ?_⟩
  refine (guestBytes_through_mapping_iff native returned access member).mpr ?_
  rw [accesses] at member
  rw [List.mem_singleton.mp member]
  intro i inside boundary
  dsimp only at inside boundary
  omega

/-- A buffer across two pages in frames that do not follow each other: the last 48 of its 64 bytes
are written past the end of the first frame. -/
theorem guestBytes_across_frames : ∃ handled,
    (guest 7).processPageTableRoot ≠ 0 ∧
    (∀ i < 64, (translate (twoPages 7) 0x1000 (0xFF0 + i)).isSome = true) ∧
    (guest 7).dispatch ready 0 0x36 (queryArgs 0xFF0) = .ok handled ∧
    handled.accesses = [⟨0xFF0, 0x10FF0, 64, twoPages 7⟩] ∧
    translate (twoPages 7) 0x1000 0x1000 = some 0x20000 ∧
    ∃ access ∈ handled.accesses, ¬ ThroughMapping 0x1000 access := by
  have found : translate (twoPages 7) 0x1000 0xFF0 = some 0x10FF0 := by decide +kernel
  have next : translate (twoPages 7) 0x1000 0x1000 = some 0x20000 := by decide +kernel
  obtain ⟨handled, returned, -, accesses⟩ := guest_query 7 (by decide) (by decide) (by decide) found
  refine ⟨handled, by decide, by decide +kernel, returned, accesses, next, _,
    by rw [accesses]; exact List.mem_singleton_self _, fun through => ?_⟩
  have last := through 16 (by decide)
  rw [next] at last
  cases last

/-- A buffer in a user page. -/
theorem guestPointers_present_user : ∃ handled,
    (guest 7).processPageTableRoot ≠ 0 ∧
    (guest 7).dispatch ready 0 0x36 (queryArgs 0x100) = .ok handled ∧
    handled.accesses = [⟨0x100, 0x10100, 64, twoPages 7⟩] ∧
    ∀ value ∈ walkEntries (twoPages 7) 0x1000 0x100, present value = true := by
  have native : (guest 7).processPageTableRoot ≠ 0 := by decide
  have found : translate (twoPages 7) 0x1000 0x100 = some 0x10100 := by decide +kernel
  obtain ⟨handled, returned, -, accesses⟩ := guest_query 7 (by decide) (by decide) (by decide) found
  have member : ⟨0x100, 0x10100, 64, twoPages 7⟩ ∈ handled.accesses := by
    rw [accesses]
    exact List.mem_singleton_self _
  have entries := guestPointers_present native returned ⟨0x100, 0x10100, 64, twoPages 7⟩ member
  have root : (guest 7).processPageTableRoot = 0x1000 := by decide
  rw [root] at entries
  exact ⟨handled, native, returned, accesses, entries⟩

/-- A buffer in a page that only the kernel may use is written all the same. -/
theorem guestPointers_supervisor : ∃ handled,
    (guest 3).processPageTableRoot ≠ 0 ∧
    (guest 3).dispatch ready 0 0x36 (queryArgs 0x100) = .ok handled ∧
    handled.status = .success ∧ handled.accesses = [⟨0x100, 0x10100, 64, twoPages 3⟩] ∧
    ∀ value ∈ walkEntries (twoPages 3) 0x1000 0x100, value &&& pageUser = 0 := by
  have found : translate (twoPages 3) 0x1000 0x100 = some 0x10100 := by decide +kernel
  obtain ⟨handled, returned, status, accesses⟩ :=
    guest_query 3 (by decide) (by decide) (by decide) found
  exact ⟨handled, by decide, returned, status, accesses, by decide +kernel⟩

end Nt

end Aperture.Win32
