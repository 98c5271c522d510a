import Aperture.Win32.OperandForms

/-!
# Displacements of the fixture

The generator of the fixture writes placeholders for displacements and patches them when it knows
where its data is. It counts from 7 bytes behind the displacement, which is 3 bytes behind the
instruction; so every patched instruction uses the address 3 bytes in front of its data.
-/

namespace Aperture.Win32

open Machine

/-- `struct.pack("<i", value)`; `none` for `struct.error`. -/
def packI32 (value : Int) : Option (List UInt8) :=
  if -2 ^ 31 ≤ value ∧ value < 2 ^ 31 then some (leBytes 4 (BitVec.ofInt 32 value).toNat) else none

/-- `patch`: the code with a displacement to a target put at an offset. -/
def patch (code : List UInt8) (offset target instrLenAfter : Nat) : Option (List UInt8) := do
  let disp : Int := target - (offset + instrLenAfter)
  let packed ← packI32 disp
  return code.take offset ++ packed ++ code.drop (offset + 4)

/-- The instructions that `build_code` patches. -/
inductive Patched where
  /-- `LEA r64, [rip + disp32]`. -/
  | lea (dst : Register)
  /-- `XOR r64, [rip + disp32]`. -/
  | xor (dst : Register)
  deriving DecidableEq, Repr

namespace Patched

/-- The instruction with a displacement. -/
def instruction (disp : BitVec 32) : Patched → DataInstruction
  | lea dst => .lea dst disp
  | xor dst => .xorFrom dst (.ripRelative disp)

/-- The three bytes in front of the displacement. -/
def head (rex : Rex) : Patched → List UInt8
  | lea dst => [rex.byte, 0x8D, dst.low * 8 + 5]
  | xor dst => [rex.byte, 0x33, dst.low * 8 + 5]

variable {form : Patched} {rex : Rex}

/-- The displacement is the last field. -/
theorem encoding_eq (form : Patched) (rex : Rex) (disp : BitVec 32) :
    (form.instruction disp).encoding (some rex) = form.head rex ++ leBytes 4 disp.toNat := by
  cases form <;> rfl

/-- There are three bytes in front of it. -/
theorem length_head (form : Patched) (rex : Rex) : (form.head rex).length = 3 := by
  cases form <;> rfl

/-- The prefix bits do not depend on the displacement. -/
theorem extends_iff (form : Patched) (rex : Rex) (disp other : BitVec 32) :
    (form.instruction disp).Extends rex ↔ (form.instruction other).Extends rex := by
  cases form <;> exact Iff.rfl

/-- What is done with an operand does not depend on it either. -/
theorem performedAt_eq (form : Patched) (disp other : BitVec 32) (address : BitVec 64) (cpu : Cpu) :
    performedAt address cpu (form.instruction disp) =
        performedAt address cpu (form.instruction other) ∧
      accessedAt address (form.instruction disp) = accessedAt address (form.instruction other) := by
  cases form <;> exact ⟨rfl, rfl⟩

/-- The displacement of the instruction. -/
theorem displacement_eq (form : Patched) (disp : BitVec 32) :
    (form.instruction disp).displacement = some disp := by
  cases form <;> rfl

/-- No constant follows the operand. -/
theorem countedFrom_eq (form : Patched) (disp : BitVec 32) (next : BitVec 64) :
    countedFrom next (form.instruction disp) = next := by
  cases form <;> rfl

end Patched

section Displacements

variable {form : Patched} {rex : Rex} {front behind after window : List UInt8} {target : Nat}
  {disp : BitVec 32}

/-- A patched instruction, where it was, with the displacement that was packed. -/
theorem patch_eq_some {instrLenAfter : Nat}
    (patched : patch (front ++ ((form.instruction disp).encoding (some rex) ++ behind))
      (front.length + 3) target instrLenAfter = some after) :
    ∃ value : Int, value = target - (front.length + 3 + instrLenAfter) ∧ -2 ^ 31 ≤ value ∧
      value < 2 ^ 31 ∧
      after =
        front ++ ((form.instruction (BitVec.ofInt 32 value)).encoding (some rex) ++ behind) := by
  obtain ⟨packed, fits, placed⟩ := Option.bind_eq_some_iff.mp patched
  rw [packI32] at fits
  split at fits
  · rename_i range
    refine ⟨_, rfl, range.1, range.2, ?_⟩
    obtain rfl := Option.some.inj fits
    obtain rfl := Option.some.inj placed
    have head : (front ++ form.head rex).length = front.length + 3 := by
      rw [List.length_append, form.length_head]
    have whole :
        (front ++ form.head rex ++ leBytes 4 disp.toNat).length = front.length + 3 + 4 := by
      rw [List.length_append, head, length_leBytes]
    have shape : front ++ ((form.instruction disp).encoding (some rex) ++ behind) =
        front ++ form.head rex ++ leBytes 4 disp.toNat ++ behind := by
      rw [form.encoding_eq]
      simp only [List.append_assoc]
    rw [shape, List.drop_left' whole, List.append_assoc (front ++ form.head rex),
      List.take_left' head, form.encoding_eq]
    simp only [List.append_assoc]
    rfl
  · cases fits

/-- An extended displacement is the number that was packed. -/
theorem signExtend_ofInt {value : Int} (low : -2 ^ 31 ≤ value) (high : value < 2 ^ 31) :
    (BitVec.ofInt 32 value).signExtend 64 = BitVec.ofInt 64 value := by
  apply BitVec.eq_of_toInt_eq
  rw [BitVec.toInt_signExtend_of_le (by decide), BitVec.toInt_ofInt_eq_self (by decide) low high,
    BitVec.toInt_ofInt_eq_self (by decide) (by omega) (by omega)]

/-- The address that a patched displacement leads to. -/
theorem patched_address (base : BitVec 64) (start target : Nat) {value : Int}
    (distance : value = target - (start + 3 + 7)) :
    pcAdd (pcAdd base start) 7 + BitVec.ofInt 64 value = pcAdd base target - 3 := by
  have word : BitVec.ofInt 64 value = BitVec.ofNat 64 target - (BitVec.ofNat 64 start + 10) := by
    have split : value = (target : Int) + -((start + 10 : Nat) : Int) := by omega
    rw [split, BitVec.ofInt_add, BitVec.ofInt_neg, BitVec.ofInt_natCast, BitVec.ofInt_natCast,
      BitVec.ofNat_add, ← BitVec.sub_eq_add_neg]
    rfl
  rw [word, pcAdd, pcAdd, pcAdd]
  have seven : BitVec.ofNat 64 7 = 10 - 3 := by decide
  rw [seven]
  grind

/-- For every code, wherever it is loaded, and every instruction and target: after the patch the
instruction uses the address 3 bytes in front of its target, and so never that of its target. -/
theorem patch_usesAddress {κ : Type} (syscall : SyscallEffect κ) (kernel : κ) (base : BitVec 64)
    (extend : (form.instruction disp).Extends rex)
    (patched : patch (front ++ ((form.instruction disp).encoding (some rex) ++ behind))
      (front.length + 3) target 7 = some after)
    (loaded : (after.drop front.length).take 7 <+: window) :
    (∃ next, UsesAddress syscall kernel (pcAdd base front.length) window (form.instruction disp)
      next (pcAdd base target - 3)) ∧
    ∀ next, ¬ UsesAddress syscall kernel (pcAdd base front.length) window (form.instruction disp)
      next (pcAdd base target) := by
  obtain ⟨value, distance, low, high, rfl⟩ := patch_eq_some patched
  have size : ((form.instruction (BitVec.ofInt 32 value)).encoding (some rex)).length = 7 := by
    rw [form.encoding_eq, List.length_append, form.length_head, length_leBytes]
  have starts : (form.instruction (BitVec.ofInt 32 value)).encoding (some rex) <+: window := by
    rw [List.drop_left, List.take_left' size] at loaded
    exact loaded
  have extended := (form.extends_iff rex _ (BitVec.ofInt 32 value)).mp extend
  have uses : UsesAddress syscall kernel (pcAdd base front.length) window (form.instruction disp)
      (pcAdd (pcAdd base front.length) 7) (pcAdd base target - 3) := by
    intro cpu
    have counted := @usesAddress_counted _ _ (some rex) _ _ syscall kernel (pcAdd base front.length)
      extended starts (form.displacement_eq _) cpu
    rw [size, form.countedFrom_eq, signExtend_ofInt low high,
      patched_address base front.length target distance, (form.performedAt_eq _ disp _ _).1,
      (form.performedAt_eq _ disp _ cpu).2] at counted
    exact counted
  refine ⟨⟨_, uses⟩, fun next usesTarget => ?_⟩
  have same : pcAdd base target = pcAdd base target - 3 :=
    uses.unique (form.displacement_eq disp) usesTarget
  generalize pcAdd base target = address at same
  bv_omega

/-- `lea rsi, [rip]` at the start of a code, patched to lead to the byte behind one `NOP`. -/
theorem patch_usesAddress_lea :
    (∃ next, UsesAddress succeeds () 0x1000
        [0x48, 0x8D, 0x35, 0xFE, 0xFF, 0xFF, 0xFF, 0x90] (.lea .rsi 0) next 0x1005) ∧
      ∀ next, ¬ UsesAddress succeeds () 0x1000
        [0x48, 0x8D, 0x35, 0xFE, 0xFF, 0xFF, 0xFF, 0x90] (.lea .rsi 0) next 0x1008 := by
  have patched : patch ([] ++ (((Patched.lea .rsi).instruction 0).encoding
      (some ⟨true, false, false, false⟩) ++ [0x90])) 3 8 7 =
        some [0x48, 0x8D, 0x35, 0xFE, 0xFF, 0xFF, 0xFF, 0x90] := by decide
  have extend : ((Patched.lea .rsi).instruction 0).Extends ⟨true, false, false, false⟩ :=
    show false = Register.rsi.high by decide
  have uses := patch_usesAddress succeeds () 0x1000 extend patched
    (show _ <+: [0x48, 0x8D, 0x35, 0xFE, 0xFF, 0xFF, 0xFF, 0x90] from ⟨[0x90], by decide⟩)
  have start : pcAdd 0x1000 ([] : List UInt8).length = 0x1000 := by decide
  have last : pcAdd 0x1000 8 = 0x1008 := by decide
  have shifted : (0x1008 : BitVec 64) - 3 = 0x1005 := by decide
  rw [start, last, shifted] at uses
  exact uses

/-- It is to have the address 0x1008 when the code is at 0x1000, and gets 0x1005. -/
theorem patch_usesAddress_counterexample :
    patch [0x48, 0x8D, 0x35, 0, 0, 0, 0, 0x90] 3 8 7 =
        some [0x48, 0x8D, 0x35, 0xFE, 0xFF, 0xFF, 0xFF, 0x90] ∧
      executeInstruction succeeds () ⟨fun _ => 0, ⟨fun _ => 0, []⟩⟩
        0x1000 [0x48, 0x8D, 0x35, 0xFE, 0xFF, 0xFF, 0xFF, 0x90] =
          .ok (some 0x1007, Cpu.set ⟨fun _ => 0, ⟨fun _ => 0, []⟩⟩ .rsi 0x1005, ()) :=
  ⟨by decide, rfl⟩

end Displacements

end Aperture.Win32
