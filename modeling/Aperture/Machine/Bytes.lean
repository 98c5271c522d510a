import Aperture.Machine.Word

/-!
# Byte strings

Slices of a byte string with the bounds check of the source language, and the
little-endian numbers read from them. `leAt` is the number at an offset without
the check; a checked read returns it exactly when the bytes lie inside.
-/

namespace Aperture.Machine

/-- The number with the given little-endian bytes. -/
def leNat : List UInt8 → Nat
  | [] => 0
  | byte :: rest => byte.toNat + 256 * leNat rest

/-- `length` bytes have a value below `256 ^ length`. -/
theorem leNat_lt (bytes : List UInt8) : leNat bytes < 256 ^ bytes.length := by
  induction bytes with
  | nil => decide
  | cons byte rest ih =>
    have small := byte.toNat_lt
    rw [leNat, List.length_cons, Nat.pow_succ]
    omega

/-- The little-endian number of `size` bytes at an offset. -/
def leAt (data : List UInt8) (offset size : Nat) : Nat := leNat ((data.drop offset).take size)

/-- A number of `size` bytes is below `256 ^ size`. -/
theorem leAt_lt (data : List UInt8) (offset size : Nat) : leAt data offset size < 256 ^ size := by
  have below := leNat_lt ((data.drop offset).take size)
  have shorter : 256 ^ ((data.drop offset).take size).length ≤ 256 ^ size :=
    Nat.pow_le_pow_right (by decide) (List.length_take_le _ _)
  exact Nat.lt_of_lt_of_le below shorter

/-- The little-endian bytes of a number. -/
def leBytes : Nat → Nat → List UInt8
  | 0, _ => []
  | count + 1, value => UInt8.ofNat value :: leBytes count (value / 256)

/-- There are as many as asked for. -/
@[simp]
theorem length_leBytes (count value : Nat) : (leBytes count value).length = count := by
  induction count generalizing value with
  | zero => rfl
  | succ count ih => rw [leBytes, List.length_cons, ih]

/-- They are the bytes of the number, when it is small enough. -/
theorem leNat_leBytes (count value : Nat) (fits : value < 256 ^ count) :
    leNat (leBytes count value) = value := by
  induction count generalizing value with
  | zero =>
    rw [Nat.pow_zero] at fits
    have zero : value = 0 := by omega
    rw [zero]
    rfl
  | succ count ih =>
    rw [Nat.pow_succ] at fits
    have quotient : value / 256 < 256 ^ count := Nat.div_lt_of_lt_mul (by omega)
    rw [leBytes, leNat, ih (value / 256) quotient, UInt8.toNat_ofNat']
    omega

/-- Bytes are the little-endian bytes of the number they make. -/
theorem leBytes_leNat (bytes : List UInt8) : leBytes bytes.length (leNat bytes) = bytes := by
  induction bytes with
  | nil => rfl
  | cons byte rest ih =>
    have small := byte.toNat_lt
    have quotient : (byte.toNat + 256 * leNat rest) / 256 = leNat rest := by omega
    have first : UInt8.ofNat (byte.toNat + 256 * leNat rest) = byte := by
      apply UInt8.toNat_inj.mp
      rw [UInt8.toNat_ofNat']
      omega
    rw [List.length_cons, leNat, leBytes, quotient, first, ih]

/-- Enough bytes begin with those of a number. -/
theorem exists_leBytes {rest : List UInt8} (size : Nat) (enough : size ≤ rest.length) :
    ∃ value : BitVec (8 * size), rest = leBytes size value.toNat ++ rest.drop size := by
  have length : (rest.take size).length = size := by
    rw [List.length_take]
    omega
  have small : leNat (rest.take size) < 2 ^ (8 * size) := by
    have below := leNat_lt (rest.take size)
    rw [length] at below
    rw [Nat.pow_mul]
    exact below
  have bytes := leBytes_leNat (rest.take size)
  rw [length] at bytes
  refine ⟨BitVec.ofNat _ (leNat (rest.take size)), ?_⟩
  rw [BitVec.toNat_ofNat, Nat.mod_eq_of_lt small, bytes, List.take_append_drop]

/-- Bytes inside the front of a string are read from it. -/
theorem leAt_append_left {front back : List UInt8} {offset size : Nat}
    (inside : offset + size ≤ front.length) :
    leAt (front ++ back) offset size = leAt front offset size := by
  rw [leAt, leAt, List.drop_append_of_le_length (by omega),
    List.take_append_of_le_length (by rw [List.length_drop]; omega)]

/-- Bytes at an offset behind another one. -/
theorem leAt_add (data : List UInt8) (base offset size : Nat) :
    leAt data (base + offset) size = leAt (data.drop base) offset size := by
  rw [leAt, leAt, List.drop_drop]

/-- A number that is one field of a record is read back at the field's offset. -/
theorem leAt_record (before : List (List UInt8)) {after : List (List UInt8)}
    {size value offset : Nat} (fits : value < 256 ^ size)
    (placed : (before.map List.length).sum = offset) :
    leAt (before ++ leBytes size value :: after).flatten offset size = value := by
  rw [← List.length_flatten] at placed
  rw [← placed, ← Nat.add_zero before.flatten.length, leAt_add, List.flatten_append,
    List.drop_left, List.flatten_cons, leAt_append_left (by rw [length_leBytes, Nat.zero_add]),
    leAt, List.drop_zero, List.take_of_length_le (by rw [length_leBytes]),
    leNat_leBytes size value fits]

/-- A table of entries of one size, from entry `i` on. -/
theorem drop_flatMap {α β : Type} {encode : α → List β} {size : Nat}
    (fixed : ∀ item, (encode item).length = size) (items : List α) (i : Nat) :
    (items.flatMap encode).drop (size * i) = (items.drop i).flatMap encode := by
  induction i generalizing items with
  | zero => rw [Nat.mul_zero, List.drop_zero, List.drop_zero]
  | succ i ih =>
    cases items with
    | nil => simp
    | cons item rest =>
      have later : size * (i + 1) = (encode item).length + size * i := by
        rw [fixed, Nat.mul_succ, Nat.add_comm]
      rw [List.flatMap_cons, later, List.drop_length_add_append, ih rest, List.drop_succ_cons]

/-- Size of a table. -/
theorem length_flatMap_fixed {α β : Type} {encode : α → List β} {size : Nat}
    (fixed : ∀ item, (encode item).length = size) (items : List α) :
    (items.flatMap encode).length = size * items.length := by
  induction items with
  | nil => rfl
  | cons item rest ih =>
    rw [List.flatMap_cons, List.length_append, fixed, ih, List.length_cons, Nat.mul_succ,
      Nat.add_comm]

/-- `data[first..last]`. -/
def slice (data : List UInt8) (first last : Nat) : Except Panic (List UInt8) :=
  if first ≤ last ∧ last ≤ data.length then .ok ((data.drop first).take (last - first))
  else .error .outOfRange

/-- `from_le_bytes(data[base + offset..base + offset + size])`. -/
def field (data : List UInt8) (base offset size : Nat) : Except Panic Nat := do
  let first ← add64 base offset
  let last ← add64 base (offset + size)
  let bytes ← slice data first last
  pure (leNat bytes)

/-- A field read panics exactly when the field does not end inside the data. -/
theorem field_eq (data : List UInt8) {base : Nat} (offset size : Nat)
    (fits : base + (offset + size) < wordSize) :
    field data base offset size =
      if base + (offset + size) ≤ data.length then .ok (leAt data (base + offset) size)
      else .error .outOfRange := by
  have first : add64 base offset = .ok (base + offset) := add64_eq_ok.mpr ⟨by omega, rfl⟩
  have last : add64 base (offset + size) = .ok (base + (offset + size)) :=
    add64_eq_ok.mpr ⟨fits, rfl⟩
  have length : base + (offset + size) - (base + offset) = size := by omega
  have ordered : base + offset ≤ base + (offset + size) := by omega
  simp only [field, first, last, ok_bind, slice, length, ordered, true_and]
  split
  · rfl
  · rfl

/-- A field inside the data is read. -/
theorem field_inside {data : List UInt8} {base offset size : Nat}
    (fits : base + (offset + size) < wordSize) (inside : base + (offset + size) ≤ data.length) :
    field data base offset size = .ok (leAt data (base + offset) size) := by
  rw [field_eq data offset size fits, if_pos inside]

/-! ## Overwriting -/

section Overwrite

variable {α : Type} {old bytes : List α} {offset : Nat}

/-- The string with `bytes` in place of what lies at the offset, longer if they end past it. -/
def overwrite (old : List α) (offset : Nat) (bytes : List α) : List α :=
  old.take offset ++ bytes ++ old.drop (offset + bytes.length)

/-- Overwriting with nothing changes nothing. -/
theorem overwrite_nil (old : List α) (offset : Nat) : overwrite old offset [] = old := by
  simp [overwrite]

/-- Length after overwriting. -/
theorem length_overwrite (fits : offset ≤ old.length) :
    (overwrite old offset bytes).length = max old.length (offset + bytes.length) := by
  simp only [overwrite, List.length_append, List.length_take, List.length_drop]
  omega

/-- Each element after overwriting. -/
theorem getElem?_overwrite (fits : offset ≤ old.length) (i : Nat) :
    (overwrite old offset bytes)[i]? =
      if offset ≤ i ∧ i < offset + bytes.length then bytes[i - offset]? else old[i]? := by
  have taken : (old.take offset).length = offset := by
    rw [List.length_take]
    omega
  unfold overwrite
  by_cases before : i < offset
  · rw [List.append_assoc, List.getElem?_append_left (by omega), if_neg (by omega),
      List.getElem?_take_of_lt before]
  · by_cases inside : i < offset + bytes.length
    · rw [List.append_assoc, List.getElem?_append_right (by omega),
        List.getElem?_append_left (by omega), if_pos ⟨by omega, inside⟩, taken]
    · have beyond : (old.take offset ++ bytes).length ≤ i := by
        rw [List.length_append]
        omega
      rw [List.getElem?_append_right beyond, if_neg (by omega), List.getElem?_drop]
      congr 1
      rw [List.length_append] at beyond ⊢
      omega

/-- Overwriting twice in sequence is overwriting once. -/
theorem overwrite_append (fits : offset ≤ old.length) (more : List α) :
    overwrite (overwrite old offset bytes) (offset + bytes.length) more =
      overwrite old offset (bytes ++ more) := by
  have fitsAfter : offset + bytes.length ≤ (overwrite old offset bytes).length := by
    rw [length_overwrite fits]
    omega
  apply List.ext_getElem?
  intro i
  rw [getElem?_overwrite fitsAfter, getElem?_overwrite fits, getElem?_overwrite fits,
    List.length_append]
  by_cases before : i < offset + bytes.length
  · rw [if_neg (by omega), List.getElem?_append]
    by_cases inside : offset ≤ i
    · rw [if_pos ⟨inside, before⟩, if_pos ⟨inside, by omega⟩, if_pos (by omega)]
    · rw [if_neg (by omega), if_neg (by omega)]
  · by_cases inside : i < offset + bytes.length + more.length
    · rw [if_pos ⟨by omega, inside⟩, if_pos ⟨by omega, by omega⟩,
        List.getElem?_append_right (by omega)]
      congr 1
      omega
    · rw [if_neg (by omega), if_neg (by omega), if_neg (by omega)]

end Overwrite

end Aperture.Machine
