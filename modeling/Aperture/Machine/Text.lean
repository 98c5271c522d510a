import Mathlib.Data.List.DropRight

/-!
# Text between separators

A text is a list of units, bytes for a machine string. The operations are those of the standard
library on strings: trimming and splitting at a separator, and finding the last one. What they
have in common is the list of non-empty components between separators, so each operation has one
lemma about it. For bytes, UTF-8 is what `from_utf8` accepts, and cutting at an ASCII separator
keeps it on both sides.
-/

namespace Aperture.Machine

section Separators

variable {α : Type*} [DecidableEq α]

/-- `trim_matches`: the text without the separators at both ends. -/
def trimMatches (separator : α) (text : List α) : List α :=
  (text.dropWhile (· = separator)).rdropWhile (· = separator)

/-- `rfind`: the index of the last separator. -/
def rfind (separator : α) : List α → Option Nat
  | [] => none
  | unit :: rest =>
    match rfind separator rest with
    | some index => some (index + 1)
    | none => if unit = separator then some 0 else none

/-- The non-empty components between separators. -/
def components (separator : α) (text : List α) : List (List α) :=
  (text.splitOn separator).filter (· ≠ [])

/-- The empty text has no components. -/
@[simp]
theorem components_nil (separator : α) : components separator [] = [] := by
  simp [components]

/-- The components on both sides of a separator, in order. -/
theorem components_append_separator (separator : α) (front back : List α) :
    components separator (front ++ separator :: back) =
      components separator front ++ components separator back := by
  simp only [components, List.splitOn_append_cons_self, List.filter_append]

/-- A separator in front adds no component. -/
@[simp]
theorem components_separator_cons (separator : α) (text : List α) :
    components separator (separator :: text) = components separator text := by
  have split := components_append_separator separator [] text
  rwa [List.nil_append, components_nil, List.nil_append] at split

/-- A separator at the back adds no component. -/
theorem components_append_last (separator : α) (text : List α) :
    components separator (text ++ [separator]) = components separator text := by
  rw [components_append_separator, components_nil, List.append_nil]

/-- A text without separators is its own component, unless it is empty. -/
theorem components_of_not_mem {separator : α} {text : List α} (free : separator ∉ text) :
    components separator text = if text = [] then [] else [text] := by
  rw [components, List.splitOn_eq_singleton free]
  by_cases empty : text = [] <;> simp [empty]

/-- No component is empty. -/
theorem ne_nil_of_mem_components {separator : α} {text component : List α}
    (member : component ∈ components separator text) : component ≠ [] := by
  simpa using (List.mem_filter.mp member).2

/-- Trimming keeps the components. -/
theorem components_trimMatches (separator : α) (text : List α) :
    components separator (trimMatches separator text) = components separator text := by
  have back (text : List α) :
      components separator (text.rdropWhile (· = separator)) = components separator text := by
    induction text using List.reverseRecOn with
    | nil => rfl
    | append_singleton front last ih =>
      by_cases isSeparator : last = separator
      · rw [List.rdropWhile_concat_pos _ _ _ (by simpa using isSeparator), ih, isSeparator,
          components_append_last]
      · rw [List.rdropWhile_concat_neg _ _ _ (by simpa using isSeparator)]
  rw [trimMatches, back]
  induction text with
  | nil => rfl
  | cons unit rest ih =>
    by_cases isSeparator : unit = separator
    · rw [List.dropWhile_cons_of_pos (by simpa using isSeparator), ih, isSeparator,
        components_separator_cons]
    · rw [List.dropWhile_cons_of_neg (by simpa using isSeparator)]

/-- A search that fails finds no separator. -/
theorem rfind_eq_none {separator : α} {text : List α} (missing : rfind separator text = none) :
    separator ∉ text := by
  induction text with
  | nil => exact List.not_mem_nil
  | cons unit rest ih =>
    simp only [rfind] at missing
    cases found : rfind separator rest with
    | some index => simp [found] at missing
    | none =>
      rw [found] at missing
      simp only [ite_eq_right_iff, reduceCtorEq, imp_false] at missing
      rw [List.mem_cons, not_or]
      exact ⟨fun same => missing same.symm, ih found⟩

/-- A search that succeeds cuts the text at its last separator. -/
theorem rfind_eq_some {separator : α} {text : List α} {index : Nat}
    (found : rfind separator text = some index) :
    text = text.take index ++ separator :: text.drop (index + 1) ∧
      separator ∉ text.drop (index + 1) := by
  induction text generalizing index with
  | nil => cases found
  | cons unit rest ih =>
    simp only [rfind] at found
    cases later : rfind separator rest with
    | some last =>
      rw [later] at found
      obtain rfl := Option.some.inj found
      obtain ⟨cut, free⟩ := ih later
      refine ⟨?_, by simpa using free⟩
      rw [List.take_succ_cons, List.drop_succ_cons, List.cons_append, ← cut]
    | none =>
      rw [later] at found
      by_cases isSeparator : unit = separator
      · simp only [if_pos isSeparator, Option.some.injEq] at found
        subst found
        exact ⟨by simp [isSeparator], by simpa using rfind_eq_none later⟩
      · simp [if_neg isSeparator] at found

/-- Names without separators, joined by separators, are the components of the text. -/
theorem components_intercalate {separator : α} {names : List (List α)}
    (free : ∀ name ∈ names, separator ∉ name) (nonempty : ∀ name ∈ names, name ≠ []) :
    components separator ([separator].intercalate names) = names := by
  by_cases none : names = []
  · rw [none]
    exact components_nil separator
  · rw [components, List.splitOn_intercalate separator free none]
    exact List.filter_eq_self.mpr (by simpa using nonempty)

end Separators

/-! ## UTF-8 -/

/-- `from_utf8` accepts the bytes. -/
def validUtf8 (bytes : List UInt8) : Bool := bytes.toByteArray.validateUTF8

/-- Bytes are accepted exactly when they encode characters. -/
theorem validUtf8_iff {bytes : List UInt8} :
    validUtf8 bytes = true ↔ ∃ chars : List Char, bytes = chars.flatMap String.utf8EncodeChar := by
  rw [validUtf8, ByteArray.validateUTF8_eq_true_iff]
  constructor
  · rintro ⟨chars, encodes⟩
    exact ⟨chars, List.toByteArray_inj.mp encodes⟩
  · rintro ⟨chars, rfl⟩
    exact ⟨chars, rfl⟩

/-- An ASCII byte in a character's encoding is all of it. -/
theorem utf8EncodeChar_of_ascii {byte : UInt8} {char : Char} (ascii : byte.toNat < 128)
    (member : byte ∈ String.utf8EncodeChar char) : String.utf8EncodeChar char = [byte] := by
  have differs {unit : Nat} (high : 128 ≤ unit) (fits : unit < 256) : byte ≠ UInt8.ofNat unit := by
    rintro rfl
    rw [UInt8.toNat_ofNat_of_lt' fits] at ascii
    omega
  revert member
  fun_cases String.utf8EncodeChar with
  | case1 =>
    intro member
    rw [List.mem_singleton.mp member]
  | case2 =>
    intro member
    simp only [List.mem_cons, List.not_mem_nil, or_false] at member
    obtain isUnit | isUnit := member
    all_goals exact absurd isUnit (differs (by omega) (by omega))
  | case3 =>
    intro member
    simp only [List.mem_cons, List.not_mem_nil, or_false] at member
    obtain isUnit | isUnit | isUnit := member
    all_goals exact absurd isUnit (differs (by omega) (by omega))
  | case4 =>
    intro member
    simp only [List.mem_cons, List.not_mem_nil, or_false] at member
    obtain isUnit | isUnit | isUnit | isUnit := member
    all_goals exact absurd isUnit (differs (by omega) (by omega))

/-- An ASCII byte encodes a character. -/
theorem utf8EncodeChar_ofUInt8 {byte : UInt8} (ascii : byte.toNat < 128) :
    String.utf8EncodeChar (Char.ofUInt8 byte) = [byte] := by
  have same : (Char.ofUInt8 byte).val.toNat = byte.toNat := rfl
  unfold String.utf8EncodeChar
  simp only [same, if_pos (Nat.le_of_lt_succ ascii), UInt8.ofNat_toNat]

/-- Bytes around an ASCII separator encode characters exactly when both sides do. -/
theorem validUtf8_append_separator {separator : UInt8} (ascii : separator.toNat < 128)
    {front back : List UInt8} :
    validUtf8 (front ++ separator :: back) = true ↔
      validUtf8 front = true ∧ validUtf8 back = true := by
  simp only [validUtf8_iff]
  constructor
  · rintro ⟨chars, encodes⟩
    induction chars generalizing front with
    | nil => simp at encodes
    | cons char chars ih =>
      rw [List.flatMap_cons, eq_comm, List.append_eq_append_iff] at encodes
      obtain ⟨rest, rfl, remains⟩ | ⟨cut, inChar, remains⟩ := encodes
      · obtain ⟨⟨before, rfl⟩, after⟩ := ih remains.symm
        exact ⟨⟨char :: before, rfl⟩, after⟩
      · cases cut with
        | nil =>
          obtain ⟨-, after⟩ := @ih [] remains
          exact ⟨⟨[char], by simpa using inChar.symm⟩, after⟩
        | cons first cut =>
          obtain ⟨rfl, later⟩ := List.cons.inj remains
          have whole := utf8EncodeChar_of_ascii ascii (by rw [inChar]; simp)
          have lengths := congrArg List.length (whole.symm.trans inChar)
          simp only [List.length_append, List.length_cons, List.length_nil] at lengths
          obtain rfl := List.eq_nil_of_length_eq_zero (show front.length = 0 by omega)
          obtain rfl := List.eq_nil_of_length_eq_zero (show cut.length = 0 by omega)
          exact ⟨⟨[], rfl⟩, chars, later⟩
  · rintro ⟨⟨before, rfl⟩, after, rfl⟩
    refine ⟨before ++ Char.ofUInt8 separator :: after, ?_⟩
    rw [List.flatMap_append, List.flatMap_cons, utf8EncodeChar_ofUInt8 ascii, List.singleton_append]

end Aperture.Machine
