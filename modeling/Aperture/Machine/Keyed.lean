import Aperture.Machine.Word

/-!
# Tables whose entries are found by a key

A table has slots, some of them with an entry, and a change is made to the first entry that has a
given key. Changes that keep the keys find the same entry again, so changes one after the other, and
loops of them, are one change of that entry.
-/

namespace Aperture.Machine

variable {α κ ι : Type} [DecidableEq κ] {key : α → κ} {id : κ}

/-- The table with the first entry that has the key replaced by what is made of it. Without such an
entry it stays as it is. -/
def updateEntry (key : α → κ) (id : κ) (change : α → Except Panic α) :
    List (Option α) → Except Panic (List (Option α))
  | [] => return []
  | none :: rest => do
    let rest ← updateEntry key id change rest
    return none :: rest
  | some entry :: rest =>
    if key entry = id then do
      let changed ← change entry
      return some changed :: rest
    else do
      let rest ← updateEntry key id change rest
      return some entry :: rest

/-- A change that keeps the keys. -/
def KeepsKey (key : α → κ) (change : α → Except Panic α) : Prop :=
  ∀ before after, change before = .ok after → key after = key before

variable {change first second : α → Except Panic α} {table after : List (Option α)}

/-- There are as many slots as before. -/
theorem length_updateEntry (returned : updateEntry key id change table = .ok after) :
    after.length = table.length := by
  induction table generalizing after with
  | nil =>
    obtain rfl := pure_eq_ok.mp returned
    rfl
  | cons slot rest ih =>
    cases slot with
    | none =>
      obtain ⟨others, changed, returned⟩ := bind_eq_ok.mp returned
      obtain rfl := pure_eq_ok.mp returned
      rw [List.length_cons, List.length_cons, ih changed]
    | some entry =>
      rw [updateEntry] at returned
      split at returned
      · obtain ⟨other, _, returned⟩ := bind_eq_ok.mp returned
        obtain rfl := pure_eq_ok.mp returned
        rfl
      · obtain ⟨others, changed, returned⟩ := bind_eq_ok.mp returned
        obtain rfl := pure_eq_ok.mp returned
        rw [List.length_cons, List.length_cons, ih changed]

/-- The entry that is changed is the first one with the key. -/
theorem updateEntry_at {front back : List (Option α)} {entry : α} (found : key entry = id)
    (others : ∀ other, some other ∈ front → key other ≠ id) :
    updateEntry key id change (front ++ some entry :: back) =
      (change entry).map fun changed => front ++ some changed :: back := by
  induction front with
  | nil =>
    rw [List.nil_append, updateEntry, if_pos found]
    cases change entry <;> rfl
  | cons slot front ih =>
    have rest := ih fun other member => others other (List.mem_cons_of_mem _ member)
    cases slot with
    | none =>
      rw [List.cons_append, updateEntry, rest]
      cases change entry <;> rfl
    | some other =>
      rw [List.cons_append, updateEntry, if_neg (others other List.mem_cons_self), rest]
      cases change entry <;> rfl

/-- Without an entry that has the key nothing changes. -/
theorem updateEntry_missing (missing : ∀ entry, some entry ∈ table → key entry ≠ id) :
    updateEntry key id change table = .ok table := by
  induction table with
  | nil => rfl
  | cons slot rest ih =>
    have others := ih fun entry member => missing entry (List.mem_cons_of_mem _ member)
    cases slot with
    | none =>
      rw [updateEntry, others]
      rfl
    | some entry =>
      rw [updateEntry, if_neg (missing entry List.mem_cons_self), others]
      rfl

/-- An entry has the key, or none has. -/
theorem exists_entry_or_missing (key : α → κ) (id : κ) (table : List (Option α)) :
    (∃ front entry back, table = front ++ some entry :: back ∧ key entry = id ∧
      ∀ other, some other ∈ front → key other ≠ id) ∨
      ∀ entry, some entry ∈ table → key entry ≠ id := by
  induction table with
  | nil => exact .inr fun entry member => absurd member List.not_mem_nil
  | cons slot rest ih =>
    by_cases here : ∃ entry, slot = some entry ∧ key entry = id
    · obtain ⟨entry, rfl, found⟩ := here
      exact .inl ⟨[], entry, rest, rfl, found, fun other member => absurd member List.not_mem_nil⟩
    · have differs (other : α) (same : some other = slot) : key other ≠ id :=
        fun found => here ⟨other, same.symm, found⟩
      rcases ih with ⟨front, entry, back, rfl, found, others⟩ | missing
      · refine .inl ⟨slot :: front, entry, back, rfl, found, fun other member => ?_⟩
        rcases List.mem_cons.mp member with same | later
        · exact differs other same
        · exact others other later
      · refine .inr fun other member => ?_
        rcases List.mem_cons.mp member with same | later
        · exact differs other same
        · exact missing other later

/-- Two changes one after the other are one change. -/
theorem updateEntry_bind (keeps : KeepsKey key first) :
    (updateEntry key id first table >>= updateEntry key id second) =
      updateEntry key id (fun entry => first entry >>= second) table := by
  rcases exists_entry_or_missing key id table with ⟨front, entry, back, rfl, found, others⟩ | missing
  · rw [updateEntry_at found others, updateEntry_at found others]
    cases changed : first entry with
    | error reason => rfl
    | ok next =>
      have again : key next = id := (keeps _ _ changed).trans found
      change updateEntry key id second (front ++ some next :: back) = _
      rw [updateEntry_at again others]
      rfl
  · rw [updateEntry_missing missing, updateEntry_missing missing, ok_bind,
      updateEntry_missing missing]

/-- A change that returns the entry returns the table. -/
theorem updateEntry_pure : updateEntry key id pure table = .ok table := by
  rcases exists_entry_or_missing key id table with ⟨front, entry, back, rfl, found, others⟩ | missing
  · rw [updateEntry_at found others]
    rfl
  · exact updateEntry_missing missing

/-! ## Entries in the order of their keys -/

section Numbered

variable {entries : List α} {free : Nat} {number : Nat → κ}

/-- In a table that is filled in the order of the keys the entry with a key is at its place. -/
theorem updateEntry_numbered (injective : Function.Injective number)
    (numbered : ∀ i entry, entries[i]? = some entry → key entry = number i) {i : Nat} {entry : α}
    (there : entries[i]? = some entry) :
    updateEntry key (number i) change (entries.map some ++ List.replicate free none) =
      (change entry).map fun changed =>
        (entries.set i changed).map some ++ List.replicate free none := by
  obtain ⟨inside, entry_eq⟩ := List.getElem?_eq_some_iff.mp there
  have size : ((entries.take i).map some).length = i := by
    rw [List.length_map, List.length_take]
    omega
  have around (slot : Option α) : (entries.map some).set i slot ++ List.replicate free none =
      (entries.take i).map some ++
        slot :: ((entries.drop (i + 1)).map some ++ List.replicate free none) := by
    rw [List.set_eq_take_append_cons_drop, if_pos (by rwa [List.length_map]), List.append_assoc,
      List.map_take, List.map_drop]
    rfl
  have split : entries.map some ++ List.replicate free none = (entries.take i).map some ++
      some entry :: ((entries.drop (i + 1)).map some ++ List.replicate free none) := by
    have same : (entries.map some).set i (some entry) = entries.map some := by
      rw [← List.map_set, ← entry_eq, List.set_getElem_self]
    rw [← same]
    exact around (some entry)
  have others (other : α) (member : some other ∈ (entries.take i).map some) :
      key other ≠ number i := by
    obtain ⟨found, inFront, same⟩ := List.mem_map.mp member
    obtain rfl := Option.some.inj same
    obtain ⟨j, here⟩ := List.mem_iff_getElem?.mp inFront
    have before : j < i := by
      have bound := (List.getElem?_eq_some_iff.mp here).1
      rw [List.length_take] at bound
      omega
    rw [List.getElem?_take_of_lt before] at here
    rw [numbered j _ here]
    exact fun equal => absurd (injective equal) (by omega)
  rw [split, updateEntry_at (numbered i entry there) others]
  congr 1
  funext changed
  rw [List.map_set]
  exact (around (some changed)).symm

/-- A key that no entry has changes nothing there. -/
theorem updateEntry_unnumbered
    (numbered : ∀ i entry, entries[i]? = some entry → key entry = number i)
    (missing : ∀ i < entries.length, number i ≠ id) :
    updateEntry key id change (entries.map some ++ List.replicate free none) =
      .ok (entries.map some ++ List.replicate free none) := by
  apply updateEntry_missing
  intro entry member
  rcases List.mem_append.mp member with inEntries | inFree
  · obtain ⟨found, taken, same⟩ := List.mem_map.mp inEntries
    obtain rfl := Option.some.inj same
    obtain ⟨i, here⟩ := List.mem_iff_getElem?.mp taken
    rw [numbered i _ here]
    exact missing i (List.getElem?_eq_some_iff.mp here).1
  · cases (List.mem_replicate.mp inFree).2

end Numbered

end Aperture.Machine
