import Aperture.Machine.Word

/-!
# Painting loops

A loop that paints reads and writes one cell of its state at a time. `Paints` says of a computation
what it does to each cell, as a function of that cell's content alone. Computations that paint do so
one after the other and in loops, so what a nest of loops leaves in a cell is a fold over the rounds
that touch it.
-/

namespace Aperture.Machine

section Painting

variable {σ κ β ι : Type} {valid : σ → Prop} {cells : κ → Prop} {view : σ → κ → β}

/-- From every valid state a computation returns a valid one, and every cell changes by an effect of
its own. -/
def Paints (valid : σ → Prop) (cells : κ → Prop) (view : σ → κ → β) (run : σ → Except Panic σ)
    (effect : κ → β → β) : Prop :=
  ∀ state, valid state → ∃ next, run state = .ok next ∧ valid next ∧
    ∀ cell, cells cell → view next cell = effect cell (view state cell)

/-- A computation that returns its state leaves every cell as it is. -/
theorem Paints.unchanged {run : σ → Except Panic σ} (same : ∀ state, valid state → run state = .ok state) :
    Paints valid cells view run fun _ content => content :=
  fun state isValid => ⟨state, same state isValid, isValid, fun _ _ => rfl⟩

/-- Effects that agree on the cells are the same. -/
theorem Paints.congr {run : σ → Except Panic σ} {effect other : κ → β → β}
    (paints : Paints valid cells view run effect)
    (same : ∀ cell, cells cell → ∀ content, effect cell content = other cell content) :
    Paints valid cells view run other := by
  intro state isValid
  obtain ⟨next, returned, nextValid, changed⟩ := paints state isValid
  exact ⟨next, returned, nextValid, fun cell inside =>
    (changed cell inside).trans (same cell inside _)⟩

/-- One computation after another. -/
theorem Paints.bind {first second : σ → Except Panic σ} {effect later : κ → β → β}
    (paints : Paints valid cells view first effect) (next : Paints valid cells view second later) :
    Paints valid cells view (fun state => first state >>= second)
      fun cell content => later cell (effect cell content) := by
  intro state isValid
  obtain ⟨middle, returned, middleValid, changed⟩ := paints state isValid
  obtain ⟨last, ended, lastValid, changedAgain⟩ := next middle middleValid
  refine ⟨last, bind_eq_ok.mpr ⟨middle, returned, ended⟩, lastValid, fun cell inside => ?_⟩
  rw [changedAgain cell inside, changed cell inside]

/-- A loop of computations. -/
theorem Paints.foldlM {round : σ → ι → Except Panic σ} {effect : ι → κ → β → β} (items : List ι)
    (each : ∀ item ∈ items, Paints valid cells view (round · item) (effect item)) :
    Paints valid cells view (items.foldlM round)
      fun cell content => items.foldl (fun content item => effect item cell content) content := by
  induction items with
  | nil => exact Paints.unchanged fun state _ => rfl
  | cons item items ih =>
    have others := ih fun later member => each later (List.mem_cons_of_mem _ member)
    have first := each item List.mem_cons_self
    intro state isValid
    obtain ⟨last, returned, rest⟩ := first.bind others state isValid
    refine ⟨last, ?_, rest⟩
    simp only [List.foldlM_cons]
    exact returned

end Painting

section Stamping

variable {σ κ β ι : Type} {valid : σ → Prop} {view : σ → κ → β} {value : β}

/-- From every valid state a computation returns a valid one, with one value in the cells that are
hit and the others as they were. -/
def Stamps (valid : σ → Prop) (view : σ → κ → β) (value : β) (run : σ → Except Panic σ)
    (hit : κ → Prop) : Prop :=
  ∀ state, valid state → ∃ next, run state = .ok next ∧ valid next ∧
    ∀ cell, (hit cell → view next cell = value) ∧ (¬hit cell → view next cell = view state cell)

/-- A computation that returns its state hits nothing. -/
theorem Stamps.nothing {run : σ → Except Panic σ} {hit : κ → Prop}
    (same : ∀ state, valid state → run state = .ok state) (misses : ∀ cell, ¬hit cell) :
    Stamps valid view value run hit :=
  fun state isValid => ⟨state, same state isValid, isValid, fun cell =>
    ⟨fun isHit => absurd isHit (misses cell), fun _ => rfl⟩⟩

/-- Descriptions of the same cells. -/
theorem Stamps.congr {run : σ → Except Panic σ} {hit other : κ → Prop}
    (stamps : Stamps valid view value run hit) (same : ∀ cell, hit cell ↔ other cell) :
    Stamps valid view value run other := by
  have cells : hit = other := funext fun cell => propext (same cell)
  rwa [← cells]

/-- Two computations hit what one of them hits. -/
theorem Stamps.bind {first second : σ → Except Panic σ} {hit later : κ → Prop}
    (stamps : Stamps valid view value first hit) (next : Stamps valid view value second later) :
    Stamps valid view value (fun state => first state >>= second)
      fun cell => hit cell ∨ later cell := by
  intro state isValid
  obtain ⟨middle, returned, middleValid, changed⟩ := stamps state isValid
  obtain ⟨last, ended, lastValid, changedAgain⟩ := next middle middleValid
  refine ⟨last, bind_eq_ok.mpr ⟨middle, returned, ended⟩, lastValid, fun cell => ⟨?_, ?_⟩⟩
  · intro isHit
    by_cases again : later cell
    · exact (changedAgain cell).1 again
    · rw [(changedAgain cell).2 again]
      exact (changed cell).1 (isHit.resolve_right again)
  · intro missed
    rw [(changedAgain cell).2 fun again => missed (.inr again),
      (changed cell).2 fun isHit => missed (.inl isHit)]

/-- A loop hits what one of its rounds hits. -/
theorem Stamps.foldlM {round : σ → ι → Except Panic σ} {hit : ι → κ → Prop} (items : List ι)
    (each : ∀ item ∈ items, Stamps valid view value (round · item) (hit item)) :
    Stamps valid view value (items.foldlM round) fun cell => ∃ item ∈ items, hit item cell := by
  induction items with
  | nil => exact Stamps.nothing (fun state _ => rfl) (by simp)
  | cons item items ih =>
    have others := ih fun later member => each later (List.mem_cons_of_mem _ member)
    have both := (each item List.mem_cons_self).bind others
    simp only [List.foldlM_cons]
    exact both.congr fun cell => by rw [List.exists_mem_cons_iff]

end Stamping

/-! ## Loops that touch a cell -/

section Rounds

variable {α β ι : Type}

/-- A cell that one round of a loop touches is changed by that round. -/
theorem foldl_range_single {effect : Nat → β → β} {round : Nat} (count : Nat)
    (others : ∀ i < count, i ≠ round → ∀ content, effect i content = content) (content : β) :
    (List.range count).foldl (fun content i => effect i content) content =
      if round < count then effect round content else content := by
  induction count with
  | zero => rfl
  | succ count ih =>
    have before := ih fun i below => others i (Nat.lt_succ_of_lt below)
    rw [List.range_succ, List.foldl_append, before, List.foldl_cons, List.foldl_nil]
    by_cases isLast : round = count
    · rw [← isLast, if_neg (Nat.lt_irrefl _), if_pos (Nat.lt_succ_self _)]
    · rw [others count (Nat.lt_succ_self _) (Ne.symm isLast)]
      by_cases below : round < count
      · rw [if_pos below, if_pos (Nat.lt_succ_of_lt below)]
      · rw [if_neg below, if_neg (by omega)]

/-- A cell that no round touches stays as it is. -/
theorem foldl_untouched {effect : ι → β → β} {items : List ι}
    (untouched : ∀ item ∈ items, ∀ content, effect item content = content) (content : β) :
    items.foldl (fun content item => effect item content) content = content := by
  induction items with
  | nil => rfl
  | cons item items ih =>
    rw [List.foldl_cons, untouched item List.mem_cons_self]
    exact ih fun later member => untouched later (List.mem_cons_of_mem _ member)

/-- A cell that one round of two nested loops touches is changed by that round. -/
theorem foldl_grid {effect : β → β} {row column rows columns : Nat} (rowInside : row < rows)
    (columnInside : column < columns) (content : β) :
    (List.range rows).foldl (fun content i => (List.range columns).foldl (fun content j =>
      if i = row ∧ j = column then effect content else content) content) content =
      effect content := by
  have inner (i : Nat) (content : β) : (List.range columns).foldl (fun content j =>
      if i = row ∧ j = column then effect content else content) content =
      if i = row then effect content else content := by
    have single := @foldl_range_single β
      (fun j content => if i = row ∧ j = column then effect content else content) column columns
      (fun j _ other content => if_neg fun both => other both.2) content
    rw [single, if_pos columnInside]
    by_cases isRow : i = row
    · rw [if_pos ⟨isRow, rfl⟩, if_pos isRow]
    · rw [if_neg fun both => isRow both.1, if_neg isRow]
  simp only [inner]
  have single := @foldl_range_single β (fun i content => if i = row then effect content else content)
    row rows (fun i _ other content => if_neg other) content
  rw [single, if_pos rowInside, if_pos rfl]

/-- A cell that rounds put one value into has it when one of them does. -/
theorem foldl_stamp {hit : ι → Prop} [DecidablePred hit] {value : β} (items : List ι) (content : β) :
    items.foldl (fun content item => if hit item then value else content) content =
      if ∃ item ∈ items, hit item then value else content := by
  induction items generalizing content with
  | nil => simp
  | cons item items ih =>
    rw [List.foldl_cons, ih]
    by_cases first : hit item
    · simp [first]
    · simp [first]

/-- A loop may leave out items whose rounds change nothing. -/
theorem foldl_filter_of_skips {step : β → ι → β} {keeps : ι → Bool}
    (skips : ∀ content item, keeps item = false → step content item = content) (items : List ι)
    (content : β) : (items.filter keeps).foldl step content = items.foldl step content := by
  rw [List.foldl_filter]
  refine List.foldl_ext _ _ _ fun content item _ => ?_
  cases kept : keeps item with
  | true => rfl
  | false => exact (skips content item kept).symm

/-- When a loop returns, each of its rounds did. -/
theorem foldlM_rounds {σ : Type} {round : σ → ι → Except Panic σ} {items : List ι} {first last : σ}
    (returned : items.foldlM round first = .ok last) {item : ι} (member : item ∈ items) :
    ∃ before after, round before item = .ok after := by
  induction items generalizing first with
  | nil => cases member
  | cons head items ih =>
    rw [List.foldlM_cons] at returned
    obtain ⟨next, now, rest⟩ := bind_eq_ok.mp returned
    rcases List.mem_cons.mp member with rfl | later
    · exact ⟨first, next, now⟩
    · exact ih rest later

end Rounds

/-! ## Rows -/

section Rows

variable {stride height x y : Nat}

/-- A place of a picture that is stored row by row lies inside. -/
theorem place_lt (inside : x < stride) (row : y < height) : y * stride + x < stride * height := by
  have rows : (y + 1) * stride ≤ height * stride := Nat.mul_le_mul_right _ row
  rw [Nat.succ_mul] at rows
  rw [Nat.mul_comm stride]
  omega

/-- Different places are stored apart. -/
theorem place_inj {otherX otherY : Nat} (inside : x < stride) (otherInside : otherX < stride) :
    y * stride + x = otherY * stride + otherX ↔ x = otherX ∧ y = otherY := by
  constructor
  · intro same
    have columns := congrArg (· % stride) same
    simp only [Nat.mul_add_mod_self_right, Nat.mod_eq_of_lt inside,
      Nat.mod_eq_of_lt otherInside] at columns
    subst columns
    have rows : y * stride = otherY * stride := Nat.add_right_cancel same
    exact ⟨rfl, Nat.eq_of_mul_eq_mul_right (Nat.zero_lt_of_lt inside) rows⟩
  · rintro ⟨rfl, rfl⟩
    rfl

end Rows

end Aperture.Machine
