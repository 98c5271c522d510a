import Aperture.Vfs.Operations

/-!
# The tree of nodes

Nodes name their parent and `lookup` follows names down from the root. The tree invariant says
that the two directions agree: every node reaches the root through nodes with names of their own,
and the path of these names leads back to it. Names that are no UTF-8 are exempt, since
`name_str` hides them from every search.
-/

namespace Aperture.Vfs.FileSystem

open Machine

variable {fs after : FileSystem}

/-! ## Searching -/

/-- Follow names from a node down. -/
def walk (fs : FileSystem) (start : Nat) (names : List (List UInt8)) : Option Nat :=
  names.foldlM fs.findChild start

/-- Skipping empty components is following the others. -/
theorem foldlM_lookupComponent (fs : FileSystem) (start : Nat) (pieces : List (List UInt8)) :
    pieces.foldlM fs.lookupComponent start = fs.walk start (pieces.filter (· ≠ [])) := by
  induction pieces generalizing start with
  | nil => rfl
  | cons piece pieces ih =>
    rw [List.foldlM_cons]
    by_cases empty : piece = []
    · rw [lookupComponent, if_pos empty, List.filter_cons_of_neg (by simpa using empty)]
      exact ih start
    · rw [lookupComponent, if_neg empty, List.filter_cons_of_pos (by simpa using empty), walk,
        List.foldlM_cons]
      cases fs.findChild start piece with
      | none => rfl
      | some child => exact ih child

/-- A lookup follows the components of its path from the root. -/
theorem lookup_eq_walk (fs : FileSystem) (path : List UInt8) :
    fs.lookup path = fs.walk 0 (components slash path) := by
  rw [← components_trimMatches]
  unfold lookup
  by_cases empty : trimMatches slash path = []
  · simp only [empty, if_true, components_nil]
    rfl
  · simp only [empty, if_false, foldlM_lookupComponent]
    rfl

/-- The last name is looked for in the node that the names before it lead to. -/
theorem walk_append_singleton (fs : FileSystem) (start : Nat) (names : List (List UInt8))
    (name : List UInt8) :
    fs.walk start (names ++ [name]) = (fs.walk start names).bind (fs.findChild · name) := by
  unfold walk
  rw [List.foldlM_append]
  cases names.foldlM fs.findChild start with
  | none => rfl
  | some node => simp

/-- A child that is found has that parent and shows that name. -/
theorem findChild_eq_some {above child : Nat} {name : List UInt8}
    (found : fs.findChild above name = some child) :
    child < maxNodes ∧ ∃ node, fs.nodes child = some node ∧ node.parent = some above ∧
      node.nameStr = name := by
  obtain ⟨inside, matched, _⟩ := position_eq_some.mp found
  refine ⟨inside, ?_⟩
  cases stored : fs.nodes child with
  | none => simp [stored] at matched
  | some node =>
    simp only [stored, Bool.and_eq_true, decide_eq_true_eq] at matched
    exact ⟨node, rfl, matched⟩

/-- No child is found exactly when no node has that parent and shows that name. -/
theorem findChild_eq_none {above : Nat} {name : List UInt8} :
    fs.findChild above name = none ↔ ∀ child < maxNodes, ∀ node, fs.nodes child = some node →
      node.parent = some above → node.nameStr ≠ name := by
  rw [findChild, position_eq_none]
  constructor
  · intro missing child inside node stored isChild shows
    have differs := missing child inside
    simp [stored, isChild, shows] at differs
  · intro missing child inside
    cases stored : fs.nodes child with
    | none => rfl
    | some node =>
      have differs := missing child inside node stored
      simpa [stored] using differs

/-! ## The invariant -/

/-- Parent links lead from a node to the root through nodes with these names, outermost first. -/
inductive Named (fs : FileSystem) : List (List UInt8) → Nat → Prop
  /-- The root is not named by anything. -/
  | root : Named fs [] 0
  /-- A node is named after the node it is in. -/
  | child {names : List (List UInt8)} {above node : Nat} {kind : NodeKind} {name : List UInt8}
      (parent : Named fs names above) (stored : fs.nodes node = some ⟨kind, some above, name⟩) :
      Named fs (names ++ [name]) node

/-- The nodes form a tree of named nodes under the root. -/
structure Tree (fs : FileSystem) : Prop where
  /-- The root directory is at node 0. -/
  root : fs.nodes 0 = some ⟨.directory, none, [slash]⟩
  /-- Nodes are in the table. -/
  inside : ∀ i node, fs.nodes i = some node → i < maxNodes
  /-- Names of the others are components of paths. -/
  component : ∀ i node, fs.nodes i = some node → i ≠ 0 → node.name ≠ [] ∧ slash ∉ node.name
  /-- A directory has no two children with the same name that is UTF-8. -/
  unique : ∀ i j node other, fs.nodes i = some node → fs.nodes j = some other →
    node.parent = other.parent → node.name = other.name → validUtf8 node.name = true → i = j
  /-- Every node reaches the root. -/
  reaches : ∀ i, (fs.nodes i).isSome = true → ∃ names, Named fs names i

/-- `init` stores the root directory and no other node. -/
theorem init_nodes {memory : PhysMem} {i : Nat} {node : Node}
    (stored : (init memory).nodes i = some node) :
    i = 0 ∧ node = ⟨.directory, none, [slash]⟩ := by
  by_cases isRoot : i = 0
  · subst isRoot
    exact ⟨rfl, (Option.some.inj stored).symm⟩
  · simp [init, isRoot] at stored

/-- The root alone is a tree. -/
theorem tree_init (memory : PhysMem) : (init memory).Tree := by
  have only {i : Nat} {node : Node} (stored : (init memory).nodes i = some node) :=
    init_nodes stored
  constructor
  · rfl
  · intro i node stored
    rw [(only stored).1]
    decide
  · intro i node stored isOther
    exact absurd (only stored).1 isOther
  · intro i j node other stored otherStored _ _ _
    rw [(only stored).1, (only otherStored).1]
  · intro i stored
    obtain ⟨node, stored⟩ := Option.isSome_iff_exists.mp stored
    rw [(only stored).1]
    exact ⟨[], .root⟩

/-- Nodes that stay keep their names. -/
theorem Named.mono {names : List (List UInt8)} {node : Nat} (named : Named fs names node)
    (kept : ∀ i stored, fs.nodes i = some stored → after.nodes i = some stored) :
    Named after names node := by
  induction named with
  | root => exact .root
  | child _ stored ih => exact .child ih (kept _ _ stored)

/-- Only the root has no names. -/
theorem Named.eq_root {node : Nat} (named : Named fs [] node) : node = 0 := by
  generalize empty : ([] : List (List UInt8)) = names at named
  cases named with
  | root => rfl
  | child => simp at empty

/-- The last name is the node's own, in the node that the others name. -/
theorem Named.last {names : List (List UInt8)} {name : List UInt8} {node : Nat}
    (named : Named fs (names ++ [name]) node) :
    ∃ above kind, Named fs names above ∧ fs.nodes node = some ⟨kind, some above, name⟩ := by
  generalize whole : names ++ [name] = list at named
  cases named with
  | root => simp at whole
  | child parent stored =>
    obtain ⟨rfl, same⟩ := List.append_inj' whole rfl
    obtain rfl := List.singleton_inj.mp same
    exact ⟨_, _, parent, stored⟩

namespace Tree

variable {names others : List (List UInt8)} {node above : Nat} {name : List UInt8}
  {kind : NodeKind}

/-- The tree depends on the nodes alone. -/
theorem congr (tree : fs.Tree) (same : after.nodes = fs.nodes) : after.Tree := by
  constructor
  · rw [same]
    exact tree.root
  · rw [same]
    exact tree.inside
  · rw [same]
    exact tree.component
  · rw [same]
    exact tree.unique
  · intro i stored
    rw [same] at stored
    obtain ⟨names, named⟩ := tree.reaches i stored
    exact ⟨names, named.mono fun i stored was => by rw [same, was]⟩

/-- A node has one list of names. -/
theorem named_unique (tree : fs.Tree) (named : Named fs names node)
    (also : Named fs others node) : names = others := by
  induction named generalizing others with
  | root =>
    cases also with
    | root => rfl
    | child _ stored => simp [tree.root] at stored
  | child _ stored ih =>
    cases also with
    | root => simp [tree.root] at stored
    | child parent also =>
      rw [stored] at also
      obtain ⟨_, rfl, rfl⟩ : _ ∧ _ ∧ _ := by simpa using also
      rw [ih parent]

/-- A UTF-8 child is found under its name. -/
theorem findChild_of_stored (tree : fs.Tree)
    (stored : fs.nodes node = some ⟨kind, some above, name⟩) (valid : validUtf8 name = true) :
    fs.findChild above name = some node := by
  cases found : fs.findChild above name with
  | none =>
    exact absurd (Node.nameStr_of_valid valid)
      (findChild_eq_none.mp found node (tree.inside _ _ stored) _ stored rfl)
  | some child =>
    obtain ⟨_, other, otherStored, isChild, shows⟩ := findChild_eq_some found
    have isOther : node ≠ 0 := by
      rintro rfl
      simp [tree.root] at stored
    have nonempty := (tree.component _ _ stored isOther).1
    have otherValid := Node.valid_of_nameStr (show other.nameStr ≠ [] by rwa [shows])
    rw [Node.nameStr_of_valid otherValid] at shows
    rw [tree.unique _ _ _ _ otherStored stored isChild shows otherValid]

/-- Following names leads to a node exactly when they name it and are UTF-8. -/
theorem walk_eq_some_iff (tree : fs.Tree) (nonempty : ∀ name ∈ names, name ≠ []) :
    fs.walk 0 names = some node ↔
      Named fs names node ∧ ∀ name ∈ names, validUtf8 name = true := by
  induction names using List.reverseRecOn generalizing node with
  | nil =>
    constructor
    · intro found
      obtain rfl := Option.some.inj found
      exact ⟨.root, by simp⟩
    · rintro ⟨named, -⟩
      rw [named.eq_root]
      rfl
  | append_singleton names name ih =>
    simp only [List.mem_append, List.mem_singleton] at nonempty ⊢
    have outer := fun above => @ih above fun name member => nonempty name (.inl member)
    rw [walk_append_singleton, Option.bind_eq_some_iff]
    constructor
    · rintro ⟨above, found, isChild⟩
      obtain ⟨named, valid⟩ := (outer above).mp found
      obtain ⟨_, stored, isStored, parent, shows⟩ := findChild_eq_some isChild
      have lastValid := Node.valid_of_nameStr
        (show stored.nameStr ≠ [] from shows ▸ nonempty name (.inr rfl))
      rw [Node.nameStr_of_valid lastValid] at shows
      obtain ⟨kind, _, _⟩ := stored
      obtain rfl : _ = _ := parent
      obtain rfl : _ = _ := shows
      refine ⟨.child named isStored, fun name member => ?_⟩
      obtain member | rfl := member
      · exact valid name member
      · exact lastValid
    · rintro ⟨named, valid⟩
      obtain ⟨above, kind, parent, stored⟩ := named.last
      exact ⟨above, (outer above).mpr ⟨parent, fun name member => valid name (.inl member)⟩,
        tree.findChild_of_stored stored (valid name (.inr rfl))⟩

/-- What a lookup finds is a node. -/
theorem isSome_of_named (tree : fs.Tree) (named : Named fs names node) :
    (fs.nodes node).isSome = true := by
  cases named with
  | root => rw [tree.root]; rfl
  | child _ stored => rw [stored]; rfl

/-- A lookup finds the node that the components of its path name, when they are UTF-8. -/
theorem lookup_eq_some_iff (tree : fs.Tree) {path : List UInt8} :
    fs.lookup path = some node ↔ Named fs (components slash path) node ∧
      ∀ name ∈ components slash path, validUtf8 name = true := by
  rw [lookup_eq_walk]
  exact tree.walk_eq_some_iff fun _ member => ne_nil_of_mem_components member

/-- The names of a node are components of paths. -/
theorem component_of_named (tree : fs.Tree) (named : Named fs names node) :
    ∀ name ∈ names, name ≠ [] ∧ slash ∉ name := by
  induction named with
  | root => simp
  | @child names above node kind name parent stored ih =>
    have isOther : node ≠ 0 := by
      rintro rfl
      simp [tree.root] at stored
    intro other member
    rw [List.mem_append, List.mem_singleton] at member
    obtain member | rfl := member
    · exact ih other member
    · exact tree.component _ _ stored isOther

/-- The path of a node's names leads to the node, when they are UTF-8. -/
theorem lookup_intercalate (tree : fs.Tree) (named : Named fs names node)
    (valid : ∀ name ∈ names, validUtf8 name = true) :
    fs.lookup ([slash].intercalate names) = some node := by
  have component := tree.component_of_named named
  rw [tree.lookup_eq_some_iff, components_intercalate (fun name member => (component name member).2)
    fun name member => (component name member).1]
  exact ⟨named, valid⟩

/-- A new node under a node of the tree, with a name of its own, makes a tree. -/
theorem insert (tree : fs.Tree) {slot : Nat} (isNode : (fs.nodes above).isSome = true)
    (nonempty : name ≠ []) (free : slash ∉ name) (missing : fs.findChild above name = none)
    (first : (position maxNodes fun i => (fs.nodes i).isNone) = some slot)
    (inserted : after.nodes = Function.update fs.nodes slot (some ⟨kind, some above, name⟩)) :
    after.Tree := by
  obtain ⟨small, isEmpty, _⟩ := position_eq_some.mp first
  have empty : fs.nodes slot = none := by simpa using isEmpty
  have new : after.nodes slot = some ⟨kind, some above, name⟩ := by
    rw [inserted, Function.update_self]
  have old {i : Nat} (isOther : i ≠ slot) : after.nodes i = fs.nodes i := by
    rw [inserted, Function.update_of_ne isOther]
  have kept (i : Nat) (stored : Node) (was : fs.nodes i = some stored) :
      after.nodes i = some stored := by
    rw [old, was]
    rintro rfl
    rw [empty] at was
    cases was
  have isNew {i : Nat} {stored : Node} (isStored : after.nodes i = some stored) :
      (i = slot ∧ stored = ⟨kind, some above, name⟩) ∨ fs.nodes i = some stored := by
    by_cases isSlot : i = slot
    · subst isSlot
      rw [new] at isStored
      exact .inl ⟨rfl, (Option.some.inj isStored).symm⟩
    · exact .inr (old isSlot ▸ isStored)
  have apart {i : Nat} {stored : Node} (was : fs.nodes i = some stored)
      (isChild : stored.parent = some above) (same : stored.name = name)
      (valid : validUtf8 name = true) : False := by
    refine findChild_eq_none.mp missing i (tree.inside _ _ was) stored was isChild ?_
    rw [Node.nameStr_of_valid (same ▸ valid), same]
  constructor
  · exact kept 0 _ tree.root
  · intro i stored isStored
    obtain ⟨rfl, -⟩ | was := isNew isStored
    · exact small
    · exact tree.inside i stored was
  · intro i stored isStored isOther
    obtain ⟨-, rfl⟩ | was := isNew isStored
    · exact ⟨nonempty, free⟩
    · exact tree.component i stored was isOther
  · intro i j stored other isStored otherStored sameParent sameName valid
    obtain ⟨rfl, rfl⟩ | was := isNew isStored
    · obtain ⟨rfl, -⟩ | otherWas := isNew otherStored
      · rfl
      · exact (apart otherWas sameParent.symm sameName.symm valid).elim
    · obtain ⟨rfl, rfl⟩ | otherWas := isNew otherStored
      · have same : stored.name = name := sameName
        exact (apart was sameParent same (same ▸ valid)).elim
      · exact tree.unique i j stored other was otherWas sameParent sameName valid
  · intro i isStored
    obtain ⟨stored, isStored⟩ := Option.isSome_iff_exists.mp isStored
    obtain ⟨rfl, -⟩ | was := isNew isStored
    · obtain ⟨outer, named⟩ := tree.reaches above isNode
      exact ⟨_, .child (named.mono kept) new⟩
    · obtain ⟨outer, named⟩ := tree.reaches i (by rw [was]; rfl)
      exact ⟨outer, named.mono kept⟩

/-- `create` under a node of the tree, with a component of a path as the name, keeps the tree. -/
theorem create_step (tree : fs.Tree) {result : Option Nat} (isNode : (fs.nodes above).isSome = true)
    (nonempty : name ≠ []) (free : slash ∉ name)
    (created : fs.create above name kind = (result, after)) : after.Tree := by
  obtain ⟨-, rfl, -⟩ | ⟨slot, -, -, missing, first, rfl⟩ := create_cases created
  · exact tree
  · exact tree.insert isNode nonempty free missing first rfl

end Tree

end Aperture.Vfs.FileSystem
