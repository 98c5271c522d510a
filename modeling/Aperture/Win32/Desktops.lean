import Aperture.Gui.Scripts
import Aperture.Machine.Slots

/-!
# Desktops

`create_desktop` creates the window of a desktop first, and then looks for one of sixteen slots. When
there is none it returns nothing and the window stays. Desktops never go away, so they fill the
slots in order, each with a window of its own.
-/

namespace Aperture.Win32

open Machine Gui

/-- `MAX_DESKTOPS`. -/
def maxDesktops : Nat := 16

/-- `Desktop`. -/
structure Desktop where
  /-- `name`, of 32 bytes. -/
  name : List UInt8
  /-- Handle of its window. -/
  root : Nat
  deriving DecidableEq, Repr

/-- The GUI with `DESKTOPS`. -/
structure Win32k where
  /-- The GUI. -/
  gui : GuiState
  /-- `DESKTOPS`. -/
  desktops : Nat → Option Desktop

/-- Width and height of a desktop. -/
structure Extent where
  /-- Width. -/
  width : Int
  /-- Height. -/
  height : Int
  /-- It is of type `i32`. -/
  width_fits : IsI32 width
  /-- It is of type `i32`. -/
  height_fits : IsI32 height

/-- Where the window of a desktop is. -/
def Extent.geometry (extent : Extent) : Geometry where
  x := 0
  y := 0
  width := extent.width
  height := extent.height
  x_fits := isI32_zero
  y_fits := isI32_zero
  width_fits := extent.width_fits
  height_fits := extent.height_fits

/-- The name of a desktop, cut to 31 bytes and padded with zeros. -/
def desktopName (name : List UInt8) : List UInt8 :=
  name.take (min name.length 31) ++ List.replicate (32 - min name.length 31) 0

namespace Win32k

/-- `create_desktop`. -/
def createDesktop (state : Win32k) (name : List UInt8) (extent : Extent) :
    Except Panic (Option Desktop × Win32k) := do
  let (root, gui) ← state.gui.createWindow name extent.geometry
  match root with
  | none => return (none, { state with gui })
  | some root =>
    let desktop : Desktop := ⟨desktopName name, root⟩
    match position maxDesktops fun slot => (state.desktops slot).isNone with
    | none => return (none, { state with gui })
    | some slot =>
      return (some desktop, ⟨gui, Function.update state.desktops slot (some desktop)⟩)

end Win32k

/-- A call that returns. -/
inductive Win32kEvent where
  /-- `create_desktop`. -/
  | createDesktop (name : List UInt8) (extent : Extent) (result : Option Desktop)
  /-- A call of the GUI. -/
  | gui (event : GuiEvent)

namespace Win32kEvent

/-- The call returns. -/
def Step (before : Win32k) (event : Win32kEvent) (after : Win32k) : Prop :=
  match event with
  | .createDesktop name extent result => before.createDesktop name extent = .ok (result, after)
  | .gui event => event.Step before.gui after.gui ∧ after.desktops = before.desktops

/-- The desktop that a call returns. -/
def returned : Win32kEvent → Option Desktop
  | .createDesktop _ _ result => result
  | .gui _ => none

/-- A call for a desktop. -/
def isRequest : Win32kEvent → Bool
  | .createDesktop _ _ _ => true
  | .gui _ => false

/-- The scripts after a call. The window of a desktop begins a script, also when there is no slot. -/
def follow (scripts : List Script) : Win32kEvent → List Script
  | .createDesktop name extent _ => scripts ++ [⟨name, extent.geometry, []⟩]
  | .gui event => Script.follow scripts event

end Win32kEvent

/-- The desktop has the window that was created for it, at the upper left corner. -/
def Desktop.Rooted (scripts : List Script) (desktop : Desktop) : Prop :=
  ∃ i script, scripts[i]? = some script ∧ desktop.root = i + 1 ∧
    desktop.name = desktopName script.title ∧ script.geometry.x = 0 ∧ script.geometry.y = 0

section Scripts

variable {scripts : List Script} {desktop : Desktop}

/-- Calls keep the titles of windows, and where they were created. -/
theorem getElem?_follow {i : Nat} {script : Script} (there : scripts[i]? = some script)
    (event : Win32kEvent) :
    ∃ later, (event.follow scripts)[i]? = some later ∧ later.title = script.title ∧
      later.geometry = script.geometry := by
  have inside := (List.getElem?_eq_some_iff.mp there).1
  have appended (new : Script) : (scripts ++ [new])[i]? = some script := by
    rw [List.getElem?_append_left inside, there]
  have drawn (id : Nat) (call : DrawCall) :
      ∃ later, (Script.withCall scripts id call)[i]? = some later ∧ later.title = script.title ∧
        later.geometry = script.geometry := by
    rw [Script.withCall, List.getElem?_mapIdx, there]
    refine ⟨_, rfl, ?_⟩
    split
    · exact ⟨rfl, rfl⟩
    · exact ⟨rfl, rfl⟩
  have same : ∃ later, scripts[i]? = some later ∧ later.title = script.title ∧
      later.geometry = script.geometry := ⟨script, there, rfl, rfl⟩
  cases event with
  | createDesktop name extent result => exact ⟨script, appended _, rfl, rfl⟩
  | gui event =>
    cases event with
    | create title geometry id => exact ⟨script, appended _, rfl, rfl⟩
    | clear id color =>
      cases id with
      | none => exact same
      | some id => exact drawn id (.clear color)
    | text id line x y color =>
      cases id with
      | none => exact same
      | some id => exact drawn id (.text line x y color)
    | pixel id x y color => exact drawn id (.pixel x y color)
    | render mx my => exact same

/-- So a desktop keeps its window. -/
theorem Desktop.Rooted.follow (rooted : desktop.Rooted scripts) (event : Win32kEvent) :
    desktop.Rooted (event.follow scripts) := by
  obtain ⟨i, script, there, root, name, x, y⟩ := rooted
  obtain ⟨later, laterThere, title, geometry⟩ := getElem?_follow there event
  refine ⟨i, later, laterThere, root, ?_, ?_, ?_⟩
  · rw [title, name]
  · rw [geometry, x]
  · rw [geometry, y]

/-- Its window is one of those that were created. -/
theorem Desktop.Rooted.root_le (rooted : desktop.Rooted scripts) : desktop.root ≤ scripts.length := by
  obtain ⟨i, script, there, root, _⟩ := rooted
  have inside := (List.getElem?_eq_some_iff.mp there).1
  omega

end Scripts

namespace Win32k

/-- The table lists the desktops in order, up to sixteen of those that were asked for, each with a
window of its own. -/
structure Keeps (state : Win32k) (scripts : List Script) (desktops : List Desktop)
    (requests : Nat) : Prop where
  /-- The windows. -/
  follows : state.gui.Follows scripts
  /-- The table. -/
  lists : Lists state.desktops desktops
  /-- There are as many as fit. -/
  length_eq : desktops.length = min requests maxDesktops
  /-- Each has its window. -/
  rooted : ∀ desktop ∈ desktops, desktop.Rooted scripts
  /-- No two share one. -/
  ordered : desktops.Pairwise fun first second => first.root < second.root

variable {state after : Win32k} {scripts : List Script} {desktops : List Desktop} {requests : Nat}

/-- A call for a desktop leaves a window, and a desktop while there are slots. -/
theorem Keeps.createDesktop (keeps : state.Keeps scripts desktops requests) {name : List UInt8}
    {extent : Extent} {result : Option Desktop}
    (returned : state.createDesktop name extent = .ok (result, after)) :
    after.Keeps (scripts ++ [⟨name, extent.geometry, []⟩]) (desktops ++ result.toList)
      (requests + 1) := by
  obtain ⟨⟨root, gui⟩, created, returned⟩ := bind_eq_ok.mp returned
  obtain ⟨rfl, follows⟩ := keeps.follows.createWindow created
  have rooted (desktop : Desktop) (member : desktop ∈ desktops) :
      desktop.Rooted (scripts ++ [⟨name, extent.geometry, []⟩]) :=
    (keeps.rooted desktop member).follow (.createDesktop name extent none)
  have length := keeps.length_eq
  dsimp only at returned
  rw [keeps.lists.position_eq] at returned
  by_cases room : desktops.length < maxDesktops
  · rw [if_pos room] at returned
    obtain ⟨rfl, rfl⟩ := Prod.mk.inj (pure_eq_ok.mp returned)
    refine ⟨follows, keeps.lists.push _, ?_, ?_, ?_⟩
    · rw [List.length_append, Option.toList_some, List.length_singleton]
      omega
    · intro desktop member
      rcases List.mem_append.mp member with old | new
      · exact rooted desktop old
      · rw [Option.toList_some, List.mem_singleton] at new
        rw [new]
        exact ⟨scripts.length, _, List.getElem?_concat_length, rfl, rfl, rfl, rfl⟩
    · apply List.pairwise_append.mpr
      refine ⟨keeps.ordered, List.pairwise_singleton _ _, ?_⟩
      intro desktop member new isNew
      rw [Option.toList_some, List.mem_singleton] at isNew
      rw [isNew]
      exact Nat.lt_succ_of_le (keeps.rooted desktop member).root_le
  · rw [if_neg room] at returned
    obtain ⟨rfl, rfl⟩ := Prod.mk.inj (pure_eq_ok.mp returned)
    rw [Option.toList_none, List.append_nil]
    exact ⟨follows, keeps.lists, by omega, rooted, keeps.ordered⟩

/-- Every call keeps it. -/
theorem Keeps.step (keeps : state.Keeps scripts desktops requests) {event : Win32kEvent}
    (returned : event.Step state after) :
    after.Keeps (event.follow scripts) (desktops ++ event.returned.toList)
      (requests + if event.isRequest then 1 else 0) := by
  cases event with
  | createDesktop name extent result => exact keeps.createDesktop returned
  | gui event =>
    obtain ⟨called, same⟩ := returned
    refine ⟨(keeps.follows.step called).1, ?_, ?_, ?_, ?_⟩
    · rw [same]
      show Lists state.desktops (desktops ++ [])
      rw [List.append_nil]
      exact keeps.lists
    · show (desktops ++ []).length = min requests maxDesktops
      rw [List.append_nil]
      exact keeps.length_eq
    · intro desktop member
      have old : desktop ∈ desktops := by
        rwa [show desktops ++ (Win32kEvent.gui event).returned.toList = desktops from
          List.append_nil desktops] at member
      exact (keeps.rooted desktop old).follow (.gui event)
    · show (desktops ++ []).Pairwise _
      rw [List.append_nil]
      exact keeps.ordered

/-- So does every run of calls. -/
theorem Keeps.run {last : Win32k} {events : List Win32kEvent}
    (keeps : state.Keeps scripts desktops requests) (run : Run Win32kEvent.Step state events last) :
    last.Keeps (events.foldl Win32kEvent.follow scripts)
      (desktops ++ events.filterMap Win32kEvent.returned)
      (requests + events.countP Win32kEvent.isRequest) := by
  induction run generalizing scripts desktops requests with
  | nil state =>
    rw [List.filterMap_nil, List.append_nil]
    exact keeps
  | @cons before middle last event events head tail ih =>
    have next := ih (keeps.step head)
    have returned : (event :: events).filterMap Win32kEvent.returned =
        event.returned.toList ++ events.filterMap Win32kEvent.returned := by
      rw [List.filterMap_cons]
      cases event.returned <;> rfl
    have counted : (event :: events).countP Win32kEvent.isRequest =
        (if event.isRequest then 1 else 0) + events.countP Win32kEvent.isRequest := by
      rw [List.countP_cons, Nat.add_comm]
    rw [returned, counted, ← List.append_assoc, ← Nat.add_assoc]
    exact next

/-- In every order of calls of the GUI and calls for desktops behind `init_compositor`, each call for
a desktop leaves a window, the first sixteen return desktops, which fill the table in order, and
the window of each desktop is the one created for it, with its title cut to the desktop's name. -/
theorem desktops_of_run {gui start : GuiState} {last : Win32k} {buffer : List UInt8}
    {info : FrameBufferInfo} {events : List Win32kEvent}
    (booted : gui.initCompositor buffer info = .ok start)
    (run : Run Win32kEvent.Step ⟨start, fun _ => none⟩ events last) :
    last.Keeps (events.foldl Win32kEvent.follow
        [⟨"Desktop".toUTF8.toList, GuiState.fromOrigin info.width info.height, []⟩])
      (events.filterMap Win32kEvent.returned) (events.countP Win32kEvent.isRequest) := by
  have empty : GuiState.Follows { gui with compositor := some (.new buffer info) } [] :=
    ⟨.new buffer info, [], rfl, .nothing⟩
  obtain ⟨⟨desktop, created⟩, first, booted⟩ := bind_eq_ok.mp booted
  obtain rfl := pure_eq_ok.mp booted
  have begun : Keeps ⟨created, fun _ => none⟩
      [⟨"Desktop".toUTF8.toList, GuiState.fromOrigin info.width info.height, []⟩] [] 0 := by
    refine ⟨(empty.createWindow first).2, fun slot => rfl, rfl, ?_, .nil⟩
    intro desktop none
    cases none
  have kept := begun.run run
  rwa [List.nil_append, Nat.zero_add] at kept

/-- A desktop is created, and its window is cleared. -/
theorem desktops_of_run_cleared : ∃ last : Win32k,
    last.Keeps [⟨"Desktop".toUTF8.toList, GuiState.fromOrigin 1 1, []⟩,
        ⟨[65], GuiState.fromOrigin 2 1, [.clear .black]⟩] [⟨desktopName [65], 2⟩] 1 := by
  let extent : Extent := ⟨2, 1, by decide, by decide⟩
  have evaluated : (do
      let start ← GuiState.initCompositor ⟨none, ⟨0, 0, 4096⟩⟩ [0, 0, 0] ⟨1, 1, 1, 3, .rgb⟩
      let made ← (Win32k.mk start fun _ => none).createDesktop [65] ⟨2, 1, by decide, by decide⟩
      if made.1 = some (Desktop.mk (desktopName [65]) 2) then
        made.2.gui.clearWindow (some 2) .black
      else (.error .missing : Except Panic GuiState)).toOption.isSome = true := by decide +kernel
  obtain ⟨last, returned⟩ := GuiState.exists_ok evaluated
  obtain ⟨start, booted, returned⟩ := bind_eq_ok.mp returned
  obtain ⟨⟨result, created⟩, first, returned⟩ := bind_eq_ok.mp returned
  dsimp only at returned
  split at returned
  · rename_i same
    subst same
    have cleared : (Win32kEvent.gui (.clear (some 2) .black)).Step created ⟨last, created.desktops⟩ :=
      ⟨returned, rfl⟩
    have run : Run Win32kEvent.Step ⟨start, fun _ => none⟩
        [.createDesktop [65] extent (some ⟨desktopName [65], 2⟩), .gui (.clear (some 2) .black)]
        ⟨last, created.desktops⟩ := .cons first (.cons cleared (.nil _))
    exact ⟨_, desktops_of_run booted run⟩
  · cases returned

end Win32k

end Aperture.Win32
