import Aperture.Gui.Cursor
import Aperture.Gui.Desktop
import Aperture.Machine.Run

/-!
# Scripts of windows

Windows are found by their handles alone, so what is drawn with one handle must reach the window
that was created with it and no other. The script of a window lists what is drawn with its handle.
In every run of the calls, each window is what its own script draws on a white window, handles are
given out in order, and `render` leaves all of them as they are.
-/

namespace Aperture.Gui

open Machine

/-- What is drawn into a window. -/
inductive DrawCall where
  /-- `clear_window`. -/
  | clear (color : Color)
  /-- `draw_text`. -/
  | text (line : List Char) (x y : Int) (color : Color)
  /-- `desktop::write_pixel`. -/
  | pixel (x y : Int) (color : Color)

/-- The window with what is drawn. -/
def DrawCall.draw (window : Window) : DrawCall → Except Panic Window
  | .clear color => window.fill color
  | .text line x y color => window.write line x y color
  | .pixel x y color => window.setPixel x y color

/-- A call of the GUI that returns. -/
inductive GuiEvent where
  /-- `create_window`, with the handle that it returns. -/
  | create (title : List UInt8) (geometry : Geometry) (id : Nat)
  /-- `clear_window`. -/
  | clear (id : Option Nat) (color : Color)
  /-- `draw_text`. -/
  | text (id : Option Nat) (line : List Char) (x y : Int) (color : Color)
  /-- `desktop::write_pixel`. -/
  | pixel (id : Nat) (x y : Int) (color : Color)
  /-- `render`, with the cursor at this place. -/
  | render (mx my : Int)

namespace GuiEvent

/-- The call returns. -/
def Step (before : GuiState) (event : GuiEvent) (after : GuiState) : Prop :=
  match event with
  | .create title geometry id => before.createWindow title geometry = .ok (some id, after)
  | .clear id color => before.clearWindow id color = .ok after
  | .text id line x y color => before.drawText id line x y color = .ok after
  | .pixel id x y color => before.writePixel id x y color = .ok after
  | .render mx my => before.render mx my = .ok after

/-- What is drawn, and with which handle. -/
def drawn : GuiEvent → Option (Nat × DrawCall)
  | .create _ _ _ => none
  | .clear id color => id.map fun id => (id, .clear color)
  | .text id line x y color => id.map fun id => (id, .text line x y color)
  | .pixel id x y color => some (id, .pixel x y color)
  | .render _ _ => none

/-- The handle that is given out. -/
def created : GuiEvent → Option Nat
  | .create _ _ id => some id
  | .clear _ _ => none
  | .text _ _ _ _ _ => none
  | .pixel _ _ _ _ => none
  | .render _ _ => none

end GuiEvent

/-- How a window was created, and what was drawn with its handle. -/
structure Script where
  /-- The title it was given. -/
  title : List UInt8
  /-- The geometry it was given. -/
  geometry : Geometry
  /-- What was drawn, in order. -/
  calls : List DrawCall

namespace Script

/-- The scripts with one more call on the script of the handle. They are in the order of the handles,
which begin with 1. -/
def withCall (scripts : List Script) (id : Nat) (call : DrawCall) : List Script :=
  scripts.mapIdx fun i script =>
    if i + 1 = id then { script with calls := script.calls ++ [call] } else script

/-- A call of the GUI: a new script, or one more call on a script. -/
def follow (scripts : List Script) (event : GuiEvent) : List Script :=
  match event with
  | .create title geometry _ => scripts ++ [⟨title, geometry, []⟩]
  | event =>
    match event.drawn with
    | some (id, call) => withCall scripts id call
    | none => scripts

/-- The scripts that calls make. -/
def ofEvents (events : List GuiEvent) : List Script := events.foldl follow []

end Script

namespace Window

/-- A new window: white and visible, with the title cut to 63 bytes. -/
structure Blank (id : Nat) (title : List UInt8) (geometry : Geometry) (window : Window) : Prop where
  /-- It is where it should be. -/
  geometry_eq : window.toGeometry = geometry
  /-- It has the handle. -/
  id_eq : window.id = id
  /-- Its title is padded with zeros. -/
  title_eq : window.title =
    title.take (min title.length 63) ++ List.replicate (64 - min title.length 63) 0
  /-- It is drawn. -/
  isVisible : window.visible = true
  /-- It is white. -/
  isWhite : ∀ color ∈ window.backbuffer, color = .white

/-- The window with this handle is what the script draws on a new window. -/
def Plays (id : Nat) (script : Script) (window : Window) : Prop :=
  ∃ blank : Window, blank.Blank id script.title script.geometry ∧
    script.calls.foldlM DrawCall.draw blank = .ok window

/-- Drawing changes pixels only. -/
theorem like_draw {window after : Window} {call : DrawCall} (returned : call.draw window = .ok after) :
    window.Like after := by
  cases call with
  | clear color =>
    unfold DrawCall.draw Window.fill at returned
    exact (like_repaint returned).1
  | text line x y color =>
    unfold DrawCall.draw Window.write at returned
    exact (like_repaint returned).1
  | pixel x y color =>
    unfold DrawCall.draw Window.setPixel at returned
    exact (like_repaint returned).1

/-- So does a script. -/
theorem like_calls {window after : Window} {calls : List DrawCall}
    (returned : calls.foldlM DrawCall.draw window = .ok after) : window.Like after := by
  induction calls generalizing window with
  | nil =>
    obtain rfl := pure_eq_ok.mp returned
    exact .refl window
  | cons call calls ih =>
    rw [List.foldlM_cons] at returned
    obtain ⟨next, drawn, rest⟩ := bind_eq_ok.mp returned
    exact (like_draw drawn).trans (ih rest)

/-- It has its handle. -/
theorem Plays.id_eq {id : Nat} {script : Script} {window : Window} (plays : Plays id script window) :
    window.id = id := by
  obtain ⟨blank, isBlank, drawn⟩ := plays
  exact (like_calls drawn).id.trans isBlank.id_eq

/-- One more call is drawn on what is there. -/
theorem Plays.draw {id : Nat} {script : Script} {window after : Window} {call : DrawCall}
    (plays : Plays id script window) (drawn : call.draw window = .ok after) :
    Plays id { script with calls := script.calls ++ [call] } after := by
  obtain ⟨blank, isBlank, before⟩ := plays
  refine ⟨blank, isBlank, ?_⟩
  rw [List.foldlM_append, before, ok_bind, List.foldlM_cons, drawn]
  rfl

end Window

/-! ## The table -/

namespace Compositor

variable {c after : Compositor}

/-- What `create_window` does when it returns: a new window in the first free slot. -/
theorem createWindow_cases {heap left : Mm.BumpAllocator} {title : List UInt8} {geometry : Geometry}
    {id : Nat} (returned : c.createWindow heap title geometry = .ok (id, after, left)) :
    id = c.nextId ∧ ∃ slot window,
      position 32 (fun slot => (c.windows[slot]?.join).isNone) = some slot ∧
      window.Blank id title geometry ∧ after.windows = c.windows.set slot (some window) ∧
      after.nextId = c.nextId + 1 := by
  unfold createWindow at returned
  cases next : add64 c.nextId 1 with
  | error reason =>
    rw [next] at returned
    cases returned
  | ok nextId =>
    obtain ⟨_, rfl⟩ := add64_eq_ok.mp next
    rw [next] at returned
    dsimp only at returned
    split at returned
    · cases returned
    · split at returned
      · cases returned
      · split at returned
        · cases returned
        · cases returned
        · split at returned
          · cases returned
          · rename_i slot free
            obtain ⟨rfl, rest⟩ := Prod.mk.inj (Except.ok.inj returned)
            obtain ⟨rfl, _⟩ := Prod.mk.inj rest
            refine ⟨rfl, slot, _, free, ⟨rfl, rfl, rfl, rfl, fun color member => ?_⟩, rfl, rfl⟩
            exact (List.mem_replicate.mp member).2

/-- What `window_mut` does when it returns: the change of the table. -/
theorem windowMut_cases {id : Nat} {change : Window → Except Panic Window}
    (returned : c.windowMut id change = .ok after) :
    updateEntry Window.id id change c.windows = .ok after.windows ∧ after.nextId = c.nextId := by
  unfold windowMut at returned
  split at returned
  · cases returned
  · rename_i windows changed
    obtain rfl := Except.ok.inj returned
    exact ⟨changed, rfl⟩

end Compositor

/-- The windows of the compositor are played by these scripts, in the order of their handles. -/
structure Compositor.Follows (c : Compositor) (scripts : List Script) (held : List Window) :
    Prop where
  /-- The windows fill the table from the front. -/
  windows_eq : c.windows = held.map some ++ List.replicate (32 - held.length) none
  /-- There is a window for each script. -/
  length_eq : held.length = scripts.length
  /-- The next handle is the next number. -/
  nextId_eq : c.nextId = scripts.length + 1
  /-- Each window is what its script draws. -/
  plays : ∀ (i : Nat) (script : Script) (window : Window), scripts[i]? = some script → held[i]? = some window →
    window.Plays (i + 1) script

namespace Compositor.Follows

variable {c after : Compositor} {scripts : List Script} {held : List Window}

/-- A compositor without windows follows no script. -/
theorem nothing {buffer : List UInt8} {info : FrameBufferInfo} :
    (Compositor.new buffer info).Follows [] [] :=
  ⟨rfl, rfl, rfl, fun _ _ _ there => absurd there (by simp)⟩

/-- Windows have the numbers of their places as handles. -/
theorem numbered (follows : c.Follows scripts held) (i : Nat) (window : Window)
    (there : held[i]? = some window) : window.id = i + 1 := by
  have inside := (List.getElem?_eq_some_iff.mp there).1
  rw [follows.length_eq] at inside
  exact (follows.plays i _ window (List.getElem?_eq_getElem inside) there).id_eq

/-- Drawing with a handle reaches the window of the handle and no other; without such a window it
reaches none. -/
theorem windowMut (follows : c.Follows scripts held) {id : Nat} {call : DrawCall}
    (returned : c.windowMut id (call.draw ·) = .ok after) :
    ∃ next, after.Follows (Script.withCall scripts id call) next := by
  obtain ⟨changed, sameId⟩ := windowMut_cases returned
  rw [follows.windows_eq] at changed
  have length_eq : (Script.withCall scripts id call).length = scripts.length := List.length_mapIdx
  by_cases known : ∃ i < held.length, i + 1 = id
  · obtain ⟨i, inside, rfl⟩ := known
    have there : held[i]? = some held[i] := List.getElem?_eq_getElem inside
    rw [updateEntry_numbered (Nat.succ_injective) follows.numbered there] at changed
    cases drawn : call.draw held[i] with
    | error reason =>
      rw [drawn] at changed
      cases changed
    | ok window =>
      rw [drawn] at changed
      have table := (Except.ok.inj changed).symm
      have same : (held.set i window).length = held.length := List.length_set
      refine ⟨held.set i window, ?_, ?_, ?_, fun j script other inScripts inHeld => ?_⟩
      · rw [table, same]
      · rw [same, length_eq, follows.length_eq]
      · rw [sameId, length_eq, follows.nextId_eq]
      · rw [Script.withCall, List.getElem?_mapIdx, Option.map_eq_some_iff] at inScripts
        obtain ⟨old, oldThere, script_eq⟩ := inScripts
        rw [List.getElem?_set] at inHeld
        by_cases here : i = j
        · subst here
          rw [if_pos rfl, if_pos inside] at inHeld
          rw [if_pos rfl] at script_eq
          obtain rfl := Option.some.inj inHeld
          rw [← script_eq]
          exact (follows.plays i old held[i] oldThere there).draw drawn
        · rw [if_neg here] at inHeld
          rw [if_neg (by omega)] at script_eq
          rw [← script_eq]
          exact follows.plays j old other oldThere inHeld
  · have missing (i : Nat) (inside : i < held.length) : i.succ ≠ id :=
      fun found => known ⟨i, inside, found⟩
    rw [updateEntry_unnumbered follows.numbered missing] at changed
    refine ⟨held, ?_, ?_, ?_, fun j script other inScripts inHeld => ?_⟩
    · exact (Except.ok.inj changed).symm
    · rw [length_eq, follows.length_eq]
    · rw [sameId, length_eq, follows.nextId_eq]
    · rw [Script.withCall, List.getElem?_mapIdx, Option.map_eq_some_iff] at inScripts
      obtain ⟨old, oldThere, script_eq⟩ := inScripts
      have inside := (List.getElem?_eq_some_iff.mp inHeld).1
      rw [if_neg (missing j inside)] at script_eq
      rw [← script_eq]
      exact follows.plays j old other oldThere inHeld

/-- A window that is created is behind the others and has the next handle. -/
theorem createWindow (follows : c.Follows scripts held) {heap left : Mm.BumpAllocator}
    {title : List UInt8} {geometry : Geometry} {id : Nat}
    (returned : c.createWindow heap title geometry = .ok (id, after, left)) :
    id = scripts.length + 1 ∧ ∃ next, after.Follows (scripts ++ [⟨title, geometry, []⟩]) next := by
  obtain ⟨rfl, slot, window, free, isBlank, windows, nextId⟩ := createWindow_cases returned
  have bound := (position_eq_some.mp free).1
  have isFree := (position_eq_some.mp free).2.1
  have earlier := (position_eq_some.mp free).2.2
  have size : (held.map some).length = held.length := List.length_map _
  have slot_eq : slot = held.length := by
    rcases Nat.lt_trichotomy slot held.length with before | same | behind
    · rw [follows.windows_eq, List.getElem?_append_left (by omega), List.getElem?_map,
        List.getElem?_eq_getElem before] at isFree
      cases isFree
    · exact same
    · have taken := earlier held.length behind
      rw [follows.windows_eq, List.getElem?_append_right (by omega), size, Nat.sub_self,
        List.getElem?_replicate, if_pos (by omega)] at taken
      cases taken
  subst slot_eq
  refine ⟨follows.nextId_eq, held ++ [window], ?_, ?_, ?_, ?_⟩
  · have rest : 32 - held.length = (32 - (held ++ [window]).length) + 1 := by
      rw [List.length_append, List.length_singleton]
      omega
    rw [windows, follows.windows_eq, List.set_append_right _ _ (by omega), size, Nat.sub_self, rest,
      List.replicate_succ, List.set_cons_zero, List.map_append, List.append_assoc]
    rfl
  · rw [List.length_append, List.length_append, follows.length_eq]
    rfl
  · rw [nextId, follows.nextId_eq, List.length_append]
    rfl
  · intro i script other inScripts inHeld
    rw [List.getElem?_append, follows.length_eq] at inHeld
    rw [List.getElem?_append] at inScripts
    split at inScripts
    · rename_i before
      rw [if_pos before] at inHeld
      exact follows.plays i script other inScripts inHeld
    · rename_i behind
      rw [if_neg behind] at inHeld
      have last : i - scripts.length = 0 := by
        have inside := (List.getElem?_eq_some_iff.mp inHeld).1
        rw [List.length_singleton] at inside
        omega
      rw [last] at inHeld inScripts
      obtain rfl := Option.some.inj inHeld
      obtain rfl := Option.some.inj inScripts
      refine ⟨window, ?_, rfl⟩
      have place : i + 1 = c.nextId := by
        rw [follows.nextId_eq]
        omega
      rw [place]
      exact isBlank

end Compositor.Follows

/-! ## Calls of the GUI -/

namespace GuiState

/-- The GUI has a compositor, and that follows the scripts. -/
def Follows (gui : GuiState) (scripts : List Script) : Prop :=
  ∃ c held, gui.compositor = some c ∧ Compositor.Follows c scripts held

variable {gui after : GuiState} {scripts : List Script}

/-- Drawing with a handle goes into the script of the handle. -/
theorem Follows.onWindow (follows : gui.Follows scripts) {id : Nat} {call : DrawCall}
    (returned : gui.onWindow id (call.draw ·) = .ok after) :
    after.Follows (Script.withCall scripts id call) := by
  obtain ⟨c, held, lock, follows⟩ := follows
  unfold GuiState.onWindow at returned
  rw [lock] at returned
  obtain ⟨changed, drawn, returned⟩ := bind_eq_ok.mp returned
  obtain rfl := pure_eq_ok.mp returned
  obtain ⟨next, nextFollows⟩ := follows.windowMut drawn
  exact ⟨changed, next, rfl, nextFollows⟩

/-- `render` changes the framebuffer only. -/
theorem Follows.render (follows : gui.Follows scripts) {mx my : Int}
    (returned : gui.render mx my = .ok after) : after.Follows scripts := by
  obtain ⟨c, held, lock, follows⟩ := follows
  obtain ⟨composed, first, returned⟩ := bind_eq_ok.mp returned
  unfold compose at first
  rw [lock] at first
  obtain ⟨drawn, windows, first⟩ := bind_eq_ok.mp first
  obtain rfl := pure_eq_ok.mp first
  obtain ⟨cleared, _, windows⟩ := bind_eq_ok.mp windows
  obtain ⟨buffer, _, windows⟩ := bind_eq_ok.mp windows
  obtain rfl := pure_eq_ok.mp windows
  obtain ⟨covered, _, returned⟩ := bind_eq_ok.mp returned
  obtain rfl := pure_eq_ok.mp returned
  exact ⟨_, held, rfl, follows.windows_eq, follows.length_eq, follows.nextId_eq, follows.plays⟩

/-- `create_window` begins a script and gives out the next number. -/
theorem Follows.createWindow (follows : gui.Follows scripts) {title : List UInt8}
    {geometry : Geometry} {id : Option Nat}
    (returned : gui.createWindow title geometry = .ok (id, after)) :
    id = some (scripts.length + 1) ∧ after.Follows (scripts ++ [⟨title, geometry, []⟩]) := by
  obtain ⟨c, held, lock, follows⟩ := follows
  unfold GuiState.createWindow at returned
  rw [lock] at returned
  obtain ⟨⟨handle, changed, heap⟩, created, returned⟩ := bind_eq_ok.mp returned
  obtain ⟨rfl, rfl⟩ := Prod.mk.inj (pure_eq_ok.mp returned)
  obtain ⟨rfl, next, nextFollows⟩ := follows.createWindow created
  exact ⟨rfl, changed, next, rfl, nextFollows⟩

/-- Each call goes into the scripts, and a handle that it gives out is the next number. -/
theorem Follows.step (follows : gui.Follows scripts) {event : GuiEvent}
    (returned : event.Step gui after) :
    after.Follows (Script.follow scripts event) ∧
      event.created.toList = (List.range' (scripts.length + 1) event.created.toList.length) := by
  cases event with
  | create title geometry id =>
    obtain ⟨same, next⟩ := follows.createWindow returned
    obtain rfl := Option.some.inj same
    exact ⟨next, rfl⟩
  | clear id color =>
    refine ⟨?_, rfl⟩
    cases id with
    | none =>
      obtain rfl := pure_eq_ok.mp returned
      exact follows
    | some id => exact @onWindow gui after scripts follows id (.clear color) returned
  | text id line x y color =>
    refine ⟨?_, rfl⟩
    cases id with
    | none =>
      obtain rfl := pure_eq_ok.mp returned
      exact follows
    | some id => exact @onWindow gui after scripts follows id (.text line x y color) returned
  | pixel id x y color =>
    exact ⟨@onWindow gui after scripts follows id (.pixel x y color) returned, rfl⟩
  | render mx my => exact ⟨follows.render returned, rfl⟩

/-- There is a script more when a handle is given out. -/
theorem length_follow (scripts : List Script) (event : GuiEvent) :
    (Script.follow scripts event).length = scripts.length + event.created.toList.length := by
  have same (id : Nat) (call : DrawCall) :
      (Script.withCall scripts id call).length = scripts.length := List.length_mapIdx
  cases event with
  | create title geometry id => exact List.length_append
  | clear id color =>
    cases id with
    | none => rfl
    | some id => exact same id (.clear color)
  | text id line x y color =>
    cases id with
    | none => rfl
    | some id => exact same id (.text line x y color)
  | pixel id x y color => exact same id (.pixel x y color)
  | render mx my => rfl

/-- So does every run of calls. -/
theorem Follows.run {last : GuiState} {events : List GuiEvent} (follows : gui.Follows scripts)
    (run : Run GuiEvent.Step gui events last) :
    last.Follows (events.foldl Script.follow scripts) ∧ events.filterMap GuiEvent.created =
      List.range' (scripts.length + 1) (events.filterMap GuiEvent.created).length := by
  induction run generalizing scripts with
  | nil state => exact ⟨follows, rfl⟩
  | @cons before middle last event events head tail ih =>
    obtain ⟨next, first⟩ := follows.step head
    obtain ⟨rest, others⟩ := ih next
    refine ⟨rest, ?_⟩
    rw [length_follow] at others
    have split : (event :: events).filterMap GuiEvent.created =
        event.created.toList ++ events.filterMap GuiEvent.created := by
      rw [List.filterMap_cons]
      cases event.created <;> rfl
    have shift : scripts.length + event.created.toList.length + 1 =
        scripts.length + 1 + event.created.toList.length := by omega
    rw [shift] at others
    rw [split, List.length_append, ← List.range'_append_1]
    exact congrArg₂ _ first others

/-- In every order of the calls that follow `init_compositor`, each window is what the calls with its
own handle draw on a new window, the table holds no other window, and the handles that
`create_window` gives out are the numbers from 2 on, in order. -/
theorem windows_of_run {start last : GuiState} {buffer : List UInt8} {info : FrameBufferInfo}
    {events : List GuiEvent} (booted : gui.initCompositor buffer info = .ok start)
    (run : Run GuiEvent.Step start events last) :
    last.Follows (Script.ofEvents
      (.create "Desktop".toUTF8.toList (fromOrigin info.width info.height) 1 :: events)) ∧
      events.filterMap GuiEvent.created =
        List.range' 2 (events.filterMap GuiEvent.created).length := by
  have empty : Follows { gui with compositor := some (.new buffer info) } [] :=
    ⟨.new buffer info, [], rfl, .nothing⟩
  obtain ⟨⟨desktop, created⟩, first, booted⟩ := bind_eq_ok.mp booted
  obtain rfl := pure_eq_ok.mp booted
  exact (empty.createWindow first).2.run run

/-- What is computed is returned. -/
theorem exists_ok {α : Type} {result : Except Panic α} (computed : result.toOption.isSome = true) :
    ∃ value, result = .ok value := by
  cases result with
  | error reason => cases computed
  | ok value => exact ⟨value, rfl⟩

/-- The law at a run that draws into a second window, into none and into the desktop. -/
theorem windows_of_run_drawn :
    ∃ start last, GuiState.initCompositor ⟨none, ⟨0, 0, 4096⟩⟩ [0, 0, 0] ⟨1, 1, 1, 3, .rgb⟩ =
        .ok start ∧
      Run GuiEvent.Step start
        [.create [65] (fromOrigin 2 1) 2, .pixel 2 1 0 .black, .clear (some 3) .black,
          .clear (some 1) .darkGray] last ∧
      last.Follows [⟨"Desktop".toUTF8.toList, fromOrigin 1 1, [.clear .darkGray]⟩,
        ⟨[65], fromOrigin 2 1, [.pixel 1 0 .black]⟩] := by
  have evaluated : (do
      let start ← GuiState.initCompositor ⟨none, ⟨0, 0, 4096⟩⟩ [0, 0, 0] ⟨1, 1, 1, 3, .rgb⟩
      let made ← start.createWindow [65] (fromOrigin 2 1)
      if made.1 = some 2 then do
        let gui ← made.2.writePixel 2 1 0 .black
        let gui ← gui.clearWindow (some 3) .black
        gui.clearWindow (some 1) .darkGray
      else (.error .missing : Except Panic GuiState)).toOption.isSome = true := by decide +kernel
  obtain ⟨last, returned⟩ := exists_ok evaluated
  obtain ⟨start, booted, returned⟩ := bind_eq_ok.mp returned
  obtain ⟨⟨id, created⟩, second, returned⟩ := bind_eq_ok.mp returned
  dsimp only at returned
  split at returned
  · rename_i handle
    obtain rfl : id = some 2 := handle
    obtain ⟨pixel, third, returned⟩ := bind_eq_ok.mp returned
    obtain ⟨cleared, fourth, returned⟩ := bind_eq_ok.mp returned
    have run : Run GuiEvent.Step start
        [.create [65] (fromOrigin 2 1) 2, .pixel 2 1 0 .black, .clear (some 3) .black,
          .clear (some 1) .darkGray] last :=
      .cons second (.cons third (.cons fourth (.cons returned (.nil last))))
    exact ⟨start, last, booted, run, (windows_of_run booted run).1⟩
  · cases returned

end GuiState

end Aperture.Gui
