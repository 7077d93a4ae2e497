import CodePanel.Proofs.Session.Loads
import CodePanel.Proofs.Session.ViewCommands
import Mathlib.Data.List.Induction

namespace CodePanel

open Asset Map

namespace Map

def Direction.dx : Direction → Int
  | .left => -1
  | .right => 1
  | _ => 0

def Direction.dy : Direction → Int
  | .up => -1
  | .down => 1
  | _ => 0

-- A place on an axis after some steps. A step that would go below zero stops there.
def walk (place : Nat) (steps : List Int) : Nat :=
  steps.foldl (fun place step => ((place : Int) + step).toNat) place

-- A window of the same size, some steps away.
def Viewport.after (window : Viewport) (steps : List Direction) : Viewport :=
  { window with
    x := walk window.x (steps.map Direction.dx)
    y := walk window.y (steps.map Direction.dy) }

theorem walk_append_singleton (place : Nat) (steps : List Int) (step : Int) :
    walk place (steps ++ [step]) = (walk place steps + step).toNat := by
  rw [walk, List.foldl_append]
  rfl

theorem Viewport.after_append_singleton (window : Viewport) (steps : List Direction)
    (direction : Direction) :
    window.after (steps ++ [direction]) = (window.after steps).move direction := by
  unfold after
  rw [List.map_append, List.map_append, List.map_singleton, List.map_singleton,
    walk_append_singleton, walk_append_singleton]
  generalize walk window.x _ = x
  generalize walk window.y _ = y
  cases direction <;> simp [move, Direction.dx, Direction.dy] <;> omega

end Map

-- A larger map with the window that it was given with, and the steps made since.
structure Tour where
  world : Grid
  window : Viewport
  steps : List Direction

def Tour.place (tour : Tour) : Grid × Viewport :=
  (tour.world, tour.window.after tour.steps)

namespace SessionCommand

-- The larger map that a command gives to the view in a slot.
def world? (slot : Nat) : SessionCommand → Option (Grid × Viewport)
  | .setWorld other width height bytes window =>
    if other = slot then
      (Grid.ofBytes width height bytes).toOption.map fun world => (world, window)
    else none
  | _ => none

-- The step that a command asks of the view in a slot.
def step? (slot : Nat) : SessionCommand → Option Direction
  | .pan other direction => if other = slot then some direction else none
  | _ => none

-- The map that a command brings to the view in a slot by itself.
def bytes? (slot : Nat) : SessionCommand → Option Grid
  | .setBytes other width height bytes =>
    if other = slot then (Grid.ofBytes width height bytes).toOption else none
  | _ => none

theorem world_eq_some {slot : Nat} {command : SessionCommand} {given : Grid × Viewport}
    (h : command.world? slot = some given) :
    ∃ width height bytes, command = .setWorld slot width height bytes given.2 ∧
      Grid.ofBytes width height bytes = .ok given.1 := by
  unfold world? at h
  split at h
  · rename_i other width height bytes window
    split at h
    · rename_i hslot
      subst hslot
      cases hgrid : Grid.ofBytes width height bytes with
      | error error =>
        rw [hgrid] at h
        cases h
      | ok world =>
        rw [hgrid] at h
        cases h
        exact ⟨width, height, bytes, rfl, hgrid⟩
    · cases h
  · cases h

theorem eq_pan_of_step {slot : Nat} {command : SessionCommand} {direction : Direction}
    (h : command.step? slot = some direction) : command = .pan slot direction := by
  unfold step? at h
  split at h
  · split at h
    · rename_i hslot
      cases h
      rw [hslot]
    · cases h
  · cases h

theorem bytes_eq_some {slot : Nat} {command : SessionCommand} {grid : Grid}
    (h : command.bytes? slot = some grid) :
    ∃ width height bytes, command = .setBytes slot width height bytes ∧
      Grid.ofBytes width height bytes = .ok grid := by
  unfold bytes? at h
  split at h
  · rename_i other width height bytes
    split at h
    · rename_i hslot
      subst hslot
      cases hgrid : Grid.ofBytes width height bytes with
      | error error =>
        rw [hgrid] at h
        cases h
      | ok other =>
        rw [hgrid] at h
        cases h
        exact ⟨width, height, bytes, rfl, hgrid⟩
    · cases h
  · cases h

end SessionCommand

-- The larger map that the view in a slot was given last, and the steps made since.
def lastTour? (slot : Nat) : List SessionCommand → Option Tour
  | [] => none
  | command :: rest =>
    (lastTour? slot rest).or <| (command.world? slot).map fun given =>
      ⟨given.1, given.2, rest.filterMap (SessionCommand.step? slot)⟩

-- One more command begins a tour, or goes on with the last one.
theorem lastTour_append_singleton (slot : Nat) (commands : List SessionCommand)
    (command : SessionCommand) :
    lastTour? slot (commands ++ [command]) =
      ((command.world? slot).map fun given => ⟨given.1, given.2, []⟩).or
        ((lastTour? slot commands).map fun tour =>
          { tour with steps := tour.steps ++ (command.step? slot).toList }) := by
  induction commands with
  | nil => simp [lastTour?]
  | cons first rest ih =>
    have hsteps : (rest ++ [command]).filterMap (SessionCommand.step? slot) =
        rest.filterMap (SessionCommand.step? slot) ++ (command.step? slot).toList := by
      rw [List.filterMap_append]
      cases hstep : command.step? slot <;> simp [hstep]
    rw [List.cons_append, lastTour?, ih, hsteps, Option.or_assoc, lastTour?, Option.map_or,
      Option.map_map]
    rfl

-- What a view shows, and the larger map that it keeps.
def View.display (view : View) : Grid × Option (Grid × Viewport) :=
  (view.grid, view.world)

namespace Session

def displayed? (session : Session) (slot : Nat) : Option Grid :=
  (session.views slot).map View.grid

def world? (session : Session) (slot : Nat) : Option (Grid × Viewport) :=
  (session.views slot).bind View.world

variable {session : Session} {slot : Nat}

theorem map_views_withView {f : View → α} {other : Nat}
    {change : View → Page → Except Error Unit × View × Page}
    (h : slot = other → ∀ view page, f (change view page).2.1 = f view) :
    ((session.withView other change).2.views slot).map f = (session.views slot).map f := by
  unfold withView
  split
  · rfl
  · rename_i view hview
    by_cases hslot : slot = other
    · subst hslot
      exact map_setEntry_of_eq hview (h rfl view session.page) slot
    · exact congrArg _ (if_neg hslot)

-- A command that brings no map and asks for no step changes nothing of what is displayed.
theorem display_respond (session : Session) {command : SessionCommand}
    (hends : command.ends slot = false)
    (hbytes : command.bytes? slot = none) (hworld : command.world? slot = none)
    (hstep : command.step? slot = none) :
    ((session.respond command).2.views slot).map View.display =
      (session.views slot).map View.display := by
  cases haction : command.action? slot with
  | none =>
    rcases session.respond_cases hends haction with hviews | ⟨page, target, type, event, hevent⟩
    · rw [hviews]
    · rw [hevent]
      exact map_views_dispatch (fun _ _ _ => rfl) target type event slot
  | some action =>
    cases command with
    | setBytes other width height bytes =>
      refine map_views_withView fun hslot view page => ?_
      rw [SessionCommand.bytes?, if_pos hslot.symm] at hbytes
      unfold View.setBytes
      split
      · rfl
      · rename_i grid hgrid
        rw [hgrid] at hbytes
        cases hbytes
    | setWorld other width height bytes window =>
      refine map_views_withView fun hslot view page => ?_
      rw [SessionCommand.world?, if_pos hslot.symm] at hworld
      unfold View.setWorldBytes
      split
      · rfl
      · rename_i world hgrid
        rw [hgrid] at hworld
        cases hworld
    | pan other direction =>
      refine map_views_withView fun hslot view page => ?_
      rw [SessionCommand.step?, if_pos hslot.symm] at hstep
      cases hstep
    | redraw other => exact map_views_withView fun _ _ _ => rfl
    | _ => cases haction

section Calls

variable {view : View}

theorem display_setMap (view : View) (page : Page) (grid : Grid) :
    (view.setMap slot page grid).2.1.display = (grid, view.world) := by
  obtain ⟨loader, hset⟩ := view.exists_setMap_eq page grid
  rw [hset]
  rfl

-- The call succeeds unless an image is refused. The map is shown in any case.
theorem withView_of_setMap (change : View → Page → Except Error Unit × View × Page)
    (hview : session.views slot = some view) {moved : View} {grid : Grid}
    (hchange : change view session.page = moved.setMap slot session.page grid) :
    (∃ after, (session.withView slot change).2.views slot = some after ∧
      after.display = (grid, moved.world)) ∧
    (session.page.faults.image = none → (session.withView slot change).1 = .done) := by
  rw [withView_eq hview, hchange]
  refine ⟨⟨_, if_pos rfl, display_setMap moved session.page grid⟩, fun hfaults => ?_⟩
  rw [View.setMap_eq hfaults]
  rfl

theorem respond_setBytes (hview : session.views slot = some view) {width height : Nat}
    {bytes : List UInt8} {grid : Grid} (h : Grid.ofBytes width height bytes = .ok grid) :
    (∃ after, (session.respond (.setBytes slot width height bytes)).2.views slot = some after ∧
      after.display = (grid, view.world)) ∧
    (session.page.faults.image = none →
      (session.respond (.setBytes slot width height bytes)).1 = .done) := by
  refine withView_of_setMap _ hview ?_
  simp only [View.setBytes, h]

theorem respond_setWorld (hview : session.views slot = some view) {width height : Nat}
    {bytes : List UInt8} {world : Grid} (h : Grid.ofBytes width height bytes = .ok world)
    (window : Viewport) :
    (∃ after, (session.respond (.setWorld slot width height bytes window)).2.views slot =
        some after ∧ after.display = (window.view world, some (world, window))) ∧
    (session.page.faults.image = none →
      (session.respond (.setWorld slot width height bytes window)).1 = .done) := by
  have hcall : view.setWorldBytes slot session.page width height bytes window =
      { view with world := some (world, window) }.setMap slot session.page
        (window.view world) := by
    simp only [View.setWorldBytes, h]
    rfl
  exact withView_of_setMap (View.setWorldBytes slot · · width height bytes window) hview hcall

theorem respond_pan (hview : session.views slot = some view) {world : Grid} {window : Viewport}
    (h : view.world = some (world, window)) (direction : Direction) :
    let moved := window.move direction
    (∃ after, (session.respond (.pan slot direction)).2.views slot = some after ∧
      after.display = (moved.view world, some (world, moved))) ∧
    (session.page.faults.image = none → (session.respond (.pan slot direction)).1 = .done) := by
  intro moved
  have hcall : view.pan slot session.page direction =
      { view with world := some (world, moved) }.setMap slot session.page (moved.view world) := by
    simp only [View.pan, h]
    rfl
  exact withView_of_setMap (View.pan slot · · direction) hview hcall

-- What becomes of the larger map when a command is given.
theorem world_respond (hview : session.views slot = some view) {command : SessionCommand}
    (hends : command.ends slot = false) :
    ∃ after, (session.respond command).2.views slot = some after ∧
      after.world = (command.world? slot).or (view.world.map fun kept =>
        (kept.1, (command.step? slot).toList.foldl Viewport.move kept.2)) := by
  cases hworld : command.world? slot with
  | some given =>
    obtain ⟨width, height, bytes, rfl, hbytes⟩ := SessionCommand.world_eq_some hworld
    obtain ⟨⟨after, hafter, hdisplay⟩, _⟩ := respond_setWorld hview hbytes given.2
    exact ⟨after, hafter, congrArg Prod.snd hdisplay⟩
  | none =>
    rw [Option.none_or]
    cases hstep : command.step? slot with
    | some direction =>
      cases SessionCommand.eq_pan_of_step hstep
      cases hkept : view.world with
      | none =>
        have hidle : view.pan slot session.page direction = (.ok (), view, session.page) := by
          simp only [View.pan, hkept]
        have hrespond : session.respond (.pan slot direction) = (.done, session) :=
          withView_of_idle (View.pan slot · · direction) hview hidle
        rw [hrespond]
        exact ⟨view, hview, hkept⟩
      | some kept =>
        obtain ⟨⟨after, hafter, hdisplay⟩, _⟩ := respond_pan hview hkept direction
        exact ⟨after, hafter, congrArg Prod.snd hdisplay⟩
    | none =>
      have hkept : view.world.map (fun kept => (kept.1, [].foldl Viewport.move kept.2)) =
          view.world := by cases view.world <;> rfl
      rw [Option.toList_none, hkept]
      cases hbytes : command.bytes? slot with
      | some grid =>
        obtain ⟨width, height, bytes, rfl, hgrid⟩ := SessionCommand.bytes_eq_some hbytes
        obtain ⟨⟨after, hafter, hdisplay⟩, _⟩ := respond_setBytes hview hgrid
        exact ⟨after, hafter, congrArg Prod.snd hdisplay⟩
      | none =>
        have hsame := session.display_respond hends hbytes hworld hstep
        rw [hview] at hsame
        obtain ⟨after, hafter, hdisplay⟩ := Option.map_eq_some_iff.1 hsame
        exact ⟨after, hafter, congrArg Prod.snd hdisplay⟩

end Calls

theorem run_append_singleton (session : Session) (commands : List SessionCommand)
    (command : SessionCommand) :
    session.run (commands ++ [command]) = ((session.run commands).step command).2 := by
  rw [run, List.foldl_append]
  rfl

-- The larger map that a view keeps is the last that it was given, at the end of all steps since.
theorem world_run {view : View} (hview : session.views slot = some view)
    (hworld : view.world = none) {commands : List SessionCommand}
    (hcommands : ∀ command ∈ commands, command.ends slot = false) :
    ∃ after, (session.run commands).views slot = some after ∧
      after.world = (lastTour? slot commands).map Tour.place := by
  induction commands using List.reverseRecOn with
  | nil => exact ⟨view, hview, hworld⟩
  | append_singleton commands command ih =>
    obtain ⟨before, hbefore, hkept⟩ := ih fun earlier hearlier =>
      hcommands earlier (List.mem_append_left _ hearlier)
    have hends := hcommands command (List.mem_append_right _ List.mem_cons_self)
    have hcleared : (session.run commands).cleared.views slot = some before := hbefore
    obtain ⟨after, hafter, hmoved⟩ := world_respond hcleared hends
    refine ⟨after, ?_, ?_⟩
    · rw [run_append_singleton]
      exact hafter
    · rw [hmoved, hkept, lastTour_append_singleton, Option.map_or, Option.map_map, Option.map_map,
        Option.map_map]
      congr 1
      · cases command.world? slot <;> rfl
      · cases lastTour? slot commands with
        | none => rfl
        | some tour =>
          cases command.step? slot with
          | none => simp [Tour.place]
          | some direction =>
            simp [Tour.place, Viewport.after_append_singleton]

-- A view is mounted with nothing to show.
theorem exists_of_mountView {start : Session} {settings : Settings}
    (h : start.mountView slot (some settings) = (.done, session)) :
    ∃ view, session.views slot = some view ∧ view.world = none ∧ view.hover = none := by
  unfold mountView at h
  simp only at h
  split at h
  · cases h
  · rename_i view page hmount
    cases h
    obtain ⟨_, _, _, _, rfl, _⟩ := mount_cases hmount
    exact ⟨_, if_pos rfl, rfl, rfl⟩

theorem views_mountView {start : Session} {settings : Settings}
    (h : start.mountView slot (some settings) = (.done, session)) :
    ∃ view, session.views slot = some view ∧ view.world = none := by
  obtain ⟨view, hview, hworld, -⟩ := exists_of_mountView h
  exact ⟨view, hview, hworld⟩

-- After any commands, the map that a call brings is shown, a larger map is shown through its
-- window, and a step shows it through the window that all steps since have led to. Calls without
-- effect leave the session as it is, and nothing else changes what is shown. (The log is that of
-- the last step alone.)
theorem displayed_map {start : Session} {settings : Settings}
    (hmount : start.step (.mountView slot (some settings)) = (.done, session))
    {commands : List SessionCommand}
    (hcommands : ∀ command ∈ commands, command.ends slot = false) :
    let before := session.run commands
    before.world? slot = (lastTour? slot commands).map Tour.place ∧
    (∀ width height bytes grid, Grid.ofBytes width height bytes = .ok grid →
      let called := before.step (.setBytes slot width height bytes)
      called.2.displayed? slot = some grid ∧
        (before.page.faults.image = none → called.1 = .done)) ∧
    (∀ width height bytes window world, Grid.ofBytes width height bytes = .ok world →
      let called := before.step (.setWorld slot width height bytes window)
      called.2.displayed? slot = some (window.view world) ∧
        (before.page.faults.image = none → called.1 = .done)) ∧
    (∀ direction tour, lastTour? slot commands = some tour →
      let called := before.step (.pan slot direction)
      called.2.displayed? slot =
          some ((tour.window.after (tour.steps ++ [direction])).view tour.world) ∧
        (before.page.faults.image = none → called.1 = .done)) ∧
    (∀ width height bytes error, Grid.ofBytes width height bytes = .error error →
      before.step (.setBytes slot width height bytes) =
        (.failed (.map error), before.cleared)) ∧
    (∀ direction, lastTour? slot commands = none →
      before.step (.pan slot direction) = (.done, before.cleared)) ∧
    ∀ command, command.ends slot = false → command.bytes? slot = none →
      command.world? slot = none → command.step? slot = none →
      (before.step command).2.displayed? slot = before.displayed? slot := by
  intro before
  obtain ⟨fresh, hfresh, hnone⟩ := views_mountView hmount
  obtain ⟨view, hview, hworld⟩ := world_run hfresh hnone hcommands
  have hcleared : before.cleared.views slot = some view := hview
  have hshown : ∀ {after : Session} {shown : View} {display : Grid × Option (Grid × Viewport)},
      after.views slot = some shown → shown.display = display →
        after.displayed? slot = some display.1 := by
    intro after shown display hafter hdisplay
    rw [displayed?, hafter, ← hdisplay]
    rfl
  refine ⟨?_, fun width height bytes grid hgrid => ?_,
    fun width height bytes window world hgrid => ?_, fun direction tour htour => ?_,
    fun width height bytes error herror => ?_, fun direction htour => ?_,
    fun command hends hbytes hgiven hstep => ?_⟩
  · rw [world?, hview, Option.bind_some, hworld]
  · obtain ⟨⟨after, hafter, hdisplay⟩, hreply⟩ := respond_setBytes hcleared hgrid
    exact ⟨hshown hafter hdisplay, hreply⟩
  · obtain ⟨⟨after, hafter, hdisplay⟩, hreply⟩ := respond_setWorld hcleared hgrid window
    exact ⟨hshown hafter hdisplay, hreply⟩
  · have hkept : view.world = some tour.place := by rw [hworld, htour, Option.map_some]
    obtain ⟨⟨after, hafter, hdisplay⟩, hreply⟩ := respond_pan hcleared hkept direction
    rw [Viewport.after_append_singleton]
    exact ⟨hshown hafter hdisplay, hreply⟩
  · have hidle : view.setBytes slot before.cleared.page width height bytes =
        (.error (.map error), view, before.cleared.page) := by
      simp only [View.setBytes, herror]
    exact withView_of_idle (View.setBytes slot · · width height bytes) hcleared hidle
  · have hkept : view.world = none := by rw [hworld, htour, Option.map_none]
    have hidle : view.pan slot before.cleared.page direction =
        (.ok (), view, before.cleared.page) := by
      simp only [View.pan, hkept]
    exact withView_of_idle (View.pan slot · · direction) hcleared hidle
  · have hsame := congrArg (Option.map Prod.fst)
      (before.cleared.display_respond hends hbytes hgiven hstep)
    rw [Option.map_map, Option.map_map] at hsame
    exact hsame

-- A world of two cells under a window of one. The first step stops at the edge, and another map is
-- shown before the second.
def edgeRun : List SessionCommand :=
  [.setWorld 0 2 1 [1, 0, 2, 0] ⟨0, 0, 1, 1⟩, .pan 0 .left, .setBytes 0 1 1 [7, 0]]

theorem displayed_map_at_edge :
    let session := (bareSession.step (.mountView 0 (some {}))).2
    let before := session.run edgeRun
    (before.step (.pan 0 .right)).2.displayed? 0 = some ⟨1, 1, [⟨2, 0⟩], rfl⟩ ∧
    before.step (.setBytes 0 1 1 [7]) = (.failed (.map (.oddLength 1)), before.cleared) := by
  intro session before
  have hmount : bareSession.step (.mountView 0 (some {})) = (.done, session) := rfl
  have hcommands : ∀ command ∈ edgeRun, command.ends 0 = false := by decide
  have htour : lastTour? 0 edgeRun =
      some ⟨⟨2, 1, [⟨1, 0⟩, ⟨2, 0⟩], rfl⟩, ⟨0, 0, 1, 1⟩, [.left]⟩ := rfl
  obtain ⟨_, _, _, hpan, hfailed, _⟩ := displayed_map hmount hcommands
  exact ⟨(hpan .right _ htour).1, hfailed 1 1 [7] (.oddLength 1) rfl⟩

end Session

end CodePanel
