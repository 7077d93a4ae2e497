import CodePanel.Proofs.Session.Displays

namespace CodePanel

open Asset Map

-- Whether an action gives the view another map.
def ViewAction.replacesMap (view : View) : ViewAction → Bool
  | .pan _ => view.world.isSome
  | action => action.bringsMap

-- Something is done to the view in a slot, or anything else is asked of the session.
inductive Happening where
  | action (action : ViewAction)
  | command (command : SessionCommand)

namespace View

variable {view : View} {slot : Nat}

-- The cell under the mouse lies in the map that is shown.
def HoverInside (view : View) : Prop :=
  ∀ cell, view.hover = some cell → cell.x < view.grid.width ∧ cell.y < view.grid.height

theorem hoverInside_of_none (h : view.hover = none) : view.HoverInside := by
  intro cell hcell
  rw [h] at hcell
  cases hcell

theorem hover_setMap (view : View) (page : Page) (grid : Grid) :
    (view.setMap slot page grid).2.1.hover = none := by
  obtain ⟨loader, hset⟩ := view.exists_setMap_eq page grid
  rw [hset]

theorem hoverInside_setMap (view : View) (page : Page) (grid : Grid) :
    (view.setMap slot page grid).2.1.HoverInside :=
  hoverInside_of_none (hover_setMap view page grid)

-- A cell is looked up in the map that is shown at the time.
theorem hoverInside_point (view : View) (page : Page) (x y : Int) :
    (view.point page x y).1.HoverInside :=
  fun _ => Geometry.lt_of_cellAt?

end View

namespace Session

variable {session after : Session} {slot : Nat}

-- An action gives the view another map, leaves it alone, or is an event.
theorem act_cases {view : View} (hview : session.views slot = some view) (action : ViewAction) :
    (action.replacesMap view = true ∧ ∃ moved grid, (session.act slot action).views slot =
      some (View.setMap slot moved session.page grid).2.1) ∨
    action.replacesMap view = false ∧ ((session.act slot action).views slot = some view ∨
      ∃ page target type event, session.act slot action =
        { session with page }.dispatch target type event) := by
  cases action with
  | setMap grid => exact .inl ⟨rfl, view, grid, views_withView hview _⟩
  | setBytes width height bytes =>
    simp only [ViewAction.replacesMap, ViewAction.bringsMap, act, views_withView hview,
      View.setBytes]
    cases Grid.ofBytes width height bytes with
    | error error => exact .inr ⟨rfl, .inl rfl⟩
    | ok grid => exact .inl ⟨rfl, view, grid, rfl⟩
  | setWorld world window => exact .inl ⟨rfl, _, _, views_withView hview _⟩
  | pan direction =>
    rw [ViewAction.replacesMap, act, views_withView hview, View.pan]
    cases view.world with
    | none => exact .inr ⟨rfl, .inl rfl⟩
    | some kept => exact .inl ⟨rfl, _, _, rfl⟩
  | redraw => exact .inr ⟨rfl, .inl (views_withView hview _)⟩
  | mouse type event =>
    simp only [act, hview]
    exact .inr ⟨rfl, .inr ⟨session.page, _, type, event, rfl⟩⟩
  | image n type throws =>
    simp only [act, imageEvent]
    split
    · exact .inr ⟨rfl, .inr ⟨_, _, type, .plain, rfl⟩⟩
    · exact .inr ⟨rfl, .inl hview⟩

def happen (session : Session) (slot : Nat) : Happening → Session
  | .action action => session.act slot action
  | .command command => (session.step command).2

def happenAll (session : Session) (slot : Nat) (happenings : List Happening) : Session :=
  happenings.foldl (fun session happening => session.happen slot happening) session

def hovered? (session : Session) (slot : Nat) : Option (Option Cell) :=
  (session.views slot).map View.hover

def HoversInside (session : Session) (slot : Nat) : Prop :=
  ∃ view, session.views slot = some view ∧ view.HoverInside

namespace HoversInside

theorem of_views (h : session.HoversInside slot) (hviews : after.views slot = session.views slot) :
    after.HoversInside slot := by
  obtain ⟨view, hview, hinside⟩ := h
  exact ⟨view, hviews.trans hview, hinside⟩

section Events

theorem hover (h : session.HoversInside slot) {change : View → Page → View × Page}
    (hchange : ∀ view page, (change view page).1.HoverInside) :
    (session.hover slot change).HoversInside slot := by
  obtain ⟨view, hview, -⟩ := h
  simp only [Session.hover, hview]
  exact ⟨_, if_pos rfl, hchange view session.page⟩

theorem settleView (h : session.HoversInside slot) (name : String) (entry : Entry Nat) :
    (session.settleView slot name entry).HoversInside slot := by
  obtain ⟨view, hview, hinside⟩ := h
  simp only [Session.settleView, hview]
  exact ⟨_, if_pos rfl, hinside⟩

theorem settle (h : session.HoversInside slot) (name : String) (entry : Entry Nat)
    (loader : LoaderName) : (session.settle name entry loader).HoversInside slot := by
  by_cases hloader : loader = .view slot
  · subst hloader
    exact h.settleView name entry
  · exact h.of_views (views_settle_of_ne session hloader name entry)

theorem handle (h : session.HoversInside slot) (event : Event) (listener : Listener) :
    (session.handle event listener).HoversInside slot := by
  by_cases hslot : listener.viewSlot? = some slot
  · cases listener with
    | point other =>
      cases hslot
      cases event with
      | mouse x y => exact h.hover fun view page => view.hoverInside_point page x y
      | _ => exact h
    | leave other =>
      cases hslot
      exact h.hover fun _ _ => View.hoverInside_of_none rfl
    | arrive loader name image => exact h.settle name _ loader
    | fail loader name image => exact h.settle name _ loader
    | _ => cases hslot
  · exact h.of_views (views_handle_of_ne session event hslot)

theorem dispatch (h : session.HoversInside slot) (target : Target) (type : String)
    (event : Event) : (session.dispatch target type event).HoversInside slot := by
  unfold Session.dispatch
  generalize List.filter _ _ = listeners
  induction listeners generalizing session with
  | nil => exact h
  | cons listener rest ih =>
    have hreadied : (session.readied target listener).HoversInside slot :=
      h.of_views (by rw [views_readied])
    exact ih (hreadied.handle event listener)

end Events

theorem act (h : session.HoversInside slot) (action : ViewAction) :
    (session.act slot action).HoversInside slot := by
  obtain ⟨view, hview, hinside⟩ := h
  rcases act_cases hview action with
    ⟨-, moved, grid, hact⟩ | ⟨-, hact | ⟨page, target, type, event, hact⟩⟩
  · exact ⟨_, hact, moved.hoverInside_setMap session.page grid⟩
  · exact ⟨view, hact, hinside⟩
  · rw [hact]
    refine dispatch ?_ target type event
    exact ⟨view, hview, hinside⟩

theorem step (h : session.HoversInside slot) {command : SessionCommand}
    (hends : command.ends slot = false) : (session.step command).2.HoversInside slot := by
  have hcleared : session.cleared.HoversInside slot := h.of_views rfl
  change (session.cleared.respond command).2.HoversInside slot
  cases haction : command.action? slot with
  | some action =>
    rw [respond_of_action haction]
    exact hcleared.act action
  | none =>
    rcases session.cleared.respond_cases hends haction with
      hviews | ⟨page, target, type, event, hevent⟩
    · exact hcleared.of_views hviews
    · rw [hevent]
      refine dispatch ?_ target type event
      exact hcleared.of_views rfl

theorem happenAll (h : session.HoversInside slot) {happenings : List Happening}
    (hends : ∀ command, .command command ∈ happenings → command.ends slot = false) :
    (session.happenAll slot happenings).HoversInside slot := by
  induction happenings generalizing session with
  | nil => exact h
  | cons happening rest ih =>
    have hrest : ∀ command, .command command ∈ rest → command.ends slot = false :=
      fun command hcommand => hends command (List.mem_cons_of_mem _ hcommand)
    have hfirst : (session.happen slot happening).HoversInside slot := by
      cases happening with
      | action action => exact h.act action
      | command command => exact h.step (hends command List.mem_cons_self)
    exact ih hfirst hrest

end HoversInside

section Replacing

variable {view : View} {action : ViewAction}

-- An action that gives another map leaves no cell under the mouse, whether or not the images of
-- the map can be asked for.
theorem hovered_act (hview : session.views slot = some view)
    (h : action.replacesMap view = true) : (session.act slot action).hovered? slot = some none := by
  rcases act_cases hview action with ⟨-, moved, grid, hact⟩ | ⟨hkept, -⟩
  · rw [hovered?, hact, Option.map_some, View.hover_setMap]
  · rw [hkept] at h
    cases h

-- All other actions keep the map.
theorem displayed_act (hview : session.views slot = some view)
    (h : action.replacesMap view = false) :
    (session.act slot action).displayed? slot = some view.grid := by
  have hlasting : View.IsLasting View.grid := fun _ _ _ => rfl
  rcases act_cases hview action with ⟨hreplaced, -⟩ | ⟨-, hact | ⟨page, target, type, event, hact⟩⟩
  · rw [hreplaced] at h
    cases h
  · rw [displayed?, hact, Option.map_some]
  · rw [displayed?, hact, map_views_dispatch hlasting, hview, Option.map_some]

end Replacing

theorem hoversInside_mountView {start : Session} {settings : Settings}
    (h : start.mountView slot (some settings) = (.done, session)) : session.HoversInside slot := by
  obtain ⟨view, hview, -, hhover⟩ := exists_of_mountView h
  exact ⟨view, hview, View.hoverInside_of_none hhover⟩

-- At every moment of a mounted view's life, whatever it is given and wherever the mouse moves, the
-- cell under the mouse is a cell of the map that is shown. An action that gives another map leaves
-- no cell under the mouse, and no other action changes the map.
theorem hovered_cell_inside_map {start : Session} {settings : Settings}
    (hmount : start.mountView slot (some settings) = (.done, session))
    {happenings : List Happening}
    (hends : ∀ command, .command command ∈ happenings → command.ends slot = false) :
    let now := session.happenAll slot happenings
    ∃ view, now.views slot = some view ∧
      (∀ cell, view.hover = some cell → cell.x < view.grid.width ∧ cell.y < view.grid.height) ∧
      ∀ action : ViewAction,
        (action.replacesMap view = true → (now.act slot action).hovered? slot = some none) ∧
        (action.replacesMap view = false →
          (now.act slot action).displayed? slot = some view.grid) := by
  intro now
  obtain ⟨view, hview, hinside⟩ := (hoversInside_mountView hmount).happenAll hends
  exact ⟨view, hview, hinside, fun action => ⟨hovered_act hview, displayed_act hview⟩⟩

-- The mouse stands on the second of two cells, and no image can be made, when a map of one cell
-- comes. A map whose bytes do not fit has been refused before.
def shrinkingRun : List Happening :=
  [.action (.setWorld twoCells ⟨0, 0, 2, 1⟩),
    .command (.event "map_overlay" "mousemove" (.mouse 40 5)), .command (.setBytes 0 1 1 [7]),
    .command (.faults { image := some .null })]

theorem hovered_cell_before_smaller_map :
    let now := (bareSession.mountView 0 (some {})).2.happenAll 0 shrinkingRun
    now.hovered? 0 = some (some ⟨1, 0⟩) ∧
    (∃ view, now.views 0 = some view ∧
      ∀ cell, view.hover = some cell → cell.x < 2 ∧ cell.y < 1) ∧
    (now.act 0 (.setMap (.generate 1 1 fun _ _ => ⟨1, 0⟩))).hovered? 0 = some none := by
  intro now
  have hmount : bareSession.mountView 0 (some {}) =
      (.done, (bareSession.mountView 0 (some {})).2) := rfl
  have hends : ∀ command, .command command ∈ shrinkingRun → command.ends 0 = false := by
    intro command hcommand
    simp only [shrinkingRun, List.mem_cons, reduceCtorEq, Happening.command.injEq, false_or,
      List.not_mem_nil, or_false] at hcommand
    rcases hcommand with rfl | rfl | rfl <;> rfl
  have hhovered : now.hovered? 0 = some (some ⟨1, 0⟩) := by
    decide +kernel
  have hsize : (now.displayed? 0).map (fun grid => (grid.width, grid.height)) = some (2, 1) := by
    decide +kernel
  obtain ⟨view, hview, hinside, haction⟩ := hovered_cell_inside_map hmount hends
  rw [displayed?, hview] at hsize
  injection Option.some.inj hsize with hwidth hheight
  refine ⟨hhovered, ⟨view, hview, fun cell hcell => ?_⟩, (haction (.setMap _)).1 rfl⟩
  rw [← hwidth, ← hheight]
  exact hinside cell hcell

end Session

end CodePanel
