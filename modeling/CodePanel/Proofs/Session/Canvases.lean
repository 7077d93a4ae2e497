import CodePanel.Proofs.Session.Following
import CodePanel.Proofs.Session.Tended
import CodePanel.Proofs.View.Mounting

namespace CodePanel

open Asset Map

-- What can happen to a mounted map view: it is given another map or told to draw, the mouse does
-- something over it, or an image of the page arrives or fails. Drawing the image may then throw.
inductive ViewAction where
  | setMap (grid : Grid)
  | setBytes (width height : Nat) (bytes : List UInt8)
  | setWorld (world : Grid) (viewport : Viewport)
  | pan (direction : Direction)
  | redraw
  | mouse (type : String) (event : Event)
  | image (n : Nat) (type : String) (throws : Option Thrown)

-- Whether there is a map after the action, whatever there was before.
def ViewAction.bringsMap : ViewAction → Bool
  | .setMap _ | .setWorld .. => true
  | .setBytes width height bytes => (Grid.ofBytes width height bytes).isOk
  | _ => false

-- The image that throws after the action.
def ViewAction.refusing? : ViewAction → Option Nat
  | .image n _ (some _) => some n
  | _ => none

def Session.act (session : Session) (slot : Nat) : ViewAction → Session
  | .setMap grid => (session.withView slot fun view page => view.setMap slot page grid).2
  | .setBytes width height bytes =>
    (session.withView slot fun view page => view.setBytes slot page width height bytes).2
  | .setWorld world viewport =>
    (session.withView slot fun view page => view.setWorld slot page world viewport).2
  | .pan direction => (session.withView slot fun view page => view.pan slot page direction).2
  | .redraw => (session.withView slot fun view page => (.ok (), view, view.redraw page)).2
  | .mouse type event =>
    match session.views slot with
    | none => session
    | some view => session.dispatch (.element view.overlay) type event
  | .image n type throws => (session.imageEvent n type throws).2

def Session.actAll (session : Session) (slot : Nat) (actions : List ViewAction) : Session :=
  actions.foldl (fun session action => session.act slot action) session

-- What was drawn on an element since it was last cleared.
def Page.drawsOf (page : Page) (n : Nat) : List (Sprite String) :=
  ((page.drawingOf? n).map Drawing.draws).getD []

namespace Session

variable {refusing : Nat → Prop} {slot : Nat} {hasMap : Prop} {session : Session}

theorem Follows.withView (h : session.Follows refusing slot hasMap) {hasMap' : Prop}
    {change : View → Page → Except Error Unit × View × Page}
    (hcanvases : ∀ view page, (change view page).2.1.canvases = view.canvases)
    (hchange : ∀ {view : View} {page}, view.Sound refusing slot page →
      (hasMap → view.InStep refusing page) →
      (change view page).2.1.Sound refusing slot (change view page).2.2 ∧
        (hasMap' → (change view page).2.1.InStep refusing (change view page).2.2)) :
    (session.withView slot change).2.Follows refusing slot hasMap' := by
  obtain ⟨view, hmounted, hview, hmap⟩ := h.mounted
  obtain ⟨hsound, hstep⟩ := hchange hview hmap
  simp only [Session.withView, hmounted]
  exact h.own hmounted (hcanvases view session.page) hsound hstep

theorem canvases_setMap (view : View) (page : Page) (grid : Grid) :
    (view.setMap slot page grid).2.1.canvases = view.canvases := by
  obtain ⟨loader, hset⟩ := view.exists_setMap_eq page grid
  rw [hset]
  rfl

theorem canvases_setWorld (view : View) (page : Page) (world : Grid) (viewport : Viewport) :
    (view.setWorld slot page world viewport).2.1.canvases = view.canvases :=
  canvases_setMap { view with world := some (world, viewport) } page _

theorem Follows.setMap (h : session.Follows refusing slot hasMap) (hasMap' : Prop) (grid : Grid) :
    (session.withView slot fun view page => view.setMap slot page grid).2.Follows refusing slot
      hasMap' := by
  refine h.withView (fun view page => canvases_setMap view page grid) fun hview _ => ?_
  have hset := View.inStep_setMap hview grid
  exact ⟨hset.1, fun _ => hset.2⟩

theorem Follows.pan (h : session.Follows refusing slot hasMap) (direction : Direction) :
    (session.withView slot fun view page => view.pan slot page direction).2.Follows refusing slot
      hasMap := by
  refine h.withView (fun view page => ?_) fun {view page} hview hstep => ?_
  · unfold View.pan
    split
    · rfl
    · exact canvases_setWorld view page _ _
  · unfold View.pan
    split
    · exact ⟨hview, hstep⟩
    · rename_i world viewport _
      have hset := View.inStep_setWorld hview world (viewport.move direction)
      exact ⟨hset.1, fun _ => hset.2⟩

theorem Follows.imageEvent (h : session.Follows refusing slot hasMap) {n : Nat}
    {throws : Option Thrown} (hrefusing : throws.isSome → refusing n) (type : String) :
    (session.imageEvent n type throws).2.Follows refusing slot hasMap := by
  unfold Session.imageEvent
  split
  · refine Follows.dispatch ?_ _ _ _
    refine h.aside rfl (fun _ => rfl) fun _ _ => ?_
    exact .modifyImage (fun _ => rfl) (fun _ hthrows => .inr (hrefusing hthrows))
      (fun _ _ hlistener => .inl hlistener)
  · exact h

theorem Follows.weaken {hasMap' : Prop} (h : session.Follows refusing slot hasMap)
    (hmap : hasMap' → hasMap) : session.Follows refusing slot hasMap' := by
  obtain ⟨view, hmounted, hsound, hstep⟩ := h.mounted
  exact ⟨⟨view, hmounted, hsound, fun hmap' => hstep (hmap hmap')⟩, h.owned⟩

theorem Follows.or_of_not {p : Prop} (h : session.Follows refusing slot hasMap) (hp : ¬p) :
    session.Follows refusing slot (hasMap ∨ p) :=
  h.weaken fun hmap => hmap.resolve_right hp

theorem Follows.act (h : session.Follows refusing slot hasMap) (action : ViewAction)
    (hrefusing : ∀ n, action.refusing? = some n → refusing n) :
    (session.act slot action).Follows refusing slot (hasMap ∨ action.bringsMap) := by
  cases action with
  | setMap grid => exact h.setMap _ grid
  | setBytes width height bytes =>
    simp only [Session.act, ViewAction.bringsMap, View.setBytes]
    cases Grid.ofBytes width height bytes with
    | error error =>
      exact (h.withView (fun _ _ => rfl) fun hview hstep => ⟨hview, hstep⟩).or_of_not nofun
    | ok grid => exact h.setMap _ grid
  | setWorld world viewport =>
    refine h.withView (fun view page => canvases_setWorld view page _ _) fun hview _ => ?_
    have hset := View.inStep_setWorld hview world viewport
    exact ⟨hset.1, fun _ => hset.2⟩
  | pan direction => exact (h.pan direction).or_of_not nofun
  | redraw =>
    refine (h.withView (fun _ _ => rfl) fun hview hstep => ?_).or_of_not nofun
    exact ⟨hview.redraw, fun hmap => (hstep hmap).redraw hview⟩
  | mouse type event =>
    obtain ⟨view, hmounted, _⟩ := h.mounted
    simp only [Session.act, hmounted]
    exact (h.dispatch _ _ _).or_of_not nofun
  | image n type throws =>
    have hthrows : throws.isSome → refusing n := by
      intro hsome
      cases throws with
      | none => cases hsome
      | some thrown => exact hrefusing n rfl
    exact (h.imageEvent hthrows type).or_of_not nofun

theorem Follows.actAll (h : session.Follows refusing slot hasMap) (actions : List ViewAction)
    (hrefusing : ∀ n ∈ actions.filterMap ViewAction.refusing?, refusing n) :
    (session.actAll slot actions).Follows refusing slot
      (hasMap ∨ actions.any ViewAction.bringsMap) := by
  induction actions generalizing session hasMap with
  | nil => exact h.or_of_not nofun
  | cons action rest ih =>
    have hact := h.act action fun n hn => hrefusing n (List.mem_filterMap.2 ⟨action, by simp, hn⟩)
    have hrest := ih hact fun n hn => hrefusing n (by
      rw [List.filterMap_cons]
      split
      · exact hn
      · exact List.mem_cons_of_mem _ hn)
    refine hrest.weaken fun hmap => ?_
    rw [List.any_cons, Bool.or_eq_true] at hmap
    exact or_assoc.2 hmap

theorem follows_mountView {start : Session} (htended : start.Tended) {settings : Settings}
    (hmount : start.mountView slot (some settings) = (.done, session))
    (howned : session.OwnsCanvases slot) : session.Follows refusing slot False := by
  refine ⟨?_, howned⟩
  unfold Session.mountView at hmount
  simp only at hmount
  split at hmount
  · cases hmount
  · rename_i view page hview
    cases hmount
    have hsound : view.Sound refusing slot page :=
      View.sound_mount (not_heard_clearView htended slot) hview
    exact ⟨view, by simp [setView, setEntry], hsound, False.elim⟩

-- The marker is drawn on the cell under the mouse, unless its image throws.
theorem map_render_hoverSprites (view : View) (page : Page) (missing : List Nat) :
    (view.hoverSprites.filter (!missing.contains ·.asset)).map page.render =
      match view.hover, view.loader.cache.get? view.settings.highlightAsset with
      | some cell, some image =>
        let origin := view.geometry.cellOrigin cell
        if image ∈ missing then []
        else [⟨page.srcOf image, origin.1, origin.2, view.geometry.tileWidth,
          view.geometry.tileHeight⟩]
      | _, _ => [] := by
  unfold View.hoverSprites hoverSprites
  cases view.hover with
  | none => rfl
  | some cell =>
    cases view.loader.cache.get? view.settings.highlightAsset with
    | none => rfl
    | some image =>
      by_cases himage : image ∈ missing
      · simp [Geometry.sprite, himage]
      · simp [Geometry.sprite, himage, Page.render]

-- Whenever all images have arrived or failed, the canvases of a map view that has been given a map
-- show the map and the marker as they are now. Nothing is missing but images that were made to
-- throw.
theorem canvases_in_step {start session : Session} (hstart : start.Reachable) {slot : Nat}
    {settings : Settings} (hmount : start.mountView slot (some settings) = (.done, session))
    (howned : session.OwnsCanvases slot) (actions : List ViewAction)
    (hmap : actions.any ViewAction.bringsMap) :
    let page := (session.actAll slot actions).page
    ∃ view, (session.actAll slot actions).views slot = some view ∧ (view.imagesReady →
      ∃ missing missing' : List Nat,
        (∀ n ∈ missing ++ missing', n ∈ actions.filterMap ViewAction.refusing?) ∧
        page.drawsOf view.canvas =
          ((drawTiles view.geometry view.loader.cache view.grid {}).2.draws.filter
            (!missing.contains ·.asset)).map page.render ∧
        page.drawsOf view.overlay =
          match view.hover, view.loader.cache.get? view.settings.highlightAsset with
          | some cell, some image =>
            let origin := view.geometry.cellOrigin cell
            if image ∈ missing' then []
            else [⟨page.srcOf image, origin.1, origin.2, view.geometry.tileWidth,
              view.geometry.tileHeight⟩]
          | _, _ => []) := by
  intro page
  have hfollows : session.Follows (· ∈ actions.filterMap ViewAction.refusing?) slot False :=
    follows_mountView hstart.tended hmount howned
  obtain ⟨view, hview, _, hstep⟩ := (hfollows.actAll actions fun _ hn => hn).mounted
  refine ⟨view, hview, fun hready => ?_⟩
  have hpending : view.loader.cache.pending = 0 := of_decide_eq_true hready
  obtain ⟨⟨base, missing, hbase, hmissing, hdraws⟩, ⟨top, missing', htop, hmissing', hdraws'⟩⟩ :=
    (hstep (.inr hmap)).shown hpending
  refine ⟨missing, missing', ?_, ?_, ?_⟩
  · intro n hn
    rcases List.mem_append.1 hn with hn | hn
    · exact hmissing n hn
    · exact hmissing' n hn
  · rw [Page.drawsOf, hbase]
    exact hdraws
  · rw [Page.drawsOf, htop]
    exact hdraws'.trans (map_render_hoverSprites view page missing')

end Session

-- A page with nothing but the two canvases.
def bareSession : Session where
  access := .direct
  page.elements := [{ id := "map", kind := .canvas }, { id := "map_overlay", kind := .canvas }]

theorem reachable_bareSession : bareSession.Reachable := by
  refine ⟨.direct, bareSession.page, [], fun target => ?_, rfl⟩
  cases target with
  | element n =>
    match n with
    | 0 => rfl
    | 1 => rfl
    | _ + 2 => rfl
  | image n => rfl
  | socket n => rfl

-- Two cells with the same tile. The mouse comes to the second one when all images have arrived.
def twoCells : Grid :=
  .generate 2 1 fun _ _ => ⟨1, 0⟩

def twoCellRun : List ViewAction :=
  [.setMap twoCells, .image 1 "load" none, .image 0 "load" none, .mouse "mousemove" (.mouse 40 5)]

theorem assetNames_twoCells : twoCells.assetNames = ["tile1_0"] := by
  have hnames : (twoCells.cells.map Tile.assetName).eraseDups = ["tile1_0"] := by decide
  simp [Grid.assetNames, Text.sortTexts, hnames]

theorem canvases_in_step_second_cell :
    let session := (bareSession.mountView 0 (some {})).2.actAll 0 twoCellRun
    ∃ view, session.views 0 = some view ∧ view.imagesReady = true ∧ view.hover = some ⟨1, 0⟩ ∧
      session.page.drawsOf view.canvas = [⟨"img/tile1_0.png", 0.0, 0.0, 32.0, 32.0⟩,
        ⟨"img/tile1_0.png", 32.0, 0.0, 32.0, 32.0⟩] ∧
      session.page.drawsOf view.overlay = [⟨"img/highlight.png", 32.0, 0.0, 32.0, 32.0⟩] := by
  intro session
  have hstate : ∀ view ∈ session.views 0, view.imagesReady = true ∧ view.hover = some ⟨1, 0⟩ ∧
      view.loader.cache.get? view.settings.highlightAsset = some 0 ∧ view.geometry = ⟨32.0, 32.0⟩ ∧
      (drawTiles view.geometry view.loader.cache view.grid {}).2.draws =
        [⟨1, 0.0, 0.0, 32.0, 32.0⟩, ⟨1, 32.0, 0.0, 32.0, 32.0⟩] := by
    simp only [session, twoCellRun, Session.actAll, List.foldl, Session.act, View.setMap,
      assetNames_twoCells]
    decide +kernel
  have hsources : session.page.srcOf 0 = "img/highlight.png" ∧
      session.page.srcOf 1 = "img/tile1_0.png" := by
    simp only [session, twoCellRun, Session.actAll, List.foldl, Session.act, View.setMap,
      assetNames_twoCells]
    decide +kernel
  have howned : (bareSession.mountView 0 (some {})).2.OwnsCanvases 0 := by
    intro view _ other hother neighbour hneighbour
    have hnone : (bareSession.mountView 0 (some {})).2.views other = none := if_neg hother
    rw [hnone] at hneighbour
    cases hneighbour
  have hmount : bareSession.mountView 0 (some {}) =
      (.done, (bareSession.mountView 0 (some {})).2) := rfl
  obtain ⟨view, hview, hdrawn⟩ :=
    Session.canvases_in_step reachable_bareSession hmount howned twoCellRun rfl
  obtain ⟨hready, hhover, hmarker, hgeometry, htiles⟩ := hstate view hview
  obtain ⟨missing, missing', hmissing, hbase, htop⟩ := hdrawn hready
  have hnone : missing ++ missing' = [] :=
    List.eq_nil_iff_forall_not_mem.2 fun n hn => List.not_mem_nil (hmissing n hn)
  obtain ⟨rfl, rfl⟩ := List.append_eq_nil_iff.1 hnone
  have horigin : (⟨32.0, 32.0⟩ : Geometry).cellOrigin ⟨1, 0⟩ = (32.0, 0.0) := by
    decide +kernel
  refine ⟨view, hview, hready, hhover, ?_, ?_⟩
  · rw [hbase, htiles, ← hsources.2]
    rfl
  · rw [htop]
    simp only [hhover, hmarker, hgeometry, horigin, List.not_mem_nil, if_false]
    rw [← hsources.1]

end CodePanel
