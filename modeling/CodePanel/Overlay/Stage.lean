import CodePanel.Overlay.Board
import CodePanel.Overlay.Mounted
import CodePanel.Overlay.Settings

namespace CodePanel.Overlay

open Fit

-- A board and the overlays mounted on it, each in a slot of its own. Overlays may share surfaces,
-- and one may list a surface twice.
structure Stage where
  board : Board
  slots : Nat → Option Mounted

inductive Command where
  | mount (slot : Nat) (backdrops : List Nat) (adjustment : Adjustment) (options : Markup.Options)
  | mountWith (slot : Nat) (backdrops : List Nat) (settings : String) (detected : Adjustment)
  | drop (slot : Nat)
  | handBack (slot : Nat)
  | input (slot : Nat) (text : String)
  | scroll (slot : Nat) (scroll : Scroll)
  | refresh (slot : Nat) (text : String) (scroll : Scroll)
  | count (slot : Nat)
  | syncScroll (scroll : Scroll) (targets : List Nat)

inductive Reply where
  | done
  | notMounted
  | failed (error : SettingsError)
  | options (options : Markup.Options)
  | flag (value : Bool)
  | count (value : Nat)

def Stage.ofBoard (board : Board) : Stage :=
  ⟨board, fun _ => none⟩

def Stage.setSlot (stage : Stage) (slot : Nat) (overlay : Option Mounted) : Stage :=
  { stage with slots := fun other => if other = slot then overlay else stage.slots other }

-- Unmounts what is in a slot, if anything is.
def Stage.clear (stage : Stage) (slot : Nat) : Stage :=
  match stage.slots slot with
  | some overlay => { stage with board := overlay.unmount stage.board }.setSlot slot none
  | none => stage

def Stage.mount (stage : Stage) (slot : Nat) (backdrops : List Nat) (adjustment : Adjustment)
    (options : Markup.Options) : Reply × Stage :=
  let stage := stage.clear slot
  let (overlay, board) := Mounted.mount backdrops adjustment options stage.board
  (.options overlay.options, { stage with board }.setSlot slot (some overlay))

-- Runs a change of the board that the overlay in a slot makes.
def Stage.withSlot (stage : Stage) (slot : Nat) (change : Mounted → Board → Board) :
    Reply × Stage :=
  match stage.slots slot with
  | some overlay => (.done, { stage with board := change overlay stage.board })
  | none => (.notMounted, stage)

def Stage.step (stage : Stage) : Command → Reply × Stage
  | .mount slot backdrops adjustment options => stage.mount slot backdrops adjustment options
  | .mountWith slot backdrops settings detected =>
    match Settings.read settings with
    | .ok settings => stage.mount slot backdrops (settings.adjust detected) settings.options
    | .error error => (.failed error, stage.clear slot)
  | .drop slot => (.flag (stage.slots slot).isSome, stage.clear slot)
  | .handBack slot =>
    match stage.slots slot with
    | some overlay =>
      let (backdrops, board) := overlay.handBack stage.board
      (.count backdrops.length, { stage with board }.setSlot slot none)
    | none => (.notMounted, stage)
  | .input slot text => stage.withSlot slot fun overlay => overlay.input text
  | .scroll slot scroll => stage.withSlot slot fun overlay => overlay.scroll scroll
  | .refresh slot text scroll => stage.withSlot slot fun overlay => overlay.refresh text scroll
  | .count slot =>
    match stage.slots slot with
    | some overlay => (.count overlay.backdrops.length, stage)
    | none => (.notMounted, stage)
  | .syncScroll scroll targets =>
    (.done, { stage with board := Overlay.syncScroll scroll targets stage.board })

-- The stage after a list of commands.
def Stage.run (stage : Stage) (commands : List Command) : Stage :=
  commands.foldl (fun stage command => (stage.step command).2) stage

end CodePanel.Overlay
