import CodePanel.Fit.Adjustment
import CodePanel.Overlay.Host

namespace CodePanel.Overlay

open Fit

-- An overlay holds no text. The saved paddings are those from before the inset, in the order of
-- the backdrops, and none at all if there was no inset.
structure Mounted where
  backdrops : List Nat
  options : Markup.Options
  saved : List Padding

-- Widens the padding of one backdrop after the other, and tells what each was before.
def insetAll [Host σ] (inset : Float) : List Nat → σ → List Padding × σ
  | [], host => ([], host)
  | backdrop :: rest, host =>
    let padding := Host.padding backdrop host
    let later := insetAll inset rest (Host.setPadding backdrop (padding.widen inset) host)
    (padding :: later.1, later.2)

-- The hint is on if the adjustment or the options ask for it.
def mergeHint (adjustment : Adjustment) (options : Markup.Options) : Markup.Options :=
  { options with spaceBreakHint := options.spaceBreakHint || adjustment.spaceBreakHint }

def Mounted.mount [Host σ] (backdrops : List Nat) (adjustment : Adjustment)
    (options : Markup.Options) (host : σ) : Mounted × σ :=
  let inset := if adjustment.inset != 0.0 then insetAll adjustment.inset backdrops host
    else ([], host)
  (⟨backdrops, mergeHint adjustment options, inset.1⟩, inset.2)

-- Fills every backdrop with the markup of a text.
def Mounted.input [Host σ] (overlay : Mounted) (text : String) (host : σ) : σ :=
  let html := Markup.highlight overlay.options text
  overlay.backdrops.foldl (fun host backdrop => Host.setHtml backdrop html host) host

def Mounted.scroll [Host σ] (overlay : Mounted) (scroll : Scroll) (host : σ) : σ :=
  syncScroll scroll overlay.backdrops host

def Mounted.refresh [Host σ] (overlay : Mounted) (text : String) (scroll : Scroll) (host : σ) : σ :=
  overlay.scroll scroll (overlay.input text host)

-- Puts back the saved paddings, in the order of the backdrops. The overlay keeps none of them.
def Mounted.restore [Host σ] (overlay : Mounted) (host : σ) : Mounted × σ :=
  ({ overlay with saved := [] }, (overlay.backdrops.zip overlay.saved).foldl
    (fun host (backdrop, padding) => Host.setPadding backdrop padding host) host)

def Mounted.unmount [Host σ] (overlay : Mounted) (host : σ) : σ :=
  (overlay.restore host).2

-- Gives the backdrops away. What is left of the overlay is unmounted like any other.
def Mounted.handBack [Host σ] (overlay : Mounted) (host : σ) : List Nat × σ :=
  let (rest, host) := overlay.restore host
  (rest.backdrops, { rest with backdrops := [] }.unmount host)

end CodePanel.Overlay
