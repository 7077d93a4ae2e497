import CodePanel.Map.Geometry
import CodePanel.Overlay.Settings

namespace CodePanel.Map

open Json

-- The image that marks the cell under the mouse.
def highlightAsset : String := "highlight"

-- The two canvases of a map view, the size of a tile, and where images come from.
structure Settings where
  canvasId : String := "map"
  overlayId : String := "map_overlay"
  tileWidth : Float := 32.0
  tileHeight : Float := 32.0
  highlightAsset : String := Map.highlightAsset
  assetBase : String := "img/"
  assetExtension : String := ".png"

def Settings.validate (settings : Settings) : Except SettingsError Unit :=
  if settings.canvasId = settings.overlayId then .error (.duplicateId settings.canvasId)
  else match checkLength "tileWidth" settings.tileWidth with
    | .error error => .error error
    | .ok () => checkLength "tileHeight" settings.tileHeight

def Settings.geometry (settings : Settings) : Geometry :=
  ⟨settings.tileWidth, settings.tileHeight⟩

-- The address of an image.
def Settings.assetUrl (settings : Settings) (name : String) : String :=
  settings.assetBase ++ name ++ settings.assetExtension

def Settings.toValue (settings : Settings) : Value :=
  .ofFields [
    ("canvasId", .ofString settings.canvasId),
    ("overlayId", .ofString settings.overlayId),
    ("tileWidth", .ofFloat settings.tileWidth),
    ("tileHeight", .ofFloat settings.tileHeight),
    ("highlightAsset", .ofString settings.highlightAsset),
    ("assetBase", .ofString settings.assetBase),
    ("assetExtension", .ofString settings.assetExtension)]

-- Every field may be left out, and then has its usual value.
def Settings.ofValue? (value : Value) : Option Settings :=
  let usual : Settings := {}
  match value.record? ["canvasId", "overlayId", "tileWidth", "tileHeight", "highlightAsset",
    "assetBase", "assetExtension"] with
  | some [canvasId, overlayId, tileWidth, tileHeight, highlight, base, extension] => do
    some {
      canvasId := ← optional? usual.canvasId Value.string? canvasId
      overlayId := ← optional? usual.overlayId Value.string? overlayId
      tileWidth := ← optional? usual.tileWidth Value.float? tileWidth
      tileHeight := ← optional? usual.tileHeight Value.float? tileHeight
      highlightAsset := ← optional? usual.highlightAsset Value.string? highlight
      assetBase := ← optional? usual.assetBase Value.string? base
      assetExtension := ← optional? usual.assetExtension Value.string? extension }
  | _ => none

def Settings.write (settings : Settings) : String :=
  settings.toValue.toText

-- Reads and checks settings.
def Settings.read (text : String) : Except SettingsError Settings :=
  match (parse? text.toList).bind ofValue? with
  | none => .error .unreadable
  | some settings =>
    match settings.validate with
    | .error error => .error error
    | .ok () => .ok settings

end CodePanel.Map
