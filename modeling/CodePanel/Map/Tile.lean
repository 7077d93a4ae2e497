import CodePanel.Json.Parser
import CodePanel.Json.Record
import CodePanel.Json.Writer

namespace CodePanel.Map

open Json

-- What a cell shows, and by how many quarter turns.
structure Tile where
  id : UInt8
  orientation : UInt8
deriving DecidableEq

-- Air.
def Tile.empty : Tile := ⟨0, 0⟩

-- The name of the image of a tile.
def Tile.assetName (tile : Tile) : String :=
  "tile" ++ toString tile.id.toNat ++ "_" ++ toString tile.orientation.toNat

def Tile.toValue (tile : Tile) : Value :=
  .ofFields [("id", .ofNat tile.id.toNat), ("orientation", .ofNat tile.orientation.toNat)]

def Tile.ofValue? (value : Value) : Option Tile :=
  match value.record? ["id", "orientation"] with
  | some [id, orientation] => do
    some ⟨← required? Value.byte? id, ← required? Value.byte? orientation⟩
  | _ => none

def Tile.read? (text : String) : Option Tile :=
  (parse? text.toList).bind ofValue?

end CodePanel.Map
