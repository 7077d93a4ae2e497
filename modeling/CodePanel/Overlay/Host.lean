namespace CodePanel.Overlay

-- Scroll offsets in pixels.
structure Scroll where
  top : Float
  left : Float

-- Horizontal padding in pixels.
structure Padding where
  left : Float
  right : Float
deriving DecidableEq

def Padding.widen (inset : Float) (padding : Padding) : Padding :=
  ⟨padding.left + inset, padding.right + inset⟩

-- A host keeps backdrops under numbers. Writing never fails: a backdrop that cannot take a value
-- drops it.
class Host (σ : Type) where
  setHtml : Nat → String → σ → σ
  setScroll : Nat → Scroll → σ → σ
  padding : Nat → σ → Padding
  setPadding : Nat → Padding → σ → σ

-- The same offsets for every target.
def syncScroll [Host σ] (scroll : Scroll) (targets : List Nat) (host : σ) : σ :=
  targets.foldl (fun host target => Host.setScroll target scroll host) host

end CodePanel.Overlay
