import CodePanel.Page.Thrown

namespace CodePanel

-- A message may carry anything that can be thrown.
inductive Event where
  | plain
  | mouse (x y : Int)
  | message (data : Thrown)
  | close (code : Nat) (reason : String) (clean : Bool)

end CodePanel
