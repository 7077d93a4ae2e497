namespace CodePanel.Text

-- The order of texts: character by character, by code point.
def isBefore : List Char → List Char → Bool
  | [], _ => true
  | _ :: _, [] => false
  | a :: s, b :: t => a.toNat < b.toNat || (a.toNat == b.toNat && isBefore s t)

-- Texts in ascending order.
def sortTexts (texts : List String) : List String :=
  texts.mergeSort fun a b => isBefore a.toList b.toList

end CodePanel.Text
