namespace CodePanel.Decimal

def twoTo (n : Nat) : Nat := Nat.pow 2 n

def tenTo (n : Nat) : Nat := Nat.pow 10 n

-- The power of ten as a binary number, rounded to nearest.
def tenToFloat (n : Nat) : Float := Float.ofScientific 1 false n

end CodePanel.Decimal
