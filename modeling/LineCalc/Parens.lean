import LineCalc.Token
import LineCalc.CalcError

/-! Parentheses: whether they match, where they first fail to, and how deep they nest. Only
    operator tokens count. -/
namespace LineCalc.Parens

/-- Reads on with the starts of the parentheses now open, the innermost first. -/
def balanceFrom : List Nat → List Token → Except CalcError Unit
  | [], [] => .ok ()
  | p :: _, [] => .error (.unbalanced p)
  | pending, t :: ts =>
    if t.opens then balanceFrom (t.start :: pending) ts
    else if t.closes then
      match pending with
      | [] => .error (.unbalanced t.start)
      | _ :: outer => balanceFrom outer ts
    else balanceFrom pending ts

def balance (ts : List Token) : Except CalcError Unit := balanceFrom [] ts

def depthFrom (level deepest : Nat) : List Token → Nat
  | [] => deepest
  | t :: ts =>
    if t.opens then depthFrom (level + 1) (max deepest (level + 1)) ts
    else if t.closes then depthFrom (level - 1) deepest ts
    else depthFrom level deepest ts

def depth (ts : List Token) : Nat := depthFrom 0 0 ts

end LineCalc.Parens
