namespace ScriptCore.Stretches

def contain : List Nat → Nat → Bool
  | outside :: inside :: rest, n =>
    if n < outside then false else if n < outside + inside then true else contain rest (n - (outside + inside))
  | _, _ => false

end ScriptCore.Stretches
