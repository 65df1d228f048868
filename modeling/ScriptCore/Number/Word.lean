namespace ScriptCore.Word

/-- Powers of numbers are the ones that the core library computes, whichever others are in scope. -/
@[default_instance 20000]
instance (priority := high) powers {α : Type} [NatPow α] : Pow α Nat := instPowNat

variable (bits : Nat)

def wrap (n : Int) : Int := Int.bmod n (2 ^ bits)

def unsigned (n : Int) : Nat := (n % (2 ^ bits : Nat)).toNat

def land (a b : Int) : Int := (BitVec.ofInt bits a &&& BitVec.ofInt bits b).toInt

def lor (a b : Int) : Int := (BitVec.ofInt bits a ||| BitVec.ofInt bits b).toInt

def lxor (a b : Int) : Int := (BitVec.ofInt bits a ^^^ BitVec.ofInt bits b).toInt

def distance (n : Int) : Nat := unsigned (Nat.log2 bits) n

def shiftLeft (a : Int) (k : Nat) : Int := wrap bits (a * 2 ^ k)

def shiftRight (a : Int) (k : Nat) : Int := wrap bits (a >>> k)

def shiftRightZero (a : Int) (k : Nat) : Int := wrap bits ((unsigned bits a >>> k : Nat) : Int)

end ScriptCore.Word
