import ScriptCore.Host.Hierarchy

namespace ScriptCore.World

/-- The distance of a loosely typed parameter; every typed match is nearer. -/
def looseDistance : Nat := 1000

def boxingDistance : Nat := 20

def proxyDistance : Nat := 50

variable (w : World)

def boxAssignable (p : PrimType) (t : Ty) : Bool :=
  match t with
  | .cls c =>
    if c = .core .object then true
    else if p = .boolean then decide (c = .core .bool)
    else if c = .core .bool then false
    else
      match p.boxClass? with
      | some b => w.isSubclass (.core b) c
      | none => false
  | _ => false

def unboxDistance (t : Ty) (p : PrimType) : Option Nat :=
  match t with
  | .cls c =>
    if c = .core .bool then (if p = .boolean then some boxingDistance else none)
    else if w.isSubclass c (.core .int) then
      if p = .int then some boxingDistance else (PrimType.int.widening? p).map (boxingDistance + ·)
    else if w.isSubclass c (.core .float) then (if p = .double then some boxingDistance else none)
    else none
  | _ => none

def classDistance (c d : ClassRef) : Option Nat :=
  if c = d then some 0
  else if d = .core .object then some (w.mro c).length
  else if !w.isSubclass c d then none
  else some ((w.mro c).idxOf d)

def referenceDistance (source target : Ty) : Option Nat :=
  if source = target then some 0
  else
    match source, target with
    | .cls c, .cls d => w.classDistance c d
    | _, _ => none

/-- How far a value of type `source` has to be widened to be assigned to `target`, or `none` if it
cannot be. An untyped source is null, an untyped target takes everything. -/
def distance (w : World) (source target : Ty) : Option Nat :=
  match target, source with
  | .untyped, _ => some looseDistance
  | .prim .void, _ => none
  | _, .prim .void => none
  | .prim _, .untyped => none
  | _, .untyped => some 1
  | .prim q, .prim p => if p = q then some 0 else p.widening? q
  | t, .prim p =>
    if w.boxAssignable p t then
      let inner :=
        match p.boxClass?, t with
        | some b, .cls c => w.classDistance (.core b) c
        | _, _ => none
      some (boxingDistance + inner.getD 0)
    else none
  | .prim q, s => w.unboxDistance s q
  | .array d, .array c =>
    match c, d with
    | .prim p, .prim q => if p = q then some 0 else none
    | .prim _, _ => none
    | _, .prim _ => none
    | c, d => w.distance c d
  | .cls d, .array _ => if d = .core .object then some 1 else w.classDistance (.core .array) d
  | _, .array _ => none
  | .array _, _ => none
  | t, s =>
    match w.referenceDistance s t with
    | some n => some n
    | none =>
      match s, t with
      | .cls (.core .closure), .cls c => if w.isInterface c then some proxyDistance else none
      | _, _ => none
termination_by structural target

def isAssignable (source target : Ty) : Bool := (w.distance source target).isSome

def signatureAssignable (sources targets : List Ty) : Bool :=
  sources.length == targets.length && (sources.zip targets).all fun e => w.isAssignable e.1 e.2

def totalDistance (w : World) : List Ty → List Ty → Option Nat
  | [], [] => some 0
  | a :: as, p :: ps =>
    match w.distance a p, w.totalDistance as ps with
    | some d, some n => some (d + n)
    | _, _ => none
  | _, _ => none

/-- Every parameter type of `a` can be assigned to that of `b`, and the two are not the same. -/
def moreSpecific (a b : List Ty) : Bool :=
  decide (a ≠ b) &&
    (a.zip b).all fun e => decide (e.2 = .untyped) || (decide (e.1 ≠ .untyped) && w.isAssignable e.1 e.2)

def scored (args : List Ty) (candidates : List (List Ty)) : List (Nat × Nat) :=
  (candidates.zipIdx).filterMap fun e => (w.totalDistance args e.1).map fun d => (d, e.2)

def nearest (l : List (Nat × Nat)) : List Nat :=
  match (l.map Prod.fst).min? with
  | none => []
  | some best => (l.filter fun e => e.1 == best).map Prod.snd

/-- The position of the best applicable signature, if there is one. Of several at the same distance,
the one that is more specific than all the others is taken; if none is, the call is ambiguous. -/
def mostSpecific (args : List Ty) (candidates : List (List Ty)) : Except Cause (Option Nat) :=
  let at' := fun i => candidates[i]?.getD []
  match nearest (w.scored args candidates) with
  | [] => .ok none
  | [i] => .ok (some i)
  | tied =>
    match tied.find? fun i => tied.all fun j => j == i || w.moreSpecific (at' i) (at' j) with
    | some i => .ok (some i)
    | none => .error (.ambiguousCall (tied.map fun i => (at' i).map w.typeName) (args.map w.typeName))

end ScriptCore.World
