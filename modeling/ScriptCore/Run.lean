import ScriptCore.World

namespace ScriptCore

inductive Outcome (σ α : Type) where
  | done (a : α) (s : σ)
  | failed (e : Failure) (s : σ)
  | exhausted

def Comp (σ α : Type) : Type := σ → Outcome σ α

namespace Comp

variable {σ α β : Type}

@[inline] def pure (a : α) : Comp σ α := fun s => .done a s

@[inline] def bind (x : Comp σ α) (f : α → Comp σ β) : Comp σ β := fun s =>
  match x s with
  | .done a s' => f a s'
  | .failed e s' => .failed e s'
  | .exhausted => .exhausted

instance : Monad (Comp σ) where
  pure := Comp.pure
  bind := Comp.bind

instance : Inhabited (Comp σ α) := ⟨fun _ => .exhausted⟩

@[inline] def fail (e : Failure) : Comp σ α := fun s => .failed e s

@[inline] def exhausted : Comp σ α := fun _ => .exhausted

@[inline] def get : Comp σ σ := fun s => .done s s

@[inline] def modify (f : σ → σ) : Comp σ Unit := fun s => .done () (f s)

@[inline] def catching (x : Comp σ α) (handler : Failure → Comp σ α) : Comp σ α := fun s =>
  match x s with
  | .failed e s' => handler e s'
  | o => o

@[inline] def attempt (x : Comp σ α) : Comp σ (Except Failure α) := fun s =>
  match x s with
  | .done a s' => .done (.ok a) s'
  | .failed e s' => .done (.error e) s'
  | .exhausted => .exhausted

@[inline] def ensuring (x : Comp σ α) (last : Comp σ Unit) : Comp σ α := fun s =>
  match x s with
  | .done a s' => bind last (fun _ => pure a) s'
  | .failed e s' => bind last (fun _ => fail e) s'
  | .exhausted => .exhausted

inductive Leads (x : Comp σ α) (s s' : σ) : Prop
  | done (a : α) (h : x s = .done a s')
  | failed (e : Failure) (h : x s = .failed e s')

end Comp

abbrev Run : Type → Type := Comp World

namespace Run

@[inline] def modify (f : World → World) : Run Unit := Comp.modify f

@[inline] def attempt {α : Type} (x : Run α) : Run (Except Failure α) := Comp.attempt x

end Run

section Each

variable {m : Type → Type} [Monad m] {α β : Type}

def forEach (xs : List α) (f : α → m Unit) : m Unit :=
  match xs with
  | [] => pure ()
  | x :: rest => do
    f x
    forEach rest f

def collect (xs : List α) (f : α → m β) : m (List β) :=
  match xs with
  | [] => pure []
  | x :: rest => do
    let y ← f x
    let ys ← collect rest f
    pure (y :: ys)

def firstSome (xs : List α) (f : α → m (Option β)) : m (Option β) :=
  match xs with
  | [] => pure none
  | x :: rest => do
    match ← f x with
    | some y => pure (some y)
    | none => firstSome rest f

end Each

end ScriptCore
