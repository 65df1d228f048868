import ScriptCore.Host.CoreClass

namespace ScriptCore

inductive LibraryClass where
  | point | point3 | outer | inner | bean | greeter | labelled | base | settings | faulty | bag | ruler
  | countdown | codedError | metaClass | weird | noNew | runsInCtor | restrictedBridge | deep
  deriving DecidableEq, Repr, Inhabited

inductive Module where
  | hostlib | deep | builtins | abstract
  /-- The interpreter's own package. -/
  | package
  /-- A module of the interpreter's own package. -/
  | own (name : String)
  deriving DecidableEq, Repr, Inhabited

def Module.name : Module → String
  | hostlib => "hostlib"
  | deep => "hostlib.deep"
  | builtins => "builtins"
  | abstract => "abc"
  | package => "jive"
  | own name => name

def Module.isOwn : Module → Bool
  | package | own _ => true
  | _ => false

namespace LibraryClass

def words? : LibraryClass → Option String
  | bag => some "Sized, not a sequence, no `length` attribute."
  | ruler => some "Sized, with its own `length` attribute."
  | codedError => some "An exception that cannot be rebuilt from its `args`."
  | restrictedBridge => some "Hides every member whose name starts with `hidden`."
  | _ => none

def name : LibraryClass → String
  | point => "Point" | point3 => "Point3" | outer => "Outer" | inner => "Inner" | bean => "Bean"
  | greeter => "Greeter" | labelled => "Labelled" | base => "Base" | settings => "Settings"
  | faulty => "Faulty" | bag => "Bag" | ruler => "Ruler" | countdown => "Countdown"
  | codedError => "CodedError" | metaClass => "_Meta" | weird => "Weird" | noNew => "NoNew"
  | runsInCtor => "RunsInCtor" | restrictedBridge => "RestrictedBridge" | deep => "Deep"

def qualname : LibraryClass → String
  | inner => "Outer.Inner"
  | c => c.name

def home : LibraryClass → Module
  | deep => .deep
  | _ => .hostlib

def parent : LibraryClass → LibraryClass ⊕ CoreClass
  | point3 => .inl point
  | greeter | labelled => .inr .abstractBase
  | codedError => .inr .exception
  | metaClass => .inr .type
  | restrictedBridge => .inr .bridge
  | _ => .inr .object

def abstracts : LibraryClass → List String
  | greeter => ["greet"]
  | labelled => ["label"]
  | _ => []

def topLevel : List LibraryClass :=
  [point, point3, outer, bean, greeter, labelled, base, settings, faulty, bag, ruler, countdown, codedError, metaClass,
    weird, noNew, runsInCtor, restrictedBridge]

end LibraryClass

inductive LibraryFn where
  | pointInit | pointSum | pointScale | pointCount | pointMake | pointShow
  | point3Init | point3Show
  | innerShow | outerShow
  | beanInit | beanGetName | beanSetName | beanGetSize | beanSetSize | beanIsReady | beanGetBad | beanSetBad
  | beanShow
  | greeterGreet | greeterShout | labelledLabel
  | baseInit | baseLabel | baseShoutLabel | baseShow
  | settingsInit | settingsDescribe | settingsBoom | settingsShow
  | faultyInit | faultyFail | faultyIter | faultyShow
  | bagInit | bagLen | bagShow
  | rulerInit | rulerLen | rulerShow
  | countdownInit | countdownIter | countdownShow
  | codedErrorInit | weirdShow | noNewNew | runsInCtorInit | runsInCtorShow | deepShow
  | double | add | total | identity | hiddenFn | fail | callGreet | callShout | callRun | callMethod | coded | each
  deriving DecidableEq, Repr, Inhabited

/-- How a function takes its arguments: their names in order, how many of them must be given, and
whether any number may follow. -/
structure Signature where
  parameters : List String
  required : Nat
  variadic : Bool := false
  deriving Repr

namespace LibraryFn

def signature : LibraryFn → Signature
  | pointInit => ⟨["self", "x", "y"], 3, false⟩
  | pointScale => ⟨["self", "k", "offset"], 2, false⟩
  | pointCount => ⟨["self"], 1, true⟩
  | pointMake => ⟨["n"], 1, false⟩
  | point3Init => ⟨["self", "x", "y", "z"], 3, false⟩
  | beanSetName | beanSetSize | beanSetBad => ⟨["self", "value"], 2, false⟩
  | greeterGreet | greeterShout => ⟨["self", "who"], 2, false⟩
  | baseInit => ⟨["self", "label"], 2, false⟩
  | settingsDescribe => ⟨["self", "prefix"], 2, false⟩
  | faultyInit => ⟨["self", "mode"], 1, false⟩
  | faultyFail => ⟨["self", "message"], 2, false⟩
  | bagInit | rulerInit | countdownInit => ⟨["self", "n"], 2, false⟩
  | codedErrorInit => ⟨["self", "code", "text"], 3, false⟩
  | noNewNew => ⟨["cls"], 1, false⟩
  | runsInCtorInit => ⟨["self", "r"], 2, false⟩
  | double | identity => ⟨["v"], 1, false⟩
  | add => ⟨["a", "b"], 1, false⟩
  | total => ⟨[], 0, true⟩
  | hiddenFn => ⟨[], 0, false⟩
  | fail => ⟨["kind", "message"], 2, false⟩
  | callGreet | callShout => ⟨["g", "who"], 2, false⟩
  | callRun => ⟨["r"], 1, false⟩
  | callMethod => ⟨["obj", "name"], 2, true⟩
  | coded => ⟨["code", "text"], 2, false⟩
  | each => ⟨["obj", "n"], 2, false⟩
  | _ => ⟨["self"], 1, false⟩

def qualname : LibraryFn → String
  | pointInit => "Point.__init__" | pointSum => "Point.sum" | pointScale => "Point.scale"
  | pointCount => "Point.count" | pointMake => "Point.make" | pointShow => "Point.__repr__"
  | point3Init => "Point3.__init__" | point3Show => "Point3.__repr__"
  | innerShow => "Outer.Inner.__repr__" | outerShow => "Outer.__repr__"
  | beanInit => "Bean.__init__" | beanGetName => "Bean.getName" | beanSetName => "Bean.setName"
  | beanGetSize => "Bean.get_size" | beanSetSize => "Bean.set_size" | beanIsReady => "Bean.isReady"
  | beanGetBad => "Bean.getBad" | beanSetBad => "Bean.setBad" | beanShow => "Bean.__repr__"
  | greeterGreet => "Greeter.greet" | greeterShout => "Greeter.shout" | labelledLabel => "Labelled.label"
  | baseInit => "Base.__init__" | baseLabel => "Base.label" | baseShoutLabel => "Base.shout_label"
  | baseShow => "Base.__repr__"
  | settingsInit => "Settings.__init__" | settingsDescribe => "Settings.describe"
  | settingsBoom => "Settings.boom" | settingsShow => "Settings.__repr__"
  | faultyInit => "Faulty.__init__" | faultyFail => "Faulty.fail" | faultyIter => "Faulty.__iter__"
  | faultyShow => "Faulty.__repr__"
  | bagInit => "Bag.__init__" | bagLen => "Bag.__len__" | bagShow => "Bag.__repr__"
  | rulerInit => "Ruler.__init__" | rulerLen => "Ruler.__len__" | rulerShow => "Ruler.__repr__"
  | countdownInit => "Countdown.__init__" | countdownIter => "Countdown.__iter__"
  | countdownShow => "Countdown.__repr__"
  | codedErrorInit => "CodedError.__init__" | weirdShow => "Weird.__repr__" | noNewNew => "NoNew.__new__"
  | runsInCtorInit => "RunsInCtor.__init__" | runsInCtorShow => "RunsInCtor.__repr__"
  | deepShow => "Deep.__repr__"
  | double => "double" | add => "add" | total => "total" | identity => "identity" | hiddenFn => "hidden_fn"
  | fail => "fail" | callGreet => "call_greet" | callShout => "call_shout" | callRun => "call_run"
  | callMethod => "call_method" | coded => "coded" | each => "each"

def topLevel : List LibraryFn :=
  [double, add, total, identity, hiddenFn, fail, callGreet, callShout, callRun, callMethod, coded, each]

end LibraryFn

inductive HostProperty where
  | faultyBad | faultyReadonly | metaBroken
  | core (c : CoreClass) (name : String)
  deriving DecidableEq, Repr

/-- A callable function of the host side: one of the library, or one that was generated for a
scripted class or a proxy, by its number. -/
inductive HostFn where
  | library (f : LibraryFn)
  | generated (n : Nat)
  deriving DecidableEq, Repr, Inhabited

end ScriptCore
